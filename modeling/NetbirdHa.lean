import NetbirdHa.SignalRegistryProofs
import NetbirdHa.SignalEnvelopeProofs
import NetbirdHa.ListedSourceProofs
import NetbirdHa.PostureProofs
import NetbirdHa.RedisLockProofs
import NetbirdHa.LoginFilterRedisProofs
import NetbirdHa.BufferUpdateProofs
import NetbirdHa.SyncStreamProofs
import NetbirdHa.OneTimeTokenProofs
import NetbirdHa.RelayNotifyProofs
import NetbirdHa.RelayMessageProofs
import NetbirdHa.TrustedProxyProofs
import NetbirdHa.LocalIPProofs
import NetbirdHa.TcpTrackerProofs
import NetbirdHa.AclProofs
import NetbirdHa.BuilderRouteRuleProofs
import NetbirdHa.EphemeralProofs
import NetbirdHa.ProxyRequestProofs
import NetbirdHa.IpSetProofs
import NetbirdHa.DnsCallbackProofs
import NetbirdHa.CrowdSecProofs
import NetbirdHa.ReposignProofs
import NetbirdHa.RelayRemovalProofs
import NetbirdHa.VpnRouteProofs
import NetbirdHa.SshAuthProofs
import NetbirdHa.PeerDeleteProofs
import NetbirdHa.SetupKeyProofs
import NetbirdHa.GroupLinkProofs
import NetbirdHa.LocalRotationProofs
import NetbirdHa.MgmtCacheProofs
import NetbirdHa.LocalContextProofs
import NetbirdHa.RouteSelectorProofs
import NetbirdHa.RouteWatcherProofs
import NetbirdHa.ExtraDomainProofs
import NetbirdHa.PcpProofs
import NetbirdHa.ServiceNotifyProofs
import NetbirdHa.DomainRouteProofs
import NetbirdHa.ServicePortProofs
import NetbirdHa.EarlyMsgProofs
import NetbirdHa.DnatPortProofs
import NetbirdHa.RelayManagerProofs
import NetbirdHa.PeerIPProofs
import NetbirdHa.MergeProofs
import NetbirdHa.FakeIPProofs
