import NetbirdHa.GoJsonProofs
import NetbirdHa.HmacSha256Proofs

/-! # Envelopes between signal instances

A signal instance hands a message for a peer of another instance to that
instance's Redis channel, inside a `signalEnvelope`.  The receiving side
decodes the payload, verifies the envelope and forwards the message to the
peer, when it is registered there.

Go strings are byte lists, as in `GoJson`.  What happens on the stream after
the registry lookup (send, timeout, metrics) is outside this file: a message
is forwarded when it is handed to the stream of a registered peer. -/

namespace SignalEnvelope

open GoJson HmacSha256

/-- `proto.EncryptedMessage`. -/
structure EncryptedMessage where
  key : Bytes := []
  remoteKey : Bytes := []
  body : Bytes := []
deriving DecidableEq

/-- `signalEnvelope`; a nil `Message` is `none`. -/
structure Envelope where
  fromInstance : Bytes := []
  toPeer : Bytes := []
  message : Option EncryptedMessage := none
  signature : Bytes := []
deriving DecidableEq

/-! ## `json.Unmarshal` into an envelope

Every member either fills a field, in the order of the text, or is skipped;
a value of the wrong kind makes the whole call fail. -/

/-- A `string` field: `null` leaves it. -/
def decodeString (old : Bytes) : Json → Option Bytes
  | .null => some old
  | .string s => some s
  | _ => none

/-- The value of a number literal that fits in a byte (`strconv.ParseUint`). -/
def decodeUint8 (text : Bytes) : Option UInt8 :=
  let n := text.foldl (fun n b => n * 10 + (b.toNat - 0x30)) 0
  if text.all isDigit && n < 256 then some (UInt8.ofNat n) else none

/-- The elements of a `[]byte` written as an array: `null` leaves an element. -/
def decodeElems : Bytes → List Json → Option Bytes
  | _, [] => some []
  | old, .null :: vs => (decodeElems (old.drop 1) vs).map (old.headD 0 :: ·)
  | old, .number t :: vs => do
      let b ← decodeUint8 t
      let bs ← decodeElems (old.drop 1) vs
      return b :: bs
  | _, _ :: _ => none

/-- A `[]byte` field: base64 text, or an array of numbers. -/
def decodeBytes (old : Bytes) : Json → Option Bytes
  | .null => some []
  | .string s => base64Decode s
  | .array vs => decodeElems old vs
  | _ => none

/-- One member of a message. -/
def decodeMessageMember (m : EncryptedMessage) (kv : Bytes × Json) : Option EncryptedMessage :=
  if foldName kv.1 = ascii "KEY" then
    (decodeString m.key kv.2).map fun s => { m with key := s }
  else if foldName kv.1 = ascii "REMOTEKEY" then
    (decodeString m.remoteKey kv.2).map fun s => { m with remoteKey := s }
  else if foldName kv.1 = ascii "BODY" then
    (decodeBytes m.body kv.2).map fun s => { m with body := s }
  else some m

/-- The `*proto.EncryptedMessage` field: an object is decoded into the message
    that is already there. -/
def decodeMessage (old : Option EncryptedMessage) : Json → Option (Option EncryptedMessage)
  | .null => some none
  | .object kvs => (kvs.foldlM decodeMessageMember (old.getD {})).map some
  | _ => none

/-- One member of an envelope. -/
def decodeMember (e : Envelope) (kv : Bytes × Json) : Option Envelope :=
  if foldName kv.1 = ascii "FROM_INSTANCE" then
    (decodeString e.fromInstance kv.2).map fun s => { e with fromInstance := s }
  else if foldName kv.1 = ascii "TO_PEER" then
    (decodeString e.toPeer kv.2).map fun s => { e with toPeer := s }
  else if foldName kv.1 = ascii "MESSAGE" then
    (decodeMessage e.message kv.2).map fun m => { e with message := m }
  else if foldName kv.1 = ascii "SIGNATURE" then
    (decodeString e.signature kv.2).map fun s => { e with signature := s }
  else some e

/-- `json.Unmarshal` into a zero envelope; `none` is an error. -/
def unmarshal (payload : Bytes) : Option Envelope :=
  match parse payload with
  | some .null => some {}
  | some (.object kvs) => kvs.foldlM decodeMember {}
  | _ => none

/-! ## `json.Marshal` of an envelope -/

/-- A member that `omitempty` leaves out when its value is empty. -/
def omitEmpty (name : String) (value : Bytes) (text : Bytes) : List Bytes :=
  if value = [] then [] else [member name text]

/-- The JSON text of a message. -/
def marshalMessage (m : EncryptedMessage) : Bytes :=
  object (omitEmpty "key" m.key (quote m.key)
    ++ omitEmpty "remoteKey" m.remoteKey (quote m.remoteKey)
    ++ omitEmpty "body" m.body (0x22 :: base64Encode m.body ++ [0x22]))

/-- `json.Marshal`; strings and byte slices always have a text, so there is no error. -/
def marshal (e : Envelope) : Bytes :=
  object ([member "from_instance" (quote e.fromInstance), member "to_peer" (quote e.toPeer),
      member "message" ((e.message.map marshalMessage).getD (ascii "null"))]
    ++ omitEmpty "signature" e.signature (quote e.signature))

/-! ## The server -/

/-- What the listener reads of a `Server`: the configured secret, and which
    peers are in the local registry. -/
structure Server where
  secret : Bytes
  registered : Bytes → Bool

/-- A run-time panic. -/
inductive GoPanic where
  | nilDereference
deriving DecidableEq

/-- The tag of an envelope: the hexadecimal HMAC-SHA256 of its JSON text. -/
def tag (secret : Bytes) (e : Envelope) : Bytes := hexEncode (hmac secret (marshal e))

/-- `signEnvelope`: without a secret nothing is signed. -/
def signEnvelope (s : Server) (e : Envelope) : Envelope :=
  if s.secret = [] then e else { e with signature := tag s.secret e }

/-- `verifyEnvelope`: without a secret or a signature all is accepted. -/
def verifyEnvelope (s : Server) (e : Envelope) : Bool :=
  if s.secret = [] ∨ e.signature = [] then true
  else e.signature = tag s.secret { e with signature := [] }

/-- A message handed to the stream of a registered peer. -/
structure Delivery where
  peer : Bytes
  message : EncryptedMessage
deriving DecidableEq

/-- `forwardMessageToPeer`: the registry lookup reads the message first. -/
def forwardMessageToPeer (s : Server) (msg : Option EncryptedMessage) :
    Except GoPanic (Option Delivery) :=
  match msg with
  | none => .error .nilDereference
  | some m => .ok (if s.registered m.remoteKey then some ⟨m.remoteKey, m⟩ else none)

/-- One turn of `haMessageListener`: decode, verify, forward. -/
def handlePayload (s : Server) (payload : Bytes) : Except GoPanic (Option Delivery) :=
  match unmarshal payload with
  | none => .ok none
  | some e => if verifyEnvelope s e then forwardMessageToPeer s e.message else .ok none

/-! ## Who gets a message forwarded -/

/-- The envelope carries the tag of itself with its signature left empty. -/
def Authentic (s : Server) (e : Envelope) : Prop :=
  e.signature = tag s.secret { e with signature := [] }
deriving Decidable

/-- The payload decodes to an envelope without a signature, whose message is for
    a registered peer. -/
def UnsignedFor (s : Server) (payload : Bytes) : Prop :=
  ∃ e m, unmarshal payload = some e ∧ e.signature = [] ∧ e.message = some m ∧
    s.registered m.remoteKey

/-- What a message forwarded for `payload` has to come from. -/
def ForwardsAuthentic (s : Server) (payload : Bytes) : Prop :=
  ∀ d, handlePayload s payload = .ok (some d) →
    ∃ e, unmarshal payload = some e ∧ e.message = some d.message ∧ Authentic s e

/-- A tag is never empty, so an envelope without a signature is not authentic. -/
theorem Authentic.signature_ne_nil (h : Authentic s e) : e.signature ≠ [] := by
  rw [h]
  exact hexEncode_hmac_ne_nil _ _

/-- What a server with a secret signs is authentic. -/
theorem authentic_signEnvelope (hs : s.secret ≠ [])
    (he : e.signature = []) : Authentic s (signEnvelope s e) := by
  have hsa : { e with signature := [] } = e := by rw [← he]
  rw [signEnvelope, if_neg hs]
  exact congrArg (tag s.secret) hsa.symm

/-- With a secret, an envelope is accepted when it is authentic or unsigned. -/
theorem verifyEnvelope_eq_true (hs : s.secret ≠ []) (e : Envelope) :
    verifyEnvelope s e ↔ e.signature = [] ∨ Authentic s e := by
  unfold verifyEnvelope Authentic
  by_cases he : e.signature = []
  · simp [he]
  · simp [hs, he]

theorem forwardMessageToPeer_eq_ok : forwardMessageToPeer s msg = .ok (some d) ↔
    msg = some d.message ∧ d.peer = d.message.remoteKey ∧ s.registered d.message.remoteKey := by
  cases msg with
  | none => simp [forwardMessageToPeer]
  | some m =>
    obtain ⟨p, m'⟩ := d
    grind [forwardMessageToPeer]

/-- One turn forwards exactly what an accepted envelope holds for a registered peer. -/
theorem handlePayload_eq_ok : handlePayload s payload = .ok (some d) ↔
    ∃ e, unmarshal payload = some e ∧ verifyEnvelope s e ∧
      e.message = some d.message ∧ d.peer = d.message.remoteKey ∧
      s.registered d.message.remoteKey := by
  grind [handlePayload, forwardMessageToPeer_eq_ok]

/-- **Forwarding is authenticated exactly where no unsigned envelope reaches a registered peer.** -/
theorem forwards_authentic_iff (s : Server) (hs : s.secret ≠ []) (payload : Bytes) :
    ForwardsAuthentic s payload ↔ ¬ UnsignedFor s payload := by
  constructor
  · rintro hf ⟨e, m, hu, hsi, hm, hr⟩
    -- the unsigned envelope is accepted, so its message is forwarded
    have hv : verifyEnvelope s e := (verifyEnvelope_eq_true hs e).mpr (.inl hsi)
    obtain ⟨e', hu', -, ha⟩ := hf ⟨m.remoteKey, m⟩
      (handlePayload_eq_ok.mpr ⟨e, hu, hv, hm, rfl, hr⟩)
    obtain rfl : e = e' := Option.some.inj (hu.symm.trans hu')
    exact ha.signature_ne_nil hsi
  · intro hun d hd
    obtain ⟨e, hu, hv, hm, -, hr⟩ := handlePayload_eq_ok.mp hd
    rcases (verifyEnvelope_eq_true hs e).mp hv with hsi | ha
    · exact absurd ⟨e, d.message, hu, hsi, hm, hr⟩ hun
    · exact ⟨e, hu, hm, ha⟩

/-- A server with a secret and one registered peer. -/
def sampleServer : Server where
  secret := ascii "s"
  registered := fun k => k = ascii "p"

/-- An envelope for that peer. -/
def sampleEnvelope : Envelope where
  fromInstance := ascii "signal-1"
  toPeer := ascii "p"
  message := some { key := ascii "q", remoteKey := ascii "p", body := ascii "hi" }

/-- A signed envelope is forwarded, and is authentic. -/
theorem forwards_authentic_signed :
    handlePayload sampleServer (marshal (signEnvelope sampleServer sampleEnvelope)) =
        .ok (some ⟨ascii "p", { key := ascii "q", remoteKey := ascii "p", body := ascii "hi" }⟩) ∧
      ForwardsAuthentic sampleServer (marshal (signEnvelope sampleServer sampleEnvelope)) := by
  have hu : unmarshal (marshal (signEnvelope sampleServer sampleEnvelope)) =
      some (signEnvelope sampleServer sampleEnvelope) := by decide +kernel
  have hs : sampleServer.secret ≠ [] := by decide +kernel
  have ha : Authentic sampleServer (signEnvelope sampleServer sampleEnvelope) :=
    authentic_signEnvelope hs rfl
  refine ⟨handlePayload_eq_ok.mpr ⟨_, hu, (verifyEnvelope_eq_true hs _).mpr (.inr ha),
    by rw [signEnvelope]; rfl, rfl, by decide +kernel⟩,
    (forwards_authentic_iff _ hs _).mpr ?_⟩
  rintro ⟨e, m, hu', hsi, -⟩
  obtain rfl : signEnvelope sampleServer sampleEnvelope = e := Option.some.inj (hu.symm.trans hu')
  exact ha.signature_ne_nil hsi

/-- **The defect.**  A payload without a signature is forwarded although a secret is configured. -/
theorem forwards_unsigned :
    sampleServer.secret ≠ [] ∧
    handlePayload sampleServer (ascii "\x7b\"message\":\x7b\"remoteKey\":\"p\"\x7d\x7d") =
        .ok (some ⟨ascii "p", { remoteKey := ascii "p" }⟩) ∧
      ¬ ForwardsAuthentic sampleServer
        (ascii "\x7b\"message\":\x7b\"remoteKey\":\"p\"\x7d\x7d") := by
  have hu : unmarshal (ascii "\x7b\"message\":\x7b\"remoteKey\":\"p\"\x7d\x7d") =
      some { message := some { remoteKey := ascii "p" } } := by decide +kernel
  have hd : handlePayload sampleServer
      (ascii "\x7b\"message\":\x7b\"remoteKey\":\"p\"\x7d\x7d") =
      .ok (some ⟨ascii "p", { remoteKey := ascii "p" }⟩) :=
    handlePayload_eq_ok.mpr ⟨_, hu, rfl, rfl, rfl, by decide +kernel⟩
  refine ⟨by decide +kernel, hd, fun hf => ?_⟩
  obtain ⟨e, hu', -, ha⟩ := hf _ hd
  obtain rfl : { message := some { remoteKey := ascii "p" } } = e :=
    Option.some.inj (hu.symm.trans hu')
  exact ha.signature_ne_nil rfl

/-! ## Envelopes without a message -/

/-- The listener drops the payload or forwards the message of its envelope. -/
def Handled (s : Server) (payload : Bytes) : Prop :=
  ∃ o, handlePayload s payload = .ok o ∧
    ∀ d, o = some d → ∃ e, unmarshal payload = some e ∧ e.message = some d.message

/-- **A payload is handled exactly if no accepted envelope lacks its message.** -/
theorem handled_iff (s : Server) (payload : Bytes) :
    Handled s payload ↔
      ∀ e, unmarshal payload = some e → verifyEnvelope s e → e.message ≠ none := by
  constructor
  · rintro ⟨o, ho, -⟩ e hu hv hm
    -- the lookup dereferences the message
    rw [handlePayload, hu] at ho
    simp [hv, hm, forwardMessageToPeer] at ho
  · intro h
    have hok : ∃ o, handlePayload s payload = .ok o := by
      rw [handlePayload]
      split
      · exact ⟨none, rfl⟩
      · next e hu =>
        split
        · next hv =>
          obtain ⟨m, hm⟩ := Option.ne_none_iff_exists'.mp (h e hu hv)
          rw [hm]
          exact ⟨_, rfl⟩
        · exact ⟨none, rfl⟩
    obtain ⟨o, ho⟩ := hok
    refine ⟨o, ho, ?_⟩
    rintro d rfl
    obtain ⟨e, hu, -, hm, -⟩ := handlePayload_eq_ok.mp ho
    exact ⟨e, hu, hm⟩

/-- **The defect.**  An empty object is accepted, and its message dereferenced. -/
theorem empty_object_panics :
    handlePayload sampleServer (ascii "\x7b\x7d") = .error .nilDereference ∧
      ¬ Handled sampleServer (ascii "\x7b\x7d") := by
  have hp : handlePayload sampleServer (ascii "\x7b\x7d") = .error .nilDereference := by
    decide +kernel
  refine ⟨hp, ?_⟩
  rintro ⟨o, ho, -⟩
  cases hp.symm.trans ho

/-! ## Sending

`hash` is the Redis registry, by the peer that a field is for; Redis commands succeed. -/

/-- What becomes of a message, or an error of `Send`. -/
inductive Sent where
  | handed (d : Delivery)
  | published (instanceID payload : Bytes)
  | dropped
  | failed
deriving DecidableEq

/-- `lookupPeerInstance`: a field that is missing or empty is asked for until the deadline. -/
def lookupPeerInstance (hash : Bytes → Option Bytes) (peer : Bytes) : Option Bytes :=
  (hash peer).filter (· ≠ [])

/-- `Send`, on an instance with that ID if HA is enabled.  The dispatcher is outside this
    repository: `dispatch` is what it does with a message. -/
def send (s : Server) (dispatch : EncryptedMessage → Sent) (ha : Option Bytes)
    (hash : Bytes → Option Bytes) (msg : EncryptedMessage) : Sent :=
  let forwarded := match forwardMessageToPeer s (some msg) with
    | .ok (some d) => .handed d
    | _ => .dropped
  match ha with
  | none => if s.registered msg.remoteKey then forwarded else dispatch msg
  | some own =>
    match lookupPeerInstance hash msg.remoteKey with
    | none => dispatch msg
    | some inst =>
      if inst = own then if s.registered msg.remoteKey then forwarded else .dropped
      else .published inst (marshal (signEnvelope s
        { fromInstance := own, toPeer := msg.remoteKey, message := some msg }))

/-- The dispatcher delivers to the peers that listen here. -/
def DeliversLocally (s : Server) (dispatch : EncryptedMessage → Sent) : Prop :=
  ∀ m, s.registered m.remoteKey → dispatch m = .handed ⟨m.remoteKey, m⟩

/-- The registry names another instance. -/
def NamesOther (ha : Option Bytes) (hash : Bytes → Option Bytes) (peer : Bytes) : Prop :=
  ∃ own ∈ ha, ∃ inst ∈ lookupPeerInstance hash peer, inst ≠ own

/-- **A message for a peer that is registered here** is handed to its stream or refused,
    exactly if the registry does not name another instance. -/
theorem send_handed_iff (s : Server) (dispatch : EncryptedMessage → Sent)
    (hdispatch : DeliversLocally s dispatch) (ha : Option Bytes) (hash : Bytes → Option Bytes)
    (msg : EncryptedMessage) (hr : s.registered msg.remoteKey) :
    (send s dispatch ha hash msg = .handed ⟨msg.remoteKey, msg⟩ ∨
        send s dispatch ha hash msg = .failed) ↔ ¬ NamesOther ha hash msg.remoteKey := by
  cases ha with
  | none => simp [send, forwardMessageToPeer, hr, NamesOther]
  | some own =>
    cases hl : lookupPeerInstance hash msg.remoteKey with
    | none => simp [send, hdispatch msg hr, hl, NamesOther]
    | some inst =>
      by_cases ho : inst = own
      · simp [send, forwardMessageToPeer, hr, hl, ho, NamesOther]
      · simp [send, hl, ho, NamesOther]

/-- A dispatcher that reports success for every message. -/
def eager (m : EncryptedMessage) : Sent := .handed ⟨m.remoteKey, m⟩

/-- Without an entry the dispatcher delivers. -/
theorem send_handed_unlisted :
    send sampleServer eager (some (ascii "a")) (fun _ => none) { remoteKey := ascii "p" } =
        .handed ⟨ascii "p", { remoteKey := ascii "p" }⟩ ∨
      send sampleServer eager (some (ascii "a")) (fun _ => none) { remoteKey := ascii "p" } =
        .failed :=
  (send_handed_iff sampleServer eager (fun _ _ => rfl) (some (ascii "a")) (fun _ => none)
    { remoteKey := ascii "p" } (by decide +kernel)).mpr (by rintro ⟨-, -, -, ⟨⟩, -⟩)

/-- **The defect.**  A stale entry sends the message away from the stream. -/
theorem send_published_elsewhere :
    sampleServer.registered (ascii "p") ∧
      ∃ payload, send sampleServer eager (some (ascii "a")) (fun _ => some (ascii "b"))
        { remoteKey := ascii "p" } = .published (ascii "b") payload :=
  ⟨by decide +kernel, _, rfl⟩

end SignalEnvelope
