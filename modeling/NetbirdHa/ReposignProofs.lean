import Mathlib.Algebra.Group.Int.Defs
import NetbirdHa.HmacSha256Proofs
import NetbirdHa.TableProofs

/-! # Signed updates

An update is accepted after four signatures and three lists have been checked.  Root
keys are built into the client; they sign a bundle of artifact keys and a list of
revoked key IDs, and an artifact key signs the artifact.  Everything else is downloaded.

What the standard library reads out of JSON and PEM is a parameter (`Codec`), and so are
`ed25519.Verify` and BLAKE2s (`Crypto`): nothing is assumed of them, except that a PEM
block takes up some of the text.  The clock is read anew by each of the three
validations.

`verify_only_if` says what has been checked when `Verify` accepts.  Any root key will do
for either list, so one root key for the bundle and another one for the revocation list
is accepted too (`two_roots_accepted`). -/

namespace Reposign

open List

/-- Go's `[]byte`. -/
abbrev Bytes := List UInt8

/-! ## Time -/

/-- Nanoseconds since the zero `Time`. -/
abbrev Time := Int

/-- `time.Second`, in nanoseconds. -/
def second : Int := 1000000000

/-- `Time.IsZero`. -/
def Time.isZero (t : Time) : Bool := decide (t = 0)

/-- `Time.After`. -/
def Time.after (t u : Time) : Bool := decide (u < t)

/-- `Sub`: durations are saturated. -/
def Time.sub (t u : Time) : Int := max (-2 ^ 63) (min (2 ^ 63 - 1) (t - u))

/-- `Abs` of a duration. -/
def durationAbs (d : Int) : Int := if 0 ≤ d then d else if d = -2 ^ 63 then 2 ^ 63 - 1 else -d

/-- `Unix`: seconds since 1970, rounded down. -/
def Time.unix (t : Time) : Int := t / second - 62135596800

/-- How far ahead of the clock a timestamp may lie. -/
def maxClockSkew : Int := 5 * 60 * second

/-- The greatest age of a signature, in all three validations. -/
def maxSignatureAge : Int := 10 * 365 * 24 * 3600 * second

/-- `binary.LittleEndian.AppendUint64` of a number taken modulo `2 ^ 64`. -/
def littleEndian (n : Int) : Bytes :=
  (List.range 8).map fun i => UInt8.ofNat ((n % 2 ^ 64).toNat / 256 ^ i % 256)

/-! ## Keys and signatures -/

/-- The eight bytes that name a key. -/
structure KeyID where
  bytes : Bytes
  length : bytes.length = 8
deriving DecidableEq

/-- The zero value of a key's name. -/
def KeyID.zero : KeyID := ⟨List.replicate 8 0, rfl⟩

/-- A key is named by the first eight bytes of its SHA-256. -/
def computeKeyID (pub : Bytes) : KeyID :=
  ⟨(HmacSha256.sha256 pub).take 8, by rw [length_take, HmacSha256.sha256_length]; rfl⟩

/-- The value of one hexadecimal digit. -/
def hexValue (c : Char) : Option Nat :=
  if '0' ≤ c ∧ c ≤ '9' then some (c.toNat - 48)
  else if 'a' ≤ c ∧ c ≤ 'f' then some (c.toNat - 87)
  else if 'A' ≤ c ∧ c ≤ 'F' then some (c.toNat - 55)
  else none

/-- `hex.DecodeString`. -/
def decodeHex : List Char → Option Bytes
  | [] => some []
  | [_] => none
  | a :: b :: rest =>
    (hexValue a).bind (fun x => (hexValue b).bind (fun y =>
      (decodeHex rest).map (fun bytes => UInt8.ofNat (16 * x + y) :: bytes)))

/-- Reads a key's name from its sixteen hexadecimal digits. -/
def parseKeyID (s : String) : Option KeyID :=
  if s.toList.length ≠ 16 then none
  else (decodeHex s.toList).bind (fun bytes =>
    if h : bytes.length = 8 then some ⟨bytes, h⟩ else none)

/-- `PublicKey`, as `parsePublicKey` makes it: of the right size and with its own ID. -/
structure PublicKey where
  key : Bytes
  id : KeyID
  createdAt : Time
  expiresAt : Time
  size : key.length = 32
  id_eq : id = computeKeyID key

/-- A signature with the time it was made at and the key that made it. -/
structure Signature where
  signature : Bytes
  timestamp : Time
  keyID : KeyID

/-- The revoked keys, each with the time of its revocation, and the list's own lifetime. -/
structure RevocationList where
  revoked : AList (fun _ : KeyID => Time)
  lastUpdated : Time
  expiresAt : Time

/-! ## What the libraries read -/

/-- One block of a PEM file. -/
structure PemBlock where
  type : String
  bytes : Bytes

/-- The members of the JSON objects.  An ID is a text that `ParseKeyID` reads; it stays the
    zero ID when the object has none. -/
structure SignatureFields where
  signature : Bytes
  timestamp : Time
  keyID : Option String

/-- The JSON fields of a revocation list, before its key names are read. -/
structure RevocationFields where
  revoked : Table.GoMap Time
  lastUpdated : Time
  expiresAt : Time

/-- The JSON fields of a public key, before its name is read. -/
structure PublicKeyFields where
  key : Bytes
  id : Option String
  createdAt : Time
  expiresAt : Time

/-- `json.Unmarshal` into the three types, and `pem.Decode`. -/
structure Codec where
  signature : Bytes → Option SignatureFields
  revocation : Bytes → Option RevocationFields
  publicKey : Bytes → Option PublicKeyFields
  pem : Bytes → Option (PemBlock × Bytes)
  pem_rest : ∀ data block rest, pem data = some (block, rest) → rest.length < data.length

/-- What the code asks of its cryptographic libraries. -/
structure Crypto where
  /-- `ed25519.Verify` of a key, a message and a signature. -/
  verify : Bytes → Bytes → Bytes → Bool
  blake2s : Bytes → Bytes

/-! ## Failures -/

/-- Where `Verify` gives up. -/
inductive Failure where
  | download (file : String)
  | unreadable (file : String)
  | badSignature
  | badRevocationList
  | missingTimestamp
  | futureSignature
  | oldSignature
  | futureList
  | expiredList
  | farExpiration
  | timestampMismatch
  | unverifiedList
  | unverifiedBundle
  | badBundle
  | noValidKeys
  | expiredKey
  | unverifiedArtifact
  | noSigningKey
deriving DecidableEq

/-- An error unless the check holds. -/
def require (ok : Bool) (failure : Failure) : Except Failure Unit :=
  if ok then .ok () else .error failure

/-- An absent value is the given failure. -/
def orFail {α : Type} (x : Option α) (failure : Failure) : Except Failure α :=
  match x with
  | some a => .ok a
  | none => .error failure

section

variable (codec : Codec) (crypto : Crypto)

/-! ## Parsing -/

/-- `UnmarshalJSON` of a `KeyID`. -/
def keyIDOf : Option String → Option KeyID
  | none => some KeyID.zero
  | some s => parseKeyID s

/-- `ParseSignature`. -/
def parseSignature (data : Bytes) : Except Failure Signature := do
  let fields ← orFail (codec.signature data) .badSignature
  let keyID ← orFail (keyIDOf fields.keyID) .badSignature
  return ⟨fields.signature, fields.timestamp, keyID⟩

/-- `UnmarshalJSON` of a revocation list: the map with its keys parsed. -/
def revokedOf (revoked : Table.GoMap Time) : Option (AList (fun _ : KeyID => Time)) :=
  revoked.entries.foldlM (fun m e => (parseKeyID e.1).map (m.insert · e.2)) ∅

/-- `ParseRevocationList`: a list with a zero time is refused. -/
def parseRevocationList (data : Bytes) : Except Failure RevocationList := do
  let fields ← orFail (codec.revocation data) .badRevocationList
  let revoked ← orFail (revokedOf fields.revoked) .badRevocationList
  require (!fields.lastUpdated.isZero) .missingTimestamp
  require (!fields.expiresAt.isZero) .missingTimestamp
  return ⟨revoked, fields.lastUpdated, fields.expiresAt⟩

/-- `parsePublicKey`: the key and the rest of the text. -/
def parsePublicKey (data : Bytes) (typeTag : String) : Option (PublicKey × Bytes) :=
  match codec.pem data with
  | none => none
  | some (block, rest) =>
    if block.type ≠ typeTag then none
    else
      match codec.publicKey block.bytes with
      | none => none
      | some pub =>
        if (keyIDOf pub.id).isNone then none
        else if h : pub.key.length = 32 then
          some (⟨pub.key, computeKeyID pub.key, pub.createdAt, pub.expiresAt, h, rfl⟩, rest)
        else none

/-- Reading a key uses up bytes, so the loop ends. -/
theorem parsePublicKey_rest
    (h : parsePublicKey codec data typeTag = some (key, rest)) : rest.length < data.length := by
  rw [parsePublicKey] at h
  cases hp : codec.pem data with
  | none => rw [hp] at h; cases h
  | some x =>
    obtain ⟨block, rest'⟩ := x
    rw [hp] at h
    have hl := codec.pem_rest data block rest' hp
    grind

/-- The loop of `parsePublicKeyBundle`. -/
def bundleKeys (bundle : Bytes) (typeTag : String) : Option (List PublicKey) :=
  if bundle = [] then some []
  else
    match _h : parsePublicKey codec bundle typeTag with
    | none => none
    | some (key, rest) => (bundleKeys rest typeTag).map (key :: ·)
termination_by bundle.length
decreasing_by exact parsePublicKey_rest codec _h

/-- `parsePublicKeyBundle`: a bundle without a key is refused. -/
def parsePublicKeyBundle (bundle : Bytes) (typeTag : String) : Except Failure (List PublicKey) := do
  let keys ← orFail (bundleKeys codec bundle typeTag) .badBundle
  require (!keys.isEmpty) .badBundle
  return keys

/-! ## Validation -/

/-- The PEM type of an artifact key. -/
def tagArtifactPublic : String := "ARTIFACT PUBLIC KEY"

section

variable (now : Time) (publicRootKeys : List PublicKey) (data : Bytes) (signature : Signature)
  (revocationList : Option RevocationList)

/-- Some root key made the signature. -/
def verifyAny (msg sig : Bytes) : Bool :=
  (publicRootKeys.map PublicKey.key).any (crypto.verify · msg sig)

/-- What a root key signs: the data and the time in seconds. -/
def stamped : Bytes :=
  data ++ littleEndian signature.timestamp.unix

/-- What an artifact key signs: the hash, the length and the time in seconds. -/
def artifactMessage : Bytes :=
  crypto.blake2s data ++ littleEndian data.length ++ littleEndian signature.timestamp.unix

/-- The time of a signature is neither in the future nor too long ago. -/
def checkTimestamp : Except Failure Unit := do
  require (!signature.timestamp.after (now + maxClockSkew)) .futureSignature
  require (!decide (maxSignatureAge < now.sub signature.timestamp)) .oldSignature

/-- `ValidateRevocationList`: its signature must be a root key's, and its times must be current. -/
def validateRevocationList : Except Failure RevocationList := do
  let revoList ← parseRevocationList codec data
  checkTimestamp now signature
  require (!revoList.lastUpdated.after (now + maxClockSkew)) .futureList
  require (!now.after revoList.expiresAt) .expiredList
  require (!revoList.expiresAt.after (now + maxSignatureAge)) .farExpiration
  require (!decide (maxClockSkew < durationAbs (signature.timestamp.sub revoList.lastUpdated)))
    .timestampMismatch
  require (verifyAny crypto publicRootKeys (stamped data signature) signature.signature)
    .unverifiedList
  return revoList

/-- The key has not expired at a time; a zero time means never. -/
def unexpired (key : PublicKey) (t : Time) : Bool := key.expiresAt.isZero || !t.after key.expiresAt

/-- The list has the ID; without a list no key is revoked. -/
def revoked (id : KeyID) : Bool :=
  (revocationList.bind (·.revoked.lookup id)).isSome

/-- The keys that `ValidateArtifactKeys` keeps. -/
def validKey (key : PublicKey) : Bool :=
  unexpired key now && !revoked revocationList key.id

/-- `ValidateArtifactKeys`: keeps the keys of the bundle that are neither revoked nor expired. -/
def validateArtifactKeys : Except Failure (List PublicKey) := do
  checkTimestamp now signature
  require (verifyAny crypto publicRootKeys (stamped data signature) signature.signature)
    .unverifiedBundle
  let pubKeys ← parsePublicKeyBundle codec data tagArtifactPublic
  let validKeys := pubKeys.filter (validKey now revocationList)
  require (!validKeys.isEmpty) .noValidKeys
  return validKeys

/-- `ValidateArtifact`: the signature is by the key it names, made before that key expired. -/
def validateArtifact (artifactPubKeys : List PublicKey) (data : Bytes) (signature : Signature) :
    Except Failure Unit := do
  checkTimestamp now signature
  let keyInfo ← orFail (artifactPubKeys.find? (·.id = signature.keyID)) .noSigningKey
  require (unexpired keyInfo signature.timestamp) .expiredKey
  require (crypto.verify keyInfo.key (artifactMessage crypto data signature) signature.signature)
    .unverifiedArtifact

end

/-! ## The verifier -/

/-- The file of the artifact keys. -/
def artifactPubKeysFileName : String := "artifact-key-pub.pem"
/-- The file of the signature over the artifact keys. -/
def artifactPubKeysSigFileName : String := "artifact-key-pub.pem.sig"
/-- The file of the revocation list. -/
def revocationFileName : String := "revocation-list.json"
/-- The file of the signature over the revocation list. -/
def revocationSignFileName : String := "revocation-list.json.sig"
/-- The most bytes read of a key bundle. -/
def keySizeLimit : Nat := 5 * 1024 * 1024
/-- The most bytes read of a signature. -/
def signatureLimit : Nat := 1024
/-- The most bytes read of a revocation list. -/
def revocationLimit : Nat := 10 * 1024 * 1024

/-- What is outside of the client: `DownloadToMemory` below the base URL with a limit, the
    file system with its `Base`, and the clock as the three validations read it. -/
structure World where
  download : List String → Nat → Option Bytes
  readFile : String → Option Bytes
  base : String → String
  nowRevocation : Time
  nowKeys : Time
  nowArtifact : Time

variable (world : World) (rootKeys : List PublicKey)

/-- A file and the signature next to it. -/
def loadSigned (path sigPath : List String) (limit : Nat) : Except Failure (Bytes × Signature) := do
  let data ← orFail (world.download path limit) (.download (path.getLastD ""))
  let sigData ← orFail (world.download sigPath signatureLimit) (.download (sigPath.getLastD ""))
  let signature ← parseSignature codec sigData
  return (data, signature)

/-- `loadRevocationList`: downloads the list and its signature and validates them. -/
def loadRevocationList : Except Failure RevocationList := do
  let (data, signature) ← loadSigned codec world ["keys", revocationFileName]
    ["keys", revocationSignFileName] revocationLimit
  validateRevocationList codec crypto world.nowRevocation rootKeys data signature

/-- `loadArtifactKeys`: downloads the bundle and its signature and validates them. -/
def loadArtifactKeys (revocationList : Option RevocationList) :
    Except Failure (List PublicKey) := do
  let (data, signature) ← loadSigned codec world ["keys", artifactPubKeysFileName]
    ["keys", artifactPubKeysSigFileName] keySizeLimit
  validateArtifactKeys codec crypto world.nowKeys rootKeys data signature revocationList

/-- `strings.TrimPrefix` of a leading `v`. -/
def trimVersion (version : String) : String :=
  match version.toList with
  | 'v' :: rest => String.ofList rest
  | _ => version

/-- Where the signature of an artifact is published. -/
def signaturePath (version artifactFile : String) : List String :=
  ["tag", "v" ++ version, world.base artifactFile ++ ".sig"]

/-- `loadArtifactSignature`: a release's signature has no signature of its own. -/
def loadArtifactSignature (version artifactFile : String) : Except Failure Signature := do
  let data ← orFail (world.download (signaturePath world version artifactFile) signatureLimit)
    (.download (world.base artifactFile ++ ".sig"))
  parseSignature codec data

/-- `ArtifactVerify.Verify`, from the version and the downloaded file to acceptance. -/
def verify (version artifactFile : String) : Except Failure Unit := do
  let version := trimVersion version
  let revocationList ← loadRevocationList codec crypto world rootKeys
  let artifactPubKeys ← loadArtifactKeys codec crypto world rootKeys (some revocationList)
  let signature ← loadArtifactSignature codec world version artifactFile
  let artifactData ← orFail (world.readFile artifactFile) (.unreadable artifactFile)
  validateArtifact crypto world.nowArtifact artifactPubKeys artifactData signature

end

/-! ## What each function accepts -/

/-- When a sequence succeeds. -/
theorem bind_eq_ok {f : α → Except Failure β} :
    (x >>= f) = .ok b ↔ ∃ a, x = .ok a ∧ f a = .ok b := by
  cases x with
  | error e => exact ⟨nofun, fun ⟨_, h, _⟩ => nomatch h⟩
  | ok a => exact ⟨fun h => ⟨a, rfl, h⟩, fun ⟨_, h, hf⟩ => Except.ok.inj h ▸ hf⟩

theorem require_eq_ok {failure : Failure} : require ok failure = .ok u ↔ ok := by
  cases ok with
  | true => exact ⟨fun _ => rfl, fun _ => rfl⟩
  | false => exact ⟨nofun, nofun⟩

theorem orFail_eq_ok {failure : Failure} : orFail x failure = .ok a ↔ x = some a := by
  cases x with
  | none => exact ⟨nofun, nofun⟩
  | some b =>
    exact ⟨fun h => congrArg some (Except.ok.inj h), fun h => congrArg _ (Option.some.inj h)⟩

/-- The time of a signature, seen from a time. -/
def Timely (now : Time) (signature : Signature) : Prop :=
  signature.timestamp ≤ now + maxClockSkew ∧ now.sub signature.timestamp ≤ maxSignatureAge

/-- A timestamp is accepted within the signature's age and the clock's skew. -/
theorem checkTimestamp_eq_ok {signature : Signature} {u : Unit} :
    checkTimestamp now signature = .ok u ↔ Timely now signature := by
  rw [checkTimestamp, Timely, Time.after]
  simp [bind_eq_ok, require_eq_ok]

section

variable {codec : Codec} {crypto : Crypto} {rootKeys : List PublicKey} {now : Time}
variable {data : Bytes} {signature : Signature}

/-- Some root key has signed the data with the time of the signature. -/
def SignedByRoot (crypto : Crypto) (rootKeys : List PublicKey) (data : Bytes)
    (signature : Signature) : Prop :=
  ∃ root ∈ rootKeys, crypto.verify root.key (stamped data signature) signature.signature

/-- Some root key signed the data with its timestamp. -/
theorem verifyAny_iff : verifyAny crypto rootKeys (stamped data signature) signature.signature ↔
    SignedByRoot crypto rootKeys data signature := by
  rw [verifyAny, any_map, any_eq_true]
  rfl

/-- The times of a revocation list, seen from a time and beside those of its signature. -/
structure Current (now : Time) (list : RevocationList) (signature : Signature) : Prop where
  updated : list.lastUpdated ≤ now + maxClockSkew
  fresh : now ≤ list.expiresAt
  window : list.expiresAt ≤ now + maxSignatureAge
  close : durationAbs (signature.timestamp.sub list.lastUpdated) ≤ maxClockSkew

/-- When a revocation list is accepted. -/
theorem validateRevocationList_eq_ok {list : RevocationList} :
    validateRevocationList codec crypto now rootKeys data signature = .ok list ↔
      parseRevocationList codec data = .ok list ∧ Timely now signature ∧
        Current now list signature ∧ SignedByRoot crypto rootKeys data signature := by
  rw [validateRevocationList]
  simp only [bind_eq_ok, require_eq_ok, checkTimestamp_eq_ok, exists_const, verifyAny_iff,
    Time.after, Bool.not_eq_true', decide_eq_false_iff_not, Int.not_lt]
  constructor
  · rintro ⟨list', hp, hti, hu, hf, hw, hcl, hs, hl⟩
    obtain rfl := Except.ok.inj hl
    exact ⟨hp, hti, ⟨hu, hf, hw, hcl⟩, hs⟩
  · rintro ⟨hp, hti, hc, hs⟩
    exact ⟨list, hp, hti, hc.updated, hc.fresh, hc.window, hc.close, hs, rfl⟩

/-- When a bundle is accepted, and which of its keys. -/
theorem validateArtifactKeys_eq_ok {keys : List PublicKey} :
    validateArtifactKeys codec crypto now rootKeys data signature revocationList = .ok keys ↔
      Timely now signature ∧ SignedByRoot crypto rootKeys data signature ∧
        ∃ bundle, parsePublicKeyBundle codec data tagArtifactPublic = .ok bundle ∧
          keys = bundle.filter (validKey now revocationList) ∧ keys ≠ [] := by
  rw [validateArtifactKeys]
  simp only [bind_eq_ok, require_eq_ok, checkTimestamp_eq_ok, exists_const, verifyAny_iff,
    Bool.not_eq_true', isEmpty_eq_false_iff]
  constructor
  · rintro ⟨hti, hs, bundle, hp, hn, hk⟩
    obtain rfl := Except.ok.inj hk
    exact ⟨hti, hs, bundle, hp, rfl, hn⟩
  · rintro ⟨hti, hs, bundle, hp, rfl, hn⟩
    exact ⟨hti, hs, bundle, hp, hn, rfl⟩

/-- When an artifact is accepted. -/
theorem validateArtifact_eq_ok {keys : List PublicKey} {u : Unit} :
    validateArtifact crypto now keys data signature = .ok u ↔
      Timely now signature ∧ ∃ key, keys.find? (·.id = signature.keyID) = some key ∧
        unexpired key signature.timestamp ∧
        crypto.verify key.key (artifactMessage crypto data signature) signature.signature := by
  rw [validateArtifact]
  simp [bind_eq_ok, require_eq_ok, checkTimestamp_eq_ok, orFail_eq_ok]

/-- A file that was downloaded, with the signature that was downloaded for it. -/
structure Fetched (codec : Codec) (world : World) (path sigPath : List String) (limit : Nat)
    (data : Bytes) (signature : Signature) : Prop where
  file : world.download path limit = some data
  sig : ∃ sigData, world.download sigPath signatureLimit = some sigData ∧
    parseSignature codec sigData = .ok signature

/-- What was loaded was downloaded. -/
theorem fetched_of_loadSigned {limit : Nat}
    (h : loadSigned codec world path sigPath limit = .ok (data, signature)) :
    Fetched codec world path sigPath limit data signature := by
  rw [loadSigned] at h
  simp only [bind_eq_ok, orFail_eq_ok] at h
  obtain ⟨data', hf, sigData, hd, sig, hs, hp⟩ := h
  obtain ⟨rfl, rfl⟩ := Prod.mk.inj (Except.ok.inj hp)
  exact ⟨hf, sigData, hd, hs⟩

/-! ## What `Verify` accepts -/

/-- Everything that stands behind an accepted artifact. -/
structure Evidence (codec : Codec) (crypto : Crypto) (world : World) (rootKeys : List PublicKey)
    (version artifactFile : String) where
  listData : Bytes
  listSignature : Signature
  list : RevocationList
  bundleData : Bytes
  bundleSignature : Signature
  bundle : List PublicKey
  artifact : Bytes
  signature : Signature
  key : PublicKey
  /-- The revocation list: the file, what it says and its signature by a root key. -/
  list_fetched : Fetched codec world ["keys", revocationFileName] ["keys", revocationSignFileName]
    revocationLimit listData listSignature
  list_parsed : parseRevocationList codec listData = .ok list
  list_signed : SignedByRoot crypto rootKeys listData listSignature
  /-- The bundle: the file, its keys and its signature by a root key. -/
  bundle_fetched : Fetched codec world ["keys", artifactPubKeysFileName]
    ["keys", artifactPubKeysSigFileName] keySizeLimit bundleData bundleSignature
  bundle_parsed : parsePublicKeyBundle codec bundleData tagArtifactPublic = .ok bundle
  bundle_signed : SignedByRoot crypto rootKeys bundleData bundleSignature
  /-- The artifact and its signature. -/
  artifact_read : world.readFile artifactFile = some artifact
  signature_read : ∃ sigData, world.download
    (signaturePath world (trimVersion version) artifactFile) signatureLimit = some sigData ∧
      parseSignature codec sigData = .ok signature
  /-- The key that signed the artifact. -/
  key_mem : key ∈ bundle
  key_id : key.id = signature.keyID
  not_revoked : list.revoked.lookup key.id = none
  unexpired_now : key.expiresAt = 0 ∨ world.nowKeys ≤ key.expiresAt
  unexpired_then : key.expiresAt = 0 ∨ signature.timestamp ≤ key.expiresAt
  verified : crypto.verify key.key (artifactMessage crypto artifact signature)
    signature.signature = true

/-- A zero time never expires. -/
theorem unexpired_iff : unexpired key t ↔ key.expiresAt = 0 ∨ t ≤ key.expiresAt := by
  grind [unexpired, Time.isZero, Time.after]

/-- A key is valid that has not expired and is not on the list. -/
theorem validKey_iff : validKey now (some list) key ↔
    (key.expiresAt = 0 ∨ now ≤ key.expiresAt) ∧ list.revoked.lookup key.id = none := by
  rw [validKey, Bool.and_eq_true, unexpired_iff, revoked, Option.bind_some, Bool.not_eq_true',
    Option.isSome_eq_false_iff, Option.isNone_iff_eq_none]

/-- `Verify` accepts an artifact only with all of the evidence: the revocation list and the
    bundle are each signed by a root key, and the artifact by a key of the bundle that is
    neither revoked nor expired, now or when it signed. -/
theorem verify_only_if (codec : Codec) (crypto : Crypto) (world : World)
    (rootKeys : List PublicKey) (version artifactFile : String)
    (h : verify codec crypto world rootKeys version artifactFile = .ok ()) :
    Nonempty (Evidence codec crypto world rootKeys version artifactFile) := by
  rw [verify] at h
  simp only [bind_eq_ok, orFail_eq_ok] at h
  obtain ⟨list, hl, keys, hk, signature, hsg, artifact, hre, hva⟩ := h
  obtain ⟨⟨listData, listSignature⟩, hfe, hl⟩ := bind_eq_ok.mp hl
  obtain ⟨hp, -, -, hsi⟩ := validateRevocationList_eq_ok.mp hl
  obtain ⟨⟨bundleData, bundleSignature⟩, hf, hk⟩ := bind_eq_ok.mp hk
  obtain ⟨-, hs, bundle, hb, rfl, -⟩ := validateArtifactKeys_eq_ok.mp hk
  obtain ⟨sigData, hd, hsg⟩ := bind_eq_ok.mp hsg
  obtain ⟨-, key, hfi, hth, hv⟩ := validateArtifact_eq_ok.mp hva
  obtain ⟨hm, hke⟩ := mem_filter.mp (mem_of_find?_eq_some hfi)
  obtain ⟨hn, hr⟩ := validKey_iff.mp hke
  have hi := List.find?_some hfi
  exact ⟨{
    listData, listSignature, list, bundleData, bundleSignature, bundle, artifact, signature, key
    list_fetched := fetched_of_loadSigned hfe
    list_parsed := hp
    list_signed := hsi
    bundle_fetched := fetched_of_loadSigned hf
    bundle_parsed := hb
    bundle_signed := hs
    artifact_read := hre
    signature_read := ⟨sigData, orFail_eq_ok.mp hd, hsg⟩
    key_mem := hm
    key_id := of_decide_eq_true hi
    not_revoked := hr
    unexpired_now := hn
    unexpired_then := unexpired_iff.mp hth
    verified := hv }⟩

end

/-! ## Two root keys -/

/-- A key made of one byte. -/
def keyOf (b : UInt8) : PublicKey :=
  ⟨List.replicate 32 b, computeKeyID (List.replicate 32 b), 0, 0, rfl, rfl⟩

/-- One-byte files: the bundle is `1`, the revocation list is `2` and `3`, `4` and `5` are the
    signatures of the list, the bundle and the artifact. -/
def oneByte : Codec where
  signature
    | [3] => some ⟨[3], 1000, none⟩
    | [4] => some ⟨[4], 1000, none⟩
    | [5] => some ⟨[5], 1000, some "8c0cc17a04942cc4"⟩
    | _ => none
  revocation
    | [2] => some ⟨∅, 1000, 2000⟩
    | _ => none
  publicKey
    | [9] => some ⟨List.replicate 32 9, none, 0, 0⟩
    | _ => none
  pem
    | [1] => some (⟨tagArtifactPublic, [9]⟩, [])
    | _ => none
  pem_rest := by
    intro data block rest h
    split at h
    · obtain ⟨-, rfl⟩ := Prod.mk.inj (Option.some.inj h)
      exact Nat.zero_lt_one
    · cases h

/-- The key of byte `1` signs the list, that of byte `2` the bundle, that of byte `9` the
    artifact. -/
def oneSigns : Crypto where
  verify k _ sig :=
    decide ((k, sig) ∈ [(List.replicate 32 (1 : UInt8), [(3 : UInt8)]), (List.replicate 32 2, [4]),
      (List.replicate 32 9, [5])])
  blake2s _ := []

/-- A server that publishes one file of each kind. -/
def oneWorld : World where
  download path _ :=
    if path = ["keys", revocationFileName] then some [2]
    else if path = ["keys", revocationSignFileName] then some [3]
    else if path = ["keys", artifactPubKeysFileName] then some [1]
    else if path = ["keys", artifactPubKeysSigFileName] then some [4]
    else some [5]
  readFile _ := some [0]
  base file := file
  nowRevocation := 1000
  nowKeys := 1000
  nowArtifact := 1000

theorem parsePublicKeyBundle_oneByte :
    parsePublicKeyBundle oneByte [1] tagArtifactPublic = .ok [keyOf 9] := by
  have hnil : bundleKeys oneByte [] tagArtifactPublic = some [] := by rw [bundleKeys, if_pos rfl]
  have ho : parsePublicKey oneByte [1] tagArtifactPublic = some (keyOf 9, []) := rfl
  have hk : bundleKeys oneByte [1] tagArtifactPublic = some [keyOf 9] := by
    rw [bundleKeys]
    grind
  rw [parsePublicKeyBundle, hk]
  rfl

/-- Signatures of the moment are timely. -/
theorem timely_oneWorld (sig : Bytes) (id : KeyID) : Timely 1000 ⟨sig, 1000, id⟩ :=
  ⟨(by decide : (1000 : Int) ≤ 1000 + maxClockSkew),
    (by decide : Time.sub 1000 1000 ≤ maxSignatureAge)⟩

theorem parseSignature_artifact : parseSignature oneByte [5] = .ok ⟨[5], 1000, (keyOf 9).id⟩ := by
  have hi : keyIDOf (some "8c0cc17a04942cc4") = some (keyOf 9).id := by decide +kernel
  rw [parseSignature]
  simp only [bind_eq_ok, orFail_eq_ok]
  exact ⟨⟨[5], 1000, some "8c0cc17a04942cc4"⟩, rfl, (keyOf 9).id, hi, rfl⟩

/-- Accepted, with the list signed by one root key and the bundle by another one. -/
theorem verify_oneWorld :
    verify oneByte oneSigns oneWorld [keyOf 1, keyOf 2] "v1" "netbird" = .ok () := by
  rw [verify]
  simp only [bind_eq_ok, orFail_eq_ok]
  refine ⟨⟨∅, 1000, 2000⟩, ?list, [keyOf 9], ?keys, ⟨[5], 1000, (keyOf 9).id⟩, ?sig, [0], rfl,
    ?valid⟩
  case list =>
    refine bind_eq_ok.mpr ⟨([2], ⟨[3], 1000, KeyID.zero⟩), rfl, ?_⟩
    refine validateRevocationList_eq_ok.mpr ⟨rfl, timely_oneWorld [3] KeyID.zero, ?_, ?_⟩
    · exact ⟨by decide, by decide, by decide, by decide⟩
    · exact ⟨keyOf 1, mem_cons_self, by decide⟩
  case keys =>
    refine bind_eq_ok.mpr ⟨([1], ⟨[4], 1000, KeyID.zero⟩), rfl, ?_⟩
    refine validateArtifactKeys_eq_ok.mpr ⟨timely_oneWorld [4] KeyID.zero, ?_, [keyOf 9], ?_⟩
    · exact ⟨keyOf 2, mem_cons_of_mem _ mem_cons_self, by decide⟩
    · exact ⟨parsePublicKeyBundle_oneByte, rfl, cons_ne_nil _ _⟩
  case sig => exact bind_eq_ok.mpr ⟨[5], rfl, parseSignature_artifact⟩
  case valid =>
    refine validateArtifact_eq_ok.mpr ⟨timely_oneWorld [5] (keyOf 9).id, keyOf 9, ?_, rfl,
      by decide⟩
    exact List.find?_cons_of_pos (decide_eq_true (Eq.refl (keyOf 9).id))

theorem verify_only_if_oneWorld :
    Nonempty (Evidence oneByte oneSigns oneWorld [keyOf 1, keyOf 2] "v1" "netbird") :=
  verify_only_if oneByte oneSigns oneWorld [keyOf 1, keyOf 2] "v1" "netbird" verify_oneWorld

/-- No root key has signed both the list and the bundle of the artifact accepted there. -/
theorem two_roots_accepted :
    verify oneByte oneSigns oneWorld [keyOf 1, keyOf 2] "v1" "netbird" = .ok () ∧
    oneWorld.download ["keys", revocationFileName] revocationLimit = some [2] ∧
    parseSignature oneByte [3] = .ok ⟨[3], 1000, KeyID.zero⟩ ∧
    oneWorld.download ["keys", artifactPubKeysFileName] keySizeLimit = some [1] ∧
    parseSignature oneByte [4] = .ok ⟨[4], 1000, KeyID.zero⟩ ∧
    ∀ root ∈ [keyOf 1, keyOf 2],
      ¬ (oneSigns.verify root.key (stamped [2] ⟨[3], 1000, KeyID.zero⟩) [3] ∧
        oneSigns.verify root.key (stamped [1] ⟨[4], 1000, KeyID.zero⟩) [4]) := by
  refine ⟨verify_oneWorld, rfl, rfl, rfl, rfl, ?_⟩
  intro root hr
  rcases mem_cons.mp hr with rfl | hr
  · decide
  · rcases mem_singleton.mp hr with rfl
    decide

end Reposign
