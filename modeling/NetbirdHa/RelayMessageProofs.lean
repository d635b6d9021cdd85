import NetbirdHa.GoSliceProofs

/-! # Messages of the relay protocol

A message is a buffer: the protocol version, the type of the message, and the
fields at fixed offsets.  Clients send `Hello` or its successor `Auth`, the relay
answers with `HelloResponse` or `AuthResponse`, and `Transport` messages carry
the traffic: the relay replaces the ID of the receiver by that of the sender in
place.

Errors are the texts of the source's errors. -/

namespace RelayMessage

open GoSlice List

/-- The largest handshake message. -/
def maxHandshakeSize : Nat := 212
/-- The largest answer to a handshake. -/
def maxHandshakeRespSize : Nat := 8192
/-- The largest message of any type. -/
def maxMessageSize : Nat := 8820

/-- The version byte every message starts with. -/
def currentProtocolVersion : UInt8 := 1
/-- The type byte of the old handshake. -/
def msgTypeHello : UInt8 := 1
/-- The type byte of the answer to the old handshake. -/
def msgTypeHelloResponse : UInt8 := 2
/-- The type byte of a relayed payload. -/
def msgTypeTransport : UInt8 := 3
/-- The type byte of the handshake. -/
def msgTypeAuth : UInt8 := 6
/-- The type byte of the answer to the handshake. -/
def msgTypeAuthResponse : UInt8 := 7

/-- A peer is named by a short tag and a SHA-256. -/
def peerIDSize : Nat := 36

/-- The version byte and the type byte. -/
def sizeOfProtoHeader : Nat := 2
/-- The size of `magicHeader`. -/
def sizeOfMagicByte : Nat := 4
/-- What an `Auth` message has before its payload, past the two leading bytes. -/
def headerSizeAuth : Nat := sizeOfMagicByte + peerIDSize
/-- Where the magic bytes start. -/
def offsetMagicByte : Nat := sizeOfProtoHeader
/-- Where the peer of an `Auth` message starts. -/
def offsetAuthPeerID : Nat := sizeOfProtoHeader + sizeOfMagicByte
/-- Where the payload of an `Auth` message starts. -/
def headerTotalSizeAuth : Nat := sizeOfProtoHeader + headerSizeAuth
/-- What a `Hello` message has before its additions, past the two leading bytes. -/
def headerSizeHello : Nat := sizeOfMagicByte + peerIDSize
/-- An answer to `Hello` has no header of its own. -/
def headerSizeHelloResp : Nat := 0
/-- A transport message names one peer. -/
def headerSizeTransport : Nat := peerIDSize
/-- Where the peer of a transport message starts. -/
def offsetTransportID : Nat := sizeOfProtoHeader
/-- Where the payload of a transport message starts. -/
def headerTotalSizeTransport : Nat := sizeOfProtoHeader + headerSizeTransport

/-- The text of `ErrInvalidMessageLength`. -/
def errInvalidMessageLength : String := "invalid message length"

/-- The bytes that mark a handshake. -/
def magicHeader : List UInt8 := [0x21, 0x12, 0xA4, 0x42]

/-- `[peerIDSize]byte`. -/
structure PeerID where
  bytes : List UInt8
  size : bytes.length = peerIDSize
deriving DecidableEq

/-- The ID in a slice: `copy` into an array of zeros. -/
def PeerID.ofSlice (b : List UInt8) : PeerID where
  bytes := (b ++ List.replicate peerIDSize 0).take peerIDSize
  size := by simp [peerIDSize]

/-- A buffer of `n` bytes with the protocol header set. -/
def newMsg (n : Nat) (msgType : UInt8) : List UInt8 :=
  ((List.replicate n 0).set 0 currentProtocolVersion).set 1 msgType

/-! ## Marshalling -/

/-- `MarshalHelloMsg`. -/
def marshalHelloMsg (peerID : PeerID) (additions : List UInt8) : Except String (List UInt8) :=
  let msg := newMsg (sizeOfProtoHeader + sizeOfMagicByte) msgTypeHello
  let msg := copyAt msg sizeOfProtoHeader magicHeader
  .ok (msg ++ peerID.bytes ++ additions)

/-- `MarshalHelloResponse`. -/
def marshalHelloResponse (additionalData : List UInt8) : Except String (List UInt8) :=
  .ok (newMsg sizeOfProtoHeader msgTypeHelloResponse ++ additionalData)

/-- `MarshalAuthMsg`, which refuses a payload past the handshake's size. -/
def marshalAuthMsg (peerID : PeerID) (authPayload : List UInt8) : Except String (List UInt8) :=
  if headerTotalSizeAuth + authPayload.length > maxHandshakeSize then
    .error "too large auth payload"
  else
    let msg := newMsg (headerTotalSizeAuth + authPayload.length) msgTypeAuth
    let msg := copyAt msg sizeOfProtoHeader magicHeader
    let msg := copyAt msg offsetAuthPeerID peerID.bytes
    .ok (copyAt msg headerTotalSizeAuth authPayload)

/-- `MarshalAuthResponse`, which refuses an address past the answer's size. -/
def marshalAuthResponse (address : List UInt8) : Except String (List UInt8) :=
  let msg := newMsg sizeOfProtoHeader msgTypeAuthResponse ++ address
  if msg.length > maxHandshakeRespSize then .error s!"invalid message length: {msg.length}"
  else .ok msg

/-- The source leaves the size of the payload unchecked. -/
def marshalTransportMsg (peerID : PeerID) (payload : List UInt8) : Except String (List UInt8) :=
  let msg := newMsg (headerTotalSizeTransport + payload.length) msgTypeTransport
  let msg := copyAt msg sizeOfProtoHeader peerID.bytes
  .ok (copyAt msg (sizeOfProtoHeader + peerIDSize) payload)

/-! ## Unmarshalling -/

section

variable (msg : List UInt8)

/-- `UnmarshalHelloMsg`. -/
def unmarshalHelloMsg : Except String (PeerID × List UInt8) :=
  if msg.length < sizeOfProtoHeader + headerSizeHello then .error errInvalidMessageLength
  else if slice msg sizeOfProtoHeader (sizeOfProtoHeader + sizeOfMagicByte) ≠ magicHeader then
    .error "invalid magic header"
  else
    .ok (.ofSlice (slice msg (sizeOfProtoHeader + sizeOfMagicByte)
      (sizeOfProtoHeader + headerSizeHello)), msg.drop headerSizeHello)

/-- `UnmarshalHelloResponse`. -/
def unmarshalHelloResponse : Except String (List UInt8) :=
  if msg.length < sizeOfProtoHeader + headerSizeHelloResp then .error errInvalidMessageLength
  else .ok msg

/-- `UnmarshalAuthMsg`. -/
def unmarshalAuthMsg : Except String (PeerID × List UInt8) :=
  if msg.length < headerTotalSizeAuth then .error errInvalidMessageLength
  else if slice msg offsetMagicByte (offsetMagicByte + sizeOfMagicByte) ≠ magicHeader then
    .error "invalid magic header"
  else
    .ok (.ofSlice (slice msg offsetAuthPeerID headerTotalSizeAuth), msg.drop headerTotalSizeAuth)

/-- `UnmarshalAuthResponse`: the address has at least one byte. -/
def unmarshalAuthResponse : Except String (List UInt8) :=
  if msg.length < sizeOfProtoHeader + 1 then .error errInvalidMessageLength
  else .ok (msg.drop sizeOfProtoHeader)

/-- `UnmarshalTransportMsg`. -/
def unmarshalTransportMsg (buf : List UInt8) : Except String (PeerID × List UInt8) :=
  if buf.length < headerTotalSizeTransport then .error errInvalidMessageLength
  else
    .ok (.ofSlice (slice buf offsetTransportID (offsetTransportID + peerIDSize)),
      buf.drop headerTotalSizeTransport)

/-- The buffer afterwards. -/
def updateTransportMsg (peerID : PeerID) : Except String (List UInt8) :=
  if msg.length < offsetTransportID + peerIDSize then .error errInvalidMessageLength
  else .ok (copyAt msg offsetTransportID peerID.bytes)

end

/-! ## Messages -/

/-- The messages that carry fields, and their fields.  An address is a Go string: any bytes. -/
inductive Message where
  | hello (peerID : PeerID) (additions : List UInt8)
  | helloResponse (additionalData : List UInt8)
  | auth (peerID : PeerID) (authPayload : List UInt8)
  | authResponse (address : List UInt8)
  | transport (peerID : PeerID) (payload : List UInt8)
deriving DecidableEq

/-- Each message by its own marshaller. -/
def Message.marshal : Message → Except String (List UInt8)
  | .hello peerID additions => marshalHelloMsg peerID additions
  | .helloResponse additionalData => marshalHelloResponse additionalData
  | .auth peerID authPayload => marshalAuthMsg peerID authPayload
  | .authResponse address => marshalAuthResponse address
  | .transport peerID payload => marshalTransportMsg peerID payload

/-- Unmarshalling a message of the type of `m`. -/
def Message.unmarshalAs (m : Message) (msg : List UInt8) : Except String Message :=
  match m with
  | .hello _ _ => (unmarshalHelloMsg msg).map fun r => .hello r.1 r.2
  | .helloResponse _ => (unmarshalHelloResponse msg).map .helloResponse
  | .auth _ _ => (unmarshalAuthMsg msg).map fun r => .auth r.1 r.2
  | .authResponse _ => (unmarshalAuthResponse msg).map .authResponse
  | .transport _ _ => (unmarshalTransportMsg msg).map fun r => .transport r.1 r.2

/-- The message fits the buffer that receives it. -/
def Message.WithinLimit : Message → Prop
  | .hello _ additions => sizeOfProtoHeader + headerSizeHello + additions.length ≤ maxHandshakeSize
  | .helloResponse additionalData =>
    sizeOfProtoHeader + headerSizeHelloResp + additionalData.length ≤ maxHandshakeRespSize
  | .auth _ authPayload => headerTotalSizeAuth + authPayload.length ≤ maxHandshakeSize
  | .authResponse address => sizeOfProtoHeader + address.length ≤ maxHandshakeRespSize
  | .transport _ payload => headerTotalSizeTransport + payload.length ≤ maxMessageSize

instance : (m : Message) → Decidable m.WithinLimit
  | .hello _ _ | .helloResponse _ | .auth _ _ | .authResponse _ | .transport _ _ =>
    inferInstanceAs (Decidable (_ ≤ _))

/-- The message can be marshalled, and unmarshalling gives back its fields; for a
    transport message also after its ID is replaced. -/
def Message.RoundTrips (m : Message) : Prop :=
  ∃ msg, m.marshal = .ok msg ∧ m.unmarshalAs msg = .ok m ∧ match m with
    | .transport _ payload => ∀ peerID, ∃ msg', updateTransportMsg msg peerID = .ok msg' ∧
        unmarshalTransportMsg msg' = .ok (peerID, payload)
    | _ => True

/-- The messages whose fields survive. -/
def Message.Intact : Message → Prop
  | .auth _ _ | .transport _ _ => True
  | .authResponse address => address ≠ []
  | .hello _ _ | .helloResponse _ => False

/-! ## What the messages look like -/

section

variable {peerID : PeerID} {payload : List UInt8}

/-- A peer is read back from its bytes. -/
theorem PeerID.ofSlice_bytes (peerID : PeerID) : PeerID.ofSlice peerID.bytes = peerID := by
  obtain ⟨bytes, size⟩ := peerID
  have hta : (bytes ++ List.replicate peerIDSize (0 : UInt8)).take peerIDSize = bytes := by
    rw [← size, take_left]
  simp only [PeerID.ofSlice, hta]

theorem newMsg_add (n : Nat) (msgType : UInt8) : newMsg (sizeOfProtoHeader + n) msgType =
    [currentProtocolVersion, msgType] ++ List.replicate n 0 := by
  rw [newMsg, Nat.add_comm]
  rfl

/-- A message with an authentication header: `Hello` and `Auth`. -/
abbrev authenticated (v t : UInt8) (peerID : PeerID) (payload : List UInt8) : List UInt8 :=
  [v, t] ++ (magicHeader ++ (peerID.bytes ++ payload))

/-- The bytes of a `Hello` message. -/
theorem marshalHelloMsg_eq : marshalHelloMsg peerID payload =
    .ok (authenticated currentProtocolVersion msgTypeHello peerID payload) := by
  have hh : copyAt (newMsg (sizeOfProtoHeader + sizeOfMagicByte) msgTypeHello) sizeOfProtoHeader
      magicHeader = [currentProtocolVersion, msgTypeHello] ++ magicHeader := by decide
  rw [marshalHelloMsg, hh, append_assoc, append_assoc]

/-- The bytes of an `Auth` message within the limit. -/
theorem marshalAuthMsg_eq (h : headerTotalSizeAuth + payload.length ≤ maxHandshakeSize) :
    marshalAuthMsg peerID payload =
      .ok (authenticated currentProtocolVersion msgTypeAuth peerID payload) := by
  have hi := peerID.size
  have hz : headerTotalSizeAuth + payload.length =
      sizeOfProtoHeader + (sizeOfMagicByte + peerIDSize + payload.length) :=
    Nat.add_assoc _ _ _
  have hm : magicHeader.length = sizeOfMagicByte := rfl
  have ho : ∀ t : UInt8, sizeOfProtoHeader = [currentProtocolVersion, t].length := fun _ => rfl
  have ho' : ∀ t, offsetAuthPeerID = ([currentProtocolVersion, t] ++ magicHeader).length :=
    fun _ => rfl
  rw [marshalAuthMsg, if_neg (Nat.not_lt.mpr h), hz, newMsg_add]
  dsimp only
  -- each field is copied over the zeros that are left
  rw [copyAt_replicate (ho _) (by omega), copyAt_replicate (ho' _) (by omega),
    copyAt_replicate (by rw [length_append, hi]; rfl) (by omega)]
  simp [hi, hm, show ∀ a b c : Nat, a + b + c - a - b - c = 0 by omega]

/-- The bytes of an answer within the limit. -/
theorem marshalAuthResponse_eq (h : sizeOfProtoHeader + payload.length ≤ maxHandshakeRespSize) :
    marshalAuthResponse payload =
      .ok ([currentProtocolVersion, msgTypeAuthResponse] ++ payload) := by
  have hl : ¬ (newMsg sizeOfProtoHeader msgTypeAuthResponse ++ payload).length >
      maxHandshakeRespSize := by
    rw [length_append]
    exact Nat.not_lt.mpr h
  rw [marshalAuthResponse, if_neg hl]
  rfl

/-- The bytes of a transport message. -/
theorem marshalTransportMsg_eq : marshalTransportMsg peerID payload =
    .ok ([currentProtocolVersion, msgTypeTransport] ++ (peerID.bytes ++ payload)) := by
  have hi := peerID.size
  have hz : headerTotalSizeTransport + payload.length =
      sizeOfProtoHeader + (peerIDSize + payload.length) :=
    Nat.add_assoc _ _ _
  have ho : ∀ t : UInt8, sizeOfProtoHeader = [currentProtocolVersion, t].length := fun _ => rfl
  rw [marshalTransportMsg, hz, newMsg_add, copyAt_replicate (ho _) (by omega),
    copyAt_replicate (by rw [length_append, hi]; rfl) (by omega)]
  simp [hi]

end

/-! ## What unmarshalling takes from them -/

section

variable {peerID : PeerID} {payload : List UInt8} {v t : UInt8}

/-- A handshake is long enough to be read. -/
theorem authenticated_length : ¬ (authenticated v t peerID payload).length <
    headerTotalSizeAuth := by
  simp only [length_append, peerID.size]
  show ¬ 2 + (4 + (36 + payload.length)) < 2 + (4 + 36)
  omega

/-- A handshake has the magic bytes in their place. -/
theorem slice_magicHeader : slice (authenticated v t peerID payload)
    sizeOfProtoHeader (sizeOfProtoHeader + sizeOfMagicByte) = magicHeader :=
  slice_append rfl rfl

/-- A handshake has its peer in its place. -/
theorem slice_peerID : slice (authenticated v t peerID payload)
    offsetAuthPeerID headerTotalSizeAuth = peerID.bytes := by
  rw [authenticated, ← append_assoc]
  refine slice_append rfl ?_
  rw [peerID.size]
  rfl

/-- Two bytes too many: the offset of the additions leaves out the protocol header. -/
theorem unmarshalHelloMsg_eq : unmarshalHelloMsg (authenticated v t peerID payload) =
    .ok (peerID, peerID.bytes.drop (peerIDSize - 2) ++ payload) := by
  have hl : ¬ (authenticated v t peerID payload).length <
      sizeOfProtoHeader + headerSizeHello := authenticated_length
  have hr : (authenticated v t peerID payload).drop headerSizeHello =
      peerID.bytes.drop (peerIDSize - 2) ++ payload := by
    rw [← drop_append_of_le_length (by rw [peerID.size]; decide)]
    rfl
  have hi : slice (authenticated v t peerID payload)
      (sizeOfProtoHeader + sizeOfMagicByte) (sizeOfProtoHeader + headerSizeHello) =
      peerID.bytes := slice_peerID
  rw [unmarshalHelloMsg, if_neg hl, if_neg (not_not.mpr slice_magicHeader), hi, hr,
    PeerID.ofSlice_bytes]

/-- A handshake is read back. -/
theorem unmarshalAuthMsg_eq :
    unmarshalAuthMsg (authenticated v t peerID payload) = .ok (peerID, payload) := by
  have hr : (authenticated v t peerID payload).drop headerTotalSizeAuth = payload := by
    rw [authenticated, ← append_assoc, ← append_assoc]
    refine drop_left' ?_
    rw [length_append, peerID.size]
    rfl
  have hm : slice (authenticated v t peerID payload) offsetMagicByte
      (offsetMagicByte + sizeOfMagicByte) = magicHeader := slice_magicHeader
  rw [unmarshalAuthMsg, if_neg authenticated_length, if_neg (not_not.mpr hm), slice_peerID, hr,
    PeerID.ofSlice_bytes]

/-- A transport message is long enough to be read. -/
theorem transport_length :
    ¬ ([v, t] ++ (peerID.bytes ++ payload)).length < headerTotalSizeTransport := by
  simp only [length_append, peerID.size]
  show ¬ 2 + (36 + payload.length) < 2 + 36
  omega

/-- A transport message is read back. -/
theorem unmarshalTransportMsg_eq :
    unmarshalTransportMsg ([v, t] ++ (peerID.bytes ++ payload)) = .ok (peerID, payload) := by
  have hi : slice ([v, t] ++ (peerID.bytes ++ payload)) offsetTransportID
      (offsetTransportID + peerIDSize) = peerID.bytes :=
    slice_append rfl (by rw [peerID.size]; rfl)
  have hr : ([v, t] ++ (peerID.bytes ++ payload)).drop headerTotalSizeTransport = payload := by
    rw [← append_assoc]
    refine drop_left' ?_
    rw [length_append, peerID.size]
    rfl
  rw [unmarshalTransportMsg, if_neg transport_length, hi, hr, PeerID.ofSlice_bytes]

/-- Replacing the peer leaves the payload. -/
theorem updateTransportMsg_eq (newID : PeerID) :
    updateTransportMsg ([v, t] ++ (peerID.bytes ++ payload)) newID =
      .ok ([v, t] ++ (newID.bytes ++ payload)) := by
  have hl : ¬ ([v, t] ++ (peerID.bytes ++ payload)).length <
      offsetTransportID + peerIDSize := transport_length
  have hc : copyAt ([v, t] ++ (peerID.bytes ++ payload)) offsetTransportID newID.bytes =
      [v, t] ++ (newID.bytes ++ payload) :=
    copyAt_append rfl (newID.size.trans peerID.size.symm)
  rw [updateTransportMsg, if_neg hl, hc]

end

/-! ## Round trips -/

/-- The handshake round-trips. -/
theorem roundTrips_auth
    (h : (Message.auth peerID payload).WithinLimit) : (Message.auth peerID payload).RoundTrips := by
  refine ⟨_, marshalAuthMsg_eq h, ?_, trivial⟩
  rw [Message.unmarshalAs, unmarshalAuthMsg_eq]
  rfl

/-- A transport message round-trips. -/
theorem roundTrips_transport (peerID : PeerID) (payload : List UInt8) :
    (Message.transport peerID payload).RoundTrips := by
  refine ⟨_, marshalTransportMsg_eq, ?_, fun newID => ⟨_, updateTransportMsg_eq newID, ?_⟩⟩
  · rw [Message.unmarshalAs, unmarshalTransportMsg_eq]
    rfl
  · exact unmarshalTransportMsg_eq

/-- An answer round-trips unless its address is empty. -/
theorem roundTrips_authResponse (h : (Message.authResponse address).WithinLimit) :
    (Message.authResponse address).RoundTrips ↔ address ≠ [] := by
  constructor
  · rintro ⟨msg, hm, hu, -⟩ rfl
    cases hm.symm.trans (marshalAuthResponse_eq h)
    cases hu
  · intro hn
    refine ⟨_, marshalAuthResponse_eq h, ?_, trivial⟩
    cases address with
    | nil => exact absurd rfl hn
    | cons b bs => rfl

/-- The additions of the old handshake are read with the last two bytes of the peer before them. -/
theorem not_roundTrips_hello (peerID : PeerID) (additions : List UInt8) :
    ¬ (Message.hello peerID additions).RoundTrips := by
  rintro ⟨msg, hm, hu, -⟩
  cases hm.symm.trans marshalHelloMsg_eq
  rw [Message.unmarshalAs, unmarshalHelloMsg_eq] at hu
  -- the additions come back longer by two
  have hl := congrArg List.length (Message.hello.inj (Except.ok.inj hu)).2
  rw [length_append, length_drop, peerID.size] at hl
  simp only [peerIDSize] at hl
  omega

/-- The old answer is read with its two leading bytes. -/
theorem not_roundTrips_helloResponse (additionalData : List UInt8) :
    ¬ (Message.helloResponse additionalData).RoundTrips := by
  rintro ⟨msg, hm, hu, -⟩
  cases hm
  have hl : additionalData.length + 1 + 1 = additionalData.length :=
    congrArg List.length (Message.helloResponse.inj (Except.ok.inj hu))
  omega

/-- **Which messages survive a round trip**: `Auth`, `Transport` and an `AuthResponse` with an
    address. -/
theorem roundTrips_iff_intact (m : Message) (h : m.WithinLimit) : m.RoundTrips ↔ m.Intact := by
  cases m with
  | hello peerID additions => exact iff_of_false (not_roundTrips_hello peerID additions) id
  | helloResponse data => exact iff_of_false (not_roundTrips_helloResponse data) id
  | auth peerID payload => exact iff_of_true (roundTrips_auth h) trivial
  | authResponse address => exact roundTrips_authResponse h
  | transport peerID payload => exact iff_of_true (roundTrips_transport peerID payload) trivial

/-- An ID for the examples: 36 times the same byte. -/
def PeerID.repeated (b : UInt8) : PeerID := ⟨List.replicate peerIDSize b, length_replicate⟩

/-- The traffic of one peer to another. -/
theorem roundTrips_payload : (Message.transport (.repeated 7) [1, 2, 3]).RoundTrips :=
  (roundTrips_iff_intact (.transport (.repeated 7) [1, 2, 3]) (by decide)).mpr trivial

/-- The additions of a `Hello` message come back with the end of the ID in front. -/
theorem hello_additions_garbled :
    (Message.hello (.repeated 7) [1, 2, 3]).WithinLimit ∧
      (marshalHelloMsg (.repeated 7) [1, 2, 3]).bind unmarshalHelloMsg =
        .ok (.repeated 7, [7, 7, 1, 2, 3]) ∧
      ¬ (Message.hello (.repeated 7) [1, 2, 3]).RoundTrips :=
  ⟨by decide, by decide, not_roundTrips_hello _ _⟩

end RelayMessage
