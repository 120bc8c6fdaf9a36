import Commutil.Io.StreamProgress

/-!
# Message Headers and Messages

`msg_header.h`, `msg_header.cpp`, `msg.h` and `msg.cpp`: the 40-byte header, its
two decoders (field by field from a stream, and as a memory image followed by
`fromNetOrder`), messages, and the allocation of a message from a header.

Sizes are computed in `uint32_t` as the code does.  A message buffer that is too
small for what is written into it is a heap overflow.
-/

namespace Commutil.Framing

open Commutil.Io Commutil.Library

/-! ## §1 Headers -/

/-- `COMMUTIL_MSG_MAGIC`, the bytes `COMUMESG`. -/
def COMMUTIL_MSG_MAGIC : List UInt8 := [0x43, 0x4F, 0x4D, 0x55, 0x4D, 0x45, 0x53, 0x47]

/-- `COMMUTIL_MSG_MAGIC_SIZE`. -/
def COMMUTIL_MSG_MAGIC_SIZE : Nat := 8

/-- `sizeof(MsgHeader)`, which is also `sizeof(Msg)`. -/
def sizeofMsgHeader : Nat := 40

/-- `class MsgHeader`; `m_magic` is the `char` array of eight bytes. -/
structure MsgHeader where
  m_magic : List UInt8
  m_length : UInt32
  m_msgId : UInt16
  m_flags : UInt16
  m_requestId : UInt64
  m_requestIndex : UInt32
  m_uncompressedLength : UInt32
  m_batchSize : UInt32
  m_reserved : UInt32
  deriving DecidableEq, Repr

/-- `ntohs`. -/
def ntohs (v : UInt16) : UInt16 := UInt16.ofNat (byteSwap 2 v.toNat)

/-- `ntohl`. -/
def ntohl (v : UInt32) : UInt32 := UInt32.ofNat (byteSwap 4 v.toNat)

/-- `ntohll`. -/
def ntohll (v : UInt64) : UInt64 := UInt64.ofNat (byteSwap 8 v.toNat)

namespace MsgHeader

/-- The constructor with arguments. -/
def mk' (length : UInt32) (msgId flags : UInt16) (requestId : UInt64) (requestIndex : UInt32) :
    MsgHeader :=
  ⟨COMMUTIL_MSG_MAGIC, length, msgId, flags, requestId, requestIndex, 0, 1, 0⟩

/-- The default constructor. -/
def default : MsgHeader := mk' 40 0 0 0 0

/-- `serialize`. -/
def serialize (h : MsgHeader) (os : FixedOutputStream) : Except ErrorCode FixedOutputStream := do
  let os ← os.writeBytes h.m_magic
  let os ← os.serializeUInt 4 h.m_length.toNat
  let os ← os.serializeUInt 2 h.m_msgId.toNat
  let os ← os.serializeUInt 2 h.m_flags.toNat
  let os ← os.serializeUInt 8 h.m_requestId.toNat
  let os ← os.serializeUInt 4 h.m_requestIndex.toNat
  let os ← os.serializeUInt 4 h.m_uncompressedLength.toNat
  let os ← os.serializeUInt 4 h.m_batchSize.toNat
  os.serializeUInt 4 h.m_reserved.toNat

/-- `deserialize`. -/
def deserialize {σ : Type} [InputStream σ] : StreamM σ MsgHeader := do
  let magic ← InputStream.read COMMUTIL_MSG_MAGIC_SIZE
  let length ← deserializeUInt 4
  let msgId ← deserializeUInt 2
  let flags ← deserializeUInt 2
  let requestId ← deserializeUInt 8
  let requestIndex ← deserializeUInt 4
  let uncompressedLength ← deserializeUInt 4
  let batchSize ← deserializeUInt 4
  let reserved ← deserializeUInt 4
  pure ⟨magic, .ofNat length, .ofNat msgId, .ofNat flags, .ofNat requestId,
    .ofNat requestIndex, .ofNat uncompressedLength, .ofNat batchSize, .ofNat reserved⟩

/-- The header whose memory image is the given 40 bytes. -/
def ofImage (bytes : List UInt8) : MsgHeader :=
  let field := fun offset n => ofLeBytes ((bytes.drop offset).take n)
  ⟨bytes.take 8, .ofNat (field 8 4), .ofNat (field 12 2), .ofNat (field 14 2),
    .ofNat (field 16 8), .ofNat (field 24 4), .ofNat (field 28 4), .ofNat (field 32 4),
    .ofNat (field 36 4)⟩

/-- `fromNetOrder`. -/
def fromNetOrder (h : MsgHeader) : MsgHeader :=
  ⟨h.m_magic, ntohl h.m_length, ntohs h.m_msgId, ntohs h.m_flags, ntohll h.m_requestId,
    ntohl h.m_requestIndex, ntohl h.m_uncompressedLength, ntohl h.m_batchSize,
    ntohl h.m_reserved⟩

/-- `isValid`. -/
def isValid (h : MsgHeader) : Bool := h.m_magic == COMMUTIL_MSG_MAGIC

end MsgHeader

/-! ## §2 Messages -/

/-- `class Msg`: the header and the bytes after it. -/
structure Msg where
  m_header : MsgHeader
  m_payload : List UInt8
  deriving DecidableEq, Repr

/-- `Msg::getPayloadSizeBytes` of a message with this header. -/
def getPayloadSizeBytes (h : MsgHeader) : Nat := sub32 h.m_length.toNat sizeofMsgHeader

/-- The number of bytes `allocMsg(msgHeader)` asks for. -/
def msgBufSize (h : MsgHeader) : Nat :=
  add32 sizeofMsgHeader (sub32 h.m_length.toNat sizeofMsgHeader)

/-- `allocMsg(msgHeader)`: the size of the message buffer, or `none` if `new` fails.  The
    constructor writes a whole header into the buffer. -/
def allocMsg (h : MsgHeader) (allocated : Bool) : Except Fault (Option Nat) :=
  if !allocated then .ok none
  else if msgBufSize h < sizeofMsgHeader then .error .heapOverflow
  else .ok (some (msgBufSize h))

namespace Msg

/-- `serialize`. -/
def serialize (m : Msg) (os : FixedOutputStream) :
    Except Fault (Except ErrorCode FixedOutputStream) :=
  match m.m_header.serialize os with
  | .error rc => .ok (.error rc)
  | .ok os =>
    if m.m_payload.length < getPayloadSizeBytes m.m_header then .error .outOfBounds
    else .ok (os.writeBytes (m.m_payload.take (getPayloadSizeBytes m.m_header)))

/-- `is.readBytes(modifyPayload(), getPayloadSizeBytes())` in a buffer of `capacity` bytes. -/
def readPayload {σ : Type} [InputStream σ] (capacity : Nat) (h : MsgHeader) : StreamM σ Msg :=
  fun s =>
    match InputStream.readBytes s (getPayloadSizeBytes h) with
    | .error fault => .error fault
    | .ok (rc, bytes, s') =>
      if capacity < sizeofMsgHeader + bytes.length then .error .heapOverflow
      else if rc ≠ .ok then .ok (.error rc, s')
      else .ok (.ok ⟨h, bytes⟩, s')

/-- `deserialize` into a buffer of `capacity` bytes. -/
def deserialize {σ : Type} [InputStream σ] (capacity : Nat) : StreamM σ Msg := do
  let header ← MsgHeader.deserialize
  readPayload capacity header

end Msg

/-! ## §3 What serialization puts out -/

/-- The bytes of a header. -/
def headerBytes (order : ByteOrder) (h : MsgHeader) : List UInt8 :=
  h.m_magic ++ (encodeUInt order 4 h.m_length.toNat ++ (encodeUInt order 2 h.m_msgId.toNat ++
    (encodeUInt order 2 h.m_flags.toNat ++ (encodeUInt order 8 h.m_requestId.toNat ++
    (encodeUInt order 4 h.m_requestIndex.toNat ++
    (encodeUInt order 4 h.m_uncompressedLength.toNat ++
    (encodeUInt order 4 h.m_batchSize.toNat ++ encodeUInt order 4 h.m_reserved.toNat)))))))

/-- A message as `allocMsg` lays it out: valid magic, and a length that says what follows. -/
structure Consistent (m : Msg) : Prop where
  magic : m.m_header.m_magic = COMMUTIL_MSG_MAGIC
  length_eq : m.m_header.m_length.toNat = 40 + m.m_payload.length

/-- A well-formed frame: valid magic, a length that says what follows, a payload. -/
structure WellFormed (m : Msg) : Prop where
  magic : m.m_header.m_magic = COMMUTIL_MSG_MAGIC
  length_eq : m.m_header.m_length.toNat = 40 + m.m_payload.length
  payload_ne : m.m_payload ≠ []

instance (m : Msg) : Decidable (WellFormed m) :=
  decidable_of_iff (m.m_header.m_magic = COMMUTIL_MSG_MAGIC ∧
      m.m_header.m_length.toNat = 40 + m.m_payload.length ∧ m.m_payload ≠ [])
    ⟨fun h => ⟨h.1, h.2.1, h.2.2⟩, fun h => ⟨h.magic, h.length_eq, h.payload_ne⟩⟩

theorem WellFormed.consistent {m : Msg} (h : WellFormed m) : Consistent m :=
  ⟨h.magic, h.length_eq⟩

theorem Consistent.magic_length {m : Msg} (h : Consistent m) :
    m.m_header.m_magic.length = COMMUTIL_MSG_MAGIC_SIZE := by
  rw [h.magic]
  rfl

instance (m : Msg) : Decidable (Consistent m) :=
  decidable_of_iff (m.m_header.m_magic = COMMUTIL_MSG_MAGIC ∧
      m.m_header.m_length.toNat = 40 + m.m_payload.length)
    ⟨fun h => ⟨h.1, h.2⟩, fun h => ⟨h.magic, h.length_eq⟩⟩

/-- The bytes `Msg::serialize` writes to an output stream with room for them. -/
def serialized (order : ByteOrder) (m : Msg) : List UInt8 :=
  match m.serialize (FixedOutputStream.new (40 + m.m_payload.length) order) with
  | .ok (.ok os) => os.m_buffer
  | _ => []

theorem headerBytes_length (order : ByteOrder) (h : MsgHeader)
    (hmagic : h.m_magic.length = COMMUTIL_MSG_MAGIC_SIZE) :
    (headerBytes order h).length = 40 := by
  simp [headerBytes, hmagic, COMMUTIL_MSG_MAGIC_SIZE]

private theorem bind_writeBytes {os : FixedOutputStream} {bytes : List UInt8}
    {f : FixedOutputStream → Except ErrorCode FixedOutputStream}
    (h : os.m_buffer.length + bytes.length ≤ os.m_bufferSize) :
    (os.writeBytes bytes >>= f) = f { os with m_buffer := os.m_buffer ++ bytes } := by
  rw [FixedOutputStream.writeBytes_ok h]
  rfl

/-- **`MsgHeader::serialize`** appends the bytes of the header if there is room for them. -/
theorem MsgHeader.serialize_eq (h : MsgHeader) (os : FixedOutputStream)
    (hmagic : h.m_magic.length = COMMUTIL_MSG_MAGIC_SIZE)
    (hroom : os.m_buffer.length + 40 ≤ os.m_bufferSize) :
    h.serialize os =
      .ok { os with m_buffer := os.m_buffer ++ headerBytes os.m_byteOrder h } := by
  have hlen : h.m_magic.length = 8 := hmagic
  unfold MsgHeader.serialize FixedOutputStream.serializeUInt
  -- each write fits, since the fields add up to 40 bytes
  iterate 8 rw [bind_writeBytes (by
    simp only [List.length_append, encodeUInt_length, hlen]; omega)]
  rw [FixedOutputStream.writeBytes_ok (by
    simp only [List.length_append, encodeUInt_length, hlen]; omega)]
  simp only [headerBytes, List.append_assoc]

theorem Msg.payloadSize_eq {m : Msg}
    (hlength : m.m_header.m_length.toNat = 40 + m.m_payload.length) :
    getPayloadSizeBytes m.m_header = m.m_payload.length := by
  have hlt := m.m_header.m_length.toNat_lt
  unfold getPayloadSizeBytes sizeofMsgHeader
  rw [sub32_eq (by rw [hlength]; omega) hlt, hlength]
  omega

/-- **`Msg::serialize`** appends the header and the payload if there is room for them. -/
theorem Msg.serialize_eq {m : Msg} (hmagic : m.m_header.m_magic.length = COMMUTIL_MSG_MAGIC_SIZE)
    (hlength : m.m_header.m_length.toNat = 40 + m.m_payload.length) (os : FixedOutputStream)
    (hroom : os.m_buffer.length + (40 + m.m_payload.length) ≤ os.m_bufferSize) :
    m.serialize os = .ok (.ok { os with
      m_buffer := os.m_buffer ++ (headerBytes os.m_byteOrder m.m_header ++ m.m_payload) }) := by
  have hsize := Msg.payloadSize_eq hlength
  have hlen := headerBytes_length os.m_byteOrder m.m_header hmagic
  have hcheck : ¬ m.m_payload.length < getPayloadSizeBytes m.m_header := by omega
  unfold Msg.serialize
  rw [MsgHeader.serialize_eq _ _ hmagic (by omega)]
  dsimp only
  rw [if_neg hcheck, hsize, List.take_length,
    FixedOutputStream.writeBytes_ok (by simp only [List.length_append, hlen]; omega)]
  simp only [List.append_assoc]

theorem Consistent.payloadSize_eq {m : Msg} (h : Consistent m) :
    getPayloadSizeBytes m.m_header = m.m_payload.length :=
  Msg.payloadSize_eq h.length_eq

theorem Consistent.serialize_eq {m : Msg} (h : Consistent m) (os : FixedOutputStream)
    (hroom : os.m_buffer.length + (40 + m.m_payload.length) ≤ os.m_bufferSize) :
    m.serialize os = .ok (.ok { os with
      m_buffer := os.m_buffer ++ (headerBytes os.m_byteOrder m.m_header ++ m.m_payload) }) :=
  Msg.serialize_eq h.magic_length h.length_eq os hroom

/-- **What `Msg::serialize` writes**: the header followed by the payload. -/
theorem serialized_eq (order : ByteOrder) {m : Msg} (h : WellFormed m) :
    serialized order m = headerBytes order m.m_header ++ m.m_payload := by
  have hser := h.consistent.serialize_eq (FixedOutputStream.new (40 + m.m_payload.length) order)
    (by simp [FixedOutputStream.new])
  unfold serialized
  rw [hser]
  rfl

theorem serialized_length (order : ByteOrder) {m : Msg} (h : WellFormed m) :
    (serialized order m).length = m.m_header.m_length.toNat := by
  rw [serialized_eq order h, List.length_append, headerBytes_length _ _ h.consistent.magic_length,
    h.length_eq]

end Commutil.Framing
