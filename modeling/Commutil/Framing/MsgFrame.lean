import Mathlib.Algebra.Order.BigOperators.Group.List
import Mathlib.Algebra.Order.Group.Nat
import Commutil.Framing.Gzip
import Commutil.Framing.Message

/-!
# Message Frames

`msg_frame_writer.cpp`, `msg_batch_writer.cpp`, `msg_frame_reader.cpp` and
`msg_batch_reader.h`: the payload of a frame is a message body or a batch of
buffers, each after its length, compressed or not; reading the frame hands the
body or the buffers to a frame listener.

Compression is that of the vendored gzip wrapper, over zlib as a parameter.  The main
result is the round trip.
-/

namespace Commutil.Framing

open Commutil.Io Commutil.Library

/-! ## §1 Writing frames -/

/-- `COMMUTIL_MSG_FLAG_COMPRESSED`. -/
def COMMUTIL_MSG_FLAG_COMPRESSED : UInt16 := 0x0001

/-- `COMMUTIL_MSG_FLAG_BATCH`. -/
def COMMUTIL_MSG_FLAG_BATCH : UInt16 := 0x0002

namespace MsgHeader

/-- `isCompressed`. -/
def isCompressed (h : MsgHeader) : Bool := h.m_flags &&& COMMUTIL_MSG_FLAG_COMPRESSED != 0

/-- `isBatch`. -/
def isBatch (h : MsgHeader) : Bool := h.m_flags &&& COMMUTIL_MSG_FLAG_BATCH != 0

end MsgHeader

/-- `allocMsg(msgId, flags, requestId, requestIndex, payloadSize)`: the header of the new message,
    or `none` if `new` fails.  The constructor writes a whole header into the buffer. -/
def allocMsgOf (msgId flags : UInt16) (requestId : UInt64) (requestIndex : UInt32)
    (payloadSize : Nat) (allocated : Bool) : Except Fault (Option MsgHeader) :=
  let msgBufSize := add32 sizeofMsgHeader payloadSize
  if !allocated then .ok none
  else if msgBufSize < sizeofMsgHeader then .error .heapOverflow
  else .ok (some (.mk' (.ofNat msgBufSize) msgId flags requestId requestIndex))

/-- `memcpy(msg->modifyPayload(), bytes, length)` into a new message; what is not written of the
    payload stays as it was. -/
def fillPayload (header : MsgHeader) (bytes : List UInt8) : Except Fault Msg :=
  let room := header.m_length.toNat - sizeofMsgHeader
  if room < bytes.length then .error .heapOverflow
  else .ok ⟨header, bytes ++ List.replicate (room - bytes.length) 0⟩

namespace MsgFrameWriter

/-- `MsgFrameWriter::prepareMsgFrame` of a message body. -/
def prepareMsgFrame (z : Zlib) (allocated : Bool) (msgId : UInt16) (body : List UInt8)
    (compress : Bool) (flags : UInt16) : Except Fault (Except ErrorCode Msg) := do
  let payload ← if compress then z.compress body else pure body
  let flags := if compress then flags ||| COMMUTIL_MSG_FLAG_COMPRESSED else flags
  match ← allocMsgOf msgId flags 0 0 (payload.length % 2 ^ 32) allocated with
  | none => pure (.error .nomem)
  | some header =>
    let header := if compress then
      { header with m_uncompressedLength := .ofNat body.length } else header
    let msg ← fillPayload header payload
    pure (.ok msg)

end MsgFrameWriter

/-- `class MsgWriter`; `writeMsg` gives the bytes it puts at the start of the payload. -/
structure MsgWriter where
  getPayloadSizeBytes : Nat
  getBatchSize : UInt32
  writeMsg : Except ErrorCode (List UInt8)

namespace MsgFrameWriter

/-- The payload that is compressed: a zeroed vector of the payload size, written by the writer. -/
def writeToBuffer (writer : MsgWriter) (bytes : List UInt8) : Except Fault (List UInt8) :=
  if writer.getPayloadSizeBytes < bytes.length then .error .heapOverflow
  else .ok (bytes ++ List.replicate (writer.getPayloadSizeBytes - bytes.length) 0)

/-- `MsgFrameWriter::prepareMsgFrame` with a message writer. -/
def prepareMsgFrameOf (z : Zlib) (allocated : Bool) (msgId : UInt16) (msgWriter : MsgWriter)
    (compress : Bool) (flags : UInt16) : Except Fault (Except ErrorCode Msg) :=
  if compress then
    match msgWriter.writeMsg with
    | .error rc => .ok (.error rc)
    | .ok bytes => do
      let buf ← writeToBuffer msgWriter bytes
      let compressedBody ← z.compress buf
      match ← allocMsgOf msgId (flags ||| COMMUTIL_MSG_FLAG_COMPRESSED) 0 0
          (compressedBody.length % 2 ^ 32) allocated with
      | none => pure (.error .nomem)
      | some header =>
        let msg ← fillPayload { header with
          m_uncompressedLength := .ofNat msgWriter.getPayloadSizeBytes
          m_batchSize := msgWriter.getBatchSize } compressedBody
        pure (.ok msg)
  else do
    match ← allocMsgOf msgId flags 0 0 msgWriter.getPayloadSizeBytes allocated with
    | none => pure (.error .nomem)
    | some header =>
      match msgWriter.writeMsg with
      | .error rc => pure (.error rc)
      | .ok bytes =>
        let msg ← fillPayload { header with m_batchSize := msgWriter.getBatchSize } bytes
        pure (.ok msg)

end MsgFrameWriter

namespace MsgBatchWriter

/-- `MsgBatchWriter::computePayloadSize`. -/
def computePayloadSize (msgBufferArray : List (List UInt8)) : Nat :=
  msgBufferArray.foldl (fun payloadSize msgBuffer =>
    add32 (add32 payloadSize 4) (msgBuffer.length % 2 ^ 32)) 4

/-- `MsgBatchWriter::writeBatch`. -/
def writeBatch (os : FixedOutputStream) (msgBufferArray : List (List UInt8)) :
    Except ErrorCode FixedOutputStream := do
  let os ← os.serializeUInt 4 (msgBufferArray.length % 2 ^ 32)
  msgBufferArray.foldlM FixedOutputStream.serializeBuffer os

end MsgBatchWriter

/-- `class MsgBufferArrayWriter`. -/
def MsgBufferArrayWriter (msgBufferArray : List (List UInt8)) (byteOrder : ByteOrder) :
    MsgWriter where
  getPayloadSizeBytes := MsgBatchWriter.computePayloadSize msgBufferArray
  getBatchSize := .ofNat msgBufferArray.length
  writeMsg := do
    let os ← MsgBatchWriter.writeBatch
      (.new (MsgBatchWriter.computePayloadSize msgBufferArray) byteOrder) msgBufferArray
    pure os.m_buffer

/-! ## §2 Reading frames -/

section Reading

variable {κ β : Type}

/-- A call of the frame listener; `κ` is the type of the connection details, and `β` that of the
    message buffers. -/
inductive ListenerCall (κ β : Type) where
  | handleMsg (connectionDetails : κ) (msgHeader : MsgHeader) (msgBuffer : β)
      (lastInBatch : Bool) (batchSize : Nat)
  | handleMsgError (connectionDetails : κ) (msgHeader : MsgHeader) (status : ErrorCode)
  deriving DecidableEq, Repr

/-- `class MsgFrameListener`: what `handleMsg` returns for a call after the calls before it. -/
def Listener (κ β : Type) : Type := List (ListenerCall κ β) → ListenerCall κ β → ErrorCode

/-- A call with the bytes of the message buffer. -/
abbrev FrameCall (κ : Type) : Type := ListenerCall κ (List UInt8)

/-- A listener that is given the bytes. -/
abbrev MsgFrameListener (κ : Type) : Type := Listener κ (List UInt8)

/-- The second part of `readMsg`: a range of the buffer that is handed on by reference, and may go
    past its end. -/
def takeRange (length : Nat) : StreamM FixedInputStream (List UInt8) := fun is =>
  match is.skipBytes length with
  | (.ok, is') =>
    if is.m_buf.length < is.m_offset + length then .error .outOfBounds
    else .ok (.ok ((is.m_buf.drop is.m_offset).take length), is')
  | (rc, is') => .ok (.error rc, is')

/-- `MsgBatchReader::readMsg`. -/
def readBatchMsg : StreamM FixedInputStream (List UInt8) := do
  let length ← deserializeUInt 4
  takeRange length

/-- What is passed for a message buffer, which is a pointer and a length: that of the next message
    of a batch, and that of a payload. -/
class MsgBuffer (β : Type) where
  readMsg : StreamM FixedInputStream β
  ofPayload : List UInt8 → β

/-- The bytes, which have to be there. -/
instance : MsgBuffer (List UInt8) := ⟨readBatchMsg, id⟩

@[simp] theorem readMsg_bytes : @MsgBuffer.readMsg (List UInt8) _ = readBatchMsg := rfl

@[simp] theorem ofPayload_bytes (payload : List UInt8) : MsgBuffer.ofPayload payload = payload :=
  rfl

namespace MsgFrameReader

variable [MsgBuffer β]

/-- The loop of `readMsgFrame` over the messages of a batch, of which `remaining` are left. -/
def readBatch (listener : Listener κ β) (connectionDetails : κ) (header : MsgHeader)
    (batchSize : Nat) :
    Nat → FixedInputStream → List (ListenerCall κ β) → Except Fault (ErrorCode × List (ListenerCall κ β))
  | 0, _, calls => .ok (.ok, calls)
  | remaining + 1, is, calls =>
    match MsgBuffer.readMsg is with
    | .error fault => .error fault
    | .ok (.error rc, _) => .ok (rc, calls ++ [.handleMsgError connectionDetails header rc])
    | .ok (.ok msgBuffer, is) =>
      let call := .handleMsg connectionDetails header msgBuffer (remaining == 0) batchSize
      let rc := listener calls call
      if rc ≠ .ok then .ok (rc, calls ++ [call])
      else readBatch listener connectionDetails header batchSize remaining is (calls ++ [call])

/-- The first part of `readMsgFrame`: the payload, decompressed if needed. -/
def readPayload (z : Zlib) (msg : Msg) : Except Fault (Except ErrorCode (List UInt8)) :=
  let bufferSize := getPayloadSizeBytes msg.m_header
  if msg.m_payload.length < bufferSize then .error .outOfBounds
  else
    let buffer := msg.m_payload.take bufferSize
    if msg.m_header.isCompressed then do
      let decompressedPayload ← z.decompress buffer
      if decompressedPayload.length ≠ msg.m_header.m_uncompressedLength.toNat then
        pure (.error .dataCorrupt)
      else
        pure (.ok decompressedPayload)
    else .ok (.ok buffer)

/-- The second part of `readMsgFrame`: a single message, or the size and the messages of a batch. -/
def dispatchPayload (byteOrder : ByteOrder) (listener : Listener κ β)
    (connectionDetails : κ) (header : MsgHeader) (buffer : List UInt8) :
    Except Fault (ErrorCode × List (ListenerCall κ β)) :=
  if !header.isBatch then
    let call := .handleMsg connectionDetails header (MsgBuffer.ofPayload buffer) true 1
    .ok (listener [] call, [call])
  else
    match deserializeUInt 4 (FixedInputStream.new buffer byteOrder) with
    | .error fault => .error fault
    | .ok (.error rc, _) => .ok (rc, [.handleMsgError connectionDetails header rc])
    | .ok (.ok batchSize, is) =>
      if batchSize ≠ header.m_batchSize.toNat then
        .ok (.dataCorrupt, [.handleMsgError connectionDetails header .dataCorrupt])
      else
        readBatch listener connectionDetails header batchSize batchSize is []

/-- The result of `readMsgFrame` and the calls of the listener, from the payload. -/
def handlePayload (byteOrder : ByteOrder) (listener : Listener κ β) (connectionDetails : κ)
    (header : MsgHeader) :
    Except Fault (Except ErrorCode (List UInt8)) → Except Fault (ErrorCode × List (ListenerCall κ β))
  | .error fault => .error fault
  | .ok (.error rc) => .ok (rc, [.handleMsgError connectionDetails header rc])
  | .ok (.ok buffer) => dispatchPayload byteOrder listener connectionDetails header buffer

/-- `MsgFrameReader::readMsgFrame`. -/
def readMsgFrame (z : Zlib) (byteOrder : ByteOrder) (listener : MsgFrameListener κ)
    (connectionDetails : κ) (msg : Msg) : Except Fault (ErrorCode × List (FrameCall κ)) :=
  handlePayload byteOrder listener connectionDetails msg.m_header (readPayload z msg)

end MsgFrameReader

end Reading

/-! ## §3 What a batch is written as -/

/-- The buffers of a batch, each after its length. -/
def buffersBytes (order : ByteOrder) (buffers : List (List UInt8)) : List UInt8 :=
  (buffers.map (lengthPrepended order)).flatten

/-- The payload of a batch: the number of buffers, then the buffers. -/
def batchBytes (order : ByteOrder) (buffers : List (List UInt8)) : List UInt8 :=
  encodeUInt order 4 buffers.length ++ buffersBytes order buffers

@[simp] theorem buffersBytes_nil (order : ByteOrder) : buffersBytes order [] = [] := rfl

@[simp] theorem buffersBytes_cons (order : ByteOrder) (buffer : List UInt8)
    (rest : List (List UInt8)) :
    buffersBytes order (buffer :: rest) =
      lengthPrepended order buffer ++ buffersBytes order rest :=
  rfl

/-- The size of the payload that `computePayloadSize` computes without overflow. -/
def payloadSize (buffers : List (List UInt8)) : Nat :=
  4 + (buffers.map fun buffer => 4 + buffer.length).sum

theorem buffersBytes_length (order : ByteOrder) (buffers : List (List UInt8)) :
    (buffersBytes order buffers).length = (buffers.map fun buffer => 4 + buffer.length).sum := by
  induction buffers with
  | nil => rfl
  | cons buffer rest ih => simp [ih]

theorem batchBytes_length (order : ByteOrder) (buffers : List (List UInt8)) :
    (batchBytes order buffers).length = payloadSize buffers := by
  simp [batchBytes, payloadSize, buffersBytes_length]

/-- Every buffer takes at least the four bytes of its length. -/
theorem length_le_payloadSize (buffers : List (List UInt8)) :
    buffers.length ≤ payloadSize buffers := by
  unfold payloadSize
  induction buffers with
  | nil => simp
  | cons buffer rest ih =>
    simp only [List.length_cons, List.map_cons, List.sum_cons]
    omega

theorem buffer_length_lt {buffers : List (List UInt8)} (h : payloadSize buffers < 2 ^ 32) :
    ∀ buffer ∈ buffers, buffer.length < 2 ^ 32 := by
  intro buffer hmem
  have hle := List.single_le_sum (l := buffers.map fun buffer => 4 + buffer.length)
    (fun _ _ => Nat.zero_le _) _ (List.mem_map_of_mem hmem)
  unfold payloadSize at h
  omega

namespace MsgBatchWriter

private theorem computePayloadSize_fold (buffers : List (List UInt8)) (size : Nat)
    (h : size + (buffers.map fun buffer => 4 + buffer.length).sum < 2 ^ 32) :
    buffers.foldl (fun payloadSize msgBuffer =>
      add32 (add32 payloadSize 4) (msgBuffer.length % 2 ^ 32)) size =
      size + (buffers.map fun buffer => 4 + buffer.length).sum := by
  induction buffers generalizing size with
  | nil => simp
  | cons buffer rest ih =>
    simp only [List.map_cons, List.sum_cons] at h
    have hstep : add32 (add32 size 4) (buffer.length % 2 ^ 32) = size + (4 + buffer.length) := by
      rw [Nat.mod_eq_of_lt (by omega), add32_eq (by omega : size + 4 < 2 ^ 32),
        add32_eq (by omega)]
      omega
    simp only [List.foldl_cons, List.map_cons, List.sum_cons, hstep]
    rw [ih _ (by omega)]
    omega

theorem computePayloadSize_eq {buffers : List (List UInt8)} (h : payloadSize buffers < 2 ^ 32) :
    computePayloadSize buffers = payloadSize buffers :=
  computePayloadSize_fold buffers 4 h

private theorem serializeBuffers_eq (buffers : List (List UInt8)) (os : FixedOutputStream)
    (hlen : ∀ buffer ∈ buffers, buffer.length < 2 ^ 32)
    (hroom : os.m_buffer.length + (buffers.map fun buffer => 4 + buffer.length).sum ≤
      os.m_bufferSize) :
    buffers.foldlM FixedOutputStream.serializeBuffer os =
      .ok { os with m_buffer := os.m_buffer ++ buffersBytes os.m_byteOrder buffers } := by
  induction buffers generalizing os with
  | nil => simp [pure, Except.pure]
  | cons buffer rest ih =>
    simp only [List.map_cons, List.sum_cons] at hroom
    rw [List.foldlM_cons, FixedOutputStream.serializeBuffer,
      FixedOutputStream.serializeLengthPrepended_eq (hlen buffer List.mem_cons_self) (by omega)]
    simp only [bind, Except.bind]
    rw [ih _ (fun b hb => hlen b (List.mem_cons_of_mem _ hb))
      (by simp only [List.length_append, lengthPrepended_length]; omega)]
    simp

/-- **`writeBatch`** with room for the batch writes the payload of the batch. -/
theorem writeBatch_eq {buffers : List (List UInt8)} (h : payloadSize buffers < 2 ^ 32)
    (order : ByteOrder) :
    writeBatch (.new (payloadSize buffers) order) buffers =
      .ok ⟨order, payloadSize buffers, batchBytes order buffers⟩ := by
  have hcount := length_le_payloadSize buffers
  have hlen := buffer_length_lt h
  have hnum : buffers.length % 2 ^ 32 = buffers.length := Nat.mod_eq_of_lt (by omega)
  unfold writeBatch FixedOutputStream.serializeUInt
  rw [hnum, FixedOutputStream.writeBytes_ok (by simp [FixedOutputStream.new, payloadSize])]
  simp only [bind, Except.bind]
  rw [serializeBuffers_eq buffers _ hlen (by simp [FixedOutputStream.new, payloadSize])]
  simp [FixedOutputStream.new, batchBytes]

end MsgBatchWriter

theorem MsgBufferArrayWriter_writeMsg {buffers : List (List UInt8)}
    (h : payloadSize buffers < 2 ^ 32) (order : ByteOrder) :
    (MsgBufferArrayWriter buffers order).writeMsg = .ok (batchBytes order buffers) := by
  unfold MsgBufferArrayWriter
  dsimp only
  rw [MsgBatchWriter.computePayloadSize_eq h, MsgBatchWriter.writeBatch_eq h]
  rfl

/-! ## §4 What a frame holds -/

/-- The frame that holds some bytes as its payload. -/
def frameOf (msgId flags : UInt16) (uncompressedLength batchSize : UInt32) (payload : List UInt8) :
    Msg :=
  ⟨⟨COMMUTIL_MSG_MAGIC, .ofNat (40 + payload.length), msgId, flags, 0, 0, uncompressedLength,
    batchSize, 0⟩, payload⟩

/-- A message with room for exactly the payload is allocated and filled. -/
theorem fillPayload_alloc {payload : List UInt8} (h : 40 + payload.length < 2 ^ 32)
    (header : MsgHeader) (hheader : header.m_length = .ofNat (40 + payload.length)) :
    fillPayload header payload = .ok ⟨header, payload⟩ := by
  have hlen : header.m_length.toNat = 40 + payload.length := by
    rw [hheader, UInt32.toNat_ofNat_of_lt' h]
  have hroom : header.m_length.toNat - sizeofMsgHeader = payload.length := by
    rw [hlen]
    exact Nat.add_sub_cancel_left 40 _
  unfold fillPayload
  dsimp only
  rw [hroom, if_neg (Nat.lt_irrefl _), Nat.sub_self, List.replicate_zero, List.append_nil]

theorem allocMsgOf_eq {size : Nat} (h : 40 + size < 2 ^ 32) (msgId flags : UInt16) :
    allocMsgOf msgId flags 0 0 size true =
      .ok (some (.mk' (.ofNat (40 + size)) msgId flags 0 0)) := by
  have hadd : add32 sizeofMsgHeader size = 40 + size := add32_eq h
  unfold allocMsgOf
  simp only [hadd]
  rw [if_neg (by decide), if_neg (by unfold sizeofMsgHeader; omega)]

namespace MsgFrameWriter

theorem prepareMsgFrame_plain (z : Zlib) (msgId flags : UInt16) {body : List UInt8}
    (h : 40 + body.length < 2 ^ 32) :
    prepareMsgFrame z true msgId body false flags = .ok (.ok (frameOf msgId flags 0 1 body)) := by
  have hmod : body.length % 2 ^ 32 = body.length := Nat.mod_eq_of_lt (by omega)
  unfold prepareMsgFrame
  simp only [Bool.false_eq_true, if_false, bind, Except.bind, pure, Except.pure, hmod,
    allocMsgOf_eq h]
  rw [fillPayload_alloc h _ rfl]
  rfl

theorem prepareMsgFrame_compressed (z : Zlib) (msgId flags : UInt16) {body compressed : List UInt8}
    (hz : z.compress body = .ok compressed) (h : 40 + compressed.length < 2 ^ 32) :
    prepareMsgFrame z true msgId body true flags =
      .ok (.ok (frameOf msgId (flags ||| COMMUTIL_MSG_FLAG_COMPRESSED) (.ofNat body.length) 1
        compressed)) := by
  have hmod : compressed.length % 2 ^ 32 = compressed.length := Nat.mod_eq_of_lt (by omega)
  unfold prepareMsgFrame
  simp only [if_true, bind, Except.bind, pure, Except.pure, hz, hmod, allocMsgOf_eq h]
  rw [fillPayload_alloc h _ rfl]
  rfl

theorem prepareMsgFrameOf_plain (z : Zlib) (msgId flags : UInt16) {writer : MsgWriter}
    {bytes : List UInt8} (hwrite : writer.writeMsg = .ok bytes)
    (hsize : writer.getPayloadSizeBytes = bytes.length) (h : 40 + bytes.length < 2 ^ 32) :
    prepareMsgFrameOf z true msgId writer false flags =
      .ok (.ok (frameOf msgId flags 0 writer.getBatchSize bytes)) := by
  unfold prepareMsgFrameOf
  simp only [Bool.false_eq_true, if_false, bind, Except.bind, pure, Except.pure, hwrite, hsize,
    allocMsgOf_eq h]
  rw [fillPayload_alloc h _ rfl]
  rfl

theorem prepareMsgFrameOf_compressed (z : Zlib) (msgId flags : UInt16) {writer : MsgWriter}
    {bytes compressed : List UInt8} (hwrite : writer.writeMsg = .ok bytes)
    (hsize : writer.getPayloadSizeBytes = bytes.length) (hz : z.compress bytes = .ok compressed)
    (h : 40 + compressed.length < 2 ^ 32) :
    prepareMsgFrameOf z true msgId writer true flags =
      .ok (.ok (frameOf msgId (flags ||| COMMUTIL_MSG_FLAG_COMPRESSED) (.ofNat bytes.length)
        writer.getBatchSize compressed)) := by
  have hmod : compressed.length % 2 ^ 32 = compressed.length := Nat.mod_eq_of_lt (by omega)
  have hbuf : writeToBuffer writer bytes = .ok bytes := by
    unfold writeToBuffer
    rw [hsize, if_neg (Nat.lt_irrefl _), Nat.sub_self, List.replicate_zero, List.append_nil]
  unfold prepareMsgFrameOf
  simp only [if_true, bind, Except.bind, pure, Except.pure, hwrite, hbuf, hz, hmod,
    allocMsgOf_eq h, hsize]
  rw [fillPayload_alloc h _ rfl]
  rfl

end MsgFrameWriter

/-! ## §5 What is read from a frame -/

private theorem frameOf_payloadSize (msgId flags : UInt16) (uncompressedLength batchSize : UInt32)
    {payload : List UInt8} (h : 40 + payload.length < 2 ^ 32) :
    getPayloadSizeBytes (frameOf msgId flags uncompressedLength batchSize payload).m_header =
      payload.length := by
  have hconsistent : Consistent (frameOf msgId flags uncompressedLength batchSize payload) :=
    ⟨rfl, UInt32.toNat_ofNat_of_lt' h⟩
  exact hconsistent.payloadSize_eq

/-- A flag is tested in two sets of flags put together. -/
theorem or_and_flag (flags more flag : UInt16) :
    (flags ||| more) &&& flag = (flags &&& flag) ||| (more &&& flag) := by
  apply UInt16.toBitVec_inj.mp
  ext i
  simp [Bool.and_or_distrib_right]

namespace MsgFrameReader

theorem readPayload_plain (z : Zlib) (msgId : UInt16) {flags : UInt16}
    (uncompressedLength batchSize : UInt32) {payload : List UInt8}
    (h : 40 + payload.length < 2 ^ 32) (hflags : flags &&& COMMUTIL_MSG_FLAG_COMPRESSED = 0) :
    readPayload z (frameOf msgId flags uncompressedLength batchSize payload) =
      .ok (.ok payload) := by
  have hplain : (frameOf msgId flags uncompressedLength batchSize payload).m_header.isCompressed =
      false := by
    simp [frameOf, MsgHeader.isCompressed, hflags]
  unfold readPayload
  simp only [frameOf_payloadSize msgId flags uncompressedLength batchSize h, hplain]
  simp [frameOf]

theorem readPayload_compressed (z : Zlib) (msgId : UInt16) (flags : UInt16) (batchSize : UInt32)
    {payload compressed : List UInt8} (hlen : payload.length < 2 ^ 32)
    (h : 40 + compressed.length < 2 ^ 32) (hz : z.decompress compressed = .ok payload) :
    readPayload z (frameOf msgId (flags ||| COMMUTIL_MSG_FLAG_COMPRESSED) (.ofNat payload.length)
      batchSize compressed) = .ok (.ok payload) := by
  have hflag : (flags ||| COMMUTIL_MSG_FLAG_COMPRESSED) &&& COMMUTIL_MSG_FLAG_COMPRESSED ≠ 0 := by
    rw [or_and_flag]
    intro hzero
    exact absurd (UInt16.or_eq_zero_iff.mp hzero).2 (by decide)
  have hcompressed : (frameOf msgId (flags ||| COMMUTIL_MSG_FLAG_COMPRESSED)
      (.ofNat payload.length) batchSize compressed).m_header.isCompressed = true := by
    simp [frameOf, MsgHeader.isCompressed, hflag]
  unfold readPayload
  simp only [frameOf_payloadSize _ _ _ _ h, hcompressed]
  simp [frameOf, hz, bind, Except.bind, pure, Except.pure, UInt32.toNat_ofNat_of_lt' hlen]

/-- A number that comes next in the buffer is read. -/
private theorem deserializeUInt_encodeUInt (order : ByteOrder) (before : List UInt8) {n : Nat}
    (hn : n < 2 ^ 32) (after : List UInt8) :
    deserializeUInt 4 (FixedInputStream.past order before (encodeUInt order 4 n ++ after)) =
      .ok (.ok n, FixedInputStream.past order (before ++ encodeUInt order 4 n) after) := by
  have hlength : (encodeUInt order 4 n).length = 4 := encodeUInt_length _ _ _
  have hne : encodeUInt order 4 n ≠ [] := List.length_pos_iff.mp (by omega)
  have hread := FixedInputStream.deserializeUInt_past order before hne after
  rwa [hlength, decodeUInt_encodeUInt order 4 n (by omega)] at hread

/-- A message of a batch is read off the buffer with its exact bytes. -/
theorem readBatchMsg_past (order : ByteOrder) (before : List UInt8) {buffer : List UInt8}
    (hne : buffer ≠ []) (hlen : buffer.length < 2 ^ 32) (after : List UInt8) :
    readBatchMsg (FixedInputStream.past order before (lengthPrepended order buffer ++ after)) =
      .ok (.ok buffer,
        FixedInputStream.past order (before ++ lengthPrepended order buffer) after) := by
  have hread := deserializeUInt_encodeUInt order before hlen (buffer ++ after)
  unfold readBatchMsg lengthPrepended
  rw [List.append_assoc, StreamM.bind_ok hread]
  unfold takeRange
  rw [FixedInputStream.skipBytes_past order _ hne after]
  dsimp only
  rw [if_neg (by simp [FixedInputStream.past]; omega)]
  simp [FixedInputStream.past]

variable {κ : Type}

/-- **The batch loop** hands every buffer that is left to the listener, in order and with its exact
    bytes, and the last one as the last. -/
theorem readBatch_eq {listener : MsgFrameListener κ}
    (hlistener : ∀ calls call, listener calls call = .ok) (connectionDetails : κ)
    (header : MsgHeader) (batchSize : Nat) (order : ByteOrder)
    (buffers : List (List UInt8)) (hne : ∀ buffer ∈ buffers, buffer ≠ [])
    (hlen : ∀ buffer ∈ buffers, buffer.length < 2 ^ 32) (before : List UInt8)
    (calls : List (FrameCall κ)) :
    readBatch listener connectionDetails header batchSize buffers.length
        (FixedInputStream.past order before (buffersBytes order buffers)) calls =
      .ok (.ok, calls ++ buffers.mapIdx fun i buffer =>
        .handleMsg connectionDetails header buffer (i + 1 == buffers.length) batchSize) := by
  induction buffers generalizing before calls with
  | nil => simp [readBatch]
  | cons buffer rest ih =>
    have hhead := readBatchMsg_past order before (hne buffer List.mem_cons_self)
      (hlen buffer List.mem_cons_self) (buffersBytes order rest)
    rw [List.length_cons, readBatch, readMsg_bytes, buffersBytes_cons, hhead]
    simp only [hlistener, ne_eq, not_true, if_false]
    rw [ih (fun b hb => hne b (List.mem_cons_of_mem _ hb))
      (fun b hb => hlen b (List.mem_cons_of_mem _ hb))]
    -- the call for this buffer is the last one if no buffer is left
    cases rest <;> simp [List.mapIdx_cons]

/-- A frame that is no batch is one message. -/
theorem readMsgFrame_single {z : Zlib} {msg : Msg} {payload : List UInt8}
    (hpayload : readPayload z msg = .ok (.ok payload)) (hbatch : msg.m_header.isBatch = false)
    {listener : MsgFrameListener κ} (hlistener : ∀ calls call, listener calls call = .ok)
    (order : ByteOrder) (connectionDetails : κ) :
    readMsgFrame z order listener connectionDetails msg =
      .ok (.ok, [.handleMsg connectionDetails msg.m_header payload true 1]) := by
  unfold readMsgFrame
  rw [hpayload, handlePayload, dispatchPayload, hbatch]
  simp only [Bool.not_false, if_true, hlistener, ofPayload_bytes]

/-- A batch frame is its buffers. -/
theorem readMsgFrame_batch {z : Zlib} {msg : Msg} {buffers : List (List UInt8)} {order : ByteOrder}
    (hpayload : readPayload z msg = .ok (.ok (batchBytes order buffers)))
    (hbatch : msg.m_header.isBatch = true)
    (hsize : msg.m_header.m_batchSize = .ofNat buffers.length)
    (hne : ∀ buffer ∈ buffers, buffer ≠ [])
    (hlen : ∀ buffer ∈ buffers, buffer.length < 2 ^ 32) (hcount : buffers.length < 2 ^ 32)
    {listener : MsgFrameListener κ} (hlistener : ∀ calls call, listener calls call = .ok)
    (connectionDetails : κ) :
    readMsgFrame z order listener connectionDetails msg =
      .ok (.ok, buffers.mapIdx fun i buffer => .handleMsg connectionDetails msg.m_header buffer
        (i + 1 == buffers.length) buffers.length) := by
  have hread := deserializeUInt_encodeUInt order [] hcount (buffersBytes order buffers)
  have hnew : FixedInputStream.new (batchBytes order buffers) order =
      FixedInputStream.past order [] (encodeUInt order 4 buffers.length ++
        buffersBytes order buffers) := rfl
  have hcheck : msg.m_header.m_batchSize.toNat = buffers.length := by
    rw [hsize, UInt32.toNat_ofNat_of_lt' hcount]
  unfold readMsgFrame
  rw [hpayload, handlePayload, dispatchPayload, hbatch, hnew, hread]
  simp only [hcheck, Bool.not_true, Bool.false_eq_true, if_false, ne_eq, not_true]
  rw [readBatch_eq hlistener connectionDetails _ _ order buffers hne hlen, List.nil_append]

end MsgFrameReader

/-! ## §6 The round trip -/

/-- gzip returns normally for the payload in both directions, and decompression inverts
    compression. -/
def Zlib.RoundTrips (z : Zlib) (payload : List UInt8) : Prop :=
  ∃ compressed, z.compress payload = .ok compressed ∧ z.decompress compressed = .ok payload

theorem isBatch_or {h : MsgHeader} {flags : UInt16}
    (hflags : h.m_flags = flags ||| COMMUTIL_MSG_FLAG_COMPRESSED) :
    h.isBatch = (flags &&& COMMUTIL_MSG_FLAG_BATCH != 0) := by
  have hzero : COMMUTIL_MSG_FLAG_COMPRESSED &&& COMMUTIL_MSG_FLAG_BATCH = 0 := by decide
  unfold MsgHeader.isBatch
  rw [hflags, or_and_flag, hzero, UInt16.or_zero]

theorem batch_flag (flags : UInt16) :
    ((flags ||| COMMUTIL_MSG_FLAG_BATCH) &&& COMMUTIL_MSG_FLAG_BATCH != 0) = true := by
  rw [or_and_flag, bne_iff_ne]
  intro hzero
  exact absurd (UInt16.or_eq_zero_iff.mp hzero).2 (by decide)

private theorem compressed_flag_of_batch {flags : UInt16}
    (hflags : flags &&& COMMUTIL_MSG_FLAG_COMPRESSED = 0) :
    (flags ||| COMMUTIL_MSG_FLAG_BATCH) &&& COMMUTIL_MSG_FLAG_COMPRESSED = 0 := by
  rw [or_and_flag, hflags]
  decide

section RoundTrip

variable {κ : Type} (z : Zlib) (order : ByteOrder) (msgId flags : UInt16) (compress : Bool)
  (connectionDetails : κ) (listener : MsgFrameListener κ)

/-- A body is read back as one message. -/
theorem body_round_trip (hlistener : ∀ calls call, listener calls call = .ok) {body : List UInt8}
    (hlen : body.length < 2 ^ 32 - 40) (hbatch : flags &&& COMMUTIL_MSG_FLAG_BATCH = 0)
    (hplain : compress = false → flags &&& COMMUTIL_MSG_FLAG_COMPRESSED = 0)
    (hgzip : compress = true → z.RoundTrips body) :
    ∃ msg, MsgFrameWriter.prepareMsgFrame z true msgId body compress flags = .ok (.ok msg) ∧
      MsgFrameReader.readMsgFrame z order listener connectionDetails msg =
        .ok (.ok, [.handleMsg connectionDetails msg.m_header body true 1]) := by
  cases compress with
  | false =>
    refine ⟨_, MsgFrameWriter.prepareMsgFrame_plain z msgId flags (by omega), ?_⟩
    apply MsgFrameReader.readMsgFrame_single _ _ hlistener
    · exact MsgFrameReader.readPayload_plain z msgId _ _ (by omega) (hplain rfl)
    · simp [frameOf, MsgHeader.isBatch, hbatch]
  | true =>
    obtain ⟨compressed, hcompress, hdecompress⟩ := hgzip rfl
    have hsmall := Zlib.decompress_length hdecompress
    refine ⟨_, MsgFrameWriter.prepareMsgFrame_compressed z msgId flags hcompress (by omega), ?_⟩
    apply MsgFrameReader.readMsgFrame_single _ _ hlistener
    · exact MsgFrameReader.readPayload_compressed z msgId flags _ (by omega) (by omega) hdecompress
    · rw [isBatch_or rfl, hbatch]
      rfl

/-- A batch is read back as its buffers. -/
theorem batch_round_trip (hlistener : ∀ calls call, listener calls call = .ok)
    {buffers : List (List UInt8)} (hne : ∀ buffer ∈ buffers, buffer ≠ [])
    (hlen : payloadSize buffers < 2 ^ 32 - 40)
    (hplain : compress = false → flags &&& COMMUTIL_MSG_FLAG_COMPRESSED = 0)
    (hgzip : compress = true → z.RoundTrips (batchBytes order buffers)) :
    ∃ msg, MsgFrameWriter.prepareMsgFrameOf z true msgId (MsgBufferArrayWriter buffers order)
        compress (flags ||| COMMUTIL_MSG_FLAG_BATCH) = .ok (.ok msg) ∧
      MsgFrameReader.readMsgFrame z order listener connectionDetails msg =
        .ok (.ok, buffers.mapIdx fun i buffer => .handleMsg connectionDetails msg.m_header buffer
          (i + 1 == buffers.length) buffers.length) := by
  have hwrite := MsgBufferArrayWriter_writeMsg (show payloadSize buffers < 2 ^ 32 by omega) order
  have hbytes := batchBytes_length order buffers
  have hsize : (MsgBufferArrayWriter buffers order).getPayloadSizeBytes =
      (batchBytes order buffers).length := by
    rw [hbytes]
    exact MsgBatchWriter.computePayloadSize_eq (by omega)
  have hcount := length_le_payloadSize buffers
  have hbuffer := buffer_length_lt (show payloadSize buffers < 2 ^ 32 by omega)
  cases compress with
  | false =>
    refine ⟨_, MsgFrameWriter.prepareMsgFrameOf_plain z msgId _ hwrite hsize (by omega), ?_⟩
    apply MsgFrameReader.readMsgFrame_batch _ _ rfl hne hbuffer (by omega) hlistener
    · exact MsgFrameReader.readPayload_plain z msgId _ _ (by omega)
        (compressed_flag_of_batch (hplain rfl))
    · exact batch_flag flags
  | true =>
    obtain ⟨compressed, hcompress, hdecompress⟩ := hgzip rfl
    have hsmall := Zlib.decompress_length hdecompress
    refine ⟨_, MsgFrameWriter.prepareMsgFrameOf_compressed z msgId _ hwrite hsize hcompress
      (by omega), ?_⟩
    apply MsgFrameReader.readMsgFrame_batch _ _ rfl hne hbuffer (by omega) hlistener
    · exact MsgFrameReader.readPayload_compressed z msgId _ _ (by omega) (by omega) hdecompress
    · rw [isBatch_or rfl]
      exact batch_flag flags

/-- **Frame round trip.**  A frame that is built from a body, or from a non-empty array of
    non-empty buffers as a batch, and is read in the same byte order by a listener that accepts
    every message, is handed to the listener as exactly this body or these buffers, in order, the
    last one as the last, without an error call, and the result is `E_OK`. -/
theorem frame_round_trip (hlistener : ∀ calls call, listener calls call = .ok)
    (hplain : compress = false → flags &&& COMMUTIL_MSG_FLAG_COMPRESSED = 0) :
    (∀ body : List UInt8, body.length < 2 ^ 32 - 40 → flags &&& COMMUTIL_MSG_FLAG_BATCH = 0 →
      (compress = true → z.RoundTrips body) →
      ∃ msg, MsgFrameWriter.prepareMsgFrame z true msgId body compress flags = .ok (.ok msg) ∧
        MsgFrameReader.readMsgFrame z order listener connectionDetails msg =
          .ok (.ok, [.handleMsg connectionDetails msg.m_header body true 1])) ∧
    ∀ buffers : List (List UInt8), buffers ≠ [] → (∀ buffer ∈ buffers, buffer ≠ []) →
      payloadSize buffers < 2 ^ 32 - 40 →
      (compress = true → z.RoundTrips (batchBytes order buffers)) →
      ∃ msg, MsgFrameWriter.prepareMsgFrameOf z true msgId (MsgBufferArrayWriter buffers order)
          compress (flags ||| COMMUTIL_MSG_FLAG_BATCH) = .ok (.ok msg) ∧
        MsgFrameReader.readMsgFrame z order listener connectionDetails msg =
          .ok (.ok, buffers.mapIdx fun i buffer => .handleMsg connectionDetails msg.m_header
            buffer (i + 1 == buffers.length) buffers.length) :=
  ⟨fun _ hlen hbatch hgzip =>
      body_round_trip z order msgId flags compress connectionDetails listener hlistener hlen hbatch
        hplain hgzip,
    fun _ _ hne hlen hgzip =>
      batch_round_trip z order msgId flags compress connectionDetails listener hlistener hne hlen
        hplain hgzip⟩

end RoundTrip

/-- gzip on two payloads: the byte `a`, and the batch of `a` and `bc` in network order. -/
def gzipOfTwo : Zlib :=
  .ofWhole
    (fun data =>
      if data = [97] then
        some [31, 139, 8, 0, 0, 0, 0, 0, 2, 3, 75, 4, 0, 67, 190, 183, 232, 1, 0, 0, 0]
      else if data = [0, 0, 0, 2, 0, 0, 0, 1, 97, 0, 0, 0, 2, 98, 99] then
        some [31, 139, 8, 0, 0, 0, 0, 0, 2, 3, 99, 96, 96, 96, 98, 96, 96, 96, 76, 4, 18, 76, 73,
          201, 0, 30, 55, 119, 90, 15, 0, 0, 0]
      else none)
    (fun data =>
      if data = [31, 139, 8, 0, 0, 0, 0, 0, 2, 3, 75, 4, 0, 67, 190, 183, 232, 1, 0, 0, 0] then
        some [97]
      else if data = [31, 139, 8, 0, 0, 0, 0, 0, 2, 3, 99, 96, 96, 96, 98, 96, 96, 96, 76, 4, 18,
          76, 73, 201, 0, 30, 55, 119, 90, 15, 0, 0, 0] then
        some [0, 0, 0, 2, 0, 0, 0, 1, 97, 0, 0, 0, 2, 98, 99]
      else none)

/-- A compressed body and a compressed batch, in network order. -/
theorem frame_round_trip_compressed :
    (∃ msg, MsgFrameWriter.prepareMsgFrame gzipOfTwo true 7 [97] true 0 = .ok (.ok msg) ∧
      MsgFrameReader.readMsgFrame gzipOfTwo .networkOrder (fun _ _ => .ok) () msg =
        .ok (.ok, [.handleMsg () msg.m_header [97] true 1])) ∧
    ∃ msg, MsgFrameWriter.prepareMsgFrameOf gzipOfTwo true 7
        (MsgBufferArrayWriter [[97], [98, 99]] .networkOrder) true (0 ||| COMMUTIL_MSG_FLAG_BATCH) =
          .ok (.ok msg) ∧
      MsgFrameReader.readMsgFrame gzipOfTwo .networkOrder (fun _ _ => .ok) () msg =
        .ok (.ok, [.handleMsg () msg.m_header [97] false 2,
          .handleMsg () msg.m_header [98, 99] true 2]) := by
  have hround := frame_round_trip gzipOfTwo .networkOrder 7 0 true () (fun _ _ => .ok)
    (fun _ _ => rfl) nofun
  exact ⟨hround.1 [97] (by decide) (by decide) fun _ => ⟨_, rfl, rfl⟩,
    hround.2 [[97], [98, 99]] (by decide) (by decide) (by decide) fun _ => ⟨_, rfl, rfl⟩⟩

end Commutil.Framing
