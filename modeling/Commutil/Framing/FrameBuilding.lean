import Commutil.Framing.MsgFrame

/-!
# Building Frames

`prepareMsgBatchFrame` of `msg_frame_writer.cpp` beside the batch frames of
`msg_sender.cpp`, and the size arithmetic of `prepareMsgFrame`, `allocMsg` and
`computePayloadSize`.

Sizes are narrowed to 32 bits before the buffer is allocated, and the bytes are
copied with their own length.  The main results say which flags make the two
batch frames agree, and which sizes keep every byte.
-/

namespace Commutil.Framing

open Commutil.Io Commutil.Library

/-! ## §1 Batch frames -/

/-- `MsgFrameWriter::prepareMsgBatchFrame`. -/
def MsgFrameWriter.prepareMsgBatchFrame (z : Zlib) (allocated : Bool) (msgId : UInt16)
    (bufferArray : List (List UInt8)) (byteOrder : ByteOrder) (compress : Bool) (flags : UInt16) :
    Except Fault (Except ErrorCode Msg) :=
  prepareMsgFrameOf z allocated msgId (MsgBufferArrayWriter bufferArray byteOrder) compress flags

namespace MsgSender

/-- The frame that `MsgSender::sendMsgBatch` hands to its message client. -/
def sendMsgBatchFrame (z : Zlib) (allocated m_stopResend : Bool) (msgId : UInt16)
    (bufferArray : List (List UInt8)) (byteOrder : ByteOrder) (compress : Bool) (flags : UInt16) :
    Except Fault (Except ErrorCode Msg) :=
  if m_stopResend then .ok (.error .invalidState)
  else
    let writer := MsgBufferArrayWriter bufferArray byteOrder
    let flags := flags ||| COMMUTIL_MSG_FLAG_BATCH
    MsgFrameWriter.prepareMsgFrameOf z allocated msgId writer compress flags

/-- The frame that `MsgSender::transactMsg` builds with a message writer. -/
def transactMsgFrame (z : Zlib) (allocated m_stopResend : Bool) (msgId : UInt16)
    (msgWriter : MsgWriter) (compress : Bool) (flags : UInt16) :
    Except Fault (Except ErrorCode Msg) :=
  if m_stopResend then .ok (.error .invalidState)
  else MsgFrameWriter.prepareMsgFrameOf z allocated msgId msgWriter compress flags

/-- The frame that `MsgSender::transactMsgBatch` hands to its message client. -/
def transactMsgBatchFrame (z : Zlib) (allocated m_stopResend : Bool) (msgId : UInt16)
    (bufferArray : List (List UInt8)) (byteOrder : ByteOrder) (compress : Bool) (flags : UInt16) :
    Except Fault (Except ErrorCode Msg) :=
  let writer := MsgBufferArrayWriter bufferArray byteOrder
  let flags := flags ||| COMMUTIL_MSG_FLAG_BATCH
  transactMsgFrame z allocated m_stopResend msgId writer compress flags

end MsgSender

/-! ## §2 From allocation to the copy -/

/-- What both forms of `prepareMsgFrame` end with: a message with room for `size` bytes, and the
    payload copied into it. -/
def copyIntoFrame (allocated : Bool) (msgId flags : UInt16) (edit : MsgHeader → MsgHeader)
    (size : Nat) (payload : List UInt8) : Except Fault (Except ErrorCode Msg) :=
  match allocMsgOf msgId flags 0 0 size allocated with
  | .error fault => .error fault
  | .ok none => .ok (.error .nomem)
  | .ok (some header) => (fillPayload (edit header) payload).map .ok

/-- The bytes of a payload that are sent. -/
def sentBytes (z : Zlib) (compress : Bool) (payload : List UInt8) : Except Fault (List UInt8) :=
  if compress then z.compress payload else .ok payload

/-- The flags of a frame. -/
def sentFlags (compress : Bool) (flags : UInt16) : UInt16 :=
  if compress then flags ||| COMMUTIL_MSG_FLAG_COMPRESSED else flags

private theorem bind_copy (alloc : Except Fault (Option MsgHeader)) (edit : MsgHeader → MsgHeader)
    (payload : List UInt8) :
    (alloc >>= fun header => match header with
      | none => pure (.error .nomem)
      | some header => do
        let msg ← fillPayload (edit header) payload
        pure (.ok msg)) =
      match alloc with
      | .error fault => .error fault
      | .ok none => .ok (.error .nomem)
      | .ok (some header) =>
        (fillPayload (edit header) payload).map (Except.ok (ε := ErrorCode)) := by
  cases alloc with
  | error fault => rfl
  | ok header =>
    cases header with
    | none => rfl
    | some header =>
      cases h : fillPayload (edit header) payload <;> simp [bind, Except.bind, Except.map, pure,
        Except.pure, h]

private theorem copy_error {alloc : Except Fault (Option MsgHeader)}
    {edit : MsgHeader → MsgHeader} {payload : List UInt8} {rc : ErrorCode}
    (h : (match alloc with
      | .error fault => .error fault
      | .ok none => .ok (.error .nomem)
      | .ok (some header) => (fillPayload (edit header) payload).map Except.ok) =
        Except.ok (.error rc)) : rc = .nomem := by
  rcases alloc with fault | _ | header
  · cases h
  · cases h
    rfl
  · obtain ⟨msg, -, hmsg⟩ := of_map_ok h
    cases hmsg

theorem prepareMsgFrame_eq (z : Zlib) (allocated : Bool) (msgId : UInt16) (body : List UInt8)
    (compress : Bool) (flags : UInt16) :
    MsgFrameWriter.prepareMsgFrame z allocated msgId body compress flags =
      match sentBytes z compress body with
      | .error fault => .error fault
      | .ok payload =>
        copyIntoFrame allocated msgId (sentFlags compress flags) (fun header =>
          if compress then { header with m_uncompressedLength := .ofNat body.length } else header)
          (payload.length % 2 ^ 32) payload := by
  cases compress with
  | false => exact bind_copy _ id body
  | true =>
    have hsent : sentBytes z true body = z.compress body := if_pos rfl
    rw [hsent]
    unfold MsgFrameWriter.prepareMsgFrame
    cases z.compress body with
    | error fault => rfl
    | ok payload =>
      exact bind_copy _ (fun header => { header with m_uncompressedLength := .ofNat body.length })
        payload

section Writer

variable (z : Zlib) (allocated : Bool) (msgId flags : UInt16) {writer : MsgWriter}

/-- A writer that writes its whole payload fills a frame with it, compressed or not. -/
theorem prepareMsgFrameOf_eq {bytes : List UInt8} (hwrite : writer.writeMsg = .ok bytes)
    (hsize : writer.getPayloadSizeBytes = bytes.length) (hlt : bytes.length < 2 ^ 32)
    (compress : Bool) :
    MsgFrameWriter.prepareMsgFrameOf z allocated msgId writer compress flags =
      match sentBytes z compress bytes with
      | .error fault => .error fault
      | .ok payload =>
        copyIntoFrame allocated msgId (sentFlags compress flags) (fun header =>
          if compress then { header with
            m_uncompressedLength := .ofNat writer.getPayloadSizeBytes
            m_batchSize := writer.getBatchSize }
          else { header with m_batchSize := writer.getBatchSize })
          (payload.length % 2 ^ 32) payload := by
  cases compress with
  | false =>
    have hmod : bytes.length % 2 ^ 32 = bytes.length := Nat.mod_eq_of_lt hlt
    have hcopy := bind_copy (allocMsgOf msgId flags 0 0 bytes.length allocated)
      (fun header => { header with m_batchSize := writer.getBatchSize }) bytes
    simp only [sentBytes, Bool.false_eq_true, if_false, hmod]
    unfold MsgFrameWriter.prepareMsgFrameOf
    rw [if_neg (by decide), hsize, hwrite]
    exact hcopy
  | true =>
    have hsent : sentBytes z true bytes = z.compress bytes := if_pos rfl
    have hbuf : MsgFrameWriter.writeToBuffer writer bytes = .ok bytes := by
      unfold MsgFrameWriter.writeToBuffer
      rw [hsize, if_neg (Nat.lt_irrefl _), Nat.sub_self, List.replicate_zero, List.append_nil]
    rw [hsent]
    unfold MsgFrameWriter.prepareMsgFrameOf
    rw [if_pos rfl, hwrite]
    dsimp only
    rw [bind_of_ok hbuf]
    cases z.compress bytes with
    | error fault => rfl
    | ok payload =>
      exact bind_copy _ (fun header => { header with
        m_uncompressedLength := .ofNat writer.getPayloadSizeBytes
        m_batchSize := writer.getBatchSize }) payload

/-- A writer that fails leaves no frame; without compression the message was allocated before. -/
theorem prepareMsgFrameOf_failed {rc : ErrorCode} (hwrite : writer.writeMsg = .error rc)
    (compress : Bool) :
    MsgFrameWriter.prepareMsgFrameOf z allocated msgId writer compress flags =
      if compress then .ok (.error rc)
      else
        match allocMsgOf msgId flags 0 0 writer.getPayloadSizeBytes allocated with
        | .error fault => .error fault
        | .ok none => .ok (.error .nomem)
        | .ok (some _) => .ok (.error rc) := by
  unfold MsgFrameWriter.prepareMsgFrameOf
  cases compress with
  | false =>
    rw [if_neg (by decide), if_neg (by decide), hwrite]
    cases allocMsgOf msgId flags 0 0 writer.getPayloadSizeBytes allocated with
    | error fault => rfl
    | ok header => cases header <;> rfl
  | true => rw [if_pos rfl, if_pos rfl, hwrite]

/-- The errors of building a frame are those of the allocation and of the writer. -/
theorem prepareMsgFrameOf_error {compress : Bool} {rc : ErrorCode}
    (h : MsgFrameWriter.prepareMsgFrameOf z allocated msgId writer compress flags =
        .ok (.error rc)) :
    rc = .nomem ∨ writer.writeMsg = .error rc := by
  cases hwrite : writer.writeMsg with
  | error rc' =>
    rw [prepareMsgFrameOf_failed z allocated msgId flags hwrite] at h
    cases compress with
    | true =>
      rw [if_pos rfl] at h
      cases h
      exact .inr rfl
    | false =>
      rw [if_neg (by decide)] at h
      generalize allocMsgOf msgId flags 0 0 writer.getPayloadSizeBytes allocated = alloc at h
      rcases alloc with fault | _ | header
      · cases h
      · cases h
        exact .inl rfl
      · cases h
        exact .inr rfl
  | ok bytes =>
    left
    unfold MsgFrameWriter.prepareMsgFrameOf at h
    cases compress with
    | true =>
      rw [if_pos rfl, hwrite] at h
      obtain ⟨buf, -, h⟩ := of_bind_ok h
      obtain ⟨compressedBody, -, h⟩ := of_bind_ok h
      exact copy_error ((bind_copy _ (fun header => { header with
        m_uncompressedLength := .ofNat writer.getPayloadSizeBytes
        m_batchSize := writer.getBatchSize }) compressedBody).symm.trans h)
    | false =>
      rw [if_neg (by decide), hwrite] at h
      dsimp only at h
      exact copy_error ((bind_copy _
        (fun header => { header with m_batchSize := writer.getBatchSize }) bytes).symm.trans h)

end Writer

theorem prepareMsgFrame_error {z : Zlib} {allocated compress : Bool} {msgId flags : UInt16}
    {body : List UInt8} {rc : ErrorCode}
    (h : MsgFrameWriter.prepareMsgFrame z allocated msgId body compress flags = .ok (.error rc)) :
    rc = .nomem := by
  rw [prepareMsgFrame_eq] at h
  generalize sentBytes z compress body = sent at h
  cases sent with
  | error fault => cases h
  | ok payload => exact copy_error h

/-! ## §3 What is written of a batch -/

/-- The buffers as their 32-bit sizes see them. -/
def narrowed (buffers : List (List UInt8)) : List (List UInt8) :=
  buffers.map fun buffer => buffer.take (buffer.length % 2 ^ 32)

theorem narrowed_eq_self {buffers : List (List UInt8)}
    (h : ∀ buffer ∈ buffers, buffer.length < 2 ^ 32) : narrowed buffers = buffers := by
  refine (List.map_congr_left ?_).trans (List.map_id buffers)
  intro buffer hmem
  rw [Nat.mod_eq_of_lt (h buffer hmem), List.take_length, id]

/-- A buffer that loses bytes makes the payload shorter than it has to be. -/
theorem narrowed_payloadSize_lt {buffers : List (List UInt8)}
    (h : ¬ ∀ buffer ∈ buffers, buffer.length < 2 ^ 32) :
    payloadSize (narrowed buffers) < payloadSize buffers := by
  push Not at h
  obtain ⟨long, hmem, hlong⟩ := h
  unfold payloadSize narrowed
  rw [List.map_map]
  apply Nat.add_lt_add_left
  apply List.sum_lt_sum
  · intro buffer _
    simp only [Function.comp_apply, List.length_take]
    omega
  · refine ⟨long, hmem, ?_⟩
    have hmod : long.length % 2 ^ 32 < 2 ^ 32 := Nat.mod_lt _ (by decide)
    simp only [Function.comp_apply, List.length_take]
    omega

namespace MsgBatchWriter

private theorem computePayloadSize_fold_mod (buffers : List (List UInt8)) (size : Nat) :
    buffers.foldl (fun payloadSize msgBuffer =>
      add32 (add32 payloadSize 4) (msgBuffer.length % 2 ^ 32)) size % 2 ^ 32 =
      (size + ((narrowed buffers).map fun buffer => 4 + buffer.length).sum) % 2 ^ 32 := by
  induction buffers generalizing size with
  | nil => simp [narrowed]
  | cons buffer rest ih =>
    have htake : min (buffer.length % 2 ^ 32) buffer.length = buffer.length % 2 ^ 32 :=
      Nat.min_eq_left (Nat.mod_le _ _)
    rw [List.foldl_cons, ih]
    unfold narrowed add32
    simp only [List.map_cons, List.sum_cons, List.length_take, htake]
    omega

/-- **`computePayloadSize`** is the size of what is written, up to the wrap of its counter. -/
theorem computePayloadSize_mod (buffers : List (List UInt8)) :
    computePayloadSize buffers = payloadSize (narrowed buffers) % 2 ^ 32 := by
  have hfold := computePayloadSize_fold_mod buffers 4
  have hlt : computePayloadSize buffers < 2 ^ 32 := by
    unfold computePayloadSize
    rcases List.eq_nil_or_concat buffers with rfl | ⟨rest, last, rfl⟩
    · decide
    · rw [List.concat_eq_append, List.foldl_append]
      exact Nat.mod_lt _ (by decide)
  exact (Nat.mod_eq_of_lt hlt).symm.trans hfold

theorem serializeBuffer_narrowed (os : FixedOutputStream) (buffer : List UInt8) :
    os.serializeBuffer (buffer.take (buffer.length % 2 ^ 32)) = os.serializeBuffer buffer := by
  have htake : min (buffer.length % 2 ^ 32) buffer.length = buffer.length % 2 ^ 32 :=
    Nat.min_eq_left (Nat.mod_le _ _)
  unfold FixedOutputStream.serializeBuffer FixedOutputStream.serializeLengthPrepended
  simp only [List.length_take, htake, Nat.mod_mod, List.take_take, min_self]

/-- Only the bytes that the 32-bit sizes count are written. -/
theorem writeBatch_narrowed (os : FixedOutputStream) (buffers : List (List UInt8)) :
    writeBatch os (narrowed buffers) = writeBatch os buffers := by
  unfold writeBatch narrowed
  rw [List.length_map]
  simp only [List.foldlM_map, serializeBuffer_narrowed]

/-- A stream `os'` that has `n` more bytes than `os`, within the same buffer. -/
private structure Grown (os os' : FixedOutputStream) (n : Nat) : Prop where
  size : os'.m_bufferSize = os.m_bufferSize
  length : os'.m_buffer.length = os.m_buffer.length + n
  room : os'.m_buffer.length ≤ os'.m_bufferSize

private theorem Grown.trans {os os' os'' : FixedOutputStream} {m n : Nat} (h : Grown os os' m)
    (h' : Grown os' os'' n) : Grown os os'' (m + n) := by
  refine ⟨h'.size.trans h.size, ?_, h'.room⟩
  rw [h'.length, h.length, Nat.add_assoc]

private theorem writeBytes_grown {os os' : FixedOutputStream} {bytes : List UInt8}
    (hos : os.m_buffer.length ≤ os.m_bufferSize) (h : os.writeBytes bytes = .ok os') :
    Grown os os' bytes.length := by
  unfold FixedOutputStream.writeBytes at h
  split at h
  · cases h
  · cases h
    have hlength : (os.m_buffer ++ bytes).length = os.m_buffer.length + bytes.length :=
      List.length_append
    exact ⟨rfl, hlength, by dsimp only; omega⟩

private theorem serializeBuffer_grown {os os' : FixedOutputStream} {buffer : List UInt8}
    (hos : os.m_buffer.length ≤ os.m_bufferSize) (h : os.serializeBuffer buffer = .ok os') :
    Grown os os' (4 + (buffer.take (buffer.length % 2 ^ 32)).length) := by
  obtain ⟨os₁, hnum, hbytes⟩ := of_bind_ok h
  have hgrown := writeBytes_grown hos hnum
  rw [encodeUInt_length] at hgrown
  exact hgrown.trans (writeBytes_grown hgrown.room hbytes)

private theorem serializeBuffers_grown {buffers : List (List UInt8)} {os os' : FixedOutputStream}
    (hos : os.m_buffer.length ≤ os.m_bufferSize)
    (h : buffers.foldlM FixedOutputStream.serializeBuffer os = .ok os') :
    Grown os os' ((narrowed buffers).map fun buffer => 4 + buffer.length).sum := by
  induction buffers generalizing os with
  | nil =>
    cases h
    exact ⟨rfl, rfl, hos⟩
  | cons buffer rest ih =>
    rw [List.foldlM_cons] at h
    obtain ⟨os₁, hhead, hrest⟩ := of_bind_ok h
    have hgrown := serializeBuffer_grown hos hhead
    have htotal := hgrown.trans (ih hgrown.room hrest)
    simpa only [narrowed, List.map_cons, List.sum_cons] using htotal

/-- A batch is only written if its payload fits the buffer. -/
theorem writeBatch_room {size : Nat} {order : ByteOrder} {buffers : List (List UInt8)}
    {os' : FixedOutputStream} (h : writeBatch (.new size order) buffers = .ok os') :
    payloadSize (narrowed buffers) ≤ size := by
  obtain ⟨os₁, hnum, hbuffers⟩ := of_bind_ok h
  have hgrown := writeBytes_grown (Nat.zero_le _) hnum
  rw [encodeUInt_length] at hgrown
  have htotal := hgrown.trans (serializeBuffers_grown hgrown.room hbuffers)
  have hroom := htotal.room
  rw [htotal.length, htotal.size] at hroom
  exact Nat.le_trans (Nat.le_add_left _ _) hroom

end MsgBatchWriter

section BatchWriter

variable (buffers : List (List UInt8)) (order : ByteOrder)

theorem MsgBufferArrayWriter_writes (h : payloadSize (narrowed buffers) < 2 ^ 32) :
    (MsgBufferArrayWriter buffers order).writeMsg = .ok (batchBytes order (narrowed buffers)) ∧
      (MsgBufferArrayWriter buffers order).getPayloadSizeBytes =
        (batchBytes order (narrowed buffers)).length := by
  have hsize : MsgBatchWriter.computePayloadSize buffers = payloadSize (narrowed buffers) := by
    rw [MsgBatchWriter.computePayloadSize_mod, Nat.mod_eq_of_lt h]
  constructor
  · unfold MsgBufferArrayWriter
    dsimp only
    rw [hsize, ← MsgBatchWriter.writeBatch_narrowed, MsgBatchWriter.writeBatch_eq h]
    rfl
  · rw [batchBytes_length]
    exact hsize

/-- Writing a batch runs out of room, or succeeds. -/
theorem MsgBufferArrayWriter_error {rc : ErrorCode}
    (h : (MsgBufferArrayWriter buffers order).writeMsg = .error rc) : rc = .nomem := by
  have hbytes : ∀ (os : FixedOutputStream) (bytes : List UInt8) (rc : ErrorCode),
      os.writeBytes bytes = .error rc → rc = .nomem := by
    intro os bytes rc hwrite
    unfold FixedOutputStream.writeBytes at hwrite
    split at hwrite
    · cases hwrite
      rfl
    · cases hwrite
  have hbuffers : ∀ (l : List (List UInt8)) (os : FixedOutputStream),
      l.foldlM FixedOutputStream.serializeBuffer os = .error rc → rc = .nomem := by
    intro l
    induction l with
    | nil => exact fun os hwrite => nomatch hwrite
    | cons buffer l ih =>
      intro os hwrite
      rw [List.foldlM_cons] at hwrite
      rcases of_bind_error hwrite with hfirst | ⟨os', -, hrest⟩
      · rcases of_bind_error hfirst with hlength | ⟨os', -, hcopy⟩
        · exact hbytes _ _ _ hlength
        · exact hbytes _ _ _ hcopy
      · exact ih os' hrest
  rcases of_bind_error h with hbatch | ⟨os, -, hpure⟩
  · rcases of_bind_error hbatch with hcount | ⟨os, -, hrest⟩
    · exact hbytes _ _ _ hcount
    · exact hbuffers buffers os hrest
  · cases hpure

/-- A batch whose size wraps does not fit the buffer that its wrapped size gives it. -/
theorem MsgBufferArrayWriter_fails (h : 2 ^ 32 ≤ payloadSize (narrowed buffers)) :
    ∃ rc, (MsgBufferArrayWriter buffers order).writeMsg = .error rc := by
  cases hwrite : (MsgBufferArrayWriter buffers order).writeMsg with
  | error rc => exact ⟨rc, rfl⟩
  | ok bytes =>
    obtain ⟨os', hbatch, _⟩ := of_bind_ok hwrite
    have hroom := MsgBatchWriter.writeBatch_room hbatch
    have hlt : MsgBatchWriter.computePayloadSize buffers < 2 ^ 32 := by
      rw [MsgBatchWriter.computePayloadSize_mod]
      exact Nat.mod_lt _ (by decide)
    omega

end BatchWriter

/-! ## §4 The two batch frames -/

private theorem batch_bit {i : Nat} (hi : i < 16) :
    COMMUTIL_MSG_FLAG_BATCH.toBitVec[i] = decide (i = 1) := by
  revert i
  decide

/-- Setting a flag that is set changes nothing. -/
theorem or_batch_flag {flags : UInt16} (h : flags &&& COMMUTIL_MSG_FLAG_BATCH ≠ 0) :
    flags ||| COMMUTIL_MSG_FLAG_BATCH = flags := by
  have hbit : flags.toBitVec[1] = true := by
    by_contra hclear
    apply h
    apply UInt16.toBitVec_inj.mp
    ext i hi
    rw [UInt16.toBitVec_and, BitVec.getElem_and, batch_bit hi]
    by_cases hi1 : i = 1
    · subst hi1
      simpa using hclear
    · simp [hi1]
  apply UInt16.toBitVec_inj.mp
  ext i hi
  rw [UInt16.toBitVec_or, BitVec.getElem_or, batch_bit hi]
  by_cases hi1 : i = 1
  · subst hi1
    simp [hbit]
  · simp [hi1]

/-- Compression leaves the batch flag alone. -/
theorem sentFlags_batch (compress : Bool) (flags : UInt16) :
    sentFlags compress flags &&& COMMUTIL_MSG_FLAG_BATCH = flags &&& COMMUTIL_MSG_FLAG_BATCH := by
  cases compress with
  | false => rfl
  | true =>
    have hzero : COMMUTIL_MSG_FLAG_COMPRESSED &&& COMMUTIL_MSG_FLAG_BATCH = 0 := by decide
    unfold sentFlags
    rw [if_pos rfl, or_and_flag, hzero, UInt16.or_zero]

private theorem fillPayload_header {header : MsgHeader} {payload : List UInt8} {frame : Msg}
    (h : fillPayload header payload = .ok frame) : frame.m_header = header := by
  unfold fillPayload at h
  dsimp only at h
  split at h
  · cases h
  · cases h
    rfl

theorem copyIntoFrame_flags {allocated : Bool} {msgId flags : UInt16}
    {edit : MsgHeader → MsgHeader} (hedit : ∀ header, (edit header).m_flags = header.m_flags)
    {size : Nat} {payload : List UInt8} {frame : Msg}
    (h : copyIntoFrame allocated msgId flags edit size payload = .ok (.ok frame)) :
    allocated = true ∧ frame.m_header.m_flags = flags := by
  unfold copyIntoFrame allocMsgOf at h
  cases allocated with
  | false => cases h
  | true =>
    refine ⟨rfl, ?_⟩
    rw [if_neg (by decide)] at h
    by_cases hsize : add32 sizeofMsgHeader size < sizeofMsgHeader
    · rw [if_pos hsize] at h
      cases h
    · rw [if_neg hsize] at h
      dsimp only at h
      obtain ⟨msg, hfill, hmsg⟩ := of_map_ok h
      cases hmsg
      rw [fillPayload_header hfill]
      exact hedit _

/-- The flags of a batch frame are those that the frame writer is given. -/
theorem prepareMsgBatchFrame_flags {z : Zlib} {allocated : Bool} {msgId : UInt16}
    {bufferArray : List (List UInt8)} {byteOrder : ByteOrder} {compress : Bool} {flags : UInt16}
    {frame : Msg} (h : MsgFrameWriter.prepareMsgBatchFrame z allocated msgId bufferArray byteOrder
      compress flags = .ok (.ok frame)) :
    allocated = true ∧ frame.m_header.m_flags = sentFlags compress flags := by
  unfold MsgFrameWriter.prepareMsgBatchFrame at h
  by_cases hfits : payloadSize (narrowed bufferArray) < 2 ^ 32
  · obtain ⟨hwrite, hsize⟩ := MsgBufferArrayWriter_writes bufferArray byteOrder hfits
    have hlt : (batchBytes byteOrder (narrowed bufferArray)).length < 2 ^ 32 := by
      rw [batchBytes_length]
      exact hfits
    rw [prepareMsgFrameOf_eq z allocated msgId flags hwrite hsize hlt] at h
    cases hsent : sentBytes z compress (batchBytes byteOrder (narrowed bufferArray)) with
    | error fault =>
      rw [hsent] at h
      cases h
    | ok payload =>
      rw [hsent] at h
      exact copyIntoFrame_flags (fun header => by cases compress <;> rfl) h
  · -- the size has wrapped, and the writer leaves no frame
    obtain ⟨rc, hwrite⟩ := MsgBufferArrayWriter_fails bufferArray byteOrder (Nat.not_lt.mp hfits)
    rw [prepareMsgFrameOf_failed z allocated msgId flags hwrite] at h
    split at h
    · cases h
    · split at h <;> cases h

/-- The frame is read as the buffers of the batch, wherever the batch can be read back at all. -/
def UnpacksInto (z : Zlib) (order : ByteOrder) (bufferArray : List (List UInt8)) (compress : Bool)
    (flags : UInt16) (frame : Msg) : Prop :=
  ∀ (κ : Type) (connectionDetails : κ) (listener : MsgFrameListener κ),
    (∀ calls call, listener calls call = .ok) → (∀ buffer ∈ bufferArray, buffer ≠ []) →
    payloadSize bufferArray < 2 ^ 32 - 40 →
    (compress = false → flags &&& COMMUTIL_MSG_FLAG_COMPRESSED = 0) →
    (compress = true → z.RoundTrips (batchBytes order bufferArray)) →
    MsgFrameReader.readMsgFrame z order listener connectionDetails frame =
      .ok (.ok, bufferArray.mapIdx fun i buffer => .handleMsg connectionDetails frame.m_header
        buffer (i + 1 == bufferArray.length) bufferArray.length)

section BatchFrames

variable (z : Zlib) (allocated : Bool) (msgId : UInt16) (bufferArray : List (List UInt8))
  (byteOrder : ByteOrder) (compress : Bool) (flags : UInt16)

/-- **Batch frames.**  `prepareMsgBatchFrame` builds the frame that `sendMsgBatch` and
    `transactMsgBatch` build from the same arguments, one that is unpacked into the messages of the
    batch, exactly if its caller sets the batch flag. -/
theorem batch_frames_agree_iff {frame : Msg}
    (hframe : MsgFrameWriter.prepareMsgBatchFrame z allocated msgId bufferArray byteOrder compress
      flags = .ok (.ok frame)) :
    (MsgSender.sendMsgBatchFrame z allocated false msgId bufferArray byteOrder compress flags =
        .ok (.ok frame) ∧
      MsgSender.transactMsgBatchFrame z allocated false msgId bufferArray byteOrder compress flags =
        .ok (.ok frame) ∧
      UnpacksInto z byteOrder bufferArray compress flags frame) ↔
      flags &&& COMMUTIL_MSG_FLAG_BATCH ≠ 0 := by
  obtain ⟨hallocated, hflags⟩ := prepareMsgBatchFrame_flags hframe
  constructor
  · rintro ⟨hsend, -, -⟩
    -- the flags of the sender's frame hold the batch flag whatever the caller passes
    have hsent := (prepareMsgBatchFrame_flags hsend).2
    rw [hflags] at hsent
    have hbatch := sentFlags_batch compress flags
    rw [hsent, sentFlags_batch] at hbatch
    rw [← hbatch]
    exact bne_iff_ne.mp (batch_flag flags)
  · intro hbatch
    have hsame := or_batch_flag hbatch
    have hsend : MsgFrameWriter.prepareMsgFrameOf z allocated msgId
        (MsgBufferArrayWriter bufferArray byteOrder) compress
          (flags ||| COMMUTIL_MSG_FLAG_BATCH) = .ok (.ok frame) := by
      rw [hsame]
      exact hframe
    refine ⟨hsend, hsend, ?_⟩
    intro κ connectionDetails listener hlistener hne hlen hplain hgzip
    subst hallocated
    obtain ⟨msg, hbuilt, hread⟩ := batch_round_trip z byteOrder msgId flags compress
      connectionDetails listener hlistener hne hlen hplain hgzip
    rw [hsend] at hbuilt
    cases hbuilt
    exact hread

end BatchFrames

/-- A batch of one buffer, with and without the flag. -/
theorem batch_frames_agree_flagged :
    COMMUTIL_MSG_FLAG_BATCH &&& COMMUTIL_MSG_FLAG_BATCH ≠ 0 ∧
      ∃ frame, MsgSender.sendMsgBatchFrame gzipOfTwo true false 7 [[97]] .networkOrder false
          COMMUTIL_MSG_FLAG_BATCH = .ok (.ok frame) ∧
        MsgSender.transactMsgBatchFrame gzipOfTwo true false 7 [[97]] .networkOrder false
          COMMUTIL_MSG_FLAG_BATCH = .ok (.ok frame) ∧
        UnpacksInto gzipOfTwo .networkOrder [[97]] false COMMUTIL_MSG_FLAG_BATCH frame :=
  ⟨by decide, _, (batch_frames_agree_iff gzipOfTwo true 7 [[97]] .networkOrder false
    COMMUTIL_MSG_FLAG_BATCH rfl).mpr (by decide)⟩

/-- Without the flag the batch of `a` and `bc` is one message to its receiver, with the sizes of
    the buffers in its bytes. -/
theorem batch_frames_differ :
    ∃ frame batchFrame,
      MsgFrameWriter.prepareMsgBatchFrame gzipOfTwo true 7 [[97], [98, 99]] .networkOrder false 0 =
        .ok (.ok frame) ∧
      MsgSender.sendMsgBatchFrame gzipOfTwo true false 7 [[97], [98, 99]] .networkOrder false 0 =
        .ok (.ok batchFrame) ∧
      MsgSender.transactMsgBatchFrame gzipOfTwo true false 7 [[97], [98, 99]] .networkOrder
          false 0 =
        .ok (.ok batchFrame) ∧
      frame ≠ batchFrame ∧
      MsgFrameReader.readMsgFrame gzipOfTwo .networkOrder (fun _ _ => .ok) () frame =
        .ok (.ok, [.handleMsg () frame.m_header
          [0, 0, 0, 2, 0, 0, 0, 1, 97, 0, 0, 0, 2, 98, 99] true 1]) ∧
      MsgFrameReader.readMsgFrame gzipOfTwo .networkOrder (fun _ _ => .ok) () batchFrame =
        .ok (.ok, [.handleMsg () batchFrame.m_header [97] false 2,
          .handleMsg () batchFrame.m_header [98, 99] true 2]) := by
  refine ⟨_, _, rfl, rfl, rfl, ?_, ?_, ?_⟩ <;> decide

/-! ## §5 What it takes to keep every byte -/

/-- A frame with room for all the bytes that are sent, and these bytes in it. -/
structure HoldsAll (sent : List UInt8) (frame : Msg) : Prop where
  length : frame.m_header.m_length.toNat = sizeofMsgHeader + sent.length
  room : frame.m_header.m_length.toNat ≤ sizeofMsgHeader + frame.m_payload.length
  bytes : frame.m_payload.take sent.length = sent

/-- An error is returned, or a frame that holds all the bytes that are sent. -/
def KeepsBytes (bytes : Except Fault (List UInt8)) (built : Except Fault (Except ErrorCode Msg)) :
    Prop :=
  (∃ rc, built = .ok (.error rc)) ∨
    ∃ sent frame, bytes = .ok sent ∧ built = .ok (.ok frame) ∧ HoldsAll sent frame

theorem KeepsBytes.of_error {bytes : Except Fault (List UInt8)} (rc : ErrorCode) :
    KeepsBytes bytes (.ok (.error rc)) :=
  .inl ⟨rc, rfl⟩

theorem not_keepsBytes_fault (bytes : Except Fault (List UInt8)) (fault : Fault) :
    ¬ KeepsBytes bytes (.error fault) := by
  rintro (⟨rc, h⟩ | ⟨sent, frame, -, h, -⟩) <;> cases h

theorem keepsBytes_frame {bytes : Except Fault (List UInt8)} {frame : Msg} :
    KeepsBytes bytes (.ok (.ok frame)) ↔ ∃ sent, bytes = .ok sent ∧ HoldsAll sent frame := by
  constructor
  · rintro (⟨rc, h⟩ | ⟨sent, frame', hbytes, h, hholds⟩)
    · cases h
    · cases h
      exact ⟨sent, hbytes, hholds⟩
  · rintro ⟨sent, hbytes, hholds⟩
    exact .inr ⟨sent, frame, hbytes, rfl, hholds⟩

/-- From `2^32 - 40` on the buffer is smaller than the header that is written into it. -/
theorem allocMsgOf_overflow (msgId flags : UInt16) {size : Nat} (h : 2 ^ 32 - 40 ≤ size)
    (hlt : size < 2 ^ 32) : allocMsgOf msgId flags 0 0 size true = .error .heapOverflow := by
  have hwrap : add32 sizeofMsgHeader size < sizeofMsgHeader := by
    simp only [add32, sizeofMsgHeader]
    omega
  unfold allocMsgOf
  dsimp only
  rw [if_neg (by decide), if_pos hwrap]

/-- More bytes than there is room for are written past the end of the buffer. -/
theorem fillPayload_overflow {header : MsgHeader} {size : Nat} (h : 40 + size < 2 ^ 32)
    (hheader : header.m_length = .ofNat (40 + size)) {payload : List UInt8}
    (hlong : size < payload.length) : fillPayload header payload = .error .heapOverflow := by
  have hlen : header.m_length.toNat = 40 + size := by
    rw [hheader, UInt32.toNat_ofNat_of_lt' h]
  have hroom : header.m_length.toNat - sizeofMsgHeader = size := by
    rw [hlen]
    exact Nat.add_sub_cancel_left 40 _
  unfold fillPayload
  dsimp only
  rw [hroom, if_pos hlong]

section Copy

variable (msgId flags : UInt16) {edit : MsgHeader → MsgHeader}
  (hedit : ∀ header, (edit header).m_length = header.m_length) {payload : List UInt8}

include hedit

/-- A payload that fits is copied whole. -/
theorem copyIntoFrame_fits (h : payload.length < 2 ^ 32 - 40) :
    ∃ frame, copyIntoFrame true msgId flags edit (payload.length % 2 ^ 32) payload =
      .ok (.ok frame) ∧ frame.m_header.m_length.toNat = sizeofMsgHeader + payload.length ∧
        frame.m_payload = payload := by
  have hmod : payload.length % 2 ^ 32 = payload.length := Nat.mod_eq_of_lt (by omega)
  have hfit : 40 + payload.length < 2 ^ 32 := by omega
  have hlen : (edit (.mk' (.ofNat (40 + payload.length)) msgId flags 0 0)).m_length =
      .ofNat (40 + payload.length) := hedit _
  unfold copyIntoFrame
  rw [hmod, allocMsgOf_eq hfit]
  dsimp only
  rw [fillPayload_alloc hfit _ hlen]
  refine ⟨_, rfl, ?_, rfl⟩
  rw [hlen, UInt32.toNat_ofNat_of_lt' hfit]
  rfl

/-- A payload that does not fit overflows the heap: the constructor of the message does, or the
    copy with the length that was not narrowed. -/
theorem copyIntoFrame_overflow (h : ¬ payload.length < 2 ^ 32 - 40) :
    copyIntoFrame true msgId flags edit (payload.length % 2 ^ 32) payload =
      .error .heapOverflow := by
  have hlt : payload.length % 2 ^ 32 < 2 ^ 32 := Nat.mod_lt _ (by decide)
  obtain ⟨size, hsize⟩ : ∃ size, size = payload.length % 2 ^ 32 := ⟨_, rfl⟩
  rw [← hsize] at hlt ⊢
  unfold copyIntoFrame
  by_cases hwrap : 2 ^ 32 - 40 ≤ size
  · rw [allocMsgOf_overflow msgId flags hwrap hlt]
  · have hfit : 40 + size < 2 ^ 32 := by omega
    have hlen : (edit (.mk' (.ofNat (40 + size)) msgId flags 0 0)).m_length = .ofNat (40 + size) :=
      hedit _
    have hlong : size < payload.length := by omega
    rw [allocMsgOf_eq hfit]
    dsimp only
    rw [fillPayload_overflow hfit hlen hlong]
    rfl

theorem copyIntoFrame_keeps_iff (allocated : Bool) :
    KeepsBytes (.ok payload)
        (copyIntoFrame allocated msgId flags edit (payload.length % 2 ^ 32) payload) ↔
      (allocated = true → payload.length < 2 ^ 32 - 40) := by
  cases allocated with
  | false => exact ⟨fun _ h => (nomatch h), fun _ => .of_error .nomem⟩
  | true =>
    by_cases h : payload.length < 2 ^ 32 - 40
    · obtain ⟨frame, hcopy, hlength, hpayload⟩ := copyIntoFrame_fits msgId flags hedit h
      rw [hcopy, keepsBytes_frame]
      refine ⟨fun _ _ => h, fun _ => ⟨payload, rfl, hlength, ?_, ?_⟩⟩
      · rw [hlength, hpayload]
      · rw [hpayload, List.take_length]
    · rw [copyIntoFrame_overflow msgId flags hedit h]
      exact ⟨fun hkeeps => absurd hkeeps (not_keepsBytes_fault _ _),
        fun hfits => absurd (hfits rfl) h⟩

end Copy

/-! ## §6 Which sizes keep every byte -/

/-- The bytes to be sent fit one frame, if a message can be allocated at all. -/
def Fits (z : Zlib) (allocated compress : Bool) (payload : List UInt8) : Prop :=
  ∃ sent, sentBytes z compress payload = .ok sent ∧
    (allocated = true → sent.length < 2 ^ 32 - 40)

/-- The same of a batch.  A batch that is too large for its counter is not written at all, unless
    the allocation before it overflows. -/
def BatchFits (z : Zlib) (allocated compress : Bool) (order : ByteOrder)
    (buffers : List (List UInt8)) : Prop :=
  if payloadSize (narrowed buffers) < 2 ^ 32 then
    Fits z allocated compress (batchBytes order (narrowed buffers)) ∧
      (allocated = true → ∀ buffer ∈ buffers, buffer.length < 2 ^ 32)
  else
    compress = true ∨
      (allocated = true → MsgBatchWriter.computePayloadSize buffers < 2 ^ 32 - 40)

section Sizes

variable (z : Zlib) (allocated compress : Bool) (msgId flags : UInt16)

/-- Compressed or not, copying keeps the bytes of the payload that fit. -/
private theorem sent_copy_keeps_iff {payload : List UInt8} {edit : MsgHeader → MsgHeader}
    (hedit : ∀ header, (edit header).m_length = header.m_length) :
    KeepsBytes (sentBytes z compress payload)
        (match sentBytes z compress payload with
        | .error fault => .error fault
        | .ok sent =>
          copyIntoFrame allocated msgId flags edit (sent.length % 2 ^ 32) sent) ↔
      Fits z allocated compress payload := by
  unfold Fits
  cases sentBytes z compress payload with
  | error fault =>
    exact ⟨fun hkeeps => absurd hkeeps (not_keepsBytes_fault _ _),
      fun ⟨_, hsent, _⟩ => (nomatch hsent)⟩
  | ok sent =>
    refine (copyIntoFrame_keeps_iff msgId flags hedit allocated).trans ?_
    constructor
    · intro hfits
      exact ⟨sent, rfl, hfits⟩
    · rintro ⟨sent', hsent, hfits⟩
      cases hsent
      exact hfits

theorem body_keeps_bytes_iff (body : List UInt8) :
    KeepsBytes (sentBytes z compress body)
        (MsgFrameWriter.prepareMsgFrame z allocated msgId body compress flags) ↔
      Fits z allocated compress body := by
  rw [prepareMsgFrame_eq]
  exact sent_copy_keeps_iff z allocated compress msgId _ fun header => by cases compress <;> rfl

variable (order : ByteOrder) (buffers : List (List UInt8))

/-- What is sent of a batch from which a buffer loses bytes is not the batch. -/
private theorem narrowed_not_sent (hlong : ¬ ∀ buffer ∈ buffers, buffer.length < 2 ^ 32)
    {sent sent' : List UInt8}
    (h : sentBytes z compress (batchBytes order buffers) = .ok sent)
    (h' : sentBytes z compress (batchBytes order (narrowed buffers)) = .ok sent') :
    sent.length ≠ sent'.length := by
  have hlt := narrowed_payloadSize_lt hlong
  rw [← batchBytes_length order, ← batchBytes_length order buffers] at hlt
  cases compress with
  | false =>
    cases h
    cases h'
    exact Nat.ne_of_gt hlt
  | true =>
    -- a batch with a buffer of `2^32` bytes is more than gzip takes
    have hlarge : ¬ payloadSize buffers < 2 ^ 32 := fun hsmall => hlong (buffer_length_lt hsmall)
    rw [← batchBytes_length order] at hlarge
    have hcompress : z.compress (batchBytes order buffers) = .ok sent := h
    unfold Zlib.compress at hcompress
    rw [if_pos (by omega)] at hcompress
    cases hcompress

private theorem narrowed_copy_loses (hlong : ¬ ∀ buffer ∈ buffers, buffer.length < 2 ^ 32)
    {sent : List UInt8}
    (hsent : sentBytes z compress (batchBytes order (narrowed buffers)) = .ok sent)
    {edit : MsgHeader → MsgHeader} (hedit : ∀ header, (edit header).m_length = header.m_length) :
    ¬ KeepsBytes (sentBytes z compress (batchBytes order buffers))
      (copyIntoFrame true msgId flags edit (sent.length % 2 ^ 32) sent) := by
  by_cases hfits : sent.length < 2 ^ 32 - 40
  · obtain ⟨frame, hcopy, hlength, -⟩ := copyIntoFrame_fits msgId flags hedit hfits
    rw [hcopy, keepsBytes_frame]
    rintro ⟨whole, hwhole, hholds⟩
    apply narrowed_not_sent z compress order buffers hlong hwhole hsent
    exact Nat.add_left_cancel (hholds.length.symm.trans hlength)
  · rw [copyIntoFrame_overflow msgId flags hedit hfits]
    exact not_keepsBytes_fault _ _

/-- A writer that fails loses nothing, unless the allocation before it overflows. -/
private theorem failed_write_keeps_iff (bytes : Except Fault (List UInt8)) (rc : ErrorCode) :
    KeepsBytes bytes
        (match allocMsgOf msgId flags 0 0 (MsgBatchWriter.computePayloadSize buffers) allocated with
        | .error fault => .error fault
        | .ok none => .ok (.error .nomem)
        | .ok (some _) => .ok (.error rc)) ↔
      (allocated = true → MsgBatchWriter.computePayloadSize buffers < 2 ^ 32 - 40) := by
  have hlt : MsgBatchWriter.computePayloadSize buffers < 2 ^ 32 := by
    rw [MsgBatchWriter.computePayloadSize_mod]
    exact Nat.mod_lt _ (by decide)
  cases allocated with
  | false => exact ⟨fun _ h => (nomatch h), fun _ => .of_error .nomem⟩
  | true =>
    by_cases hfits : MsgBatchWriter.computePayloadSize buffers < 2 ^ 32 - 40
    · rw [allocMsgOf_eq (by omega)]
      exact ⟨fun _ _ => hfits, fun _ => .of_error rc⟩
    · rw [allocMsgOf_overflow msgId flags (Nat.not_lt.mp hfits) hlt]
      exact ⟨fun hkeeps => absurd hkeeps (not_keepsBytes_fault _ _),
        fun h => absurd (h rfl) hfits⟩

/-- A batch that its counter can hold. -/
private theorem batch_keeps_of_counted (hfits : payloadSize (narrowed buffers) < 2 ^ 32) :
    KeepsBytes (sentBytes z compress (batchBytes order buffers))
        (MsgFrameWriter.prepareMsgBatchFrame z allocated msgId buffers order compress flags) ↔
      Fits z allocated compress (batchBytes order (narrowed buffers)) ∧
        (allocated = true → ∀ buffer ∈ buffers, buffer.length < 2 ^ 32) := by
  obtain ⟨hwrite, hsize⟩ := MsgBufferArrayWriter_writes buffers order hfits
  have hlt : (batchBytes order (narrowed buffers)).length < 2 ^ 32 := by
    rw [batchBytes_length]
    exact hfits
  unfold MsgFrameWriter.prepareMsgBatchFrame
  rw [prepareMsgFrameOf_eq z allocated msgId flags hwrite hsize hlt]
  by_cases hshort : ∀ buffer ∈ buffers, buffer.length < 2 ^ 32
  · rw [narrowed_eq_self hshort, and_iff_left fun _ => hshort]
    exact sent_copy_keeps_iff z allocated compress msgId _ fun header => by cases compress <;> rfl
  · unfold Fits
    cases hsent : sentBytes z compress (batchBytes order (narrowed buffers)) with
    | error fault =>
      exact ⟨fun hkeeps => absurd hkeeps (not_keepsBytes_fault _ _),
        fun ⟨⟨_, h, _⟩, _⟩ => (nomatch h)⟩
    | ok sent =>
      cases allocated with
      | false =>
        exact ⟨fun _ => ⟨⟨sent, rfl, fun h => (nomatch h)⟩, fun h => (nomatch h)⟩,
          fun _ => .of_error .nomem⟩
      | true =>
        refine ⟨fun hkeeps => absurd hkeeps ?_, fun ⟨_, h⟩ => absurd (h rfl) hshort⟩
        exact narrowed_copy_loses z compress msgId _ order buffers hshort hsent fun header => by
          cases compress <;> rfl

/-- **`prepareMsgBatchFrame`** keeps every byte of exactly these batches. -/
theorem batch_keeps_bytes_iff :
    KeepsBytes (sentBytes z compress (batchBytes order buffers))
        (MsgFrameWriter.prepareMsgBatchFrame z allocated msgId buffers order compress flags) ↔
      BatchFits z allocated compress order buffers := by
  unfold BatchFits
  split
  · rename_i hfits
    exact batch_keeps_of_counted z allocated compress msgId flags order buffers hfits
  · rename_i hwraps
    obtain ⟨rc, hwrite⟩ := MsgBufferArrayWriter_fails buffers order (Nat.not_lt.mp hwraps)
    have hcounter : (MsgBufferArrayWriter buffers order).getPayloadSizeBytes =
        MsgBatchWriter.computePayloadSize buffers := rfl
    unfold MsgFrameWriter.prepareMsgBatchFrame
    rw [prepareMsgFrameOf_failed z allocated msgId flags hwrite, hcounter]
    cases compress with
    | true => exact ⟨fun _ => .inl rfl, fun _ => .of_error rc⟩
    | false =>
      rw [if_neg (by decide), or_iff_right (by decide)]
      exact failed_write_keeps_iff allocated msgId flags buffers _ rc

/-- **Sizes.**  Building a frame from a body or a batch returns an error, or a frame that holds
    every byte to be sent, exactly if the sizes fit. -/
theorem frame_sizes_keep_bytes_iff :
    (∀ body : List UInt8,
      KeepsBytes (sentBytes z compress body)
          (MsgFrameWriter.prepareMsgFrame z allocated msgId body compress flags) ↔
        Fits z allocated compress body) ∧
    ∀ (order : ByteOrder) (buffers : List (List UInt8)),
      KeepsBytes (sentBytes z compress (batchBytes order buffers))
          (MsgFrameWriter.prepareMsgBatchFrame z allocated msgId buffers order compress flags) ↔
        BatchFits z allocated compress order buffers :=
  ⟨body_keeps_bytes_iff z allocated compress msgId flags,
    batch_keeps_bytes_iff z allocated compress msgId flags⟩

end Sizes

/-- A body of `2^32` bytes: room for none is allocated, and all are copied. -/
theorem large_body_overflows :
    MsgFrameWriter.prepareMsgFrame gzipOfTwo true 7 (List.replicate (2 ^ 32) 0) false 0 =
        .error .heapOverflow ∧
      ¬ KeepsBytes (sentBytes gzipOfTwo false (List.replicate (2 ^ 32) 0))
        (MsgFrameWriter.prepareMsgFrame gzipOfTwo true 7 (List.replicate (2 ^ 32) 0) false 0) := by
  obtain ⟨body, hbody⟩ : ∃ body : List UInt8, body = List.replicate (2 ^ 32) 0 := ⟨_, rfl⟩
  have hlong : ¬ body.length < 2 ^ 32 - 40 := by
    rw [hbody, List.length_replicate]
    omega
  have hoverflow : MsgFrameWriter.prepareMsgFrame gzipOfTwo true 7 body false 0 =
      .error .heapOverflow := by
    rw [prepareMsgFrame_eq]
    exact copyIntoFrame_overflow 7 0 (fun _ => rfl) hlong
  rw [← hbody, hoverflow]
  exact ⟨rfl, not_keepsBytes_fault _ _⟩

end Commutil.Framing
