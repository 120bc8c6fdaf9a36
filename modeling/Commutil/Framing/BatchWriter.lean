import Commutil.Framing.FrameBuilding
import Commutil.Library.Overwrite

/-!
# The Batch Writer in Memory

`msg_batch_writer.h` on a buffer that is part of a larger memory, so that a write past the end
of the buffer would show.  A call that fails half way leaves behind what it has written.

`WriterStream` refines the stream that only collects what is written (`writeBatch_writes`), and
no call touches the memory behind the buffer.  `batch_writer_exact` puts the three paths
together: the computed size, the one-shot encoder and the incremental one.
-/

namespace Commutil.Framing

open Commutil.Io Commutil.Library

/-! ## §1 The code -/

/-- `class FixedOutputStream` over `m_bufferSize` bytes at the start of `memory`. -/
structure WriterStream where
  m_byteOrder : ByteOrder
  m_bufferSize : Nat
  m_offset : Nat
  memory : List UInt8
  deriving DecidableEq, Repr

namespace WriterStream

/-- A stream over the first `bufferSize` bytes of a memory. -/
def new (memory : List UInt8) (bufferSize : Nat) (byteOrder : ByteOrder) : WriterStream :=
  ⟨byteOrder, bufferSize, 0, memory⟩

/-- `memcpy(m_bufferPtr + m_offset, ..); m_offset += length;` -/
def copy (os : WriterStream) (bytes : List UInt8) : WriterStream :=
  { os with
    memory := overwrite os.memory os.m_offset bytes
    m_offset := os.m_offset + bytes.length }

/-- `FixedOutputStream::writeBytes`. -/
def writeBytes (os : WriterStream) (bytes : List UInt8) : ErrorCode × WriterStream :=
  if os.m_bufferSize - os.m_offset < bytes.length then (.nomem, os) else (.ok, os.copy bytes)

/-- `if (rc != E_OK) return rc;` -/
def andThen (r : ErrorCode × WriterStream) (next : WriterStream → ErrorCode × WriterStream) :
    ErrorCode × WriterStream :=
  if r.1 ≠ .ok then r else next r.2

/-- `MsgBatchWriter::beginBatch`. -/
def beginBatch (os : WriterStream) (batchSize : Nat) : ErrorCode × WriterStream :=
  os.writeBytes (encodeUInt os.m_byteOrder 4 batchSize)

/-- `MsgBatchWriter::writeMsg`. -/
def writeMsg (os : WriterStream) (msgBuffer : List UInt8) : ErrorCode × WriterStream :=
  let length := msgBuffer.length % 2 ^ 32
  andThen (os.writeBytes (encodeUInt os.m_byteOrder 4 length)) fun os =>
    os.writeBytes (msgBuffer.take length)

/-- The loop of `writeBatch`. -/
def writeMsgs : WriterStream → List (List UInt8) → ErrorCode × WriterStream
  | os, [] => (.ok, os)
  | os, msgBuffer :: rest => andThen (os.writeMsg msgBuffer) fun os => os.writeMsgs rest

/-- `MsgBatchWriter::writeBatch`. -/
def writeBatch (os : WriterStream) (msgBufferArray : List (List UInt8)) :
    ErrorCode × WriterStream :=
  andThen (os.beginBatch (msgBufferArray.length % 2 ^ 32)) fun os => os.writeMsgs msgBufferArray

/-- A caller of `writeMsg` for one buffer after the other, with the codes it gets. -/
def writeEach : WriterStream → List (List UInt8) → List ErrorCode × WriterStream
  | os, [] => ([], os)
  | os, msgBuffer :: rest =>
    let (rc, os) := os.writeMsg msgBuffer
    let (codes, os) := os.writeEach rest
    (rc :: codes, os)

/-! ## §2 What a write keeps -/

/-- The buffer lies in the memory, and the offset in the buffer. -/
structure Backed (os : WriterStream) : Prop where
  offset_le : os.m_offset ≤ os.m_bufferSize
  size_le : os.m_bufferSize ≤ os.memory.length

/-- `os'` is `os` with more bytes written into the buffer, and nothing else changed. -/
structure Within (os os' : WriterStream) : Prop where
  backed : os'.Backed
  order : os'.m_byteOrder = os.m_byteOrder
  size : os'.m_bufferSize = os.m_bufferSize
  behind : os'.memory.drop os.m_bufferSize = os.memory.drop os.m_bufferSize

/-- The stream that only collects what is written. -/
def collected (os : WriterStream) : FixedOutputStream :=
  ⟨os.m_byteOrder, os.m_bufferSize, os.memory.take os.m_offset⟩

/-- What the collecting stream makes of an outcome. -/
def outcome (r : ErrorCode × WriterStream) : Except ErrorCode FixedOutputStream :=
  if r.1 = .ok then .ok r.2.collected else .error r.1

/-- The outcome `r` of a call on `os` is the one of the call `x` on the collecting stream. -/
structure Writes (os : WriterStream) (r : ErrorCode × WriterStream)
    (x : Except ErrorCode FixedOutputStream) : Prop where
  kept : Within os r.2
  agrees : x = outcome r
  code : r.1 = .ok ∨ r.1 = .nomem

variable {os : WriterStream}

theorem Within.refl (h : os.Backed) : Within os os := ⟨h, rfl, rfl, rfl⟩

theorem Within.trans {os' os'' : WriterStream} (h : Within os os') (h' : Within os' os'') :
    Within os os'' := by
  refine ⟨h'.backed, h'.order.trans h.order, h'.size.trans h.size, ?_⟩
  rw [← h.size, h'.behind, h.size, h.behind]

/-- The buffer is still there, and so is what is behind it. -/
theorem Within.length_eq {os' : WriterStream} (h : Within os os') (hos : os.Backed) :
    os'.memory.length = os.memory.length := by
  have hbehind := congrArg List.length h.behind
  have hsize := h.backed.size_le
  have hsize' := hos.size_le
  rw [h.size] at hsize
  rw [List.length_drop, List.length_drop] at hbehind
  omega

/-- A copy into the buffer leaves the memory behind the buffer alone. -/
theorem copy_within (h : os.Backed) {bytes : List UInt8}
    (hroom : os.m_offset + bytes.length ≤ os.m_bufferSize) : Within os (os.copy bytes) := by
  have hsize := h.size_le
  refine ⟨⟨hroom, ?_⟩, rfl, rfl, drop_overwrite (by omega) hroom⟩
  simp only [copy]
  rw [overwrite_length (by omega)]
  exact hsize

theorem copy_collected (h : os.Backed) (bytes : List UInt8) :
    (os.copy bytes).collected =
      { os.collected with m_buffer := os.collected.m_buffer ++ bytes } := by
  have hoffset := Nat.le_trans h.offset_le h.size_le
  simp only [collected, copy]
  rw [take_overwrite_add hoffset (Nat.le_refl _), List.take_length]

theorem writeBytes_writes (h : os.Backed) (bytes : List UInt8) :
    Writes os (os.writeBytes bytes) (os.collected.writeBytes bytes) := by
  have hcollected : os.collected.m_buffer.length = os.m_offset :=
    List.length_take_of_le (Nat.le_trans h.offset_le h.size_le)
  have hsize : os.collected.m_bufferSize = os.m_bufferSize := rfl
  unfold writeBytes FixedOutputStream.writeBytes
  rw [hcollected, hsize]
  by_cases hroom : os.m_bufferSize - os.m_offset < bytes.length
  · rw [if_pos hroom, if_pos hroom]
    exact ⟨.refl h, rfl, .inr rfl⟩
  · rw [if_neg hroom, if_neg hroom]
    have hoffset := h.offset_le
    refine ⟨copy_within h (by omega), ?_, .inl rfl⟩
    rw [outcome, if_pos rfl, copy_collected h]
    rfl

/-- Calls one after the other. -/
theorem Writes.andThen {r : ErrorCode × WriterStream} {x : Except ErrorCode FixedOutputStream}
    {next : WriterStream → ErrorCode × WriterStream}
    {next' : FixedOutputStream → Except ErrorCode FixedOutputStream} (h : Writes os r x)
    (hnext : Writes r.2 (next r.2) (next' r.2.collected)) :
    Writes os (andThen r next) (x >>= next') := by
  rw [h.agrees]
  unfold WriterStream.andThen outcome
  by_cases hrc : r.1 = .ok
  · rw [if_neg (not_not.mpr hrc), if_pos hrc]
    exact ⟨h.kept.trans hnext.kept, hnext.agrees, hnext.code⟩
  · rw [if_pos hrc, if_neg hrc]
    exact ⟨h.kept, (if_neg hrc).symm, h.code⟩

theorem beginBatch_writes (h : os.Backed) (batchSize : Nat) :
    Writes os (os.beginBatch batchSize) (os.collected.serializeUInt 4 batchSize) :=
  writeBytes_writes h _

theorem writeMsg_writes (h : os.Backed) (msgBuffer : List UInt8) :
    Writes os (os.writeMsg msgBuffer) (os.collected.serializeBuffer msgBuffer) := by
  have hlength := writeBytes_writes h (encodeUInt os.m_byteOrder 4 (msgBuffer.length % 2 ^ 32))
  unfold writeMsg FixedOutputStream.serializeBuffer FixedOutputStream.serializeLengthPrepended
  apply hlength.andThen
  exact writeBytes_writes hlength.kept.backed _

theorem writeMsgs_writes (msgBufferArray : List (List UInt8)) :
    ∀ {os : WriterStream}, os.Backed → Writes os (os.writeMsgs msgBufferArray)
      (msgBufferArray.foldlM FixedOutputStream.serializeBuffer os.collected) := by
  induction msgBufferArray with
  | nil => exact fun h => ⟨.refl h, rfl, .inl rfl⟩
  | cons msgBuffer rest ih =>
    intro os h
    rw [List.foldlM_cons]
    have hmsg := writeMsg_writes h msgBuffer
    apply hmsg.andThen
    exact ih hmsg.kept.backed

/-- **The writer in memory writes what the collecting stream collects**, and leaves the memory
    behind its buffer alone. -/
theorem writeBatch_writes (h : os.Backed) (msgBufferArray : List (List UInt8)) :
    Writes os (os.writeBatch msgBufferArray)
      (MsgBatchWriter.writeBatch os.collected msgBufferArray) := by
  have hcount := beginBatch_writes h (msgBufferArray.length % 2 ^ 32)
  apply hcount.andThen
  exact writeMsgs_writes msgBufferArray hcount.kept.backed

/-! ## §3 The incremental path -/

/-- A batch that is written in one go is written by calls that all succeed. -/
theorem writeEach_of_writeMsgs (msgBufferArray : List (List UInt8)) :
    ∀ {os os' : WriterStream}, os.writeMsgs msgBufferArray = (.ok, os') →
      os.writeEach msgBufferArray = (msgBufferArray.map fun _ => .ok, os') := by
  induction msgBufferArray with
  | nil =>
    intro os os' hrun
    cases hrun
    rfl
  | cons msgBuffer rest ih =>
    intro os os' hrun
    unfold writeMsgs andThen at hrun
    by_cases hrc : (os.writeMsg msgBuffer).1 = .ok
    · rw [if_neg (not_not.mpr hrc)] at hrun
      simp only [writeEach, ih hrun, hrc, List.map_cons]
    · rw [if_pos hrc] at hrun
      exact absurd (congrArg Prod.fst hrun) hrc

theorem incremental_of_writeBatch {msgBufferArray : List (List UInt8)} {os' : WriterStream}
    (hrun : os.writeBatch msgBufferArray = (.ok, os')) :
    ∃ os₁, os.beginBatch (msgBufferArray.length % 2 ^ 32) = (.ok, os₁) ∧
      os₁.writeEach msgBufferArray = (msgBufferArray.map fun _ => .ok, os') := by
  unfold writeBatch andThen at hrun
  by_cases hrc : (os.beginBatch (msgBufferArray.length % 2 ^ 32)).1 = .ok
  · rw [if_neg (not_not.mpr hrc)] at hrun
    exact ⟨_, Prod.ext hrc rfl, writeEach_of_writeMsgs msgBufferArray hrun⟩
  · rw [if_pos hrc] at hrun
    exact absurd (congrArg Prod.fst hrun) hrc

/-! ## §4 Size, encoder and room -/

variable {buffers : List (List UInt8)} {memory : List UInt8}

theorem new_backed {bufferSize : Nat} (h : bufferSize ≤ memory.length) (order : ByteOrder) :
    (new memory bufferSize order).Backed :=
  ⟨Nat.zero_le _, h⟩

/-- With room for the batch the buffer is filled with it, to the last byte. -/
theorem writeBatch_exact (h : payloadSize buffers < 2 ^ 32) (order : ByteOrder)
    (hmemory : payloadSize buffers ≤ memory.length) :
    (new memory (payloadSize buffers) order).writeBatch buffers =
      (.ok, ⟨order, payloadSize buffers, payloadSize buffers,
        batchBytes order buffers ++ memory.drop (payloadSize buffers)⟩) := by
  have hwrites := writeBatch_writes (new_backed hmemory order) buffers
  have hcollected : (new memory (payloadSize buffers) order).collected =
      .new (payloadSize buffers) order := rfl
  have hagrees := hwrites.agrees
  rw [hcollected, MsgBatchWriter.writeBatch_eq h, outcome] at hagrees
  generalize (new memory (payloadSize buffers) order).writeBatch buffers = r at hwrites hagrees
  obtain ⟨rc, os'⟩ := r
  split at hagrees
  · rename_i hrc
    obtain ⟨order', size', offset', memory'⟩ := os'
    injection Except.ok.inj hagrees with horder hsize hbytes
    dsimp only at horder hsize hbytes hrc
    subst horder hsize hrc
    have hbacked := hwrites.kept.backed
    have hoffset : payloadSize buffers = offset' := by
      have hlength := congrArg List.length hbytes
      rw [batchBytes_length, List.length_take_of_le
        (Nat.le_trans hbacked.offset_le hbacked.size_le)] at hlength
      exact hlength
    subst hoffset
    have hbehind : memory'.drop (payloadSize buffers) = memory.drop (payloadSize buffers) :=
      hwrites.kept.behind
    rw [hbytes, ← hbehind, List.take_append_drop]
  · cases hagrees

/-- Without room for the batch the call says so. -/
theorem writeBatch_nomem (h : payloadSize buffers < 2 ^ 32) (order : ByteOrder) {capacity : Nat}
    (hcapacity : capacity < payloadSize buffers) (hmemory : capacity ≤ memory.length) :
    ((new memory capacity order).writeBatch buffers).1 = .nomem := by
  have hwrites := writeBatch_writes (new_backed hmemory order) buffers
  apply hwrites.code.resolve_left
  intro hrc
  have hagrees := hwrites.agrees
  rw [outcome, if_pos hrc] at hagrees
  -- what is written fits the buffer
  have hroom : payloadSize (narrowed buffers) ≤ capacity := MsgBatchWriter.writeBatch_room hagrees
  rw [narrowed_eq_self (buffer_length_lt h)] at hroom
  omega

/-- **Size and encoders agree**: a buffer of the computed size is filled with the count and the
    buffers, each after its length, by `writeBatch` and by `beginBatch` with a `writeMsg` for
    each buffer; a smaller buffer is refused, and nothing is written behind it. -/
theorem batch_writer_exact (buffers : List (List UInt8)) (h : payloadSize buffers < 2 ^ 32)
    (order : ByteOrder) (memory : List UInt8) :
    MsgBatchWriter.computePayloadSize buffers = payloadSize buffers ∧
    (payloadSize buffers ≤ memory.length → ∃ os os₁,
      os = ⟨order, payloadSize buffers, payloadSize buffers,
        batchBytes order buffers ++ memory.drop (payloadSize buffers)⟩ ∧
      (new memory (MsgBatchWriter.computePayloadSize buffers) order).writeBatch buffers =
        (.ok, os) ∧
      (new memory (MsgBatchWriter.computePayloadSize buffers) order).beginBatch buffers.length =
        (.ok, os₁) ∧
      os₁.writeEach buffers = (buffers.map fun _ => .ok, os)) ∧
    (∀ capacity, capacity < MsgBatchWriter.computePayloadSize buffers →
      capacity ≤ memory.length → ∃ os,
        (new memory capacity order).writeBatch buffers = (.nomem, os) ∧
        os.m_offset ≤ capacity ∧ os.memory.length = memory.length ∧
        os.memory.drop capacity = memory.drop capacity) := by
  have hsize : MsgBatchWriter.computePayloadSize buffers = payloadSize buffers :=
    MsgBatchWriter.computePayloadSize_eq h
  rw [hsize]
  refine ⟨rfl, fun hmemory => ?_, fun capacity hcapacity hmemory => ?_⟩
  · have hrun := writeBatch_exact h order hmemory
    obtain ⟨os₁, hbegin, heach⟩ := incremental_of_writeBatch hrun
    have hcount := length_le_payloadSize buffers
    rw [Nat.mod_eq_of_lt (by omega)] at hbegin
    exact ⟨_, os₁, rfl, hrun, hbegin, heach⟩
  · have hrc := writeBatch_nomem h order hcapacity hmemory
    have hkept := (writeBatch_writes (new_backed hmemory order) buffers).kept
    refine ⟨_, Prod.ext hrc rfl, ?_, ?_, hkept.behind⟩
    · have hoffset := hkept.backed.offset_le
      rwa [hkept.size] at hoffset
    · exact hkept.length_eq (new_backed hmemory order)

/-- Two buffers, one of them empty, take 13 bytes, and do not fit 12. -/
theorem batch_writer_exact_two :
    ((new (List.replicate 13 9) 13 .networkOrder).writeBatch [[], [1]]).1 = .ok ∧
      ((new (List.replicate 13 9) 12 .networkOrder).writeBatch [[], [1]]).1 = .nomem := by
  obtain ⟨hsize, hfull, hsmall⟩ :=
    batch_writer_exact [[], [1]] (by decide) .networkOrder (List.replicate 13 9)
  obtain ⟨os, -, -, hrun, -⟩ := hfull (by decide)
  obtain ⟨os', hrun', -⟩ := hsmall 12 (by decide) (by decide)
  have h13 : MsgBatchWriter.computePayloadSize [[], [1]] = 13 := hsize
  rw [h13] at hrun
  rw [hrun, hrun']
  exact ⟨rfl, rfl⟩

end WriterStream

end Commutil.Framing
