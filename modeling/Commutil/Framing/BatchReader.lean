import Commutil.Framing.MsgFrame

/-!
# The Batch Reader

`msg_batch_reader.h`: the reader that takes the messages of a batch off a
payload, which can hold any bytes.  `MsgFrame` gives the messages as bytes; here
`readMsg` returns what the code returns, a position in the payload and a length,
so that a range that goes past the end of the payload is a value and can be
talked about.

The main result says in which states the reader accepts exactly its grammar, and
when the batch loop of `readMsgFrame` hands out nothing but parts of the payload.
-/

namespace Commutil.Framing

open Commutil.Io Commutil.Library

namespace MsgBatchReader

/-! ## §1 The code -/

/-- `*msg = m_is.getBufRef() + m_is.getOffset(); return m_is.skipBytes(length);` -/
def skipMsg (length : Nat) : StreamM FixedInputStream (Nat × Nat) := fun is =>
  match is.skipBytes length with
  | (.ok, is') => .ok (.ok (is.m_offset, length), is')
  | (rc, is') => .ok (.error rc, is')

/-- `MsgBatchReader::readMsg`: where the message begins in the payload, and its length. -/
def readMsg : StreamM FixedInputStream (Nat × Nat) := do
  let length ← deserializeUInt 4
  skipMsg length

/-! ## §2 The grammar -/

/-- The length that the next four bytes encode. -/
def claimedLength (is : FixedInputStream) : Nat :=
  toHostOrder is.m_byteOrder 4 (ofLeBytes (is.unread.take 4))

/-- What comes next is a message: four bytes of length, and that many bytes after them. -/
def InGrammar (is : FixedInputStream) : Prop :=
  4 ≤ is.size ∧ claimedLength is ≤ is.size - 4

instance (is : FixedInputStream) : Decidable (InGrammar is) :=
  inferInstanceAs (Decidable (4 ≤ is.size ∧ claimedLength is ≤ is.size - 4))

/-- **The law of the reader**: a message is handed out and passed, anything else is an error. -/
def AcceptsGrammar (is : FixedInputStream) : Prop :=
  (InGrammar is → readMsg is =
    .ok (.ok (is.m_offset + 4, claimedLength is), is.advance (4 + claimedLength is))) ∧
  (¬ InGrammar is → ∃ rc is', rc ≠ ErrorCode.ok ∧ readMsg is = .ok (.error rc, is'))

/-- Bytes after the length are as many as it says, or more; and at the end of the payload the
    length does not say that there are none. -/
structure LengthFits (is : FixedInputStream) : Prop where
  within : 4 < is.size → claimedLength is ≤ is.size - 4
  positive : is.size = 4 → claimedLength is ≠ 0

/-! ## §3 What `readMsg` does -/

theorem readMsg_short {is : FixedInputStream} (h : is.size < 4) :
    readMsg is = .ok (.error .endOfStream, is) :=
  StreamM.bind_error (FixedInputStream.deserializeUInt_short h)

/-- After its length nothing is left to skip, whatever the length says. -/
theorem readMsg_end {is : FixedInputStream} (h : is.size = 4) :
    readMsg is = .ok (.error .endOfStream, is.advance 4) := by
  have hread := @FixedInputStream.deserializeUInt_eq is 4 (by decide) (by omega)
  have hempty : (is.advance 4).size = 0 := by
    rw [FixedInputStream.advance_size, h]
  unfold readMsg
  rw [StreamM.bind_ok hread]
  unfold skipMsg FixedInputStream.skipBytes
  rw [if_pos hempty]

/-- The message is handed out as long as it claims to be; the skip stops at the end. -/
theorem readMsg_more {is : FixedInputStream} (h : 4 < is.size) :
    readMsg is = .ok (.ok (is.m_offset + 4, claimedLength is),
      is.advance (4 + min (claimedLength is) (is.size - 4))) := by
  have hread := @FixedInputStream.deserializeUInt_eq is 4 (by decide) (by omega)
  have hmore : ¬ (is.advance 4).size = 0 := by
    rw [FixedInputStream.advance_size]
    omega
  unfold readMsg
  rw [StreamM.bind_ok hread]
  unfold skipMsg FixedInputStream.skipBytes
  rw [if_neg hmore, FixedInputStream.advance_size]
  simp only [FixedInputStream.advance, claimedLength, Nat.add_assoc]

/-- **The reader accepts its grammar** exactly in the states where the length fits. -/
theorem acceptsGrammar_iff (is : FixedInputStream) : AcceptsGrammar is ↔ LengthFits is := by
  rcases Nat.lt_trichotomy is.size 4 with hlt | heq | hgt
  · have hno : ¬ InGrammar is := fun h => absurd h.1 (by omega)
    constructor
    · intro _
      exact ⟨fun h => absurd h (by omega), fun h => absurd h (by omega)⟩
    · intro _
      exact ⟨fun h => absurd h hno, fun _ => ⟨_, _, by decide, readMsg_short hlt⟩⟩
  · -- the reader fails here, so the length must not be one that is in the grammar
    have hrun := readMsg_end heq
    constructor
    · intro hlaw
      refine ⟨fun h => absurd h (by omega), fun _ hzero => ?_⟩
      have hok := hlaw.1 ⟨by omega, by omega⟩
      rw [hrun] at hok
      cases hok
    · intro hfits
      have hno : ¬ InGrammar is := fun h => hfits.positive heq (by have := h.2; omega)
      exact ⟨fun h => absurd h hno, fun _ => ⟨_, _, by decide, hrun⟩⟩
  · -- the reader succeeds here, so the length must be one that is in the grammar
    have hrun := readMsg_more hgt
    constructor
    · intro hlaw
      refine ⟨fun _ => ?_, fun h => absurd h (by omega)⟩
      apply Decidable.byContradiction
      intro hover
      obtain ⟨rc, is', -, herr⟩ := hlaw.2 fun h => hover h.2
      rw [hrun] at herr
      cases herr
    · intro hfits
      have hwithin := hfits.within hgt
      refine ⟨fun _ => ?_, fun h => absurd ⟨by omega, hwithin⟩ h⟩
      rw [hrun, Nat.min_eq_left hwithin]

/-! ## §4 The messages of a batch -/

/-- The range that `readMsg` hands out, if it returns `E_OK`. -/
def handedRange (is : FixedInputStream) : Option (Nat × Nat) :=
  match readMsg is with
  | .ok (.ok range, _) => some range
  | _ => none

/-- A range lies inside a payload. -/
def Inside (payload : List UInt8) (range : Nat × Nat) : Prop :=
  range.1 + range.2 ≤ payload.length

/-- The reader is at a position of the payload. -/
structure Over (payload : List UInt8) (is : FixedInputStream) : Prop where
  buf_eq : is.m_buf = payload
  offset_le : is.m_offset ≤ payload.length

theorem Over.advance {payload : List UInt8} {is : FixedInputStream} (h : Over payload is) {n : Nat}
    (hle : n ≤ is.size) : Over payload (is.advance n) := by
  have hbuf := h.buf_eq
  have hoff := h.offset_le
  refine ⟨hbuf, ?_⟩
  simp only [FixedInputStream.size, hbuf] at hle
  simp only [FixedInputStream.advance]
  omega

/-- The range that is handed out lies inside the payload exactly if the length does not go past
    its end. -/
theorem inside_iff {payload : List UInt8} {is : FixedInputStream} (h : Over payload is) :
    (∀ range, handedRange is = some range → Inside payload range) ↔
      (4 < is.size → claimedLength is ≤ is.size - 4) := by
  have hsize : is.size = payload.length - is.m_offset := by
    rw [FixedInputStream.size, h.buf_eq]
  by_cases hmore : 4 < is.size
  · have hrange : handedRange is = some (is.m_offset + 4, claimedLength is) := by
      rw [handedRange, readMsg_more hmore]
    constructor
    · intro hinside _
      have hle : is.m_offset + 4 + claimedLength is ≤ payload.length := hinside _ hrange
      omega
    · intro hwithin range hr
      obtain rfl := Option.some.inj (hrange.symm.trans hr)
      have hle := hwithin hmore
      show is.m_offset + 4 + claimedLength is ≤ payload.length
      omega
  · have hnone : handedRange is = none := by
      rcases Nat.lt_or_ge is.size 4 with hlt | hge
      · rw [handedRange, readMsg_short hlt]
      · rw [handedRange, readMsg_end (by omega)]
    constructor
    · intro _ h
      exact absurd h hmore
    · intro _ range hr
      rw [hnone] at hr
      cases hr

/-- `takeRange` takes the range that `skipMsg` hands out, if it is in the buffer. -/
theorem takeRange_eq (length : Nat) (is : FixedInputStream) :
    takeRange length is =
      match skipMsg length is with
      | .ok (.ok range, is') =>
        if is.m_buf.length < range.1 + range.2 then .error .outOfBounds
        else .ok (.ok ((is.m_buf.drop range.1).take range.2), is')
      | .ok (.error rc, is') => .ok (.error rc, is')
      | .error fault => .error fault := by
  unfold takeRange skipMsg
  split <;> simp_all

/-- **Reading a message of a batch**: the bytes of the range that `readMsg` hands out. -/
theorem readBatchMsg_eq (is : FixedInputStream) :
    readBatchMsg is =
      match readMsg is with
      | .ok (.ok range, is') =>
        if is.m_buf.length < range.1 + range.2 then .error .outOfBounds
        else .ok (.ok ((is.m_buf.drop range.1).take range.2), is')
      | .ok (.error rc, is') => .ok (.error rc, is')
      | .error fault => .error fault := by
  unfold readBatchMsg readMsg
  by_cases h : is.size < 4
  · rw [StreamM.bind_error (FixedInputStream.deserializeUInt_short h),
      StreamM.bind_error (FixedInputStream.deserializeUInt_short h)]
  · have hread := @FixedInputStream.deserializeUInt_eq is 4 (by decide) (by omega)
    rw [StreamM.bind_ok hread, StreamM.bind_ok hread, takeRange_eq]
    rfl

/-! ## §5 The batch loop -/

section Loop

variable {κ : Type} (listener : MsgFrameListener κ) (connectionDetails : κ) (header : MsgHeader)

/-- The states of the reader in which the loop of `readMsgFrame` calls `readMsg`. -/
def readerStates (batchSize : Nat) :
    Nat → FixedInputStream → List (FrameCall κ) → List FixedInputStream
  | 0, _, _ => []
  | remaining + 1, is, calls =>
    is :: match readBatchMsg is with
      | .ok (.ok msgBuffer, is') =>
        let call := .handleMsg connectionDetails header msgBuffer (remaining == 0) batchSize
        if listener calls call ≠ .ok then []
        else readerStates batchSize remaining is' (calls ++ [call])
      | _ => []

/-- The states of the reader in which `readMsgFrame` calls `readMsg` on a payload. -/
def batchStates (byteOrder : ByteOrder) (payload : List UInt8) : List FixedInputStream :=
  if !header.isBatch then []
  else
    match deserializeUInt 4 (FixedInputStream.new payload byteOrder) with
    | .ok (.ok batchSize, is) =>
      if batchSize ≠ header.m_batchSize.toNat then []
      else readerStates listener connectionDetails header batchSize batchSize is []
    | _ => []

/-- The buffers of the calls are parts of the payload. -/
def HandsOutParts (payload : List UInt8) (calls : List (FrameCall κ)) : Prop :=
  ∀ details h msgBuffer last size,
    ListenerCall.handleMsg details h msgBuffer last size ∈ calls → msgBuffer <:+: payload

variable {listener connectionDetails header}

/-- A message that is handed out is a part of the payload. -/
theorem readBatchMsg_infix {payload : List UInt8} {is is' : FixedInputStream}
    {msgBuffer : List UInt8}
    (h : Over payload is) (hrun : readBatchMsg is = .ok (.ok msgBuffer, is')) :
    msgBuffer <:+: payload := by
  rw [readBatchMsg_eq] at hrun
  split at hrun
  · split at hrun
    · cases hrun
    · cases hrun
      rw [h.buf_eq]
      exact (List.take_prefix _ _).isInfix.trans (List.drop_suffix _ _).isInfix
  · cases hrun
  · cases hrun

/-- The reader stays on the payload. -/
theorem readBatchMsg_over {payload : List UInt8} {is is' : FixedInputStream}
    {msgBuffer : List UInt8} (h : Over payload is)
    (hrun : readBatchMsg is = .ok (.ok msgBuffer, is')) : Over payload is' := by
  rcases Nat.lt_trichotomy is.size 4 with hlt | heq | hgt
  · rw [readBatchMsg_eq, readMsg_short hlt] at hrun
    cases hrun
  · rw [readBatchMsg_eq, readMsg_end heq] at hrun
    cases hrun
  · rw [readBatchMsg_eq, readMsg_more hgt] at hrun
    dsimp only at hrun
    split at hrun
    · cases hrun
    · cases hrun
      exact h.advance (by omega)

/-- Where the length does not go past the end, reading a message is no fault. -/
theorem readBatchMsg_total {is : FixedInputStream}
    (hwithin : 4 < is.size → claimedLength is ≤ is.size - 4) :
    ∃ result, readBatchMsg is = .ok result := by
  rcases Nat.lt_trichotomy is.size 4 with hlt | heq | hgt
  · exact ⟨_, by rw [readBatchMsg_eq, readMsg_short hlt]⟩
  · exact ⟨_, by rw [readBatchMsg_eq, readMsg_end heq]⟩
  · have hinside : ¬ is.m_buf.length < is.m_offset + 4 + claimedLength is := by
      have hle := hwithin hgt
      simp only [FixedInputStream.size] at hle hgt
      omega
    rw [readBatchMsg_eq, readMsg_more hgt]
    dsimp only
    rw [if_neg hinside]
    exact ⟨_, rfl⟩

theorem readerStates_over {payload : List UInt8} (batchSize : Nat) :
    ∀ (remaining : Nat) (is : FixedInputStream) (calls : List (FrameCall κ)), Over payload is →
      ∀ state ∈ readerStates listener connectionDetails header batchSize remaining is calls,
        Over payload state := by
  intro remaining
  induction remaining with
  | zero =>
    intro is calls _ state hmem
    cases hmem
  | succ remaining ih =>
    intro is calls hover state hmem
    rw [readerStates, List.mem_cons] at hmem
    rcases hmem with rfl | hmem
    · exact hover
    · split at hmem
      · rename_i hrun
        dsimp only at hmem
        split at hmem
        · cases hmem
        · exact ih _ _ (readBatchMsg_over hover hrun) state hmem
      · cases hmem

/-- **The batch loop** returns and hands out parts of the payload, if in every state that it meets
    the length does not go past the end. -/
theorem readBatch_handsOutParts {payload : List UInt8} (batchSize : Nat) :
    ∀ (remaining : Nat) (is : FixedInputStream) (calls : List (FrameCall κ)), Over payload is →
      HandsOutParts payload calls →
      (∀ state ∈ readerStates listener connectionDetails header batchSize remaining is calls,
        4 < state.size → claimedLength state ≤ state.size - 4) →
      ∃ rc calls', MsgFrameReader.readBatch listener connectionDetails header batchSize remaining
        is calls = .ok (rc, calls') ∧ HandsOutParts payload calls' := by
  intro remaining
  -- induction on the messages that are left to read
  induction remaining with
  | zero =>
    intro is calls _ hparts _
    exact ⟨_, _, rfl, hparts⟩
  | succ remaining ih =>
    intro is calls hover hparts hwithin
    obtain ⟨⟨answer, is'⟩, hrun⟩ := readBatchMsg_total
      (hwithin is (by rw [readerStates]; exact List.mem_cons_self))
    cases answer with
    -- the message is not there, and no part of the payload is handed out
    | error rc =>
      refine ⟨rc, calls ++ [.handleMsgError connectionDetails header rc], ?_, ?_⟩
      · rw [MsgFrameReader.readBatch, readMsg_bytes, hrun]
      · intro details h buffer last size hmem
        rcases List.mem_append.mp hmem with hmem | hmem
        · exact hparts _ _ _ _ _ hmem
        · cases List.mem_singleton.mp hmem
    | ok msgBuffer =>
      -- the call that the loop makes now adds a part of the payload
      have hparts' : HandsOutParts payload (calls ++
          [.handleMsg connectionDetails header msgBuffer (remaining == 0) batchSize]) := by
        intro details h buffer last size hmem
        rcases List.mem_append.mp hmem with hmem | hmem
        · exact hparts _ _ _ _ _ hmem
        · cases List.mem_singleton.mp hmem
          exact readBatchMsg_infix hover hrun
      by_cases hrc : listener calls
          (.handleMsg connectionDetails header msgBuffer (remaining == 0) batchSize) ≠ .ok
      · rw [MsgFrameReader.readBatch, readMsg_bytes, hrun]
        dsimp only
        rw [if_pos hrc]
        exact ⟨_, _, rfl, hparts'⟩
      · -- the listener accepted it, and the loop goes on
        obtain ⟨rc, calls', hloop, hres⟩ := ih is' _ (readBatchMsg_over hover hrun) hparts' (by
          intro state hmem
          apply hwithin state
          rw [readerStates, hrun]
          dsimp only
          rw [if_neg hrc]
          exact List.mem_cons_of_mem _ hmem)
        refine ⟨rc, calls', ?_, hres⟩
        rw [MsgFrameReader.readBatch, readMsg_bytes, hrun]
        dsimp only
        rw [if_neg hrc]
        exact hloop

theorem batchStates_over (byteOrder : ByteOrder) (payload : List UInt8) :
    ∀ state ∈ batchStates listener connectionDetails header byteOrder payload,
      Over payload state := by
  intro state hmem
  unfold batchStates at hmem
  split at hmem
  · cases hmem
  · by_cases hshort : (FixedInputStream.new payload byteOrder).size < 4
    · rw [FixedInputStream.deserializeUInt_short hshort] at hmem
      cases hmem
    · have hover : Over payload (FixedInputStream.new payload byteOrder) := ⟨rfl, Nat.zero_le _⟩
      rw [FixedInputStream.deserializeUInt_eq (by decide) (Nat.not_lt.mp hshort)] at hmem
      dsimp only at hmem
      split at hmem
      · cases hmem
      · exact readerStates_over _ _ _ _ (hover.advance (Nat.not_lt.mp hshort)) state hmem

/-- Reading the frame of a payload returns and hands out parts of the payload. -/
theorem dispatchPayload_handsOutParts (byteOrder : ByteOrder) (payload : List UInt8)
    (hwithin : ∀ state ∈ batchStates listener connectionDetails header byteOrder payload,
      4 < state.size → claimedLength state ≤ state.size - 4) :
    ∃ rc calls, MsgFrameReader.dispatchPayload byteOrder listener connectionDetails header payload =
      .ok (rc, calls) ∧ HandsOutParts payload calls := by
  unfold batchStates at hwithin
  unfold MsgFrameReader.dispatchPayload
  cases hbatch : header.isBatch with
  | false =>
    refine ⟨_, _, rfl, ?_⟩
    intro details h buffer last size hmem
    cases List.mem_singleton.mp hmem
    exact List.infix_refl _
  | true =>
    simp only [hbatch, Bool.not_true, Bool.false_eq_true, if_false] at hwithin ⊢
    by_cases hshort : (FixedInputStream.new payload byteOrder).size < 4
    · rw [FixedInputStream.deserializeUInt_short hshort]
      refine ⟨_, _, rfl, ?_⟩
      intro details h buffer last size hmem
      cases List.mem_singleton.mp hmem
    · have hover : Over payload (FixedInputStream.new payload byteOrder) := ⟨rfl, Nat.zero_le _⟩
      have hread := FixedInputStream.deserializeUInt_eq (by decide) (Nat.not_lt.mp hshort)
      rw [hread] at hwithin ⊢
      dsimp only at hwithin ⊢
      split
      · refine ⟨_, _, rfl, ?_⟩
        intro details h buffer last size hmem
        cases List.mem_singleton.mp hmem
      · rename_i hsize
        rw [if_neg hsize] at hwithin
        exact readBatch_handsOutParts _ _ _ _ (hover.advance (Nat.not_lt.mp hshort))
          (by intro _ _ _ _ _ hmem; cases hmem) hwithin

end Loop

/-! ## §6 The law of the batch reader -/

/-- **The batch reader and its grammar.**  In every state over any payload, `readMsg` accepts
    exactly what is in the grammar if and only if the length fits: it does not go past the end
    of the payload, nor is it zero at the very end.  And the ranges that the loop of `readMsgFrame`
    hands out lie inside the (decompressed) payload if and only if in no state that the loop
    meets the length goes past the end; then the loop returns and the buffers of all calls are
    parts of the payload. -/
theorem batch_reader_accepts_iff (is : FixedInputStream) :
    (AcceptsGrammar is ↔ LengthFits is) ∧
    ∀ {κ : Type} (z : Zlib) (byteOrder : ByteOrder) (listener : MsgFrameListener κ)
      (connectionDetails : κ) (msg : Msg) (payload : List UInt8),
      MsgFrameReader.readPayload z msg = .ok (.ok payload) →
      let states := batchStates listener connectionDetails msg.m_header byteOrder payload
      ((∀ range ∈ states.filterMap handedRange, Inside payload range) ↔
        ∀ is ∈ states, 4 < is.size → claimedLength is ≤ is.size - 4) ∧
      ((∀ is ∈ states, LengthFits is) → ∃ rc calls,
        MsgFrameReader.readMsgFrame z byteOrder listener connectionDetails msg = .ok (rc, calls) ∧
        HandsOutParts payload calls) := by
  refine ⟨acceptsGrammar_iff is, ?_⟩
  intro κ z byteOrder listener connectionDetails msg payload hpayload
  have hover := @batchStates_over κ listener connectionDetails msg.m_header byteOrder payload
  refine ⟨?_, ?_⟩
  · constructor
    · intro hinside is hmem
      apply (inside_iff (hover is hmem)).mp
      intro range hrange
      exact hinside range (List.mem_filterMap.mpr ⟨is, hmem, hrange⟩)
    · intro hwithin range hmem
      obtain ⟨is, his, hrange⟩ := List.mem_filterMap.mp hmem
      exact (inside_iff (hover is his)).mpr (hwithin is his) range hrange
  · intro hfits
    unfold MsgFrameReader.readMsgFrame
    rw [hpayload, MsgFrameReader.handlePayload]
    exact dispatchPayload_handsOutParts byteOrder payload fun is hmem => (hfits is hmem).within

/-- The frame of a batch of one message of two bytes, in host order. -/
theorem batch_reader_accepts_one_message :
    ∃ rc calls, MsgFrameReader.readMsgFrame gzipOfTwo .hostOrder (fun _ _ => .ok) ()
        (frameOf 7 COMMUTIL_MSG_FLAG_BATCH 0 1 [1, 0, 0, 0, 2, 0, 0, 0, 97, 98]) =
          .ok (rc, calls) ∧
      HandsOutParts [1, 0, 0, 0, 2, 0, 0, 0, 97, 98] calls := by
  have hlaw := batch_reader_accepts_iff (.new [1, 0, 0, 0, 2, 0, 0, 0, 97, 98] .hostOrder)
  refine (hlaw.2 gzipOfTwo .hostOrder (fun _ _ => .ok) () _ _
    (MsgFrameReader.readPayload_plain gzipOfTwo 7 0 1 (by decide) (by decide))).2 ?_
  intro is hmem
  obtain rfl := List.mem_singleton.mp hmem
  exact ⟨fun _ => by decide, fun h => absurd h (by decide)⟩

/-- The reader drops a message of length zero at the very end of a payload, and accepts a message
    of which only one of three bytes is there. -/
theorem readMsg_not_grammar :
    ¬ AcceptsGrammar (.new [0, 0, 0, 0] .hostOrder) ∧
    ¬ AcceptsGrammar (.new [3, 0, 0, 0, 97] .hostOrder) := by
  constructor
  · intro hlaw
    have hok := hlaw.1 (by decide)
    rw [readMsg_end (by decide)] at hok
    cases hok
  · intro hlaw
    obtain ⟨rc, is', -, hrun⟩ := hlaw.2 (by decide)
    rw [readMsg_more (by decide)] at hrun
    cases hrun

end MsgBatchReader

end Commutil.Framing
