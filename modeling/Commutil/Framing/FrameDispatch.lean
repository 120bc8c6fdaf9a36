import Commutil.Framing.BatchReader

/-!
# The Dispatch of a Frame

`MsgFrameReader::readMsgFrame` and the contract of `msg_frame_listener.h`: which calls of the
frame listener a frame leads to, in what order, and with what result.

`MsgFrame` hands the listener the bytes of a message, which is a fault where they are not all
there.  The protocol does not depend on that: here a call carries what the code passes, a
position in the payload and a length.  `readMsgFrame_bytes` connects the two.

The protocol is stated against the frame alone.  `UnpackError` says how unpacking can fail and
after how many messages; it does not mention the listener.  `dispatch_protocol` puts the two
kinds of failure together.
-/

namespace Commutil.Framing.Dispatch

open Commutil.Io Commutil.Framing.MsgBatchReader

/-! ## §1 The code -/

section Code

variable {κ : Type}

/-- The position of a message buffer in the payload, and its length. -/
instance : MsgBuffer (Nat × Nat) := ⟨readMsg, fun payload => (0, payload.length)⟩

@[simp] theorem readMsg_position : @MsgBuffer.readMsg (Nat × Nat) _ = readMsg := rfl

@[simp] theorem ofPayload_position (payload : List UInt8) :
    MsgBuffer.ofPayload payload = (0, payload.length) := rfl

/-- A call of the frame listener, with the position and the length of the message buffer. -/
abbrev Call (κ : Type) : Type := ListenerCall κ (Nat × Nat)

/-- What `handleMsg` returns for a call after the calls before it. -/
abbrev Listener (κ : Type) : Type := Framing.Listener κ (Nat × Nat)

/-- `MsgFrameReader::readMsgFrame`. -/
def readMsgFrame (listener : Listener κ) (connectionDetails : κ) (z : Zlib) (byteOrder : ByteOrder)
    (msg : Msg) : Except Fault (ErrorCode × List (Call κ)) :=
  MsgFrameReader.handlePayload byteOrder listener connectionDetails msg.m_header
    (MsgFrameReader.readPayload z msg)

end Code

/-! ## §2 How unpacking fails -/

/-- The reader after `n` messages of a batch. -/
def readerAfter : Nat → FixedInputStream → Option FixedInputStream
  | 0, is => some is
  | n + 1, is =>
    match readMsg is with
    | .ok (.ok _, is') => readerAfter n is'
    | _ => none

/-- Unpacking the frame fails with the status, after so many messages. -/
inductive UnpackError (z : Zlib) (byteOrder : ByteOrder) (msg : Msg) : Nat → ErrorCode → Prop
  /-- The payload decompresses to another length than the header says. -/
  | uncompressedSize {decompressed : List UInt8} (hcompressed : msg.m_header.isCompressed = true)
      (hrun : z.decompress (msg.m_payload.take (getPayloadSizeBytes msg.m_header)) =
        .ok decompressed)
      (hne : decompressed.length ≠ msg.m_header.m_uncompressedLength.toNat) :
      UnpackError z byteOrder msg 0 .dataCorrupt
  /-- The number of messages cannot be read. -/
  | unreadableBatchSize {payload : List UInt8} {rc : ErrorCode} {is : FixedInputStream}
      (hpayload : MsgFrameReader.readPayload z msg = .ok (.ok payload))
      (hbatch : msg.m_header.isBatch = true)
      (hrun : deserializeUInt 4 (FixedInputStream.new payload byteOrder) = .ok (.error rc, is)) :
      UnpackError z byteOrder msg 0 rc
  /-- The number of messages is not the one in the header. -/
  | wrongBatchSize {payload : List UInt8} {batchSize : Nat} {is : FixedInputStream}
      (hpayload : MsgFrameReader.readPayload z msg = .ok (.ok payload))
      (hbatch : msg.m_header.isBatch = true)
      (hrun : deserializeUInt 4 (FixedInputStream.new payload byteOrder) = .ok (.ok batchSize, is))
      (hne : batchSize ≠ msg.m_header.m_batchSize.toNat) :
      UnpackError z byteOrder msg 0 .dataCorrupt
  /-- `readMsg` returns an error for a message. -/
  | message {payload : List UInt8} {n : Nat} {rc : ErrorCode} {is is' is'' : FixedInputStream}
      (hpayload : MsgFrameReader.readPayload z msg = .ok (.ok payload))
      (hbatch : msg.m_header.isBatch = true)
      (hrun : deserializeUInt 4 (FixedInputStream.new payload byteOrder) =
        .ok (.ok msg.m_header.m_batchSize.toNat, is))
      (hlt : n < msg.m_header.m_batchSize.toNat) (hafter : readerAfter n is = some is')
      (hread : readMsg is' = .ok (.error rc, is'')) :
      UnpackError z byteOrder msg n rc

/-! ## §3 The protocol -/

section Protocol

variable {κ : Type}

/-- The number of messages that a frame announces. -/
def announced (header : MsgHeader) : Nat :=
  if header.isBatch then header.m_batchSize.toNat else 1

/-- The call is one of `handleMsg`. -/
def Call.handles : Call κ → Bool
  | .handleMsg .. => true
  | .handleMsgError .. => false

/-- What the listener returned for the call at index `i`. -/
def verdict (listener : Listener κ) (calls : List (Call κ)) (i : Nat) : Option ErrorCode :=
  calls[i]?.map (listener (calls.take i))

/-- The calls from index `n` on do not matter: the first `n` are calls of `handleMsg`, and each
    was answered with `E_OK`. -/
def Accepted (listener : Listener κ) (calls : List (Call κ)) (n : Nat) : Prop :=
  ∀ i < n, (∃ call, calls[i]? = some call ∧ call.handles = true) ∧
    verdict listener calls i = some .ok

/-- **The contract of the frame listener** for the calls and the result of `readMsgFrame`. -/
structure Protocol (z : Zlib) (byteOrder : ByteOrder) (listener : Listener κ)
    (connectionDetails : κ) (msg : Msg) (rc : ErrorCode) (calls : List (Call κ)) : Prop where
  /-- At most as many messages are handled as the frame announces. -/
  handled_le : calls.countP Call.handles ≤ announced msg.m_header
  /-- `handleMsgError` is called at most once. -/
  error_le : calls.countP (fun call => !call.handles) ≤ 1
  /-- After a call that was refused, or an error, there is no other. -/
  stops : Accepted listener calls (calls.length - 1)
  /-- Every call passes the connection and the header. -/
  passes : ∀ call ∈ calls,
    (∃ buffer last size, call = .handleMsg connectionDetails msg.m_header buffer last size) ∨
      ∃ status, call = .handleMsgError connectionDetails msg.m_header status
  /-- The last message announced, and no other, is marked as the last. -/
  last_iff : ∀ (i : Nat) (details : κ) (h : MsgHeader) (buffer : Nat × Nat) (last : Bool)
    (size : Nat), calls[i]? = some (.handleMsg details h buffer last size) →
      size = announced msg.m_header ∧ (last = true ↔ i + 1 = announced msg.m_header)
  /-- An error is reported exactly if unpacking failed after the messages that were accepted. -/
  error_iff : ∀ status, .handleMsgError connectionDetails msg.m_header status ∈ calls ↔
    Accepted listener calls (calls.countP Call.handles) ∧
      UnpackError z byteOrder msg (calls.countP Call.handles) status
  /-- The result is `E_OK` exactly if every announced message was accepted. -/
  ok_iff : rc = .ok ↔
    calls.length = announced msg.m_header ∧ Accepted listener calls (announced msg.m_header)
  /-- Otherwise it is the code of the last call, which is the first step that failed. -/
  first_failure : rc ≠ .ok → ∃ call, calls.getLast? = some call ∧
    (call = .handleMsgError connectionDetails msg.m_header rc ∨
      call.handles = true ∧ verdict listener calls (calls.length - 1) = some rc)

end Protocol

/-! ## §4 How a frame is dispatched -/

/-- `readMsg` hands out a message or meets the end of the stream; it does not fault. -/
theorem readMsg_cases (is : FixedInputStream) :
    (∃ range is', readMsg is = .ok (.ok range, is')) ∨
      ∃ is', readMsg is = .ok (.error .endOfStream, is') := by
  rcases Nat.lt_trichotomy is.size 4 with hlt | heq | hgt
  · exact .inr ⟨_, readMsg_short hlt⟩
  · exact .inr ⟨_, readMsg_end heq⟩
  · exact .inl ⟨_, _, readMsg_more hgt⟩

theorem readerAfter_succ {n : Nat} {is is' is'' : FixedInputStream} {range : Nat × Nat}
    (hafter : readerAfter n is = some is') (hread : readMsg is' = .ok (.ok range, is'')) :
    readerAfter (n + 1) is = some is'' := by
  induction n generalizing is with
  | zero =>
    cases hafter
    rw [readerAfter, hread]
    rfl
  | succ n ih =>
    rw [readerAfter] at hafter ⊢
    split at hafter
    · exact ih hafter
    · cases hafter

section Run

variable {κ : Type} (z : Zlib) (byteOrder : ByteOrder) (listener : Listener κ)
  (connectionDetails : κ) (msg : Msg)

/-- The call for the message after `n` others. -/
def callAfter (n : Nat) (buffer : Nat × Nat) : Call κ :=
  .handleMsg connectionDetails msg.m_header buffer (n + 1 == announced msg.m_header)
    (announced msg.m_header)

/-- Calls for messages that were all accepted. -/
def AllAccepted (calls : List (Call κ)) : Prop :=
  ∀ i < calls.length, ∃ buffer, calls[i]? = some (callAfter connectionDetails msg i buffer) ∧
    listener (calls.take i) (callAfter connectionDetails msg i buffer) = .ok

/-- How the dispatch of a frame ends after the messages that were accepted. -/
inductive Ending (accepted : List (Call κ)) : ErrorCode → List (Call κ) → Prop
  | done (hlen : accepted.length = announced msg.m_header)
      (herr : ∀ status, ¬ UnpackError z byteOrder msg accepted.length status) :
      Ending accepted .ok accepted
  | failed {rc : ErrorCode} (hle : accepted.length ≤ announced msg.m_header) (hne : rc ≠ .ok)
      (herr : ∀ status, UnpackError z byteOrder msg accepted.length status ↔ status = rc) :
      Ending accepted rc (accepted ++ [.handleMsgError connectionDetails msg.m_header rc])
  | refused {rc : ErrorCode} {buffer : Nat × Nat} (hlt : accepted.length < announced msg.m_header)
      (hne : rc ≠ .ok)
      (hverdict : listener accepted (callAfter connectionDetails msg accepted.length buffer) = rc) :
      Ending accepted rc (accepted ++ [callAfter connectionDetails msg accepted.length buffer])

variable {z byteOrder listener connectionDetails msg}

theorem AllAccepted.snoc {calls : List (Call κ)} {buffer : Nat × Nat}
    (h : AllAccepted listener connectionDetails msg calls)
    (hverdict : listener calls (callAfter connectionDetails msg calls.length buffer) = .ok) :
    AllAccepted listener connectionDetails msg
      (calls ++ [callAfter connectionDetails msg calls.length buffer]) := by
  intro i hi
  rw [List.length_append, List.length_singleton] at hi
  rcases Nat.lt_succ_iff_lt_or_eq.mp hi with hlt | rfl
  · obtain ⟨b, hget, hok⟩ := h i hlt
    refine ⟨b, ?_, ?_⟩
    · rw [List.getElem?_append_left hlt]
      exact hget
    · rw [List.take_append_of_le_length (Nat.le_of_lt hlt)]
      exact hok
  · refine ⟨buffer, ?_, ?_⟩
    · rw [List.getElem?_append_right (Nat.le_refl _), Nat.sub_self]
      rfl
    · rw [List.take_left]
      exact hverdict

/-- A payload that decompresses to a wrong length is an error, if its bytes are all there. -/
theorem readPayload_wrongSize {decompressed : List UInt8}
    (hroom : getPayloadSizeBytes msg.m_header ≤ msg.m_payload.length)
    (hcompressed : msg.m_header.isCompressed = true)
    (hrun : z.decompress (msg.m_payload.take (getPayloadSizeBytes msg.m_header)) =
      .ok decompressed)
    (hne : decompressed.length ≠ msg.m_header.m_uncompressedLength.toNat) :
    MsgFrameReader.readPayload z msg = .ok (.error .dataCorrupt) := by
  unfold MsgFrameReader.readPayload
  dsimp only
  rw [if_neg (by omega), if_pos hcompressed, hrun]
  exact if_pos hne

/-- In the loop, unpacking fails only in `readMsg`. -/
theorem unpackError_loop_iff {payload : List UInt8} {is : FixedInputStream}
    (hpayload : MsgFrameReader.readPayload z msg = .ok (.ok payload))
    (hbatch : msg.m_header.isBatch = true)
    (hrun : deserializeUInt 4 (FixedInputStream.new payload byteOrder) =
      .ok (.ok msg.m_header.m_batchSize.toNat, is))
    (hroom : getPayloadSizeBytes msg.m_header ≤ msg.m_payload.length) (n : Nat)
    (status : ErrorCode) :
    UnpackError z byteOrder msg n status ↔ n < msg.m_header.m_batchSize.toNat ∧
      ∃ is' is'', readerAfter n is = some is' ∧ readMsg is' = .ok (.error status, is'') := by
  constructor
  · intro h
    cases h with
    | uncompressedSize hcompressed hdecompress hne =>
      rw [readPayload_wrongSize hroom hcompressed hdecompress hne] at hpayload
      cases hpayload
    | unreadableBatchSize hpayload' _ hrun' =>
      rw [hpayload] at hpayload'
      cases hpayload'
      rw [hrun] at hrun'
      cases hrun'
    | wrongBatchSize hpayload' _ hrun' hne =>
      rw [hpayload] at hpayload'
      cases hpayload'
      rw [hrun] at hrun'
      cases hrun'
      exact absurd rfl hne
    | message hpayload' _ hrun' hlt hafter hread =>
      rw [hpayload] at hpayload'
      cases hpayload'
      rw [hrun] at hrun'
      cases hrun'
      exact ⟨hlt, _, _, hafter, hread⟩
  · rintro ⟨hlt, is', is'', hafter, hread⟩
    exact .message hpayload hbatch hrun hlt hafter hread

/-- **The batch loop**, from the messages accepted before to the end. -/
private theorem readBatch_ending {payload : List UInt8} {is₀ : FixedInputStream}
    (hpayload : MsgFrameReader.readPayload z msg = .ok (.ok payload))
    (hbatch : msg.m_header.isBatch = true)
    (hrun : deserializeUInt 4 (FixedInputStream.new payload byteOrder) =
      .ok (.ok msg.m_header.m_batchSize.toNat, is₀))
    (hroom : getPayloadSizeBytes msg.m_header ≤ msg.m_payload.length) :
    ∀ (remaining : Nat) (is : FixedInputStream) (calls : List (Call κ)),
      calls.length + remaining = msg.m_header.m_batchSize.toNat →
      AllAccepted listener connectionDetails msg calls →
      readerAfter calls.length is₀ = some is →
      ∃ rc accepted all, MsgFrameReader.readBatch listener connectionDetails msg.m_header
          msg.m_header.m_batchSize.toNat remaining is calls = .ok (rc, all) ∧
        AllAccepted listener connectionDetails msg accepted ∧
        Ending z byteOrder listener connectionDetails msg accepted rc all := by
  have hannounced : announced msg.m_header = msg.m_header.m_batchSize.toNat := if_pos hbatch
  intro remaining
  -- induction on the messages that are left to read
  induction remaining with
  | zero =>
    intro is calls hcount hall _
    refine ⟨.ok, calls, calls, rfl, hall, .done (by omega) fun status herr => ?_⟩
    have hlt := ((unpackError_loop_iff hpayload hbatch hrun hroom _ _).mp herr).1
    omega
  | succ remaining ih =>
    intro is calls hcount hall hafter
    rcases readMsg_cases is with ⟨buffer, is', hread⟩ | ⟨is', hread⟩
    · -- the call that the loop makes for this message
      have hcall : callAfter connectionDetails msg calls.length buffer =
          .handleMsg connectionDetails msg.m_header buffer (remaining == 0)
            msg.m_header.m_batchSize.toNat := by
        have hlast : (calls.length + 1 == msg.m_header.m_batchSize.toNat) = (remaining == 0) := by
          rw [Bool.eq_iff_iff, beq_iff_eq, beq_iff_eq]
          omega
        rw [callAfter, hannounced, hlast]
      by_cases hverdict :
          listener calls (callAfter connectionDetails msg calls.length buffer) = .ok
      · -- accepted: the loop goes on behind this message
        obtain ⟨rc, accepted, all, hloop, hres⟩ := ih is'
          (calls ++ [callAfter connectionDetails msg calls.length buffer])
          (by rw [List.length_append, List.length_singleton]; omega) (hall.snoc hverdict)
          (by rw [List.length_append, List.length_singleton]; exact readerAfter_succ hafter hread)
        refine ⟨rc, accepted, all, ?_, hres⟩
        rw [MsgFrameReader.readBatch, readMsg_position, hread]
        dsimp only
        rw [← hcall, hverdict, if_neg (fun h => h rfl)]
        exact hloop
      · -- refused: the loop is left with the verdict
        refine ⟨_, calls, _, ?_, hall, .refused (by omega) hverdict rfl⟩
        rw [MsgFrameReader.readBatch, readMsg_position, hread]
        dsimp only
        rw [← hcall, if_pos hverdict]
    · -- the message could not be read, which is reported
      refine ⟨.endOfStream, calls, _, ?_, hall, .failed (by omega) (by decide) fun status => ?_⟩
      · rw [MsgFrameReader.readBatch, readMsg_position, hread]
      · rw [unpackError_loop_iff hpayload hbatch hrun hroom]
        constructor
        · rintro ⟨-, is₁, is₂, hafter', hread'⟩
          obtain rfl := Option.some.inj (hafter.symm.trans hafter')
          rw [hread] at hread'
          cases hread'
          rfl
        · rintro rfl
          exact ⟨by omega, is, is', hafter, hread⟩

/-- Where the payload cannot be read, unpacking fails with that. -/
private theorem unpackError_of_wrongSize
    (hpayload : MsgFrameReader.readPayload z msg = .ok (.error .dataCorrupt)) {n : Nat}
    {status : ErrorCode} (h : UnpackError z byteOrder msg n status) : status = .dataCorrupt := by
  cases h with
  | uncompressedSize => rfl
  | unreadableBatchSize hpayload' =>
    rw [hpayload] at hpayload'
    cases hpayload'
  | wrongBatchSize => rfl
  | message hpayload' =>
    rw [hpayload] at hpayload'
    cases hpayload'

private theorem unpackError_of_unreadable {payload : List UInt8} {rc : ErrorCode}
    {is : FixedInputStream} (hroom : getPayloadSizeBytes msg.m_header ≤ msg.m_payload.length)
    (hpayload : MsgFrameReader.readPayload z msg = .ok (.ok payload))
    (hrun : deserializeUInt 4 (FixedInputStream.new payload byteOrder) = .ok (.error rc, is))
    {n : Nat} {status : ErrorCode} (h : UnpackError z byteOrder msg n status) : status = rc := by
  cases h with
  | uncompressedSize hcompressed hdecompress hne =>
    rw [readPayload_wrongSize hroom hcompressed hdecompress hne] at hpayload
    cases hpayload
  | unreadableBatchSize hpayload' _ hrun' =>
    rw [hpayload] at hpayload'
    cases hpayload'
    rw [hrun] at hrun'
    cases hrun'
    rfl
  | wrongBatchSize hpayload' _ hrun' =>
    rw [hpayload] at hpayload'
    cases hpayload'
    rw [hrun] at hrun'
    cases hrun'
  | message hpayload' _ hrun' =>
    rw [hpayload] at hpayload'
    cases hpayload'
    rw [hrun] at hrun'
    cases hrun'

private theorem unpackError_of_wrongBatchSize {payload : List UInt8} {batchSize : Nat}
    {is : FixedInputStream}
    (hpayload : MsgFrameReader.readPayload z msg = .ok (.ok payload))
    (hrun : deserializeUInt 4 (FixedInputStream.new payload byteOrder) = .ok (.ok batchSize, is))
    (hne : batchSize ≠ msg.m_header.m_batchSize.toNat) {n : Nat} {status : ErrorCode}
    (h : UnpackError z byteOrder msg n status) : status = .dataCorrupt := by
  cases h with
  | uncompressedSize => rfl
  | unreadableBatchSize hpayload' _ hrun' =>
    rw [hpayload] at hpayload'
    cases hpayload'
    rw [hrun] at hrun'
    cases hrun'
  | wrongBatchSize => rfl
  | message hpayload' _ hrun' =>
    rw [hpayload] at hpayload'
    cases hpayload'
    rw [hrun] at hrun'
    cases hrun'
    exact absurd rfl hne

/-- Where the payload is read, unpacking fails only in the batch. -/
private theorem not_unpackError_single {payload : List UInt8}
    (hroom : getPayloadSizeBytes msg.m_header ≤ msg.m_payload.length)
    (hpayload : MsgFrameReader.readPayload z msg = .ok (.ok payload))
    (hsingle : msg.m_header.isBatch = false) {n : Nat} {status : ErrorCode} :
    ¬ UnpackError z byteOrder msg n status := by
  intro h
  cases h with
  | uncompressedSize hcompressed hdecompress hne =>
    rw [readPayload_wrongSize hroom hcompressed hdecompress hne] at hpayload
    cases hpayload
  | unreadableBatchSize _ hbatch _ =>
    rw [hsingle] at hbatch
    cases hbatch
  | wrongBatchSize _ hbatch _ _ =>
    rw [hsingle] at hbatch
    cases hbatch
  | message _ hbatch _ _ _ _ =>
    rw [hsingle] at hbatch
    cases hbatch

/-- Any other payload is read, if decompression returns. -/
private theorem readPayload_ok
    (hroom : getPayloadSizeBytes msg.m_header ≤ msg.m_payload.length)
    (hdecompress : msg.m_header.isCompressed = true → ∃ decompressed,
      z.decompress (msg.m_payload.take (getPayloadSizeBytes msg.m_header)) = .ok decompressed)
    (hright : ¬ ∃ decompressed, msg.m_header.isCompressed = true ∧
      z.decompress (msg.m_payload.take (getPayloadSizeBytes msg.m_header)) = .ok decompressed ∧
      decompressed.length ≠ msg.m_header.m_uncompressedLength.toNat) :
    ∃ payload, MsgFrameReader.readPayload z msg = .ok (.ok payload) := by
  unfold MsgFrameReader.readPayload
  dsimp only
  rw [if_neg (by omega)]
  by_cases hcompressed : msg.m_header.isCompressed = true
  · obtain ⟨decompressed, hrun⟩ := hdecompress hcompressed
    have heq : decompressed.length = msg.m_header.m_uncompressedLength.toNat :=
      Decidable.byContradiction fun hne => hright ⟨decompressed, hcompressed, hrun, hne⟩
    refine ⟨decompressed, ?_⟩
    rw [if_pos hcompressed, hrun]
    exact if_neg (not_not_intro heq)
  · refine ⟨msg.m_payload.take (getPayloadSizeBytes msg.m_header), ?_⟩
    rw [if_neg hcompressed]

private theorem dispatchPayload_single {payload : List UInt8}
    (hsingle : msg.m_header.isBatch = false) :
    MsgFrameReader.dispatchPayload byteOrder listener connectionDetails msg.m_header payload =
      .ok (listener [] (.handleMsg connectionDetails msg.m_header (0, payload.length) true 1),
        [.handleMsg connectionDetails msg.m_header (0, payload.length) true 1]) := by
  unfold MsgFrameReader.dispatchPayload
  rw [hsingle]
  rfl

/-- **`readMsgFrame`** accepts some messages and ends. -/
theorem readMsgFrame_ending
    (hroom : getPayloadSizeBytes msg.m_header ≤ msg.m_payload.length)
    (hdecompress : msg.m_header.isCompressed = true → ∃ decompressed,
      z.decompress (msg.m_payload.take (getPayloadSizeBytes msg.m_header)) = .ok decompressed) :
    ∃ rc accepted all, readMsgFrame listener connectionDetails z byteOrder msg = .ok (rc, all) ∧
      AllAccepted listener connectionDetails msg accepted ∧
      Ending z byteOrder listener connectionDetails msg accepted rc all := by
  have hnone : AllAccepted listener connectionDetails msg [] :=
    fun i hi => absurd hi (Nat.not_lt_zero i)
  by_cases hwrong : ∃ decompressed, msg.m_header.isCompressed = true ∧
      z.decompress (msg.m_payload.take (getPayloadSizeBytes msg.m_header)) = .ok decompressed ∧
      decompressed.length ≠ msg.m_header.m_uncompressedLength.toNat
  · -- the payload has another length than the header says
    obtain ⟨decompressed, hcompressed, hrun, hne⟩ := hwrong
    have hpayload := readPayload_wrongSize hroom hcompressed hrun hne
    refine ⟨.dataCorrupt, [], [.handleMsgError connectionDetails msg.m_header .dataCorrupt], ?_,
      hnone, .failed (Nat.zero_le _) (by decide) fun status => ⟨fun h => ?_, ?_⟩⟩
    · unfold readMsgFrame
      rw [hpayload, MsgFrameReader.handlePayload]
    · exact unpackError_of_wrongSize hpayload h
    · rintro rfl
      exact .uncompressedSize hcompressed hrun hne
  · -- the payload is there
    obtain ⟨payload, hpayload⟩ := readPayload_ok hroom hdecompress hwrong
    unfold readMsgFrame
    rw [hpayload, MsgFrameReader.handlePayload]
    cases hbatch : msg.m_header.isBatch with
    -- one message, and the verdict of the listener is the result
    | false =>
      have hannounced : announced msg.m_header = 1 := by rw [announced, hbatch]; rfl
      have hcall : ListenerCall.handleMsg connectionDetails msg.m_header (0, payload.length) true 1 =
          callAfter connectionDetails msg ([] : List (Call κ)).length (0, payload.length) := by
        rw [callAfter, hannounced]
        rfl
      rw [dispatchPayload_single hbatch, hcall]
      by_cases hverdict :
          listener [] (callAfter connectionDetails msg ([] : List (Call κ)).length
            (0, payload.length)) = .ok
      · refine ⟨.ok, [] ++ [_], _, ?_, hnone.snoc hverdict, .done hannounced.symm fun _ =>
          not_unpackError_single hroom hpayload hbatch⟩
        exact congrArg (fun rc => Except.ok (rc, _)) hverdict
      · exact ⟨_, [], _, rfl, hnone, .refused (by rw [hannounced]; exact Nat.one_pos) hverdict rfl⟩
    -- a batch begins with its size
    | true =>
      unfold MsgFrameReader.dispatchPayload
      rw [hbatch]
      simp only [Bool.not_true, Bool.false_eq_true, if_false]
      by_cases hshort : (FixedInputStream.new payload byteOrder).size < 4
      · have hrun := FixedInputStream.deserializeUInt_short hshort
        rw [hrun]
        refine ⟨.endOfStream, [], _, rfl, hnone, .failed (Nat.zero_le _) (by decide) fun status =>
          ⟨fun h => ?_, ?_⟩⟩
        · exact unpackError_of_unreadable hroom hpayload hrun h
        · rintro rfl
          exact .unreadableBatchSize hpayload hbatch hrun
      · obtain ⟨batchSize, is, hrun⟩ : ∃ batchSize is,
            deserializeUInt 4 (FixedInputStream.new payload byteOrder) =
              .ok (.ok batchSize, is) :=
          ⟨_, _, FixedInputStream.deserializeUInt_eq (by decide) (Nat.not_lt.mp hshort)⟩
        rw [hrun]
        dsimp only
        by_cases hsize : batchSize = msg.m_header.m_batchSize.toNat
        · subst hsize
          rw [if_neg (fun h => h rfl)]
          exact readBatch_ending hpayload hbatch hrun hroom _ _ [] (Nat.zero_add _) hnone rfl
        · -- the size in the payload is not the one of the header
          rw [if_pos hsize]
          refine ⟨.dataCorrupt, [], _, rfl, hnone, .failed (Nat.zero_le _) (by decide) fun status =>
            ⟨fun h => ?_, ?_⟩⟩
          · exact unpackError_of_wrongBatchSize hpayload hrun hsize h
          · rintro rfl
            exact .wrongBatchSize hpayload hbatch hrun hsize

theorem AllAccepted.mem {accepted : List (Call κ)}
    (h : AllAccepted listener connectionDetails msg accepted) {call : Call κ}
    (hmem : call ∈ accepted) : ∃ i < accepted.length, ∃ buffer,
      call = callAfter connectionDetails msg i buffer := by
  obtain ⟨i, hi, rfl⟩ := List.getElem_of_mem hmem
  obtain ⟨buffer, hget, -⟩ := h i hi
  refine ⟨i, hi, buffer, ?_⟩
  rw [List.getElem?_eq_getElem hi] at hget
  exact Option.some.inj hget

/-- Calls that were accepted are calls of `handleMsg`. -/
theorem AllAccepted.handles {accepted : List (Call κ)}
    (h : AllAccepted listener connectionDetails msg accepted) :
    ∀ call ∈ accepted, call.handles = true := by
  intro call hmem
  obtain ⟨i, -, buffer, rfl⟩ := h.mem hmem
  rfl

/-- What follows does not change what was accepted. -/
theorem AllAccepted.accepted {accepted : List (Call κ)}
    (h : AllAccepted listener connectionDetails msg accepted) (rest : List (Call κ)) {n : Nat}
    (hn : n ≤ accepted.length) : Accepted listener (accepted ++ rest) n := by
  intro i hi
  have hlt : i < accepted.length := Nat.lt_of_lt_of_le hi hn
  obtain ⟨buffer, hget, hok⟩ := h i hlt
  have hget' : (accepted ++ rest)[i]? = some (callAfter connectionDetails msg i buffer) := by
    rw [List.getElem?_append_left hlt]
    exact hget
  refine ⟨⟨_, hget', rfl⟩, ?_⟩
  rw [verdict, hget', List.take_append_of_le_length (Nat.le_of_lt hlt), Option.map_some, hok]

/-- The last call of a dispatch. -/
private theorem getElem?_snoc_length {α : Type} (xs : List α) (x : α) :
    (xs ++ [x])[xs.length]? = some x := by
  rw [List.getElem?_append_right (Nat.le_refl _), Nat.sub_self]
  rfl

private theorem verdict_snoc (accepted : List (Call κ)) (call : Call κ) :
    verdict listener (accepted ++ [call]) accepted.length = some (listener accepted call) := by
  rw [verdict, getElem?_snoc_length, List.take_left, Option.map_some]

/-- The calls that were accepted are marked as they should be. -/
private theorem AllAccepted.last_iff {accepted : List (Call κ)}
    (h : AllAccepted listener connectionDetails msg accepted) {i : Nat} (hi : i < accepted.length)
    {details : κ} {header : MsgHeader} {buffer : Nat × Nat} {last : Bool} {size : Nat}
    (hget : accepted[i]? = some (.handleMsg details header buffer last size)) :
    size = announced msg.m_header ∧ (last = true ↔ i + 1 = announced msg.m_header) := by
  obtain ⟨buffer', hget', -⟩ := h i hi
  rw [hget] at hget'
  cases hget'
  exact ⟨rfl, beq_iff_eq⟩

namespace AllAccepted

variable {accepted : List (Call κ)} (h : AllAccepted listener connectionDetails msg accepted)

include h

private theorem countP_handles : accepted.countP Call.handles = accepted.length :=
  List.countP_eq_length.mpr h.handles

private theorem countP_errors : accepted.countP (fun call => !call.handles) = 0 :=
  List.countP_eq_zero.mpr fun call hmem => by simp [h.handles call hmem]

private theorem passes : ∀ call ∈ accepted, ∃ buffer last size,
    call = ListenerCall.handleMsg connectionDetails msg.m_header buffer last size := by
  intro call hmem
  obtain ⟨i, -, buffer, rfl⟩ := h.mem hmem
  exact ⟨_, _, _, rfl⟩

private theorem not_mem_error (status : ErrorCode) :
    ListenerCall.handleMsgError connectionDetails msg.m_header status ∉ accepted :=
  fun hmem => absurd (h.handles _ hmem) (by simp [Call.handles])

/-- A call after those that were accepted is the first that may have failed. -/
private theorem stops_snoc (call : Call κ) :
    Accepted listener (accepted ++ [call]) ((accepted ++ [call]).length - 1) := by
  rw [List.length_append, List.length_singleton, Nat.add_sub_cancel]
  exact h.accepted _ (Nat.le_refl _)

/-- One more call for a message has the marks of its place; an error call has none. -/
private theorem last_iff_snoc {call : Call κ}
    (hcall : ∀ (details : κ) (header : MsgHeader) (buffer : Nat × Nat) (last : Bool) (size : Nat),
      call = .handleMsg details header buffer last size →
        size = announced msg.m_header ∧
          (last = true ↔ accepted.length + 1 = announced msg.m_header))
    (i : Nat) (details : κ) (header : MsgHeader) (buffer : Nat × Nat) (last : Bool) (size : Nat)
    (hget : (accepted ++ [call])[i]? = some (.handleMsg details header buffer last size)) :
    size = announced msg.m_header ∧ (last = true ↔ i + 1 = announced msg.m_header) := by
  rcases Nat.lt_or_ge i accepted.length with hlt | hge
  · rw [List.getElem?_append_left hlt] at hget
    exact h.last_iff hlt hget
  · have hi := (List.getElem?_eq_some_iff.mp hget).1
    rw [List.length_append, List.length_singleton] at hi
    obtain rfl : i = accepted.length := by omega
    rw [getElem?_snoc_length] at hget
    exact hcall details header buffer last size (Option.some.inj hget)

/-- Every announced message was accepted. -/
private theorem protocol_done (hlen : accepted.length = announced msg.m_header)
    (herr : ∀ status, ¬ UnpackError z byteOrder msg accepted.length status) :
    Protocol z byteOrder listener connectionDetails msg .ok accepted := by
  have haccepted : ∀ n ≤ accepted.length, Accepted listener accepted n := fun n hn => by
    simpa using h.accepted [] hn
  have hcount := h.countP_handles
  have hnoerr := h.countP_errors
  refine ⟨by omega, by omega, haccepted _ (Nat.sub_le _ _),
    fun call hmem => .inl (h.passes call hmem), ?_, fun status => ⟨?_, fun herror => ?_⟩,
    ⟨fun _ => ⟨hlen, haccepted _ (by omega)⟩, fun _ => rfl⟩, fun hne => absurd rfl hne⟩
  · intro i details header buffer last size hget
    exact h.last_iff (List.getElem?_eq_some_iff.mp hget).1 hget
  · exact fun hmem => absurd hmem (h.not_mem_error status)
  · rw [hcount] at herror
    exact absurd herror.2 (herr status)

/-- Unpacking failed after the accepted messages, and the error is reported. -/
private theorem protocol_failed {rc : ErrorCode} (hle : accepted.length ≤ announced msg.m_header)
    (hne : rc ≠ .ok)
    (herr : ∀ status, UnpackError z byteOrder msg accepted.length status ↔ status = rc) :
    Protocol z byteOrder listener connectionDetails msg rc
      (accepted ++ [.handleMsgError connectionDetails msg.m_header rc]) := by
  have hcount : (accepted ++ [ListenerCall.handleMsgError connectionDetails msg.m_header rc]).countP
      Call.handles = accepted.length := by
    rw [List.countP_append, h.countP_handles]
    rfl
  refine ⟨by omega, ?_, h.stops_snoc _, ?_, h.last_iff_snoc nofun, fun status => ?_,
    ⟨fun hok => absurd hok hne, ?_⟩, fun _ => ⟨_, List.getLast?_concat, .inl rfl⟩⟩
  · rw [List.countP_append, h.countP_errors]
    exact Nat.le_refl 1
  · intro call hmem
    rcases List.mem_append.mp hmem with hmem | hmem
    · exact .inl (h.passes call hmem)
    · exact .inr ⟨rc, List.mem_singleton.mp hmem⟩
  · rw [hcount, herr]
    constructor
    · intro hmem
      rcases List.mem_append.mp hmem with hmem | hmem
      · exact absurd hmem (h.not_mem_error status)
      · cases List.mem_singleton.mp hmem
        exact ⟨h.accepted _ (Nat.le_refl _), rfl⟩
    · rintro ⟨-, rfl⟩
      exact List.mem_append_right _ List.mem_cons_self
  · -- the error call takes the place of an announced message
    rintro ⟨hlen, haccepted⟩
    rw [List.length_append, List.length_singleton] at hlen
    obtain ⟨⟨call, hget, hhandles⟩, -⟩ := haccepted accepted.length (by omega)
    rw [getElem?_snoc_length] at hget
    cases hget
    cases hhandles

/-- The listener refused the message after the accepted ones. -/
private theorem protocol_refused {rc : ErrorCode} {buffer : Nat × Nat}
    (hlt : accepted.length < announced msg.m_header) (hne : rc ≠ .ok)
    (hverdict : listener accepted (callAfter connectionDetails msg accepted.length buffer) = rc) :
    Protocol z byteOrder listener connectionDetails msg rc
      (accepted ++ [callAfter connectionDetails msg accepted.length buffer]) := by
  have hcount : (accepted ++ [callAfter connectionDetails msg accepted.length buffer]).countP
      Call.handles = accepted.length + 1 := by
    rw [List.countP_append, h.countP_handles]
    rfl
  have hlast := @verdict_snoc κ listener accepted
    (callAfter connectionDetails msg accepted.length buffer)
  have hrefused : ¬ Accepted listener
      (accepted ++ [callAfter connectionDetails msg accepted.length buffer])
      (accepted.length + 1) := by
    intro haccepted
    have hok := (haccepted accepted.length (Nat.lt_succ_self _)).2
    rw [hlast, hverdict] at hok
    exact hne (Option.some.inj hok)
  refine ⟨by omega, ?_, h.stops_snoc _, ?_, h.last_iff_snoc ?_,
    fun status => ⟨fun hmem => ?_, fun herror => ?_⟩,
    ⟨fun hok => absurd hok hne, ?_⟩, fun _ => ⟨_, List.getLast?_concat, .inr ⟨rfl, ?_⟩⟩⟩
  · rw [List.countP_append, h.countP_errors]
    exact Nat.zero_le 1
  · intro call hmem
    rcases List.mem_append.mp hmem with hmem | hmem
    · exact .inl (h.passes call hmem)
    · exact .inl ⟨_, _, _, List.mem_singleton.mp hmem⟩
  · intro details header b last size hcall
    cases hcall
    exact ⟨rfl, beq_iff_eq⟩
  · -- a call of `handleMsg` reports no error
    rcases List.mem_append.mp hmem with hmem | hmem
    · exact absurd hmem (h.not_mem_error status)
    · cases List.mem_singleton.mp hmem
  · rw [hcount] at herror
    exact absurd herror.1 hrefused
  · rintro ⟨hlen, haccepted⟩
    rw [List.length_append, List.length_singleton] at hlen
    rw [← hlen] at haccepted
    exact absurd haccepted hrefused
  · rw [List.length_append, List.length_singleton, Nat.add_sub_cancel, hlast, hverdict]

end AllAccepted

/-- An ending is what the contract asks for. -/
private theorem Ending.protocol {accepted all : List (Call κ)} {rc : ErrorCode}
    (hall : AllAccepted listener connectionDetails msg accepted)
    (h : Ending z byteOrder listener connectionDetails msg accepted rc all) :
    Protocol z byteOrder listener connectionDetails msg rc all := by
  cases h with
  | done hlen herr => exact hall.protocol_done hlen herr
  | failed hle hne herr => exact hall.protocol_failed hle hne herr
  | refused hlt hne hverdict => exact hall.protocol_refused hlt hne hverdict

end Run

/-! ## §5 The protocol holds -/

/-- **The dispatch protocol of `readMsgFrame`**: for a frame whose payload is all there, and for
    which decompression returns if it is compressed, and for any verdicts of the listener. -/
theorem dispatch_protocol {κ : Type} (z : Zlib) (byteOrder : ByteOrder) (listener : Listener κ)
    (connectionDetails : κ) (msg : Msg)
    (hroom : getPayloadSizeBytes msg.m_header ≤ msg.m_payload.length)
    (hdecompress : msg.m_header.isCompressed = true → ∃ decompressed,
      z.decompress (msg.m_payload.take (getPayloadSizeBytes msg.m_header)) = .ok decompressed) :
    ∃ rc calls, readMsgFrame listener connectionDetails z byteOrder msg = .ok (rc, calls) ∧
      Protocol z byteOrder listener connectionDetails msg rc calls := by
  obtain ⟨rc, accepted, all, hrun, hall, hending⟩ :=
    @readMsgFrame_ending κ z byteOrder listener connectionDetails msg hroom hdecompress
  exact ⟨rc, all, hrun, hending.protocol hall⟩

/-- A batch of two messages, of which the listener refuses the second. -/
theorem dispatch_protocol_refused :
    ∃ rc calls, readMsgFrame (fun calls _ => if calls.length = 0 then .ok else .alreadyExists) ()
        gzipOfTwo .hostOrder (frameOf 7 COMMUTIL_MSG_FLAG_BATCH 0 2
          [2, 0, 0, 0, 1, 0, 0, 0, 97, 1, 0, 0, 0, 98]) = .ok (rc, calls) ∧
      Protocol gzipOfTwo .hostOrder
        (fun calls _ => if calls.length = 0 then .ok else .alreadyExists) ()
        (frameOf 7 COMMUTIL_MSG_FLAG_BATCH 0 2 [2, 0, 0, 0, 1, 0, 0, 0, 97, 1, 0, 0, 0, 98])
        rc calls :=
  dispatch_protocol _ _ _ _ _ (by decide) (fun h => absurd h (by decide))

/-! ## §6 The calls with their bytes -/

section Bytes

variable {κ : Type} (payload : List UInt8)

/-- The call of the frame listener with the bytes of the payload at its position. -/
def Call.withBytes : Call κ → FrameCall κ
  | .handleMsg details header buffer last size =>
    .handleMsg details header ((payload.drop buffer.1).take buffer.2) last size
  | .handleMsgError details header status => .handleMsgError details header status

/-- The buffer of the call lies inside the payload. -/
def Call.Inside : Call κ → Prop
  | .handleMsg _ _ buffer _ _ => MsgBatchReader.Inside payload buffer
  | .handleMsgError .. => True

/-- The listener of bytes, called with positions. -/
def listenerOf (listener : MsgFrameListener κ) : Listener κ := fun calls call =>
  listener (calls.map (Call.withBytes payload)) (Call.withBytes payload call)

variable {payload} {listener : MsgFrameListener κ} {connectionDetails : κ} {header : MsgHeader}

/-- The batch loop only adds calls. -/
private theorem readBatch_extends {batchSize : Nat} {L : Listener κ} :
    ∀ {remaining : Nat} {is : FixedInputStream} {calls all : List (Call κ)} {rc : ErrorCode},
      MsgFrameReader.readBatch L connectionDetails header batchSize remaining is calls =
        .ok (rc, all) →
      calls <+: all := by
  intro remaining
  induction remaining with
  | zero =>
    intro is calls all rc h
    cases h
    exact List.prefix_refl calls
  | succ remaining ih =>
    intro is calls all rc h
    rw [MsgFrameReader.readBatch, readMsg_position] at h
    rcases readMsg_cases is with ⟨buffer, is', hread⟩ | ⟨is', hread⟩
    · rw [hread] at h
      dsimp only at h
      split at h
      · cases h
        exact List.prefix_append _ _
      · exact (List.prefix_append _ _).trans (ih h)
    · rw [hread] at h
      cases h
      exact List.prefix_append _ _

private theorem readMsg_over {is is' : FixedInputStream} {buffer : Nat × Nat}
    (h : Over payload is) (hread : readMsg is = .ok (.ok buffer, is')) : Over payload is' := by
  rcases Nat.lt_trichotomy is.size 4 with hlt | heq | hgt
  · rw [readMsg_short hlt] at hread
    cases hread
  · rw [readMsg_end heq] at hread
    cases hread
  · rw [readMsg_more hgt] at hread
    cases hread
    exact h.advance (by omega)

private theorem readBatch_bytes {batchSize : Nat} :
    ∀ {remaining : Nat} {is : FixedInputStream} {calls all : List (Call κ)} {rc : ErrorCode},
      Over payload is →
      MsgFrameReader.readBatch (listenerOf payload listener) connectionDetails header batchSize
        remaining is calls = .ok (rc, all) →
      (∀ call ∈ all, call.Inside payload) →
      MsgFrameReader.readBatch listener connectionDetails header batchSize remaining is
        (calls.map (Call.withBytes payload)) = .ok (rc, all.map (Call.withBytes payload)) := by
  intro remaining
  induction remaining with
  | zero =>
    intro is calls all rc _ h _
    cases h
    rfl
  | succ remaining ih =>
    intro is calls all rc hover h hinside
    rw [MsgFrameReader.readBatch, readMsg_position] at h
    rw [MsgFrameReader.readBatch, readMsg_bytes, readBatchMsg_eq]
    rcases readMsg_cases is with ⟨buffer, is', hread⟩ | ⟨is', hread⟩
    · rw [hread] at h ⊢
      dsimp only at h ⊢
      -- the buffer of this call is in the payload, whatever comes after
      have hmem : ListenerCall.handleMsg connectionDetails header buffer (remaining == 0) batchSize ∈
          all := by
        split at h
        · cases h
          exact List.mem_append_right _ List.mem_cons_self
        · exact (readBatch_extends h).subset (List.mem_append_right _ List.mem_cons_self)
      have hin : buffer.1 + buffer.2 ≤ payload.length := hinside _ hmem
      rw [hover.buf_eq, if_neg (by omega)]
      dsimp only
      split at h
      · rename_i hverdict
        cases h
        rw [List.map_append]
        exact if_pos hverdict
      · rename_i hverdict
        have hrec := ih (readMsg_over hover hread) h hinside
        rw [List.map_append] at hrec
        exact (if_neg hverdict).trans hrec
    · rw [hread] at h ⊢
      cases h
      rw [List.map_append]
      rfl

/-- **With the bytes**: where every buffer lies inside the payload, the frame listener gets the
    same calls with the bytes at their positions, and the result is the same. -/
theorem readMsgFrame_bytes {z : Zlib} {byteOrder : ByteOrder} {msg : Msg}
    (hpayload : MsgFrameReader.readPayload z msg = .ok (.ok payload)) {rc : ErrorCode}
    {all : List (Call κ)}
    (h : readMsgFrame (listenerOf payload listener) connectionDetails z byteOrder msg =
      .ok (rc, all))
    (hinside : ∀ call ∈ all, call.Inside payload) :
    MsgFrameReader.readMsgFrame z byteOrder listener connectionDetails msg =
      .ok (rc, all.map (Call.withBytes payload)) := by
  unfold readMsgFrame at h
  rw [hpayload, MsgFrameReader.handlePayload] at h
  unfold MsgFrameReader.readMsgFrame
  rw [hpayload, MsgFrameReader.handlePayload]
  unfold MsgFrameReader.dispatchPayload at h ⊢
  cases hbatch : msg.m_header.isBatch with
  -- a single message is the whole payload
  | false =>
    rw [hbatch] at h
    cases h
    have htake : (payload.drop 0).take payload.length = payload := by
      rw [List.drop_zero, List.take_length]
    simp only [Bool.not_false, if_true, List.map_cons, List.map_nil, Call.withBytes,
      ofPayload_position, ofPayload_bytes, htake, listenerOf]
  | true =>
    rw [hbatch] at h
    simp only [Bool.not_true, Bool.false_eq_true, if_false] at h ⊢
    have hover : Over payload (FixedInputStream.new payload byteOrder) := ⟨rfl, Nat.zero_le _⟩
    by_cases hshort : (FixedInputStream.new payload byteOrder).size < 4
    · -- the batch size itself cannot be read
      rw [FixedInputStream.deserializeUInt_short hshort] at h ⊢
      cases h
      rfl
    · have hrun := @FixedInputStream.deserializeUInt_eq (FixedInputStream.new payload byteOrder)
        4 (by decide) (Nat.not_lt.mp hshort)
      obtain ⟨batchSize, heq⟩ : ∃ batchSize, deserializeUInt 4
          (FixedInputStream.new payload byteOrder) =
            .ok (.ok batchSize, (FixedInputStream.new payload byteOrder).advance 4) := ⟨_, hrun⟩
      rw [heq] at h ⊢
      dsimp only at h ⊢
      by_cases hsize : batchSize = msg.m_header.m_batchSize.toNat
      · rw [if_neg (not_not_intro hsize)] at h ⊢
        -- the messages of the batch, one by one
        exact readBatch_bytes (hover.advance (Nat.not_lt.mp hshort)) h hinside
      · rw [if_pos hsize] at h ⊢
        cases h
        rfl

end Bytes

end Commutil.Framing.Dispatch
