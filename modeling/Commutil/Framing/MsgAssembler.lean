import Commutil.Framing.Decoding
import Commutil.Library.PartialLoop

/-!
# The Message Assembler

`msg_assembler.h` and `msg_assembler.cpp`, for one connection: the stream state,
the three handlers, the assembly loop of `onBytesReceived` and the connection
callbacks.

What happens outside the assembler is kept beside it: `delivered` lists the
messages handed to `MsgListener::onMsg`, and `alloc` says which of the numbered
message allocations succeed.  The loop is given by one pass (`assembleStep`); a
call of `onBytesReceived` returns only if the loop ends.
-/

namespace Commutil.Framing

open Commutil.Io Commutil.Library SegmentedInputStream

/-! ## §1 State -/

/-- `MsgStream::MsgState`. -/
inductive MsgState where
  | waitingHeader
  | waitingBody
  | resync
  deriving DecidableEq, Repr

/-- `struct MsgStream`. -/
structure MsgStream where
  m_is : SegmentedInputStream
  m_msgHeader : MsgHeader
  m_state : MsgState
  deriving DecidableEq, Repr

/-- What the process has done before: addresses and buffers as in the stream, messages
    delivered, message allocations asked for. -/
structure ProcessHistory where
  nextAddr : Nat
  deallocated : List Buffer
  delivered : List Msg
  allocCount : Nat
  deriving DecidableEq, Repr

/-- One connection of a `MsgAssembler`, with the messages it has delivered. -/
structure Assembly where
  m_stream : MsgStream
  delivered : List Msg
  /-- The number of message allocations asked for. -/
  allocCount : Nat
  deriving DecidableEq, Repr

namespace MsgStream

/-- `MsgStream::reset`. -/
def reset (ms : MsgStream) : MsgStream :=
  { ms with m_is := ms.m_is.reset, m_state := .resync }

end MsgStream

namespace Assembly

/-- A newly constructed assembler. -/
def new (byteOrder : ByteOrder) (history : ProcessHistory) : Assembly :=
  { m_stream :=
      { m_is := SegmentedInputStream.new byteOrder history.nextAddr history.deallocated
        m_msgHeader := MsgHeader.default
        m_state := .waitingHeader }
    delivered := history.delivered
    allocCount := history.allocCount }

/-- What the process has done by the time of this state. -/
def history (a : Assembly) : ProcessHistory :=
  ⟨a.m_stream.m_is.m_nextAddr, a.m_stream.m_is.m_deallocated, a.delivered, a.allocCount⟩

/-- `MsgAssembler::onConnect`. -/
def onConnect (a : Assembly) : Assembly := { a with m_stream := a.m_stream.reset }

/-- `MsgAssembler::onDisconnect`. -/
def onDisconnect (a : Assembly) : Assembly := { a with m_stream := a.m_stream.reset }

/-! ## §2 The handlers -/

/-- `MsgAssembler::onWaitHeader`. -/
def onWaitHeader (ms : MsgStream) : Except Fault MsgStream :=
  -- the handler waits for the rest of the header
  if ms.m_is.m_size < sizeofMsgHeader then
    .ok ms
  else
    match InputStream.peek ms.m_is sizeofMsgHeader with
    | .error fault => .error fault
    -- a peek that fails resets the stream
    | .ok (.error _) => .ok ms.reset
    | .ok (.ok bytes) =>
      let ms := { ms with m_msgHeader := decodeImage ms.m_is.m_byteOrder bytes }
      if ms.m_msgHeader.isValid then
        .ok { ms with m_state := .waitingBody }
      else
        -- the bytes of a bad header are dropped before the magic is searched for
        match ms.m_is.skipBytes sizeofMsgHeader with
        | .error fault => .error fault
        | .ok (rc, _, is) =>
          if rc ≠ .ok then .ok { ms with m_is := is }.reset
          else .ok { ms with m_is := is, m_state := .resync }

/-- `MsgAssembler::onWaitBody`: whether to go on, and the state afterwards. -/
def onWaitBody (alloc : Nat → Bool) (a : Assembly) : Except Fault (Bool × Assembly) :=
  let ms := a.m_stream
  -- not all of the message is there: the loop ends
  if ms.m_is.m_size < ms.m_msgHeader.m_length.toNat then
    .ok (false, a)
  else
    let a := { a with allocCount := a.allocCount + 1 }
    match allocMsg ms.m_msgHeader (alloc (a.allocCount - 1)) with
    | .error fault => .error fault
    | .ok none =>
      -- without memory the message is skipped, and the loop ends
      match ms.m_is.skipBytes ms.m_msgHeader.m_length.toNat with
      | .error fault => .error fault
      | .ok (rc, _, is) =>
        if rc ≠ .ok then .ok (false, { a with m_stream := { ms with m_is := is }.reset })
        else .ok (false, { a with m_stream := { ms with m_is := is } })
    | .ok (some capacity) =>
      match Msg.deserialize capacity ms.m_is with
      | .error fault => .error fault
      -- what cannot be read resets the stream
      | .ok (.error _, is) => .ok (false, { a with m_stream := { ms with m_is := is }.reset })
      | .ok (.ok msg, is) =>
        .ok (true, { a with
          m_stream := { ms with m_is := is, m_state := .waitingHeader }
          delivered := a.delivered ++ [msg] })

/-- `MsgAssembler::onResync`. -/
def onResync (ms : MsgStream) : Except Fault MsgStream :=
  if ms.m_is.m_size < COMMUTIL_MSG_MAGIC_SIZE then
    .ok ms
  else
    match ms.m_is.searchBytes COMMUTIL_MSG_MAGIC with
    | .error fault => .error fault
    | .ok (rc, is) =>
      -- the magic may still come, the state stays
      if rc = .endOfStream then .ok { ms with m_is := is }
      else if rc ≠ .ok then .ok { ms with m_is := is }.reset
      else .ok { ms with m_is := is, m_state := .waitingHeader }

/-! ## §3 The loop -/

/-- Continue the loop with a new stream state. -/
def goOn (a : Assembly) : Except Fault MsgStream → LoopStep Assembly Fault
  | .error fault => .fault fault
  | .ok ms => .next { a with m_stream := ms }

/-- One pass of the loop of `onBytesReceived`. -/
def assembleStep (alloc : Nat → Bool) (a : Assembly) : LoopStep Assembly Fault :=
  if a.m_stream.m_is.m_size = 0 then
    .done a
  else
    match a.m_stream.m_state with
    | .waitingHeader => a.goOn (onWaitHeader a.m_stream)
    | .waitingBody =>
      match onWaitBody alloc a with
      | .error fault => .fault fault
      | .ok (true, a') => .next a'
      | .ok (false, a') => .done a'
    | .resync => a.goOn (onResync a.m_stream)

/-- The connection with another input stream. -/
def withStream (a : Assembly) (is : SegmentedInputStream) : Assembly :=
  { a with m_stream := { a.m_stream with m_is := is } }

/-- `MsgAssembler::onBytesReceived` returns and leaves the connection in state `r`. -/
def OnBytesReceived (alloc : Nat → Bool) (a : Assembly) (buffer : Buffer) (r : Assembly) : Prop :=
  ∃ is, a.m_stream.m_is.appendBuffer buffer = .ok is ∧
    LoopStep.Ends (assembleStep alloc) (a.withStream is) r

/-- A sequence of calls of `onBytesReceived` that all return. -/
def ReceiveAll (alloc : Nat → Bool) : Assembly → List Buffer → Assembly → Prop
  | a, [], r => r = a
  | a, buffer :: rest, r => ∃ a', OnBytesReceived alloc a buffer a' ∧ ReceiveAll alloc a' rest r

/-- The calls of `ReceiveAll`, run with at most `passes` passes each; `none` if a call faults or
    is still running. -/
def receiveAll? (alloc : Nat → Bool) (passes : Nat) : Assembly → List Buffer → Option Assembly
  | a, [] => some a
  | a, buffer :: rest =>
    match a.m_stream.m_is.appendBuffer buffer with
    | .error _ => none
    | .ok is =>
      match LoopStep.iterate (assembleStep alloc) passes (a.withStream is) with
      | some (.ok a') => receiveAll? alloc passes a' rest
      | _ => none

theorem receiveAll?_sound {alloc : Nat → Bool} {passes : Nat} {a r : Assembly}
    {buffers : List Buffer} (h : receiveAll? alloc passes a buffers = some r) :
    ReceiveAll alloc a buffers r := by
  -- each call starts from the state that the call before it left
  induction buffers generalizing a with
  | nil => exact (Option.some.inj h).symm
  | cons buffer rest ih =>
    unfold receiveAll? at h
    split at h
    · cases h
    rename_i is his
    split at h
    · rename_i a' hiter
      exact ⟨a', ⟨is, his, passes, hiter⟩, ih h⟩
    · cases h

/-! ## §4 One pass -/

section Pass

variable {alloc : Nat → Bool} {a : Assembly}

theorem magic_zero_free : (0 : UInt8) ∉ COMMUTIL_MSG_MAGIC := by decide

theorem assembleStep_empty (h : a.m_stream.m_is.m_size = 0) : assembleStep alloc a = .done a := by
  simp only [assembleStep, if_pos h]

/-- Fewer than 40 bytes do not make a header, and the pass changes nothing. -/
theorem assembleStep_header_short (hstate : a.m_stream.m_state = .waitingHeader)
    (hpos : 0 < a.m_stream.m_is.m_size) (hlt : a.m_stream.m_is.m_size < 40) :
    assembleStep alloc a = .next a := by
  have hhead : onWaitHeader a.m_stream = .ok a.m_stream := by
    unfold onWaitHeader
    exact if_pos hlt
  unfold assembleStep
  rw [if_neg (by omega), hstate]
  dsimp only
  rw [hhead]
  rfl

/-- With 40 bytes the header is peeked; a valid one is kept for the body. -/
theorem assembleStep_header_valid (hstate : a.m_stream.m_state = .waitingHeader)
    (hinv : a.m_stream.m_is.Inv) (hlen : 40 ≤ a.m_stream.m_is.unread.length)
    (hvalid : (headerAt a.m_stream.m_is.m_byteOrder a.m_stream.m_is.unread).isValid = true) :
    assembleStep alloc a = .next { a with m_stream :=
      ⟨a.m_stream.m_is, headerAt a.m_stream.m_is.m_byteOrder a.m_stream.m_is.unread,
        .waitingBody⟩ } := by
  have hsize : ¬ a.m_stream.m_is.m_size < sizeofMsgHeader := by
    rw [hinv.size_eq]
    exact Nat.not_lt.mpr hlen
  have hpos : a.m_stream.m_is.m_size ≠ 0 := by
    rw [hinv.size_eq]
    omega
  -- a peek moves nothing, only the header and the state change
  have hhead : onWaitHeader a.m_stream = .ok ⟨a.m_stream.m_is,
      headerAt a.m_stream.m_is.m_byteOrder a.m_stream.m_is.unread, .waitingBody⟩ := by
    unfold onWaitHeader
    rw [if_neg hsize, peek_header hinv hlen]
    simp only [decodeImage_eq _ hlen, hvalid, if_true]
  unfold assembleStep
  rw [if_neg hpos, hstate]
  dsimp only
  rw [hhead]
  rfl

/-- An invalid header is skipped as a whole. -/
theorem assembleStep_header_invalid (alloc : Nat → Bool)
    (hstate : a.m_stream.m_state = .waitingHeader)
    (hinv : a.m_stream.m_is.Inv) (hlen : 40 ≤ a.m_stream.m_is.unread.length)
    (hvalid : (headerAt a.m_stream.m_is.m_byteOrder a.m_stream.m_is.unread).isValid = false) :
    ∃ is, Consumed a.m_stream.m_is 40 is ∧ assembleStep alloc a = .next { a with m_stream :=
      ⟨is, headerAt a.m_stream.m_is.m_byteOrder a.m_stream.m_is.unread, .resync⟩ } := by
  have hsize : ¬ a.m_stream.m_is.m_size < sizeofMsgHeader := by
    rw [hinv.size_eq]
    exact Nat.not_lt.mpr hlen
  have hpos : a.m_stream.m_is.m_size ≠ 0 := by
    rw [hinv.size_eq]
    omega
  have hne : a.m_stream.m_is.unread ≠ [] := List.length_pos_iff.mp (by omega)
  obtain ⟨is, his, hcons⟩ := skipBytes_spec hinv hne 40
  have his' : a.m_stream.m_is.skipBytes sizeofMsgHeader =
      .ok (.ok, min a.m_stream.m_is.unread.length 40, is) := his
  rw [Nat.min_eq_right hlen] at hcons
  refine ⟨is, hcons, ?_⟩
  have hhead : onWaitHeader a.m_stream = .ok ⟨is,
      headerAt a.m_stream.m_is.m_byteOrder a.m_stream.m_is.unread, .resync⟩ := by
    unfold onWaitHeader
    rw [if_neg hsize, peek_header hinv hlen]
    simp only [decodeImage_eq _ hlen, hvalid, Bool.false_eq_true, if_false, his', ne_eq, not_true]
  unfold assembleStep
  rw [if_neg hpos, hstate]
  dsimp only
  rw [hhead]
  rfl

/-- The loop is left until the whole message has arrived. -/
theorem assembleStep_body_short (hstate : a.m_stream.m_state = .waitingBody)
    (hlt : a.m_stream.m_is.m_size < a.m_stream.m_msgHeader.m_length.toNat) :
    assembleStep alloc a = .done a := by
  have hbody : onWaitBody alloc a = .ok (false, a) := by
    unfold onWaitBody
    exact if_pos hlt
  unfold assembleStep
  split
  · rfl
  · rw [hstate]
    dsimp only
    rw [hbody]

/-- A message that has arrived and for which the saved header says the right length is delivered
    as it stands in the stream, with the header that is there. -/
theorem assembleStep_body_sized (hstate : a.m_stream.m_state = .waitingBody)
    (hinv : a.m_stream.m_is.Inv) {L : Nat}
    (hsaved : a.m_stream.m_msgHeader.m_length.toNat = L)
    (hown : (headerAt a.m_stream.m_is.m_byteOrder a.m_stream.m_is.unread).m_length.toNat = L)
    (hlow : 40 ≤ L) (hlen : L ≤ a.m_stream.m_is.unread.length)
    (hmore : 40 < a.m_stream.m_is.unread.length) (halloc : alloc a.allocCount = true) :
    ∃ is, Consumed a.m_stream.m_is L is ∧
      assembleStep alloc a = .next
        { m_stream := ⟨is, a.m_stream.m_msgHeader, .waitingHeader⟩
          delivered := a.delivered ++
            [⟨headerAt a.m_stream.m_is.m_byteOrder a.m_stream.m_is.unread,
              (a.m_stream.m_is.unread.drop 40).take (L - 40)⟩]
          allocCount := a.allocCount + 1 } := by
  have hpos : a.m_stream.m_is.m_size ≠ 0 := by
    rw [hinv.size_eq]
    omega
  -- the whole body is in the stream
  have hsize : ¬ a.m_stream.m_is.m_size < a.m_stream.m_msgHeader.m_length.toNat := by
    rw [hinv.size_eq]
    omega
  obtain ⟨is, his, hcons⟩ := Msg.deserialize_spec hinv hown.symm hlow hlen hmore
  refine ⟨is, hcons, ?_⟩
  have hbuf : msgBufSize a.m_stream.m_msgHeader = L := by
    rw [msgBufSize_of_le (by omega), hsaved]
  -- the message that is allocated has room for header and body
  have hbig : ¬ msgBufSize a.m_stream.m_msgHeader < sizeofMsgHeader := by
    rw [hbuf]
    exact Nat.not_lt.mpr hlow
  have hmsg : allocMsg a.m_stream.m_msgHeader true = .ok (some L) := by
    unfold allocMsg
    rw [if_neg (by simp), if_neg hbig, hbuf]
  have hbody : onWaitBody alloc a = .ok (true,
      { m_stream := ⟨is, a.m_stream.m_msgHeader, .waitingHeader⟩
        delivered := a.delivered ++
          [⟨headerAt a.m_stream.m_is.m_byteOrder a.m_stream.m_is.unread,
            (a.m_stream.m_is.unread.drop 40).take (L - 40)⟩]
        allocCount := a.allocCount + 1 }) := by
    unfold onWaitBody
    rw [if_neg hsize]
    simp only [Nat.add_sub_cancel, halloc, hmsg, his]
  unfold assembleStep
  rw [if_neg hpos, hstate]
  dsimp only
  rw [hbody]

/-- In particular when the saved header is the one in the stream. -/
theorem assembleStep_body_deliver (hstate : a.m_stream.m_state = .waitingBody)
    (hinv : a.m_stream.m_is.Inv)
    (hheader : a.m_stream.m_msgHeader =
      headerAt a.m_stream.m_is.m_byteOrder a.m_stream.m_is.unread)
    (hlow : 40 ≤ a.m_stream.m_msgHeader.m_length.toNat)
    (hlen : a.m_stream.m_msgHeader.m_length.toNat ≤ a.m_stream.m_is.unread.length)
    (hmore : 40 < a.m_stream.m_is.unread.length)
    (halloc : alloc a.allocCount = true) :
    ∃ is, Consumed a.m_stream.m_is a.m_stream.m_msgHeader.m_length.toNat is ∧
      assembleStep alloc a = .next
        { m_stream := ⟨is, a.m_stream.m_msgHeader, .waitingHeader⟩
          delivered := a.delivered ++ [⟨a.m_stream.m_msgHeader,
            (a.m_stream.m_is.unread.drop 40).take
              (a.m_stream.m_msgHeader.m_length.toNat - 40)⟩]
          allocCount := a.allocCount + 1 } := by
  have hstep := assembleStep_body_sized hstate hinv rfl (by rw [← hheader]) hlow hlen hmore halloc
  rwa [← hheader] at hstep

/-- A length below the header size leaves no room for the header. -/
theorem assembleStep_body_overflow (hstate : a.m_stream.m_state = .waitingBody)
    (hpos : 0 < a.m_stream.m_is.m_size)
    (hlen : a.m_stream.m_msgHeader.m_length.toNat ≤ a.m_stream.m_is.m_size)
    (hlow : a.m_stream.m_msgHeader.m_length.toNat < 40) (halloc : alloc a.allocCount = true) :
    assembleStep alloc a = .fault .heapOverflow := by
  have hsmall : msgBufSize a.m_stream.m_msgHeader < sizeofMsgHeader := by
    rw [msgBufSize_of_lt hlow]
    exact hlow
  have hmsg : allocMsg a.m_stream.m_msgHeader true = .error .heapOverflow := by
    unfold allocMsg
    rw [if_neg (by simp), if_pos hsmall]
  have hbody : onWaitBody alloc a = .error .heapOverflow := by
    unfold onWaitBody
    rw [if_neg (by omega)]
    simp only [Nat.add_sub_cancel, halloc, hmsg]
  unfold assembleStep
  rw [if_neg (by omega), hstate]
  dsimp only
  rw [hbody]

/-- A bare header at the end of the stream cannot be completed. -/
theorem assembleStep_body_bare (hstate : a.m_stream.m_state = .waitingBody)
    (hinv : a.m_stream.m_is.Inv) (hL : a.m_stream.m_msgHeader.m_length.toNat = 40)
    (hlen : a.m_stream.m_is.unread.length = 40) (halloc : alloc a.allocCount = true) :
    assembleStep alloc a = .fault .nullDereference := by
  have hsize := hinv.size_eq
  have hmsg : allocMsg a.m_stream.m_msgHeader true = .ok (some 40) := by
    have hbuf := msgBufSize_of_le (h := a.m_stream.m_msgHeader) (by omega)
    rw [hL] at hbuf
    unfold allocMsg
    rw [if_neg (by simp), hbuf]
    rfl
  have hbody : onWaitBody alloc a = .error .nullDereference := by
    unfold onWaitBody
    rw [if_neg (by omega)]
    simp only [Nat.add_sub_cancel, halloc, hmsg, Msg.deserialize_bare_header hinv hlen]
  unfold assembleStep
  rw [if_neg (by omega), hstate]
  dsimp only
  rw [hbody]

/-- When the allocation fails the bytes are skipped and the loop is left. -/
theorem assembleStep_body_unallocated (hstate : a.m_stream.m_state = .waitingBody)
    (hinv : a.m_stream.m_is.Inv) (hpos : 0 < a.m_stream.m_is.m_size)
    (hlen : a.m_stream.m_msgHeader.m_length.toNat ≤ a.m_stream.m_is.m_size)
    (halloc : alloc a.allocCount = false) :
    ∃ is, Consumed a.m_stream.m_is a.m_stream.m_msgHeader.m_length.toNat is ∧
      assembleStep alloc a = .done { a with
        m_stream := { a.m_stream with m_is := is }
        allocCount := a.allocCount + 1 } := by
  have hsize := hinv.size_eq
  have hne : a.m_stream.m_is.unread ≠ [] := List.length_pos_iff.mp (by omega)
  obtain ⟨is, his, hcons⟩ := skipBytes_spec hinv hne a.m_stream.m_msgHeader.m_length.toNat
  rw [Nat.min_eq_right (by omega)] at hcons
  refine ⟨is, hcons, ?_⟩
  have hmsg : allocMsg a.m_stream.m_msgHeader false = .ok none := rfl
  have hbody : onWaitBody alloc a = .ok (false, { a with
      m_stream := { a.m_stream with m_is := is }
      allocCount := a.allocCount + 1 }) := by
    unfold onWaitBody
    rw [if_neg (by omega)]
    simp only [Nat.add_sub_cancel, halloc, hmsg, his, ne_eq, not_true, if_false]
  unfold assembleStep
  rw [if_neg (by omega), hstate]
  dsimp only
  rw [hbody]

theorem assembleStep_resync_short (hstate : a.m_stream.m_state = .resync)
    (hpos : 0 < a.m_stream.m_is.m_size) (hlt : a.m_stream.m_is.m_size < 8) :
    assembleStep alloc a = .next a := by
  have hres : onResync a.m_stream = .ok a.m_stream := by
    unfold onResync
    exact if_pos hlt
  unfold assembleStep
  rw [if_neg (by omega), hstate]
  dsimp only
  rw [hres]
  rfl

/-- The three ways a search ends the pass. -/
theorem assembleStep_resync_search (alloc : Nat → Bool)
    (hstate : a.m_stream.m_state = .resync)
    (hlen : 8 ≤ a.m_stream.m_is.m_size) {rc : ErrorCode} {is : SegmentedInputStream}
    (hsearch : a.m_stream.m_is.searchBytes COMMUTIL_MSG_MAGIC = .ok (rc, is)) :
    (rc = .ok → assembleStep alloc a =
      .next { a with m_stream := ⟨is, a.m_stream.m_msgHeader, .waitingHeader⟩ }) ∧
    (rc = .endOfStream → assembleStep alloc a =
      .next { a with m_stream := ⟨is, a.m_stream.m_msgHeader, .resync⟩ }) := by
  have hsize : ¬ a.m_stream.m_is.m_size < COMMUTIL_MSG_MAGIC_SIZE := Nat.not_lt.mpr hlen
  have hpos : a.m_stream.m_is.m_size ≠ 0 := by omega
  have hstep : assembleStep alloc a = a.goOn (onResync a.m_stream) := by
    unfold assembleStep
    rw [if_neg hpos, hstate]
  rw [hstep]
  unfold onResync
  rw [if_neg hsize, hsearch]
  refine ⟨fun hrc => ?_, fun hrc => ?_⟩
  · subst hrc
    simp [goOn]
  · subst hrc
    simp [goOn, hstate]

end Pass

end Assembly

end Commutil.Framing
