import Commutil.Framing.Segmentation
import Commutil.Io.FlatQueue

/-!
# Reconnecting

What survives `onDisconnect` and `onConnect` on a connection index.  The saved
header does, but no state that can follow reads it before it is overwritten
(`SameUpToHeader`).  `SegmentedInputStream::reset` also leaves `m_offset`: a
connection that was dropped in the middle of a buffer reads the next one from that
offset on.

The two-run property `StartsClean` compares the reconnected connection with a newly
constructed one, after every number of steps on every sequence of buffers, and the
reset stream with a new one on every sequence of calls.  It holds exactly if
`m_offset` was zero.
-/

namespace Commutil.Framing

open Commutil.Io Commutil.Library SegmentedInputStream

/-! ## §1 Feeding a connection step by step -/

/-- A connection with buffers still to come; `running` says that `onBytesReceived` is in its
    loop. -/
structure Feed where
  assembly : Assembly
  running : Bool
  pending : List Buffer

/-- One step: a pass of the loop, or the append that starts the next call. -/
def feedStep (alloc : Nat → Bool) (c : Feed) : LoopStep Feed Fault :=
  if c.running then
    match c.assembly.assembleStep alloc with
    | .next a => .next { c with assembly := a }
    | .done a => .next { c with assembly := a, running := false }
    | .fault fault => .fault fault
  else
    match c.pending with
    | [] => .done c
    | buffer :: rest =>
      match c.assembly.m_stream.m_is.appendBuffer buffer with
      | .error fault => .fault fault
      | .ok is => .next ⟨c.assembly.withStream is, true, rest⟩

/-- The messages delivered after `n` steps, or when the feed has come to its end. -/
def deliveredAfter (alloc : Nat → Bool) : Nat → Feed → List Msg
  | 0, c => c.assembly.delivered
  | n + 1, c =>
    match feedStep alloc c with
    | .next c' => deliveredAfter alloc n c'
    | .done _ => c.assembly.delivered
    | .fault _ => c.assembly.delivered

namespace Assembly

/-- `onDisconnect` followed by `onConnect`. -/
def reconnect (a : Assembly) : Assembly := a.onDisconnect.onConnect

/-- A newly constructed assembler after its first `onConnect`, in the same process. -/
def fresh (a : Assembly) : Assembly :=
  (new a.m_stream.m_is.m_byteOrder a.onDisconnect.history).onConnect

/-- The reconnected connection delivers what a new one would, and the reset stream answers as a
    new one would. -/
def StartsClean (a : Assembly) : Prop :=
  (∀ alloc buffers n, deliveredAfter alloc n ⟨a.reconnect, false, buffers⟩ =
    deliveredAfter alloc n ⟨a.fresh, false, buffers⟩) ∧
  ∀ calls, (runCalls SegmentedInputStream.call a.m_stream.m_is.reset calls).map Prod.fst =
    (runCalls SegmentedInputStream.call
      (SegmentedInputStream.new a.m_stream.m_is.m_byteOrder a.m_stream.m_is.m_nextAddr
        a.m_stream.m_is.reset.m_deallocated) calls).map Prod.fst

end Assembly

/-! ## §2 The saved header does not matter -/

/-- Equal but for a saved header that is not in use. -/
structure SameUpToHeader (a b : Assembly) : Prop where
  is_eq : a.m_stream.m_is = b.m_stream.m_is
  state_eq : a.m_stream.m_state = b.m_stream.m_state
  header_eq : a.m_stream.m_state = .waitingBody →
    a.m_stream.m_msgHeader = b.m_stream.m_msgHeader
  delivered_eq : a.delivered = b.delivered
  allocCount_eq : a.allocCount = b.allocCount

/-- Two passes that go the same way and end in related states. -/
inductive SamePass : LoopStep Assembly Fault → LoopStep Assembly Fault → Prop where
  | next {a b : Assembly} (h : SameUpToHeader a b) : SamePass (.next a) (.next b)
  | done {a b : Assembly} (h : SameUpToHeader a b) : SamePass (.done a) (.done b)
  | fault (fault : Fault) : SamePass (.fault fault) (.fault fault)

theorem SameUpToHeader.refl (a : Assembly) : SameUpToHeader a a :=
  ⟨rfl, rfl, fun _ => rfl, rfl, rfl⟩

theorem SamePass.refl : ∀ r : LoopStep Assembly Fault, SamePass r r
  | .next a => .next (.refl a)
  | .done a => .done (.refl a)
  | .fault e => .fault e

namespace SameUpToHeader

/-- Waiting for a header: the saved header is overwritten or still not in use. -/
private theorem pass_header {ms ms' : MsgStream} {a b : Assembly} (his : ms.m_is = ms'.m_is)
    (hstate : ms.m_state = .waitingHeader) (hstate' : ms'.m_state = .waitingHeader)
    (hdel : a.delivered = b.delivered) (hcount : a.allocCount = b.allocCount) :
    SamePass (a.goOn (Assembly.onWaitHeader ms)) (b.goOn (Assembly.onWaitHeader ms')) := by
  obtain ⟨is, header, state⟩ := ms
  obtain ⟨is', header', state'⟩ := ms'
  dsimp only at his hstate hstate'
  subst his hstate hstate'
  unfold Assembly.onWaitHeader
  dsimp only
  by_cases hshort : is.m_size < sizeofMsgHeader
  · rw [if_pos hshort, if_pos hshort]
    exact .next ⟨rfl, rfl, nofun, hdel, hcount⟩
  rw [if_neg hshort, if_neg hshort]
  cases InputStream.peek is sizeofMsgHeader with
  | error fault => exact .fault fault
  | ok r =>
    cases r with
    | error rc => exact .next ⟨rfl, rfl, nofun, hdel, hcount⟩
    | ok bytes =>
      -- the header is overwritten by the same bytes on both sides
      dsimp only
      cases (decodeImage is.m_byteOrder bytes).isValid with
      | true => exact .next ⟨rfl, rfl, fun _ => rfl, hdel, hcount⟩
      | false =>
        simp only [Bool.false_eq_true, if_false]
        cases is.skipBytes sizeofMsgHeader with
        | error fault => exact .fault fault
        | ok r =>
          obtain ⟨rc, n, is₁⟩ := r
          dsimp only
          split
          · exact .next ⟨rfl, rfl, nofun, hdel, hcount⟩
          · exact .next ⟨rfl, rfl, fun _ => rfl, hdel, hcount⟩

private theorem pass_resync {ms ms' : MsgStream} {a b : Assembly} (his : ms.m_is = ms'.m_is)
    (hstate : ms.m_state = .resync) (hstate' : ms'.m_state = .resync)
    (hdel : a.delivered = b.delivered) (hcount : a.allocCount = b.allocCount) :
    SamePass (a.goOn (Assembly.onResync ms)) (b.goOn (Assembly.onResync ms')) := by
  obtain ⟨is, header, state⟩ := ms
  obtain ⟨is', header', state'⟩ := ms'
  dsimp only at his hstate hstate'
  subst his hstate hstate'
  have hrel : ∀ (is₁ : SegmentedInputStream) (st : MsgState), st ≠ .waitingBody →
      SamePass (.next { a with m_stream := ⟨is₁, header, st⟩ })
        (.next { b with m_stream := ⟨is₁, header', st⟩ }) :=
    fun is₁ st hst => .next ⟨rfl, rfl, fun h => absurd h hst, hdel, hcount⟩
  unfold Assembly.onResync
  dsimp only
  by_cases hshort : is.m_size < COMMUTIL_MSG_MAGIC_SIZE
  · rw [if_pos hshort, if_pos hshort]
    exact hrel is .resync (by simp)
  rw [if_neg hshort, if_neg hshort]
  cases is.searchBytes COMMUTIL_MSG_MAGIC with
  | error fault => exact .fault fault
  | ok r =>
    obtain ⟨rc, is₁⟩ := r
    dsimp only
    by_cases hend : rc = .endOfStream
    · rw [if_pos hend, if_pos hend]
      exact hrel is₁ .resync (by simp)
    rw [if_neg hend, if_neg hend]
    by_cases hok : rc ≠ .ok
    · rw [if_pos hok, if_pos hok]
      exact hrel is₁.reset .resync (by simp)
    · rw [if_neg hok, if_neg hok]
      exact hrel is₁ .waitingHeader (by simp)

/-- **The saved header is irrelevant** outside the state that uses it: a pass goes the same way
    and keeps the relation. -/
theorem pass (alloc : Nat → Bool) {a b : Assembly} (h : SameUpToHeader a b) :
    SamePass (a.assembleStep alloc) (b.assembleStep alloc) := by
  cases hstate : a.m_stream.m_state with
  | waitingHeader =>
    have hstate' := h.state_eq ▸ hstate
    unfold Assembly.assembleStep
    rw [← h.is_eq, hstate, hstate']
    split
    · exact .done h
    · exact pass_header h.is_eq hstate hstate' h.delivered_eq h.allocCount_eq
  | waitingBody =>
    -- here the header is in use, and the states are equal
    have hab : a = b := by
      obtain ⟨⟨is, header, state⟩, delivered, count⟩ := a
      obtain ⟨⟨is', header', state'⟩, delivered', count'⟩ := b
      obtain ⟨h1, h2, h3, h4, h5⟩ := h
      dsimp only at h1 h2 h3 h4 h5 hstate
      obtain rfl := h3 hstate
      subst h1 h2 h4 h5
      rfl
    rw [hab]
    exact .refl _
  | resync =>
    have hstate' := h.state_eq ▸ hstate
    unfold Assembly.assembleStep
    rw [← h.is_eq, hstate, hstate']
    split
    · exact .done h
    · exact pass_resync h.is_eq hstate hstate' h.delivered_eq h.allocCount_eq

/-- Related connections deliver the same, step by step, whatever they are fed. -/
theorem deliveredAfter_eq (alloc : Nat → Bool) {a b : Assembly} (h : SameUpToHeader a b) (n : Nat)
    (running : Bool) (buffers : List Buffer) :
    deliveredAfter alloc n ⟨a, running, buffers⟩ =
      deliveredAfter alloc n ⟨b, running, buffers⟩ := by
  -- both runs take the same branch at every step
  induction n generalizing a b running buffers with
  | zero => exact h.delivered_eq
  | succ n ih =>
    cases running with
    | true =>
      have hpass := h.pass alloc
      unfold deliveredAfter feedStep
      simp only [if_true]
      cases ha : a.assembleStep alloc <;> cases hb : b.assembleStep alloc <;>
        rw [ha, hb] at hpass <;> cases hpass
      · rename_i hrel
        exact ih hrel true buffers
      · rename_i hrel
        exact ih hrel false buffers
      · exact h.delivered_eq
    | false =>
      unfold deliveredAfter feedStep
      simp only [Bool.false_eq_true, if_false]
      cases buffers with
      | nil => exact h.delivered_eq
      | cons buffer rest =>
        dsimp only
        rw [← h.is_eq]
        cases a.m_stream.m_is.appendBuffer buffer with
        | error fault => exact h.delivered_eq
        | ok is =>
          have hrel : SameUpToHeader (a.withStream is) (b.withStream is) :=
            ⟨rfl, h.state_eq, h.header_eq, h.delivered_eq, h.allocCount_eq⟩
          exact ih hrel true rest

end SameUpToHeader

/-! ## §3 A clean start -/

/-- With `m_offset` zero the reset stream is a new one. -/
private theorem reset_eq_new {s : SegmentedInputStream} (h : s.m_offset = 0) :
    s.reset = SegmentedInputStream.new s.m_byteOrder s.m_nextAddr s.reset.m_deallocated := by
  unfold SegmentedInputStream.reset SegmentedInputStream.new
  rw [h]

private theorem sameUpToHeader_fresh {a : Assembly} (h : a.m_stream.m_is.m_offset = 0) :
    SameUpToHeader a.reconnect a.fresh := by
  have his : a.reconnect.m_stream.m_is = a.fresh.m_stream.m_is := by
    show a.m_stream.m_is.reset.reset =
      (SegmentedInputStream.new a.m_stream.m_is.m_byteOrder a.m_stream.m_is.m_nextAddr
        a.m_stream.m_is.reset.m_deallocated).reset
    rw [← reset_eq_new h]
  exact ⟨his, rfl, nofun, rfl, rfl⟩

/-! ## §4 A stale offset -/

/-- A step of the feed that is a pass. -/
private theorem deliveredAfter_pass {alloc : Nat → Bool} {a b : Assembly} {n : Nat}
    (h : a.assembleStep alloc = .next b) :
    deliveredAfter alloc (n + 1) ⟨a, true, []⟩ = deliveredAfter alloc n ⟨b, true, []⟩ := by
  simp only [deliveredAfter, feedStep, if_true, h]

private theorem deliveredAfter_append {alloc : Nat → Bool} {a : Assembly} {n : Nat}
    {buffer : Buffer} {is : SegmentedInputStream}
    (h : a.m_stream.m_is.appendBuffer buffer = .ok is) :
    deliveredAfter alloc (n + 1) ⟨a, false, [buffer]⟩ =
      deliveredAfter alloc n ⟨a.withStream is, true, []⟩ := by
  simp only [deliveredAfter, feedStep, Bool.false_eq_true, if_false, h]

/-- A new connection delivers a frame that arrives in one buffer. -/
private theorem fresh_delivers_frame (a : Assembly) {f : Msg} (hf : WellFormed f) {buffer : Buffer}
    (hbytes : buffer.m_bytes = serialized a.m_stream.m_is.m_byteOrder f)
    (hindex : buffer.m_bytes.length < 2 ^ 31 + 8) :
    deliveredAfter (fun _ => true) 4 ⟨a.fresh, false, [buffer]⟩ = a.delivered ++ [f] := by
  have hlen : 40 < buffer.m_bytes.length := by
    have hpos : 0 < f.m_payload.length := List.length_pos_iff.mpr hf.payload_ne
    rw [hbytes, serialized_length _ hf, hf.length_eq]
    omega
  obtain ⟨is, his, hislen, -, hlong⟩ := @resync_at_start
    a.m_stream.m_is.m_byteOrder (fun _ => true) a.fresh [f] buffer []
    (new_inv _ _ _) rfl rfl rfl (by simpa using hf) (List.length_pos_iff.mp (by omega))
    hindex (by rw [wire_cons, wire_nil, hbytes])
  -- the search finds the frame, its header is accepted, and it is delivered
  obtain ⟨b, hstep, hsync, hstate, hbis, hdel, -⟩ := hlong (by omega)
  obtain ⟨c, hstep', hc, hcstate, hcis, hcdel, -⟩ :=
    hsync.pass_header (fun _ => true) hstate (by rw [hbis]; omega)
  obtain ⟨d, hstep'', -, -, hddel, -⟩ :=
    hc.pass_body (fun _ => true) hcstate (by rw [hcis, hbis, ← hbytes]; omega) rfl
  rw [deliveredAfter_append his, deliveredAfter_pass hstep, deliveredAfter_pass hstep',
    deliveredAfter_pass hstep'']
  show d.delivered = _
  rw [hddel, hcdel, hdel]
  rfl

private theorem peekLoop_stale {node : BufferNode} {offset n : Nat} (hlen : node.m_length = 41)
    (hoff : offset ≠ 0) :
    (∃ fault, peekLoop 40 [node] offset 0 n [] = .error fault) ∨
      peekLoop 40 [node] offset 0 n [] = .ok ((node.m_buffer.m_bytes.drop 1).take 40) := by
  rw [peekLoop]
  split
  · -- the segment is used up and there is no next one
    refine .inl ?_
    cases node.memcpy offset n 40 [] with
    | error fault => exact ⟨fault, rfl⟩
    | ok out => exact ⟨.nullDereference, rfl⟩
  · rw [show sub32 40 0 = 40 from rfl]
    unfold BufferNode.memcpy
    rw [if_neg (by omega)]
    by_cases hin : node.m_length < offset + 40
    · exact .inl ⟨.outOfBounds, if_pos hin⟩
    · -- only from offset 1 on are there 40 bytes left
      have hone : offset = 1 := by omega
      rw [if_neg hin, hone]
      exact .inr rfl

/-- Peeking at a 41-byte segment from a stale offset faults, or shows the bytes from the second
    one on. -/
private theorem peek_stale {s : SegmentedInputStream} {node : BufferNode}
    (hnodes : s.m_nodes = [node]) (hlen : node.m_length = 41) (hsize : s.m_size = 41)
    (hoff : s.m_offset ≠ 0) :
    (∃ fault, InputStream.peek s sizeofMsgHeader = .error fault) ∨
      InputStream.peek s sizeofMsgHeader =
        .ok (.ok ((node.m_buffer.m_bytes.drop 1).take 40)) := by
  have hbig : ¬ InputStream.size s < sizeofMsgHeader := by
    show ¬ s.m_size < 40
    omega
  have hpeek : InputStream.peekBytes s sizeofMsgHeader = s.peekBytes 40 := rfl
  have hmin : min s.m_size 40 = 40 := by omega
  have hloop := peekLoop_stale (n := sub32 node.m_length s.m_offset) hlen hoff
  unfold InputStream.peek
  rw [if_neg hbig, hpeek, peekBytes_cons hnodes, hnodes, hmin]
  rcases hloop with ⟨fault, hfault⟩ | hok
  · exact .inl ⟨fault, by rw [hfault]; rfl⟩
  · have hroom : ¬ ((node.m_buffer.m_bytes.drop 1).take 40).length < sizeofMsgHeader := by
      have hlen' : node.m_buffer.m_bytes.length = 41 := hlen
      rw [List.length_take, List.length_drop, hlen']
      decide
    refine .inr ?_
    rw [hok]
    simp only [Except.map, ne_eq, not_true, if_false, if_neg hroom]

/-- From a stale offset the header of a 41-byte frame is not seen: the pass faults, or takes the
    frame for garbage and leaves at most one byte. -/
private theorem pass_stale (alloc : Nat → Bool) {a : Assembly} {node : BufferNode}
    (hstate : a.m_stream.m_state = .waitingHeader) (hnodes : a.m_stream.m_is.m_nodes = [node])
    (hlen : node.m_length = 41) (hsize : a.m_stream.m_is.m_size = 41)
    (hoff : a.m_stream.m_is.m_offset ≠ 0)
    (hmagic : (node.m_buffer.m_bytes.drop 1).take 8 ≠ COMMUTIL_MSG_MAGIC) :
    (∃ fault, a.assembleStep alloc = .fault fault) ∨
      ∃ b, a.assembleStep alloc = .next b ∧ b.delivered = a.delivered ∧
        b.m_stream.m_state = .resync ∧ b.m_stream.m_is.m_size ≤ 1 := by
  have hstep : a.assembleStep alloc = a.goOn (Assembly.onWaitHeader a.m_stream) := by
    unfold Assembly.assembleStep
    rw [if_neg (by omega), hstate]
  have hbig : ¬ a.m_stream.m_is.m_size < sizeofMsgHeader := by
    unfold sizeofMsgHeader
    omega
  rw [hstep]
  unfold Assembly.onWaitHeader
  rw [if_neg hbig]
  rcases peek_stale hnodes hlen hsize hoff with ⟨fault, hfault⟩ | hok
  · exact .inl ⟨fault, by rw [hfault]; rfl⟩
  · -- the eight bytes behind the stale offset are not the magic word
    have hinvalid : ∀ order, (decodeImage order
        ((node.m_buffer.m_bytes.drop 1).take 40)).isValid = false := by
      intro order
      have hm : (decodeImage order ((node.m_buffer.m_bytes.drop 1).take 40)).m_magic =
          (node.m_buffer.m_bytes.drop 1).take 8 := by
        cases order <;>
          simp [decodeImage, MsgHeader.ofImage, MsgHeader.fromNetOrder, List.take_take]
      unfold MsgHeader.isValid
      rw [hm]
      exact beq_false_of_ne hmagic
    rw [hok]
    simp only [hinvalid, Bool.false_eq_true, if_false]
    -- so the header is skipped, which leaves one byte at most
    cases hskip : a.m_stream.m_is.skipBytes sizeofMsgHeader with
    | error fault => exact .inl ⟨fault, rfl⟩
    | ok r =>
      obtain ⟨rc, n, is⟩ := r
      obtain ⟨rfl, hsz, -, -⟩ := skipBytes_general hskip
      unfold sizeofMsgHeader at hsz
      refine .inr ⟨_, rfl, rfl, rfl, ?_⟩
      show is.m_size ≤ 1
      omega

/-- A connection that was dropped in the middle of a buffer loses a 41-byte frame. -/
private theorem reconnect_misses_frame {a : Assembly} (hoff : a.m_stream.m_is.m_offset ≠ 0)
    {buffer : Buffer} (hlen : buffer.m_bytes.length = 41)
    (hmagic : COMMUTIL_MSG_MAGIC <+: buffer.m_bytes)
    (hsecond : (buffer.m_bytes.drop 1).take 8 ≠ COMMUTIL_MSG_MAGIC) :
    deliveredAfter (fun _ => true) 4 ⟨a.reconnect, false, [buffer]⟩ = a.delivered := by
  -- the append keeps the stale offset
  obtain ⟨is, his, hnodes, hoffset, hsize⟩ : ∃ is,
      a.reconnect.m_stream.m_is.appendBuffer buffer = .ok is ∧
      is.m_nodes = [⟨a.m_stream.m_is.m_nextAddr, buffer⟩] ∧
      is.m_offset = a.m_stream.m_is.m_offset ∧ is.m_size = 41 := by
    refine ⟨_, rfl, rfl, rfl, ?_⟩
    show add32 0 buffer.m_bytes.length = 41
    rw [hlen]
    rfl
  have hstate : (a.reconnect.withStream is).m_stream.m_state = .resync := rfl
  -- the search looks at the whole buffer and finds the magic word at its start
  have hvisible : Common.Visible buffer.m_bytes COMMUTIL_MSG_MAGIC 0 := by
    refine ⟨by rw [hlen]; decide, fun m hm hzero => ?_⟩
    obtain ⟨suffix, hsuf⟩ := hmagic
    rw [← hsuf, List.getElem?_append_left (by omega)] at hzero
    exact Assembly.magic_zero_free (List.mem_of_getElem? hzero)
  have hfirst : IsFirstOccurrence COMMUTIL_MSG_MAGIC buffer.m_bytes 0 :=
    ⟨occursAt_iff_drop.mpr (by simpa using hmagic), fun k hk => absurd hk (by omega)⟩
  have hsearch : is.searchBytes COMMUTIL_MSG_MAGIC = .ok (.ok, is) := by
    rw [searchBytes_single_found hnodes (by decide) hfirst hvisible, if_neg (by omega)]
  have hstep := (Assembly.assembleStep_resync_search (fun _ => true)
    (a := a.reconnect.withStream is) hstate (by show 8 ≤ is.m_size; omega) hsearch).1 rfl
  rw [deliveredAfter_append his, deliveredAfter_pass hstep]
  -- from the stale offset there is no header
  rcases pass_stale (fun _ => true)
      (a := { a.reconnect.withStream is with
        m_stream := ⟨is, (a.reconnect.withStream is).m_stream.m_msgHeader, .waitingHeader⟩ })
      rfl hnodes hlen hsize (by show is.m_offset ≠ 0; rw [hoffset]; exact hoff) hsecond with
    ⟨fault, hfault⟩ | ⟨b, hnext, hdel, hbstate, hbsize⟩
  · simp only [deliveredAfter, feedStep, if_true, hfault]
    rfl
  · rw [deliveredAfter_pass hnext]
    -- at most one byte is left, which delivers nothing
    rcases Nat.eq_zero_or_pos b.m_stream.m_is.m_size with hz | hpos
    · simp only [deliveredAfter, feedStep, if_true, Assembly.assembleStep_empty hz]
      rw [hdel]
      rfl
    · rw [deliveredAfter_pass (Assembly.assembleStep_resync_short hbstate hpos (by omega))]
      show b.delivered = _
      rw [hdel]
      rfl

/-- A frame with one byte of payload. -/
def probeFrame : Msg := ⟨.mk' 41 0 0 0 0, [1]⟩

private theorem offset_eq_zero_of_startsClean {a : Assembly} (h : a.StartsClean) :
    a.m_stream.m_is.m_offset = 0 := by
  by_contra hoff
  have hwf : WellFormed probeFrame := by decide
  have hlen : ∀ order, (serialized order probeFrame).length = 41 := by
    intro order
    rw [serialized_length order hwf]
    rfl
  have hmagic : ∀ order, COMMUTIL_MSG_MAGIC <+: serialized order probeFrame := by
    intro order
    cases order <;> decide
  have hsecond : ∀ order,
      ((serialized order probeFrame).drop 1).take 8 ≠ COMMUTIL_MSG_MAGIC := by
    intro order
    cases order <;> decide
  obtain ⟨buffer, hbuffer⟩ : ∃ buffer : Buffer,
      buffer.m_bytes = serialized a.m_stream.m_is.m_byteOrder probeFrame :=
    ⟨⟨0, serialized a.m_stream.m_is.m_byteOrder probeFrame, by rw [hlen]; decide⟩, rfl⟩
  -- the new connection delivers the frame, the reconnected one does not
  have hclean := h.1 (fun _ => true) [buffer] 4
  rw [fresh_delivers_frame a hwf hbuffer (by rw [hbuffer, hlen]; decide),
    reconnect_misses_frame hoff (by rw [hbuffer, hlen]) (by rw [hbuffer]; exact hmagic _)
      (by rw [hbuffer]; exact hsecond _)] at hclean
  have hcount := congrArg List.length hclean
  simp at hcount

/-- **When a reconnect starts clean**: exactly if the dropped connection had not stopped in the
    middle of a buffer. -/
theorem reconnect_starts_clean_iff (a : Assembly) :
    a.StartsClean ↔ a.m_stream.m_is.m_offset = 0 := by
  refine ⟨offset_eq_zero_of_startsClean, fun h => ⟨fun alloc buffers n => ?_, fun calls => ?_⟩⟩
  · exact (sameUpToHeader_fresh h).deliveredAfter_eq alloc n false buffers
  · rw [reset_eq_new h]
    rfl

/-- A connection that is dropped with one frame delivered and 40 bytes of the next one received
    does not start clean. -/
theorem reconnect_mid_buffer_not_clean :
    ∃ a, Assembly.ReceiveAll (fun _ => true) (connected .hostOrder 0)
        [⟨100, serialized .hostOrder probeFrame ++ (serialized .hostOrder probeFrame).take 40,
          by decide⟩] a ∧ ¬ a.StartsClean := by
  have hrun : (Assembly.receiveAll? (fun _ => true) 6 (connected .hostOrder 0)
      [⟨100, serialized .hostOrder probeFrame ++ (serialized .hostOrder probeFrame).take 40,
        by decide⟩]).map (fun a => a.m_stream.m_is.m_offset) = some 41 := by
    decide +kernel
  refine (Option.map_eq_some_iff.mp hrun).elim fun a ha => ?_
  refine ⟨a, Assembly.receiveAll?_sound ha.1, fun hclean => ?_⟩
  have hoff := ha.2
  rw [offset_eq_zero_of_startsClean hclean] at hoff
  cases hoff

end Commutil.Framing
