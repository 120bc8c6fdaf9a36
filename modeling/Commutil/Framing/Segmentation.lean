import Commutil.Framing.LoopProgress

/-!
# Assembly Under Any Segmentation

What the assembler makes of a byte sequence that is a concatenation of serialized
frames, cut into buffers anywhere.

`InSync` is the invariant: the unread bytes begin the wire image of the frames
still to come, and a saved header is the one at the front of the stream.  From
such a state the loop delivers exactly the frames that are wholly there
(`InSync.run`); it ends if what is left over is empty or has a whole header, and
runs forever otherwise.  The safety result `assembly_delivers_contained_frames`
follows by induction on the buffers.
-/

namespace Commutil.Framing

open Commutil.Io Commutil.Library SegmentedInputStream

/-! ## §1 Frames on the wire -/

/-- The concatenated serializations of some frames. -/
def wire (order : ByteOrder) (frames : List Msg) : List UInt8 :=
  (frames.map (serialized order)).flatten

/-- The frames wholly contained in the first `n` bytes of their wire image. -/
def framesWithin (order : ByteOrder) : List Msg → Nat → List Msg
  | [], _ => []
  | f :: rest, n =>
    if (serialized order f).length ≤ n then
      f :: framesWithin order rest (n - (serialized order f).length)
    else []

/-- The number of bytes after those frames. -/
def leftover (order : ByteOrder) : List Msg → Nat → Nat
  | [], n => n
  | f :: rest, n =>
    if (serialized order f).length ≤ n then
      leftover order rest (n - (serialized order f).length)
    else n

/-- The number of bytes in some buffers. -/
def bytesIn (buffers : List Buffer) : Nat := (buffers.map fun b => b.m_bytes.length).sum

@[simp] theorem wire_nil (order : ByteOrder) : wire order [] = [] := rfl

@[simp] theorem wire_cons (order : ByteOrder) (f : Msg) (rest : List Msg) :
    wire order (f :: rest) = serialized order f ++ wire order rest := rfl

/-- Without a whole frame everything is left over. -/
theorem leftover_of_settled {order : ByteOrder} {frames : List Msg} {n : Nat}
    (h : framesWithin order frames n = []) : leftover order frames n = n := by
  cases frames with
  | nil => rfl
  | cons f rest =>
    unfold framesWithin at h
    unfold leftover
    split at h
    · cases h
    · rename_i hlt
      rw [if_neg hlt]

/-- Frames received in two portions are those of the first, then those of the rest. -/
theorem framesWithin_add (order : ByteOrder) (frames : List Msg) (n m : Nat) :
    framesWithin order frames (n + m) = framesWithin order frames n ++
      framesWithin order (frames.drop (framesWithin order frames n).length)
        (leftover order frames n + m) := by
  induction frames generalizing n with
  | nil => simp [framesWithin]
  | cons f rest ih =>
    by_cases h : (serialized order f).length ≤ n
    · rw [framesWithin, if_pos (by omega), framesWithin, if_pos h, leftover, if_pos h,
        show n + m - (serialized order f).length = n - (serialized order f).length + m by omega,
        ih]
      simp
    · rw [show framesWithin order (f :: rest) n = [] by rw [framesWithin, if_neg h],
        show leftover order (f :: rest) n = n by rw [leftover, if_neg h]]
      simp

theorem leftover_add (order : ByteOrder) (frames : List Msg) (n m : Nat) :
    leftover order frames (n + m) =
      leftover order (frames.drop (framesWithin order frames n).length)
        (leftover order frames n + m) := by
  induction frames generalizing n with
  | nil => simp [leftover, framesWithin]
  | cons f rest ih =>
    by_cases h : (serialized order f).length ≤ n
    · rw [leftover, if_pos (by omega), framesWithin, if_pos h, leftover, if_pos h,
        show n + m - (serialized order f).length = n - (serialized order f).length + m by omega,
        ih]
      simp
    · rw [show framesWithin order (f :: rest) n = [] by rw [framesWithin, if_neg h],
        show leftover order (f :: rest) n = n by rw [leftover, if_neg h]]
      simp

/-- The header at the front of the wire image is the one of the first frame. -/
theorem headerAt_of_wire {order : ByteOrder} {f : Msg} {rest : List Msg} {u future : List UInt8}
    (hwf : WellFormed f) (hbytes : wire order (f :: rest) = u ++ future) (hlen : 40 ≤ u.length) :
    headerAt order u = f.m_header := by
  rw [wire_cons, serialized_eq order hwf, List.append_assoc] at hbytes
  rw [← headerAt_append order hlen future, ← hbytes,
    headerAt_headerBytes order _ hwf.consistent.magic_length]

/-- A well-formed frame takes more than a header on the wire. -/
theorem WellFormed.wire_length (order : ByteOrder) {f : Msg} (hwf : WellFormed f) :
    (serialized order f).length = f.m_header.m_length.toNat ∧
      40 < (serialized order f).length := by
  have hpos : 0 < f.m_payload.length := List.length_pos_iff.mpr hwf.payload_ne
  have hlen := serialized_length order hwf
  refine ⟨hlen, ?_⟩
  rw [hlen, hwf.length_eq]
  omega

/-! ## §2 The invariant -/

/-- The connection is in sync with a list of frames still to come, of which `future` has not
    been received yet. -/
structure InSync (order : ByteOrder) (a : Assembly) (rest : List Msg) (future : List UInt8) :
    Prop where
  inv : a.m_stream.m_is.Inv
  byteOrder_eq : a.m_stream.m_is.m_byteOrder = order
  wellFormed : ∀ f ∈ rest, WellFormed f
  bytes_eq : wire order rest = a.m_stream.m_is.unread ++ future
  state : a.m_stream.m_state = .waitingHeader ∨
    a.m_stream.m_state = .waitingBody ∧ 40 ≤ a.m_stream.m_is.unread.length ∧
      a.m_stream.m_msgHeader = headerAt order a.m_stream.m_is.unread

namespace InSync

variable {order : ByteOrder} {a : Assembly} {f : Msg} {rest : List Msg} {future : List UInt8}
  (alloc : Nat → Bool)

/-- The header in the stream is the one of the next frame. -/
theorem headerAt_eq (h : InSync order a (f :: rest) future)
    (hlen : 40 ≤ a.m_stream.m_is.unread.length) :
    headerAt order a.m_stream.m_is.unread = f.m_header :=
  headerAt_of_wire (h.wellFormed f List.mem_cons_self) h.bytes_eq hlen

/-- A whole frame in the stream is the next frame. -/
theorem unread_eq (h : InSync order a (f :: rest) future)
    (hlen : (serialized order f).length ≤ a.m_stream.m_is.unread.length) :
    a.m_stream.m_is.unread = serialized order f ++
        a.m_stream.m_is.unread.drop (serialized order f).length ∧
      wire order rest =
        a.m_stream.m_is.unread.drop (serialized order f).length ++ future := by
  have hbytes := h.bytes_eq
  rw [wire_cons] at hbytes
  have htake : a.m_stream.m_is.unread.take (serialized order f).length = serialized order f := by
    have := congrArg (List.take (serialized order f).length) hbytes
    rwa [List.take_left, List.take_append_of_le_length hlen, eq_comm] at this
  refine ⟨?_, ?_⟩
  · conv_lhs => rw [← List.take_append_drop (serialized order f).length a.m_stream.m_is.unread]
    rw [htake]
  · have := congrArg (List.drop (serialized order f).length) hbytes
    rwa [List.drop_left, List.drop_append_of_le_length hlen] at this

theorem frame_length (h : InSync order a (f :: rest) future) :
    (serialized order f).length = f.m_header.m_length.toNat ∧
      40 < (serialized order f).length :=
  (h.wellFormed f List.mem_cons_self).wire_length order

/-- Waiting for a header, with a header there: the header of the next frame is accepted. -/
theorem pass_header (h : InSync order a (f :: rest) future)
    (hstate : a.m_stream.m_state = .waitingHeader)
    (hlen : 40 ≤ a.m_stream.m_is.unread.length) :
    ∃ b, Assembly.assembleStep alloc a = .next b ∧ InSync order b (f :: rest) future ∧
      b.m_stream.m_state = .waitingBody ∧ b.m_stream.m_is = a.m_stream.m_is ∧
      b.delivered = a.delivered ∧ b.allocCount = a.allocCount := by
  have hheader := h.headerAt_eq hlen
  have hvalid : (headerAt a.m_stream.m_is.m_byteOrder a.m_stream.m_is.unread).isValid = true := by
    rw [h.byteOrder_eq, hheader]
    unfold MsgHeader.isValid
    rw [(h.wellFormed f List.mem_cons_self).magic]
    exact beq_self_eq_true _
  refine ⟨_, Assembly.assembleStep_header_valid hstate h.inv hlen hvalid, ?_, rfl, rfl, rfl, rfl⟩
  refine ⟨h.inv, h.byteOrder_eq, h.wellFormed, h.bytes_eq, .inr ⟨rfl, hlen, ?_⟩⟩
  dsimp only
  rw [h.byteOrder_eq]

/-- Waiting for a body, with the frame there: the next frame is delivered. -/
theorem pass_body (h : InSync order a (f :: rest) future)
    (hstate : a.m_stream.m_state = .waitingBody)
    (hlen : (serialized order f).length ≤ a.m_stream.m_is.unread.length)
    (halloc : alloc a.allocCount = true) :
    ∃ b, Assembly.assembleStep alloc a = .next b ∧ InSync order b rest future ∧
      b.m_stream.m_is.unread = a.m_stream.m_is.unread.drop (serialized order f).length ∧
      b.delivered = a.delivered ++ [f] ∧ b.allocCount = a.allocCount + 1 := by
  obtain ⟨hsize, hbig⟩ := h.frame_length
  have hwf := h.wellFormed f List.mem_cons_self
  have hheader : a.m_stream.m_msgHeader = f.m_header := by
    rcases h.state with hst | ⟨-, h40, hsaved⟩
    · rw [hst] at hstate
      cases hstate
    · rw [hsaved, h.headerAt_eq h40]
  have hat : a.m_stream.m_msgHeader =
      headerAt a.m_stream.m_is.m_byteOrder a.m_stream.m_is.unread := by
    rw [hheader, h.byteOrder_eq, h.headerAt_eq (by omega)]
  have hL : a.m_stream.m_msgHeader.m_length.toNat = (serialized order f).length := by
    rw [hheader, hsize]
  obtain ⟨is, hcons, hstep⟩ := Assembly.assembleStep_body_deliver hstate h.inv hat
    (by omega) (by omega) (by omega) halloc
  obtain ⟨hsplit, hrest⟩ := h.unread_eq hlen
  rw [hL] at hcons
  refine ⟨_, hstep, ⟨hcons.inv, ?_, ?_, ?_, .inl rfl⟩, hcons.unread_eq, ?_, rfl⟩
  · rw [← h.byteOrder_eq]
    exact hcons.byteOrder_eq
  · intro g hg
    exact h.wellFormed g (List.mem_cons_of_mem f hg)
  · dsimp only
    rw [hcons.unread_eq, hrest]
  · -- the payload in the stream is the payload of the frame
    have hpay : (a.m_stream.m_is.unread.drop 40).take
        (a.m_stream.m_msgHeader.m_length.toNat - 40) = f.m_payload := by
      have h40 := headerBytes_length order f.m_header hwf.consistent.magic_length
      have hser := serialized_eq order hwf
      have hlen' : a.m_stream.m_msgHeader.m_length.toNat - 40 = f.m_payload.length := by
        rw [hheader, hwf.length_eq]
        omega
      rw [hsplit, hser, List.append_assoc, ← h40, List.drop_left, h40, hlen', List.take_left]
    dsimp only
    rw [hpay, hheader]

/-- With a whole header at the front of the stream at most one pass leads to the body. -/
theorem to_body (h : InSync order a (f :: rest) future)
    (hlen : 40 ≤ a.m_stream.m_is.unread.length) :
    ∃ b, LoopStep.Visits (Assembly.assembleStep alloc) a b ∧
      InSync order b (f :: rest) future ∧ b.m_stream.m_state = .waitingBody ∧
      b.m_stream.m_is = a.m_stream.m_is ∧ b.delivered = a.delivered ∧
      b.allocCount = a.allocCount := by
  rcases h.state with hstate | ⟨hstate, -⟩
  · obtain ⟨b, hstep, hb⟩ := h.pass_header alloc hstate hlen
    exact ⟨b, .pass hstep (.refl b), hb⟩
  · exact ⟨a, .refl a, h, hstate, rfl, rfl, rfl⟩

/-- A frame that is wholly there is delivered within two passes. -/
theorem take_frame (h : InSync order a (f :: rest) future)
    (hlen : (serialized order f).length ≤ a.m_stream.m_is.unread.length)
    (halloc : alloc a.allocCount = true) :
    ∃ b, LoopStep.Visits (Assembly.assembleStep alloc) a b ∧ InSync order b rest future ∧
      b.m_stream.m_is.unread = a.m_stream.m_is.unread.drop (serialized order f).length ∧
      b.delivered = a.delivered ++ [f] ∧ b.allocCount = a.allocCount + 1 := by
  have hbig := h.frame_length.2
  obtain ⟨c, hvisits, hc, hcstate, his, hcdel, hccount⟩ := h.to_body alloc (by omega)
  obtain ⟨b, hstep, hb⟩ := hc.pass_body alloc hcstate (by rw [his]; exact hlen)
    (by rw [hccount]; exact halloc)
  rw [his, hcdel, hccount] at hb
  exact ⟨b, hvisits.snoc hstep, hb⟩

/-! ## §3 Running the loop in sync -/

/-- A state that the loop has brought as far as the received bytes allow. -/
structure Advanced (order : ByteOrder) (a : Assembly) (rest : List Msg) (future : List UInt8)
    (n : Nat) (r : Assembly) : Prop where
  delivered_eq : r.delivered = a.delivered ++ framesWithin order rest n
  inSync : InSync order r (rest.drop (framesWithin order rest n).length) future
  unread_length : r.m_stream.m_is.unread.length = leftover order rest n
  allocCount_eq : r.allocCount = a.allocCount + (framesWithin order rest n).length

/-- What the loop does with a frame that has not arrived as a whole. -/
theorem run_incomplete (h : InSync order a (f :: rest) future)
    (hn : a.m_stream.m_is.unread.length < (serialized order f).length) :
    ((a.m_stream.m_is.unread.length = 0 ∨ 40 ≤ a.m_stream.m_is.unread.length) →
      ∃ r, LoopStep.Ends (Assembly.assembleStep alloc) a r ∧
        Advanced order a (f :: rest) future a.m_stream.m_is.unread.length r) ∧
    (¬ (a.m_stream.m_is.unread.length = 0 ∨ 40 ≤ a.m_stream.m_is.unread.length) →
      LoopStep.Diverges (Assembly.assembleStep alloc) a) := by
  have hwithin : framesWithin order (f :: rest) a.m_stream.m_is.unread.length = [] := by
    rw [framesWithin, if_neg (by omega)]
  have hleft : leftover order (f :: rest) a.m_stream.m_is.unread.length =
      a.m_stream.m_is.unread.length := by
    rw [leftover, if_neg (by omega)]
  have hself : ∀ b : Assembly, InSync order b (f :: rest) future →
      b.m_stream.m_is = a.m_stream.m_is → b.delivered = a.delivered →
      b.allocCount = a.allocCount →
      Advanced order a (f :: rest) future a.m_stream.m_is.unread.length b := by
    intro b hb his hdel hcount
    refine ⟨by rw [hwithin, hdel, List.append_nil], by rw [hwithin]; exact hb, ?_, ?_⟩
    · rw [hleft, his]
    · rw [hwithin, hcount]
      rfl
  refine ⟨fun hsettled => ?_, fun hpartial => ?_⟩
  · rcases hsettled with hzero | hheader
    · -- nothing unread: the loop is not entered
      have hsize : a.m_stream.m_is.m_size = 0 := by rw [h.inv.size_eq, hzero]
      exact ⟨a, LoopStep.ends_of_done (Assembly.assembleStep_empty hsize), hself a h rfl rfl rfl⟩
    · have hbody : ∀ b : Assembly, InSync order b (f :: rest) future →
          b.m_stream.m_state = .waitingBody → b.m_stream.m_is = a.m_stream.m_is →
          Assembly.assembleStep alloc b = .done b := by
        intro b hb hstate his
        apply Assembly.assembleStep_body_short hstate
        rcases hb.state with hst | ⟨-, h40, hsaved⟩
        · rw [hst] at hstate
          cases hstate
        · rw [hsaved, hb.headerAt_eq h40, ← h.frame_length.1, hb.inv.size_eq, his]
          exact hn
      rcases h.state with hstate | ⟨hstate, -⟩
      · obtain ⟨b, hstep, hb, hbstate, his, hdel, hcount⟩ :=
          h.pass_header alloc hstate hheader
        refine ⟨b, ?_, hself b hb his hdel hcount⟩
        rw [LoopStep.ends_iff_of_next hstep]
        exact LoopStep.ends_of_done (hbody b hb hbstate his)
      · exact ⟨a, LoopStep.ends_of_done (hbody a h hstate rfl), hself a h rfl rfl rfl⟩
  · -- part of a header: the loop does not leave this state
    have hsize := h.inv.size_eq
    rcases h.state with hstate | ⟨-, h40, -⟩
    · apply LoopStep.diverges_of_fixpoint
      exact Assembly.assembleStep_header_short hstate (by omega) (by omega)
    · exact absurd (.inr h40) hpartial

/-- **Running in sync**: the loop delivers the frames that are wholly there.  It ends if the
    bytes left over are none or include a header, and otherwise it never does. -/
theorem run (h : InSync order a rest future)
    (halloc : ∀ i < rest.length, alloc (a.allocCount + i) = true) :
    ((leftover order rest a.m_stream.m_is.unread.length = 0 ∨
        40 ≤ leftover order rest a.m_stream.m_is.unread.length) →
      ∃ r, LoopStep.Ends (Assembly.assembleStep alloc) a r ∧
        Advanced order a rest future a.m_stream.m_is.unread.length r) ∧
    (¬ (leftover order rest a.m_stream.m_is.unread.length = 0 ∨
        40 ≤ leftover order rest a.m_stream.m_is.unread.length) →
      LoopStep.Diverges (Assembly.assembleStep alloc) a) := by
  -- induction on the frames still to come
  induction rest generalizing a with
  | nil =>
    have hnil : a.m_stream.m_is.unread = [] := by
      have := h.bytes_eq
      rw [wire_nil] at this
      exact (List.append_eq_nil_iff.mp this.symm).1
    have hsize : a.m_stream.m_is.m_size = 0 := by rw [h.inv.size_eq, hnil, List.length_nil]
    refine ⟨fun _ => ⟨a, LoopStep.ends_of_done (Assembly.assembleStep_empty hsize), ?_⟩, ?_⟩
    · exact ⟨by simp [framesWithin], h, rfl, rfl⟩
    · intro hpartial
      exact absurd (.inl (by rw [hnil]; rfl)) hpartial
  | cons f rest ih =>
    by_cases hwhole : (serialized order f).length ≤ a.m_stream.m_is.unread.length
    · -- a frame is there: at most two passes deliver it
      have hfirst : alloc a.allocCount = true := halloc 0 (by simp)
      obtain ⟨b, hpass, hb, hunread, hdel, hcount⟩ := h.take_frame alloc hwhole hfirst
      have hn : b.m_stream.m_is.unread.length =
          a.m_stream.m_is.unread.length - (serialized order f).length := by
        rw [hunread, List.length_drop]
      have hrest := ih hb (by
        intro i hi
        rw [hcount, Nat.add_assoc, Nat.add_comm 1 i]
        exact halloc (i + 1) (by simpa using hi))
      have hwithin : framesWithin order (f :: rest) a.m_stream.m_is.unread.length =
          f :: framesWithin order rest b.m_stream.m_is.unread.length := by
        rw [framesWithin, if_pos hwhole, hn]
      have hleft : leftover order (f :: rest) a.m_stream.m_is.unread.length =
          leftover order rest b.m_stream.m_is.unread.length := by
        rw [leftover, if_pos hwhole, hn]
      rw [hleft]
      refine ⟨fun hsettled => ?_, fun hpartial => hpass.diverges (hrest.2 hpartial)⟩
      obtain ⟨r, hends, hadv⟩ := hrest.1 hsettled
      refine ⟨r, hpass.ends_iff.mpr hends, ?_, ?_, ?_, ?_⟩
      · rw [hadv.delivered_eq, hdel, hwithin, List.append_assoc]
        rfl
      · rw [hwithin]
        exact hadv.inSync
      · rw [hleft]
        exact hadv.unread_length
      · rw [hadv.allocCount_eq, hcount, hwithin, List.length_cons]
        omega
    · have hleft : leftover order (f :: rest) a.m_stream.m_is.unread.length =
          a.m_stream.m_is.unread.length := by
        rw [leftover, if_neg hwhole]
      rw [hleft]
      exact run_incomplete alloc h (by omega)

/-- Nothing that has been received is still deliverable. -/
theorem Advanced.settled {n : Nat} {r : Assembly} (h : Advanced order a rest future n r) :
    framesWithin order (rest.drop (framesWithin order rest n).length)
      r.m_stream.m_is.unread.length = [] := by
  have hadd := framesWithin_add order rest n 0
  rw [Nat.add_zero, Nat.add_zero, ← h.unread_length] at hadd
  exact List.self_eq_append_right.mp hadd

/-- Appending the next buffer keeps the connection in sync. -/
theorem append {buffer : Buffer} (h : InSync order a rest (buffer.m_bytes ++ future))
    (hne : buffer.m_bytes ≠ [])
    (hroom : a.m_stream.m_is.unread.length + buffer.m_bytes.length < 2 ^ 32) :
    ∃ is, a.m_stream.m_is.appendBuffer buffer = .ok is ∧
      InSync order (a.withStream is) rest future ∧
      is.unread.length = a.m_stream.m_is.unread.length + buffer.m_bytes.length := by
  obtain ⟨is, his, happ⟩ := appendBuffer_spec h.inv buffer hne hroom
  refine ⟨is, his, ⟨happ.inv, happ.byteOrder_eq.trans h.byteOrder_eq, h.wellFormed, ?_, ?_⟩, ?_⟩
  · show wire order rest = is.unread ++ future
    rw [happ.unread_eq, List.append_assoc]
    exact h.bytes_eq
  · rcases h.state with hstate | ⟨hstate, h40, hsaved⟩
    · exact .inl hstate
    · refine .inr ⟨hstate, ?_, ?_⟩
      · show 40 ≤ is.unread.length
        rw [happ.unread_eq, List.length_append]
        omega
      · show a.m_stream.m_msgHeader = headerAt order is.unread
        rw [happ.unread_eq, headerAt_append order h40, hsaved]
  · rw [happ.unread_eq, List.length_append]

end InSync

/-! ## §4 Any segmentation -/

/-- Fewer than 2^32 bytes are unread at any time, if `n` bytes of the frames have been received
    and the buffers follow. -/
def UnreadFits (order : ByteOrder) (frames : List Msg) : Nat → List Buffer → Prop
  | _, [] => True
  | n, buffer :: rest =>
    leftover order frames n + buffer.m_bytes.length < 2 ^ 32 ∧
      UnreadFits order frames (n + buffer.m_bytes.length) rest

instance decidableUnreadFits (order : ByteOrder) (frames : List Msg) :
    ∀ (n : Nat) (buffers : List Buffer), Decidable (UnreadFits order frames n buffers)
  | _, [] => .isTrue trivial
  | n, buffer :: rest =>
    have := decidableUnreadFits order frames (n + buffer.m_bytes.length) rest
    inferInstanceAs (Decidable (_ ∧ _))

/-- The bytes of some buffers. -/
def payloadOf (buffers : List Buffer) : List UInt8 :=
  (buffers.map fun b => b.m_bytes).flatten

@[simp] theorem payloadOf_cons (buffer : Buffer) (rest : List Buffer) :
    payloadOf (buffer :: rest) = buffer.m_bytes ++ payloadOf rest := rfl

@[simp] theorem bytesIn_cons (buffer : Buffer) (rest : List Buffer) :
    bytesIn (buffer :: rest) = buffer.m_bytes.length + bytesIn rest := rfl

theorem UnreadFits.take {order : ByteOrder} {frames : List Msg} {buffers : List Buffer} {n : Nat}
    (h : UnreadFits order frames n buffers) (k : Nat) :
    UnreadFits order frames n (buffers.take k) := by
  induction buffers generalizing n k with
  | nil => simpa using h
  | cons buffer rest ih =>
    cases k with
    | zero => trivial
    | succ k => exact ⟨h.1, ih h.2 k⟩

/-- Going on from where the first `n` bytes have been taken care of. -/
theorem unreadFits_advance {order : ByteOrder} {frames : List Msg} {n : Nat}
    {buffers : List Buffer} (m : Nat)
    (h : UnreadFits order frames (n + m) buffers) :
    UnreadFits order (frames.drop (framesWithin order frames n).length)
      (leftover order frames n + m) buffers := by
  induction buffers generalizing m with
  | nil => trivial
  | cons buffer rest ih =>
    obtain ⟨hfit, hrest⟩ := h
    refine ⟨by rw [← leftover_add]; exact hfit, ?_⟩
    rw [Nat.add_assoc] at hrest ⊢
    exact ih _ hrest

/-- A new connection: a constructed assembler after one `onConnect`. -/
def connected (order : ByteOrder) (base : Nat) : Assembly :=
  (Assembly.new order ⟨base, [], [], 0⟩).onConnect

/-- A pass in `MS_RESYNC` over a single segment in which the search does not see the magic word. -/
theorem resync_pass_missed (alloc : Nat → Bool) {a : Assembly} {node : BufferNode}
    (hinv : a.m_stream.m_is.Inv) (hstate : a.m_stream.m_state = .resync)
    (hnodes : a.m_stream.m_is.m_nodes = [node]) (hlen : 8 ≤ a.m_stream.m_is.unread.length)
    (hnode : 8 ≤ node.m_length)
    (hnone : ∀ k, OccursAt COMMUTIL_MSG_MAGIC node.m_buffer.m_bytes k →
      ¬ Common.Visible node.m_buffer.m_bytes COMMUTIL_MSG_MAGIC k) :
    ∃ o is, Consumed a.m_stream.m_is (min a.m_stream.m_is.unread.length o) is ∧
      Assembly.assembleStep alloc a =
        .next { a with m_stream := ⟨is, a.m_stream.m_msgHeader, .resync⟩ } ∧
      node.m_length - 8 ≤ o ∧ o ≤ node.m_length ∧
      node.m_buffer.m_bytes.drop o <+: COMMUTIL_MSG_MAGIC ∧
      ∀ o', node.m_length - 8 ≤ o' → o' < o →
        ¬ node.m_buffer.m_bytes.drop o' <+: COMMUTIL_MSG_MAGIC := by
  obtain ⟨o, hsearch, hrest⟩ := searchBytes_single_missed Assembly.magic_zero_free hnodes hnode hnone
  have hne : a.m_stream.m_is.unread ≠ [] := List.length_pos_iff.mp (by omega)
  obtain ⟨is, his, hcons⟩ := skipAndReturn_spec hinv hne o .endOfStream
  rw [his] at hsearch
  have hsize : 8 ≤ a.m_stream.m_is.m_size := by
    rw [hinv.size_eq]
    exact hlen
  exact ⟨o, is, hcons, (Assembly.assembleStep_resync_search alloc hstate hsize hsearch).2 rfl, hrest⟩

/-- A pass in `MS_RESYNC` that finds it. -/
theorem resync_pass_found (alloc : Nat → Bool) {a : Assembly} {node : BufferNode} {k : Nat}
    (hinv : a.m_stream.m_is.Inv) (hstate : a.m_stream.m_state = .resync)
    (hnodes : a.m_stream.m_is.m_nodes = [node]) (hlen : 8 ≤ a.m_stream.m_is.unread.length)
    (hseen : Common.Seen node.m_buffer.m_bytes COMMUTIL_MSG_MAGIC k) :
    ∃ is, Consumed a.m_stream.m_is (min a.m_stream.m_is.unread.length k) is ∧
      Assembly.assembleStep alloc a =
        .next { a with m_stream := ⟨is, a.m_stream.m_msgHeader, .waitingHeader⟩ } := by
  have hsearch := searchBytes_single_found hnodes (by decide) hseen.1 hseen.2
  have hne : a.m_stream.m_is.unread ≠ [] := List.length_pos_iff.mp (by omega)
  have hsize : 8 ≤ a.m_stream.m_is.m_size := by
    rw [hinv.size_eq]
    exact hlen
  rcases Nat.eq_zero_or_pos k with rfl | hpos
  · rw [if_neg (Nat.lt_irrefl 0)] at hsearch
    refine ⟨a.m_stream.m_is, ?_, (Assembly.assembleStep_resync_search alloc hstate hsize hsearch).1 rfl⟩
    rw [Nat.min_zero]
    exact .refl hinv
  · obtain ⟨is, his, hcons⟩ := skipAndReturn_spec hinv hne k .ok
    rw [if_pos hpos, his] at hsearch
    exact ⟨is, hcons, (Assembly.assembleStep_resync_search alloc hstate hsize hsearch).1 rfl⟩

/-- The first buffer on a connection that resynchronises, when it begins with the magic word:
    the search finds it at the start, if `max_index` is not negative. -/
theorem resync_at_start {order : ByteOrder} (alloc : Nat → Bool) (a : Assembly)
    (frames : List Msg) (buffer : Buffer) (future : List UInt8)
    (hinv : a.m_stream.m_is.Inv) (horder : a.m_stream.m_is.m_byteOrder = order)
    (hempty : a.m_stream.m_is.unread = []) (hstate : a.m_stream.m_state = .resync)
    (hwf : ∀ f ∈ frames, WellFormed f) (hne : buffer.m_bytes ≠ [])
    (hindex : buffer.m_bytes.length < 2 ^ 31 + 8)
    (hbytes : wire order frames = buffer.m_bytes ++ future) :
    ∃ is, a.m_stream.m_is.appendBuffer buffer = .ok is ∧
      is.unread.length = buffer.m_bytes.length ∧
      (buffer.m_bytes.length < 8 →
        LoopStep.Diverges (Assembly.assembleStep alloc) (a.withStream is)) ∧
      (8 ≤ buffer.m_bytes.length → ∃ b,
        Assembly.assembleStep alloc (a.withStream is) = .next b ∧
        InSync order b frames future ∧ b.m_stream.m_state = .waitingHeader ∧
        b.m_stream.m_is = is ∧ b.delivered = a.delivered ∧ b.allocCount = a.allocCount) := by
  have hpos : 0 < buffer.m_bytes.length := List.length_pos_iff.mpr hne
  have hlt := buffer.length_lt
  obtain ⟨is, his, happ⟩ :=
    appendBuffer_spec hinv buffer hne (by rw [hempty, List.length_nil]; omega)
  have hunread : is.unread = buffer.m_bytes := by rw [happ.unread_eq, hempty, List.nil_append]
  have hsize : is.m_size = buffer.m_bytes.length := by rw [happ.inv.size_eq, hunread]
  have hnodes : is.m_nodes = [⟨a.m_stream.m_is.m_nextAddr, buffer⟩] := by
    rw [happ.nodes_eq, hinv.nodes_eq_nil_iff.mpr hempty, List.nil_append]
  refine ⟨is, his, by rw [hunread], fun hshort => ?_, fun hlong => ?_⟩
  · -- fewer bytes than the magic word has: the loop spins
    apply LoopStep.diverges_of_fixpoint
    exact Assembly.assembleStep_resync_short (a := a.withStream is) hstate
      (by show 0 < is.m_size; omega) (by show is.m_size < 8; omega)
  · -- the magic word of the first frame begins the buffer
    have hmagic : COMMUTIL_MSG_MAGIC <+: buffer.m_bytes := by
      cases frames with
      | nil =>
        rw [wire_nil] at hbytes
        exact absurd (List.append_eq_nil_iff.mp hbytes.symm).1 hne
      | cons f rest =>
        have hf := hwf f List.mem_cons_self
        rw [wire_cons, serialized_eq order hf, headerBytes, hf.magic, List.append_assoc,
          List.append_assoc] at hbytes
        have hpre : COMMUTIL_MSG_MAGIC <+: buffer.m_bytes ++ future := by
          rw [← hbytes]
          exact List.prefix_append _ _
        exact List.prefix_of_prefix_length_le hpre (List.prefix_append _ _) hlong
    have hfirst : IsFirstOccurrence COMMUTIL_MSG_MAGIC buffer.m_bytes 0 :=
      ⟨occursAt_iff_drop.mpr (by simpa using hmagic), fun k hk => absurd hk (by omega)⟩
    -- the search sees it: no zero byte comes before its end
    have hvisible : Common.Visible buffer.m_bytes COMMUTIL_MSG_MAGIC 0 := by
      refine ⟨Nat.sub_lt_right_of_lt_add hlong hindex, fun m hm hzero => ?_⟩
      obtain ⟨suffix, hsuf⟩ := hmagic
      rw [← hsuf, List.getElem?_append_left (by omega)] at hzero
      exact Assembly.magic_zero_free (List.mem_of_getElem? hzero)
    have hsearch : is.searchBytes COMMUTIL_MSG_MAGIC = .ok (.ok, is) := by
      rw [searchBytes_single_found hnodes (by decide) hfirst hvisible, if_neg (by omega)]
    have hstep := (Assembly.assembleStep_resync_search alloc (a := a.withStream is)
      hstate (by show 8 ≤ is.m_size; omega) hsearch).1 rfl
    refine ⟨_, hstep, ⟨happ.inv, happ.byteOrder_eq.trans horder, hwf, ?_, .inl rfl⟩, rfl, rfl,
      rfl, rfl⟩
    show wire order frames = is.unread ++ future
    rw [hunread, hbytes]

/-- From an in-sync state in which nothing is deliverable, every sequence of calls that return
    delivers what the received bytes contain. -/
theorem InSync.receiveAll {order : ByteOrder} {alloc : Nat → Bool} {buffers : List Buffer}
    {a r : Assembly} {rest : List Msg} {future : List UInt8}
    (h : InSync order a rest (payloadOf buffers ++ future))
    (hsettled : framesWithin order rest a.m_stream.m_is.unread.length = [])
    (hne : ∀ b ∈ buffers, b.m_bytes ≠ [])
    (hfits : UnreadFits order rest a.m_stream.m_is.unread.length buffers)
    (halloc : ∀ i < rest.length, alloc (a.allocCount + i) = true)
    (hrun : Assembly.ReceiveAll alloc a buffers r) :
    InSync.Advanced order a rest future
      (a.m_stream.m_is.unread.length + bytesIn buffers) r := by
  -- induction on the buffers
  induction buffers generalizing a rest with
  | nil =>
    obtain rfl : r = a := hrun
    have hleft := leftover_of_settled hsettled
    have hbytes : r.m_stream.m_is.unread.length + bytesIn [] = r.m_stream.m_is.unread.length := rfl
    rw [hbytes]
    exact ⟨by rw [hsettled, List.append_nil], by rw [hsettled]; exact h, hleft.symm,
      by rw [hsettled]; rfl⟩
  | cons buffer buffers ih =>
    obtain ⟨a₁, ⟨is, his, hends⟩, hrest⟩ := hrun
    rw [payloadOf_cons, List.append_assoc] at h
    have hleft := leftover_of_settled hsettled
    obtain ⟨is', his', hsync, hlen⟩ := h.append (hne buffer List.mem_cons_self)
      (by rw [← hleft]; exact hfits.1)
    rw [his] at his'
    cases his'
    -- the call returned, so the loop ended where the invariant says
    have hstep := hsync.run alloc halloc
    have hlen' : (a.withStream is).m_stream.m_is.unread.length =
        a.m_stream.m_is.unread.length + buffer.m_bytes.length := hlen
    rw [hlen'] at hstep
    have hclean : leftover order rest
          (a.m_stream.m_is.unread.length + buffer.m_bytes.length) = 0 ∨
        40 ≤ leftover order rest (a.m_stream.m_is.unread.length + buffer.m_bytes.length) := by
      by_contra hpartial
      exact LoopStep.not_ends_of_diverges (hstep.2 hpartial) hends
    obtain ⟨r₁, hends₁, hadv⟩ := hstep.1 hclean
    obtain rfl := hends.unique hends₁
    -- what is left over of the first buffer goes on into the others
    have hmore := ih hadv.inSync hadv.settled (fun b hb => hne b (List.mem_cons_of_mem _ hb))
      (by
        rw [hadv.unread_length]
        exact unreadFits_advance 0 hfits.2)
      (by
        intro i hi
        rw [hadv.allocCount_eq, Nat.add_assoc]
        apply halloc
        rw [List.length_drop] at hi
        omega)
      hrest
    rw [hadv.unread_length] at hmore
    rw [bytesIn_cons, ← Nat.add_assoc]
    -- the frames within the sum are those of both parts
    refine ⟨?_, ?_, ?_, ?_⟩
    · rw [hmore.delivered_eq, hadv.delivered_eq, framesWithin_add order rest _ (bytesIn buffers),
        List.append_assoc]
      rfl
    · rw [framesWithin_add, List.length_append, ← List.drop_drop]
      exact hmore.inSync
    · rw [hmore.unread_length, leftover_add order rest _ (bytesIn buffers)]
    · rw [hmore.allocCount_eq, hadv.allocCount_eq, framesWithin_add order rest _ (bytesIn buffers),
        List.length_append, Nat.add_assoc]
      rfl

theorem framesWithin_zero {order : ByteOrder} {frames : List Msg}
    (hwf : ∀ f ∈ frames, WellFormed f) : framesWithin order frames 0 = [] := by
  cases frames with
  | nil => rfl
  | cons f rest =>
    have hf := hwf f List.mem_cons_self
    have hlen := serialized_length order hf
    rw [hf.length_eq] at hlen
    rw [framesWithin, if_neg (by omega)]

private theorem payloadOf_take_drop (buffers : List Buffer) (k : Nat) :
    payloadOf (buffers.take k) ++ payloadOf (buffers.drop k) = payloadOf buffers := by
  unfold payloadOf
  rw [← List.flatten_append, ← List.map_append, List.take_append_drop]

/-- The first buffer is one in which the search for the magic word has no negative
    `max_index`. -/
def FirstBufferSearchable (buffers : List Buffer) : Prop :=
  ∀ b ∈ buffers.head?, b.m_bytes.length < 2 ^ 31 + 8

instance (buffers : List Buffer) : Decidable (FirstBufferSearchable buffers) :=
  match buffers with
  | [] => .isTrue fun _ hb => nomatch hb
  | buffer :: _ => decidable_of_iff (buffer.m_bytes.length < 2 ^ 31 + 8)
      ⟨fun h b hb => by cases hb; exact h, fun h => h buffer rfl⟩

/-- **Safety of assembly**: on a new connection whose first buffer can be searched, whatever
    frames are sent and wherever the bytes are cut, the messages delivered by calls that have
    returned are the frames wholly contained in the bytes received, in order and unaltered. -/
theorem assembly_delivers_contained_frames (order : ByteOrder) (base : Nat) (alloc : Nat → Bool)
    (halloc : ∀ n, alloc n = true) (frames : List Msg) (hwf : ∀ f ∈ frames, WellFormed f)
    (buffers : List Buffer) (hne : ∀ b ∈ buffers, b.m_bytes ≠ [])
    (hbytes : payloadOf buffers = wire order frames) (hfits : UnreadFits order frames 0 buffers)
    (hindex : FirstBufferSearchable buffers) (k : Nat) (a : Assembly)
    (hrun : Assembly.ReceiveAll alloc (connected order base) (buffers.take k) a) :
    a.delivered = framesWithin order frames (bytesIn (buffers.take k)) := by
  cases hb : buffers.take k with
  | nil =>
    rw [hb] at hrun
    obtain rfl : a = connected order base := hrun
    exact (framesWithin_zero hwf).symm
  | cons buffer rest =>
    have hfits' := hfits.take k
    have hne' : ∀ b ∈ buffers.take k, b.m_bytes ≠ [] :=
      fun b hmem => hne b (List.mem_of_mem_take hmem)
    have hsplit := payloadOf_take_drop buffers k
    rw [hb] at hrun hfits' hne' hsplit
    obtain ⟨a₁, ⟨is, his, hends⟩, hrest⟩ := hrun
    rw [hbytes, payloadOf_cons, List.append_assoc] at hsplit
    have hhead : buffers.head? = some buffer := by
      cases buffers with
      | nil =>
        rw [List.take_nil] at hb
        cases hb
      | cons first _ =>
        cases k with
        | zero => cases hb
        | succ k =>
          obtain ⟨rfl, -⟩ := List.cons.inj hb
          rfl
    -- the first buffer puts the connection in sync
    obtain ⟨is', his', hlen, hshort, hlong⟩ := resync_at_start alloc
      (connected order base) frames buffer _ (new_inv order base []) rfl rfl rfl hwf
      (hne' buffer List.mem_cons_self) (hindex buffer hhead) hsplit.symm
    rw [his] at his'
    cases his'
    have h8 : 8 ≤ buffer.m_bytes.length := by
      apply Nat.le_of_not_lt
      intro hlt
      exact LoopStep.not_ends_of_diverges (hshort hlt) hends
    obtain ⟨b, hstep, hsync, -, hbis, hdel, hcount⟩ := hlong h8
    rw [LoopStep.ends_iff_of_next hstep] at hends
    have hbound : ∀ i < frames.length, alloc (b.allocCount + i) = true := fun _ _ => halloc _
    have hloop := hsync.run alloc hbound
    have hclean : leftover order frames b.m_stream.m_is.unread.length = 0 ∨
        40 ≤ leftover order frames b.m_stream.m_is.unread.length := by
      by_contra hpartial
      exact LoopStep.not_ends_of_diverges (hloop.2 hpartial) hends
    obtain ⟨r₁, hends₁, hadv⟩ := hloop.1 hclean
    obtain rfl := hends.unique hends₁
    have hn : b.m_stream.m_is.unread.length = buffer.m_bytes.length := by rw [hbis, hlen]
    rw [hn] at hadv
    -- the remaining buffers
    have hmore := hadv.inSync.receiveAll hadv.settled
      (fun c hc => hne' c (List.mem_cons_of_mem _ hc))
      (by
        rw [hadv.unread_length]
        have := hfits'.2
        rw [Nat.zero_add] at this
        exact unreadFits_advance 0 this)
      (fun _ _ => halloc _) hrest
    rw [hmore.delivered_eq, hadv.delivered_eq, hadv.unread_length, hdel, bytesIn_cons,
      framesWithin_add order frames buffer.m_bytes.length (bytesIn rest)]
    rfl

/-- A frame with one payload byte in network order, its last byte in a buffer of its own. -/
theorem assembly_delivers_split_frame :
    ∃ a, Assembly.ReceiveAll (fun _ => true) (connected .networkOrder 0)
        [⟨100, (serialized .networkOrder ⟨.mk' 41 7 0 5 3, [9]⟩).take 40, by decide⟩,
          ⟨200, (serialized .networkOrder ⟨.mk' 41 7 0 5 3, [9]⟩).drop 40, by decide⟩] a ∧
      a.delivered = [⟨.mk' 41 7 0 5 3, [9]⟩] := by
  have hrun : (Assembly.receiveAll? (fun _ => true) 5 (connected .networkOrder 0)
      [⟨100, (serialized .networkOrder ⟨.mk' 41 7 0 5 3, [9]⟩).take 40, by decide⟩,
        ⟨200, (serialized .networkOrder ⟨.mk' 41 7 0 5 3, [9]⟩).drop 40, by decide⟩]).isSome
      = true := by
    decide +kernel
  obtain ⟨a, ha⟩ := Option.isSome_iff_exists.mp hrun
  refine ⟨a, Assembly.receiveAll?_sound ha, ?_⟩
  exact assembly_delivers_contained_frames .networkOrder 0 (fun _ => true) (fun _ => rfl)
    [⟨.mk' 41 7 0 5 3, [9]⟩] (by decide)
    [⟨100, (serialized .networkOrder ⟨.mk' 41 7 0 5 3, [9]⟩).take 40, by decide⟩,
      ⟨200, (serialized .networkOrder ⟨.mk' 41 7 0 5 3, [9]⟩).drop 40, by decide⟩]
    (by decide) (by decide) (by decide) (by decide) 2 a (Assembly.receiveAll?_sound ha)

theorem not_visible_of_large {bytes : List UInt8} (hlarge : 2 ^ 31 + 8 ≤ bytes.length) (k : Nat) :
    ¬ Common.Visible bytes COMMUTIL_MSG_MAGIC k := by
  intro hvisible
  have hindex : bytes.length - 8 < 2 ^ 31 := hvisible.1
  omega

/-- A first buffer with a negative `max_index` is skipped as a whole, if its last bytes do not
    begin a magic word. -/
theorem large_first_buffer_skipped {order : ByteOrder} (base : Nat) (alloc : Nat → Bool)
    {buffer : Buffer} (hlarge : 2 ^ 31 + 8 ≤ buffer.m_bytes.length)
    (hend : ∀ o < buffer.m_bytes.length, buffer.m_bytes.length ≤ o + 8 →
      ¬ buffer.m_bytes.drop o <+: COMMUTIL_MSG_MAGIC) :
    ∃ a, Assembly.OnBytesReceived alloc (connected order base) buffer a ∧ a.delivered = [] := by
  have hlt := buffer.length_lt
  obtain ⟨is, his, happ⟩ := appendBuffer_spec (new_inv order base []) buffer
    (List.ne_nil_of_length_pos (by omega)) (by rw [Nat.add_comm]; exact hlt)
  have hunread : is.unread = buffer.m_bytes := by
    rw [happ.unread_eq]
    rfl
  have hnodes : is.m_nodes = [⟨base, buffer⟩] := happ.nodes_eq
  obtain ⟨o, is', hcons, hstep, hlow, hhigh, hpre, -⟩ := resync_pass_missed alloc
    (a := (connected order base).withStream is) happ.inv rfl hnodes
    (by show 8 ≤ is.unread.length; rw [hunread]; omega) (by show 8 ≤ buffer.m_bytes.length; omega)
    fun k _ => not_visible_of_large hlarge k
  change buffer.m_bytes.length - 8 ≤ o at hlow
  change o ≤ buffer.m_bytes.length at hhigh
  have ho : o = buffer.m_bytes.length := by
    apply Nat.le_antisymm hhigh
    apply Nat.le_of_not_lt
    intro hbefore
    exact hend o hbefore (by omega) hpre
  have hsize : is'.m_size = 0 := by
    rw [hcons.inv.size_eq, hcons.unread_eq, List.length_drop]
    show is.unread.length - min is.unread.length o = 0
    rw [hunread, ho]
    omega
  have hends := (LoopStep.ends_iff_of_next hstep).mpr
    (LoopStep.ends_of_done (Assembly.assembleStep_empty hsize))
  exact ⟨_, ⟨is, his, hends⟩, rfl⟩

/-- A frame with `n` zero bytes. -/
def zeroFrame (n : Nat) : Msg := ⟨.mk' (UInt32.ofNat (40 + n)) 7 0 5 3, List.replicate n 0⟩

section ZeroFrame

variable {n : Nat} (hpos : 0 < n) (hlt : 40 + n < 2 ^ 32)

include hpos hlt

theorem zeroFrame_wellFormed : WellFormed (zeroFrame n) := by
  have hlen : (zeroFrame n).m_payload.length = n := List.length_replicate
  refine ⟨rfl, ?_, List.ne_nil_of_length_pos (by rw [hlen]; exact hpos)⟩
  rw [hlen]
  exact UInt32.toNat_ofNat_of_lt' hlt

theorem zeroFrame_length (order : ByteOrder) :
    (serialized order (zeroFrame n)).length = 40 + n := by
  rw [serialized_length order (zeroFrame_wellFormed hpos hlt)]
  exact UInt32.toNat_ofNat_of_lt' hlt

/-- The payload is all zero bytes, and the magic word has none. -/
theorem zeroFrame_end (order : ByteOrder) {o : Nat} (hlow : 40 ≤ o) (hhigh : o < 40 + n) :
    ¬ (serialized order (zeroFrame n)).drop o <+: COMMUTIL_MSG_MAGIC := by
  rintro ⟨rest, hrest⟩
  have hheader : (headerBytes order (zeroFrame n).m_header).length = 40 :=
    headerBytes_length order _ rfl
  have hzero : (serialized order (zeroFrame n))[o]? = some 0 := by
    rw [serialized_eq order (zeroFrame_wellFormed hpos hlt),
      List.getElem?_append_right (by omega), hheader]
    show (List.replicate n (0 : UInt8))[o - 40]? = some 0
    rw [List.getElem?_replicate, if_pos (by omega)]
  apply Assembly.magic_zero_free
  rw [← hrest, List.mem_append]
  refine .inl (@List.mem_of_getElem? _ _ 0 _ ?_)
  rw [List.getElem?_drop, Nat.add_zero]
  exact hzero

/-- The frame in one buffer. -/
def zeroBuffer (order : ByteOrder) : Buffer :=
  ⟨100, serialized order (zeroFrame n), by rw [zeroFrame_length hpos hlt]; exact hlt⟩

end ZeroFrame

/-- A buffer that holds a frame with `2 ^ 31` zero bytes: the call returns, and the frame is
    lost. -/
theorem large_first_buffer_loses_frame :
    ∃ (f : Msg) (buffer : Buffer), f = zeroFrame (2 ^ 31) ∧ WellFormed f ∧
      payloadOf [buffer] = wire .hostOrder [f] ∧ UnreadFits .hostOrder [f] 0 [buffer] ∧
      framesWithin .hostOrder [f] (bytesIn [buffer]) = [f] ∧
      ∃ a, Assembly.ReceiveAll (fun _ => true) (connected .hostOrder 0) [buffer] a ∧
        a.delivered = [] := by
  obtain ⟨n, hn⟩ : ∃ n, n = 2 ^ 31 := ⟨_, rfl⟩
  have hpos : 0 < n := by omega
  have hlt : 40 + n < 2 ^ 32 := by omega
  have hwf := zeroFrame_wellFormed hpos hlt
  have hframe := zeroFrame_length hpos hlt .hostOrder
  have hlen : (zeroBuffer hpos hlt .hostOrder).m_bytes.length = 40 + n := hframe
  have hbytes : bytesIn [zeroBuffer hpos hlt .hostOrder] = 40 + n := by
    rw [bytesIn_cons, hlen]
    rfl
  rw [← hn]
  refine ⟨zeroFrame n, zeroBuffer hpos hlt .hostOrder, rfl, hwf, rfl, ⟨?_, trivial⟩, ?_, ?_⟩
  · have hnone : framesWithin .hostOrder [zeroFrame n] 0 = [] := by
      rw [framesWithin, if_neg (by omega)]
    rw [hlen, leftover_of_settled hnone]
    omega
  · rw [hbytes, framesWithin, if_pos (Nat.le_of_eq hframe)]
    rfl
  · obtain ⟨a, hreceived, hdelivered⟩ := @large_first_buffer_skipped .hostOrder 0
      (fun _ => true) (zeroBuffer hpos hlt .hostOrder) (by omega) fun o ho hnear =>
        zeroFrame_end hpos hlt .hostOrder (by omega) (by omega)
    exact ⟨a, ⟨a, hreceived, rfl⟩, hdelivered⟩

end Commutil.Framing
