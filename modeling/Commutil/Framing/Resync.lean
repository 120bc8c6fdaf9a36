import Commutil.Framing.Segmentation

/-!
# Resynchronisation

When garbage precedes the frames, which segmentations let the assembler deliver all
of them?  The answer is exact: `RecoveryCuts` says for every buffer where it may end,
and `resync_recovers_iff` proves that the frames are delivered if and only if the
buffers obey it and the message allocations succeed.

Both directions rest on two observations.  A connection that stalls never returns
from `onBytesReceived`.  And no pass adds to the bytes delivered and unread, so a
connection that has skipped a byte of a frame cannot deliver all frames any more
(`not_finishes_of_volume`).
-/

namespace Commutil.Framing

open Commutil.Io Commutil.Library SegmentedInputStream Assembly

/-! ## §1 Finishing with a list of deliveries -/

/-- The calls return and leave exactly these messages delivered. -/
def Delivers (alloc : Nat → Bool) (a : Assembly) (buffers : List Buffer) (target : List Msg) :
    Prop :=
  ∃ r, ReceiveAll alloc a buffers r ∧ r.delivered = target

/-- The same from a state at the loop head: the running call returns, then the others do. -/
def Finishes (alloc : Nat → Bool) (a : Assembly) (buffers : List Buffer) (target : List Msg) :
    Prop :=
  ∃ r, LoopStep.Ends (assembleStep alloc) a r ∧ Delivers alloc r buffers target

section Finishing

variable {alloc : Nat → Bool} {a b : Assembly} {buffers : List Buffer} {target : List Msg}

theorem delivers_cons {buffer : Buffer} :
    Delivers alloc a (buffer :: buffers) target ↔
      ∃ is, a.m_stream.m_is.appendBuffer buffer = .ok is ∧
        Finishes alloc (a.withStream is) buffers target := by
  refine ⟨?_, ?_⟩
  · rintro ⟨r, ⟨a₁, ⟨is, his, hends⟩, hrest⟩, hr⟩
    exact ⟨is, his, a₁, hends, r, hrest, hr⟩
  · rintro ⟨is, his, a₁, hends, r, hrest, hr⟩
    exact ⟨r, ⟨a₁, ⟨is, his, hends⟩, hrest⟩, hr⟩

theorem finishes_of_visits (h : LoopStep.Visits (assembleStep alloc) a b) :
    Finishes alloc a buffers target ↔ Finishes alloc b buffers target := by
  unfold Finishes
  simp only [h.ends_iff]

theorem finishes_of_ends (h : LoopStep.Ends (assembleStep alloc) a b) :
    Finishes alloc a buffers target ↔ Delivers alloc b buffers target := by
  refine ⟨?_, fun hb => ⟨b, h, hb⟩⟩
  rintro ⟨r, hends, hr⟩
  rwa [h.unique hends]

theorem not_finishes_of_diverges (h : LoopStep.Diverges (assembleStep alloc) a) :
    ¬ Finishes alloc a buffers target := by
  rintro ⟨r, hends, -⟩
  exact LoopStep.not_ends_of_diverges h hends

theorem appendBuffer_size {s s' : SegmentedInputStream} {buffer : Buffer}
    (h : s.appendBuffer buffer = .ok s') :
    s'.m_size = add32 s.m_size buffer.m_bytes.length := by
  unfold appendBuffer at h
  dsimp only at h
  split at h
  · cases h
    rfl
  split at h
  · cases h
  split at h
  · cases h
  · cases h
    rfl

theorem ends_volume {r : Assembly} (h : LoopStep.Ends (assembleStep alloc) a r) :
    r.volume ≤ a.volume := by
  obtain ⟨t, hvisits, hdone⟩ := h.exists_last
  have hlast := (assembleStep_bounds (.inr hdone)).volume_le
  have hbefore : t.volume ≤ a.volume := by
    refine hvisits.invariant (fun s => s.volume ≤ a.volume) ?_ (Nat.le_refl _)
    intro s s' hs hstep
    exact Nat.le_trans (assembleStep_bounds (.inl hstep)).volume_le hs
  exact Nat.le_trans hlast hbefore

theorem receiveAll_volume {r : Assembly} (h : ReceiveAll alloc a buffers r) :
    r.volume ≤ a.volume + bytesIn buffers := by
  induction buffers generalizing a with
  | nil =>
    obtain rfl : r = a := h
    exact Nat.le_refl _
  | cons buffer rest ih =>
    obtain ⟨a₁, ⟨is, his, hends⟩, hrest⟩ := h
    have h₁ := ih hrest
    have h₂ := ends_volume hends
    have h₃ : (a.withStream is).volume ≤ a.volume + buffer.m_bytes.length := by
      have hle := add32_le a.m_stream.m_is.m_size buffer.m_bytes.length
      show deliveredBytes a.delivered + is.m_size ≤
        deliveredBytes a.delivered + a.m_stream.m_is.m_size + buffer.m_bytes.length
      rw [appendBuffer_size his]
      omega
    rw [bytesIn_cons]
    omega

/-- **Lost bytes are lost**: what is delivered, unread and still to come bounds what can be
    delivered in the end. -/
theorem not_finishes_of_volume (h : a.volume + bytesIn buffers < deliveredBytes target) :
    ¬ Finishes alloc a buffers target := by
  rintro ⟨a₁, hends, r, hrun, rfl⟩
  have h₁ := ends_volume hends
  have h₂ := receiveAll_volume hrun
  have h₃ : deliveredBytes r.delivered ≤ r.volume := Nat.le_add_right _ _
  omega

end Finishing

theorem deliveredBytes_append (l₁ l₂ : List Msg) :
    deliveredBytes (l₁ ++ l₂) = deliveredBytes l₁ + deliveredBytes l₂ := by
  simp [deliveredBytes]

/-- Well-formed frames weigh what they take on the wire. -/
theorem deliveredBytes_wire (order : ByteOrder) {frames : List Msg}
    (hwf : ∀ f ∈ frames, WellFormed f) :
    deliveredBytes frames = (wire order frames).length := by
  induction frames with
  | nil => rfl
  | cons f rest ih =>
    have hf := hwf f List.mem_cons_self
    have hrest := ih fun g hg => hwf g (List.mem_cons_of_mem f hg)
    rw [wire_cons, List.length_append, serialized_length order hf, hf.length_eq, ← hrest]
    rfl

theorem bytesIn_eq (buffers : List Buffer) : bytesIn buffers = (payloadOf buffers).length := by
  induction buffers with
  | nil => rfl
  | cons buffer rest ih => rw [bytesIn_cons, payloadOf_cons, List.length_append, ih]

/-! ## §2 In sync -/

/-- A cut that leaves no partial header: nothing is left over, or a whole header is. -/
def CleanCut (order : ByteOrder) (frames : List Msg) (n : Nat) : Prop :=
  leftover order frames n = 0 ∨ 40 ≤ leftover order frames n

/-- Where the buffers may end once the first `n` bytes of the frames have been received in
    sync. -/
def SyncCuts (order : ByteOrder) (frames : List Msg) : Nat → List Buffer → Prop
  | _, [] => True
  | n, buffer :: rest =>
    leftover order frames n + buffer.m_bytes.length < 2 ^ 32 ∧
      CleanCut order frames (n + buffer.m_bytes.length) ∧
      SyncCuts order frames (n + buffer.m_bytes.length) rest

instance (order : ByteOrder) (frames : List Msg) (n : Nat) :
    Decidable (CleanCut order frames n) :=
  inferInstanceAs (Decidable (_ ∨ _))

instance decidableSyncCuts (order : ByteOrder) (frames : List Msg) :
    ∀ (n : Nat) (buffers : List Buffer), Decidable (SyncCuts order frames n buffers)
  | _, [] => .isTrue trivial
  | n, buffer :: rest =>
    have := decidableSyncCuts order frames (n + buffer.m_bytes.length) rest
    inferInstanceAs (Decidable (_ ∧ _ ∧ _))

private theorem leftover_peel {order : ByteOrder} {f : Msg} {rest : List Msg} {n : Nat}
    (h : (serialized order f).length ≤ n) :
    leftover order (f :: rest) n = leftover order rest (n - (serialized order f).length) := by
  rw [leftover, if_pos h]

/-- A frame that is there does not matter for the cuts to come. -/
private theorem syncCuts_peel {order : ByteOrder} {f : Msg} {rest : List Msg}
    {buffers : List Buffer} {n : Nat} (h : (serialized order f).length ≤ n) :
    SyncCuts order (f :: rest) n buffers ↔
      SyncCuts order rest (n - (serialized order f).length) buffers := by
  induction buffers generalizing n with
  | nil => exact Iff.rfl
  | cons buffer buffers ih =>
    have hcut : CleanCut order (f :: rest) (n + buffer.m_bytes.length) ↔
        CleanCut order rest (n - (serialized order f).length + buffer.m_bytes.length) := by
      unfold CleanCut
      rw [leftover_peel (by omega),
        show n + buffer.m_bytes.length - (serialized order f).length =
          n - (serialized order f).length + buffer.m_bytes.length by omega]
    unfold SyncCuts
    rw [leftover_peel h, hcut, ih (by omega),
      show n + buffer.m_bytes.length - (serialized order f).length =
        n - (serialized order f).length + buffer.m_bytes.length by omega]

/-- The allocations of the next messages succeed. -/
def AllocsSucceed (alloc : Nat → Bool) (a : Assembly) (frames : List Msg) : Prop :=
  ∀ i < frames.length, alloc (a.allocCount + i) = true

private theorem allocsSucceed_cons {alloc : Nat → Bool} {a b : Assembly} {f : Msg}
    {rest : List Msg} (hcount : b.allocCount = a.allocCount + 1)
    (hfirst : alloc a.allocCount = true) :
    AllocsSucceed alloc a (f :: rest) ↔ AllocsSucceed alloc b rest := by
  unfold AllocsSucceed
  rw [hcount]
  refine ⟨fun h i hi => ?_, fun h i hi => ?_⟩
  · rw [Nat.add_assoc, Nat.add_comm 1 i]
    exact h (i + 1) (by simpa using hi)
  · cases i with
    | zero => exact hfirst
    | succ i =>
      have := h i (by simpa using hi)
      rwa [Nat.add_assoc, Nat.add_comm 1 i] at this

/-- The weight of what is still to be delivered is what is unread and still to come. -/
private theorem target_weight {order : ByteOrder} {a : Assembly} {rest : List Msg}
    {buffers : List Buffer} (h : InSync order a rest (payloadOf buffers)) :
    deliveredBytes (a.delivered ++ rest) = a.volume + bytesIn buffers := by
  have hbytes := congrArg List.length h.bytes_eq
  rw [List.length_append, ← h.inv.size_eq, ← bytesIn_eq] at hbytes
  rw [deliveredBytes_append, deliveredBytes_wire order h.wellFormed, hbytes]
  unfold volume
  omega

/-- A frame whose message cannot be allocated is skipped, and the rest cannot make up for it. -/
private theorem not_finishes_unallocated {order : ByteOrder} {alloc : Nat → Bool} {a : Assembly}
    {f : Msg} {rest : List Msg} {buffers : List Buffer}
    (h : InSync order a (f :: rest) (payloadOf buffers))
    (hwhole : (serialized order f).length ≤ a.m_stream.m_is.unread.length)
    (halloc : alloc a.allocCount = false) :
    ¬ Finishes alloc a buffers (a.delivered ++ f :: rest) := by
  obtain ⟨hsize, hbig⟩ := h.frame_length
  obtain ⟨b, hvisits, hb, hbstate, his, hdel, hcount⟩ := h.to_body alloc (by omega)
  have hL : b.m_stream.m_msgHeader.m_length.toNat = (serialized order f).length := by
    rcases hb.state with hst | ⟨-, h40, hsaved⟩
    · rw [hst] at hbstate
      cases hbstate
    · rw [hsaved, hb.headerAt_eq h40, hsize]
  have hbsize := hb.inv.size_eq
  rw [his] at hbsize
  obtain ⟨is, hcons, hstep⟩ := assembleStep_body_unallocated hbstate hb.inv
    (by rw [his]; omega) (by rw [hL, his]; omega) (by rw [hcount]; exact halloc)
  rw [finishes_of_visits hvisits, finishes_of_ends (LoopStep.ends_of_done hstep)]
  rintro ⟨r, hrun, hr⟩
  -- the skipped bytes are neither delivered nor unread
  have hvol := receiveAll_volume hrun
  have hweight := target_weight h
  have hle : deliveredBytes r.delivered ≤ r.volume := Nat.le_add_right _ _
  have hissize := hcons.size_eq hb.inv
  rw [hL, his] at hissize
  rw [← hr] at hweight
  simp only [volume, hdel, hissize] at hvol hweight hle
  omega

/-- Nothing is unread and nothing is to come: the call returns with all frames delivered. -/
private theorem finishes_nothing {order : ByteOrder} (alloc : Nat → Bool) {a : Assembly}
    (h : InSync order a [] (payloadOf [])) (hempty : a.m_stream.m_is.unread = []) :
    Finishes alloc a [] (a.delivered ++ []) := by
  obtain ⟨r, hends, hadv⟩ := (h.run alloc (fun i hi => absurd hi (by simp))).1
    (.inl (by rw [hempty]; rfl))
  exact (finishes_of_ends hends).mpr ⟨r, rfl, hadv.delivered_eq⟩

private theorem leftover_incomplete {order : ByteOrder} {f : Msg} {n : Nat} (rest : List Msg)
    (h : n < (serialized order f).length) : leftover order (f :: rest) n = n := by
  rw [leftover, if_neg (Nat.not_le.mpr h)]

/-- The next frame is not complete, and not cut in its header: the call returns and all is
    unread as before. -/
private theorem waits_for_frame {order : ByteOrder} (alloc : Nat → Bool) {a : Assembly} {f : Msg}
    {rest : List Msg} {future : List UInt8} (h : InSync order a (f :: rest) future)
    (hincomplete : a.m_stream.m_is.unread.length < (serialized order f).length)
    (hclean : CleanCut order (f :: rest) a.m_stream.m_is.unread.length) :
    ∃ b, LoopStep.Ends (assembleStep alloc) a b ∧ InSync order b (f :: rest) future ∧
      b.m_stream.m_is.unread.length = a.m_stream.m_is.unread.length ∧
      b.delivered = a.delivered ∧ b.allocCount = a.allocCount := by
  have hleft := leftover_incomplete rest hincomplete
  have hwithin : framesWithin order (f :: rest) a.m_stream.m_is.unread.length = [] := by
    rw [framesWithin, if_neg (Nat.not_le.mpr hincomplete)]
  unfold CleanCut at hclean
  rw [hleft] at hclean
  obtain ⟨b, hends, hadv⟩ := (h.run_incomplete alloc hincomplete).1 hclean
  have hsync := hadv.inSync
  have hdel := hadv.delivered_eq
  have hcount := hadv.allocCount_eq
  rw [hwithin] at hsync hdel hcount
  simp only [List.length_nil, List.drop_zero, List.append_nil, Nat.add_zero] at hsync hdel hcount
  exact ⟨b, hends, hsync, hadv.unread_length.trans hleft, hdel, hcount⟩

/-- The next buffer fits into `m_size`: it is received in sync. -/
private theorem delivers_appended {order : ByteOrder} (alloc : Nat → Bool) {a : Assembly}
    {rest : List Msg} {buffer : Buffer} {buffers : List Buffer}
    (h : InSync order a rest (payloadOf (buffer :: buffers))) (hne : buffer.m_bytes ≠ [])
    (hroom : a.m_stream.m_is.unread.length + buffer.m_bytes.length < 2 ^ 32) :
    ∃ b, InSync order b rest (payloadOf buffers) ∧
      b.m_stream.m_is.unread.length = a.m_stream.m_is.unread.length + buffer.m_bytes.length ∧
      b.delivered = a.delivered ∧ b.allocCount = a.allocCount ∧
      ∀ target, Delivers alloc a (buffer :: buffers) target ↔ Finishes alloc b buffers target := by
  rw [payloadOf_cons] at h
  obtain ⟨is, his, hsync, hlen⟩ := h.append hne hroom
  refine ⟨a.withStream is, hsync, hlen, rfl, rfl, fun target => delivers_cons.trans ⟨?_, ?_⟩⟩
  · rintro ⟨is', his', hfin⟩
    rw [his] at his'
    cases his'
    exact hfin
  · exact fun hfin => ⟨is, his, hfin⟩

/-- With the next buffer `m_size` wraps, and 2^32 bytes are lost. -/
private theorem not_delivers_wrapped {order : ByteOrder} (alloc : Nat → Bool) {a : Assembly}
    {rest : List Msg} {buffer : Buffer} {buffers : List Buffer}
    (h : InSync order a rest (payloadOf (buffer :: buffers)))
    (hfull : 2 ^ 32 ≤ a.m_stream.m_is.unread.length + buffer.m_bytes.length) :
    ¬ Delivers alloc a (buffer :: buffers) (a.delivered ++ rest) := by
  rw [delivers_cons]
  rintro ⟨is, his, hfin⟩
  refine not_finishes_of_volume ?_ hfin
  have hweight := target_weight h
  have hsize := appendBuffer_size his
  have hlt := h.inv.size_lt
  have hblt := buffer.length_lt
  rw [h.inv.size_eq] at hsize hlt
  have hwrap : is.m_size + 2 ^ 32 =
      a.m_stream.m_is.unread.length + buffer.m_bytes.length := by
    rw [hsize]
    unfold add32
    omega
  have hvol : (a.withStream is).volume = deliveredBytes a.delivered + is.m_size := rfl
  have hvol' : a.volume = deliveredBytes a.delivered + a.m_stream.m_is.unread.length := by
    unfold volume
    rw [h.inv.size_eq]
  rw [hweight, bytesIn_cons, hvol, hvol']
  omega

/-- **Exact recovery in sync**: from a state in sync the frames still to come are all delivered
    if and only if their allocations succeed and no buffer ends inside a header. -/
theorem InSync.finishes_iff {order : ByteOrder} (alloc : Nat → Bool) {a : Assembly}
    {rest : List Msg} {buffers : List Buffer} (hne : ∀ b ∈ buffers, b.m_bytes ≠ [])
    (h : InSync order a rest (payloadOf buffers)) :
    Finishes alloc a buffers (a.delivered ++ rest) ↔
      AllocsSucceed alloc a rest ∧ CleanCut order rest a.m_stream.m_is.unread.length ∧
        SyncCuts order rest a.m_stream.m_is.unread.length buffers := by
  -- each step takes a frame off the list or a buffer
  induction hm : rest.length + buffers.length using Nat.strongRecOn generalizing a rest buffers with
  | ind m ih =>
  subst hm
  have hbytes := h.bytes_eq
  cases rest with
  | nil =>
    -- no frame is left, so no byte is
    rw [wire_nil] at hbytes
    obtain ⟨hempty, hfuture⟩ := List.append_eq_nil_iff.mp hbytes.symm
    obtain rfl : buffers = [] := by
      cases buffers with
      | nil => rfl
      | cons buffer rest =>
        exact absurd (List.append_eq_nil_iff.mp hfuture).1 (hne buffer List.mem_cons_self)
    refine iff_of_true (finishes_nothing alloc h hempty) ⟨?_, .inl ?_, trivial⟩
    · exact fun i hi => absurd hi (by simp)
    · rw [hempty]
      rfl
  | cons f rest =>
    by_cases hwhole : (serialized order f).length ≤ a.m_stream.m_is.unread.length
    · -- the next frame is there: it is delivered if its message can be allocated
      cases halloc : alloc a.allocCount with
      | false =>
        refine iff_of_false (not_finishes_unallocated h hwhole halloc) fun hcond => ?_
        have hfirst : alloc a.allocCount = true := hcond.1 0 (by simp)
        rw [halloc] at hfirst
        cases hfirst
      | true =>
        obtain ⟨b, hvisits, hb, hunread, hdel, hcount⟩ := h.take_frame alloc hwhole halloc
        have hn : b.m_stream.m_is.unread.length =
            a.m_stream.m_is.unread.length - (serialized order f).length := by
          rw [hunread, List.length_drop]
        have hrec := ih _ (by simp) hne hb rfl
        rw [hdel, List.append_assoc] at hrec
        rw [finishes_of_visits hvisits, allocsSucceed_cons hcount halloc, syncCuts_peel hwhole,
          ← hn]
        unfold CleanCut at hrec ⊢
        rw [leftover_peel hwhole, ← hn]
        exact hrec
    have hincomplete := Nat.lt_of_not_le hwhole
    have hleft := leftover_incomplete rest hincomplete
    by_cases hclean : CleanCut order (f :: rest) a.m_stream.m_is.unread.length
    · obtain ⟨b, hends, hb, hlen, hdel, hcount⟩ := waits_for_frame alloc h hincomplete hclean
      have hallocs : AllocsSucceed alloc b (f :: rest) ↔ AllocsSucceed alloc a (f :: rest) := by
        unfold AllocsSucceed
        rw [hcount]
      rw [finishes_of_ends hends, ← hdel, ← hallocs]
      cases buffers with
      | nil =>
        -- the frame is incomplete and nothing is to come
        exfalso
        have hcount := congrArg List.length hbytes
        have hnil : payloadOf [] = [] := rfl
        rw [hnil, List.append_nil, wire_cons, List.length_append] at hcount
        omega
      | cons buffer buffers =>
        unfold SyncCuts
        rw [hleft, ← hlen]
        by_cases hroom : b.m_stream.m_is.unread.length + buffer.m_bytes.length < 2 ^ 32
        · obtain ⟨c, hc, hclen, hcdel, hccount, hdelivers⟩ :=
            delivers_appended alloc hb (hne buffer List.mem_cons_self) hroom
          have hrec := ih _ (by simp) (fun d hd => hne d (List.mem_cons_of_mem _ hd)) hc rfl
          unfold AllocsSucceed at hrec ⊢
          rw [hcdel, hclen, hccount] at hrec
          rw [hdelivers, hrec]
          refine ⟨?_, ?_⟩
          · rintro ⟨h1, h2, h3⟩
            exact ⟨h1, by rw [hlen]; exact hclean, hroom, h2, h3⟩
          · rintro ⟨h1, -, -, h2, h3⟩
            exact ⟨h1, h2, h3⟩
        · exact iff_of_false (not_delivers_wrapped alloc hb (Nat.le_of_not_lt hroom))
            fun hcond => hroom hcond.2.2.1
    · -- the buffer ends inside a header: the loop never returns
      refine iff_of_false (not_finishes_of_diverges
        ((h.run_incomplete alloc hincomplete).2 fun hcut => hclean ?_)) fun hcond => hclean hcond.2.1
      unfold CleanCut
      rw [hleft]
      exact hcut

/-! ## §3 Searching the garbage -/

/-- A connection between two calls with nothing unread.  Its stream is well formed, so the chain
    is empty and `m_offset` is zero. -/
structure AtRest (order : ByteOrder) (a : Assembly) : Prop where
  inv : a.m_stream.m_is.Inv
  byteOrder_eq : a.m_stream.m_is.m_byteOrder = order
  empty : a.m_stream.m_is.unread = []

/-- The next buffer is then the only segment. -/
theorem AtRest.append {order : ByteOrder} {a : Assembly} (h : AtRest order a) {buffer : Buffer}
    (hne : buffer.m_bytes ≠ []) :
    ∃ is, a.m_stream.m_is.appendBuffer buffer = .ok is ∧ is.Inv ∧ is.m_byteOrder = order ∧
      is.unread = buffer.m_bytes ∧ is.m_nodes = [⟨a.m_stream.m_is.m_nextAddr, buffer⟩] ∧
      ∀ alloc buffers target, Delivers alloc a (buffer :: buffers) target ↔
        Finishes alloc (a.withStream is) buffers target := by
  have hlt := buffer.length_lt
  obtain ⟨is, his, happ⟩ := appendBuffer_spec h.inv buffer hne
    (by rw [h.empty, List.length_nil]; omega)
  refine ⟨is, his, happ.inv, happ.byteOrder_eq.trans h.byteOrder_eq, ?_, ?_, ?_⟩
  · rw [happ.unread_eq, h.empty, List.nil_append]
  · rw [happ.nodes_eq, h.inv.nodes_eq_nil_iff.mpr h.empty, List.nil_append]
  · intro alloc buffers target
    rw [delivers_cons]
    refine ⟨?_, fun hfin => ⟨is, his, hfin⟩⟩
    rintro ⟨is', his', hfin⟩
    rw [his] at his'
    cases his'
    exact hfin

/-- Garbage, then frames; the first magic word is the one of the first frame.  Some `bytes` of
    them have arrived in one buffer. -/
structure Preceded (order : ByteOrder) (garbage : List UInt8) (frames : List Msg)
    (bytes future : List UInt8) : Prop where
  bytes_eq : bytes ++ future = garbage ++ wire order frames
  first : IsFirstOccurrence COMMUTIL_MSG_MAGIC (garbage ++ wire order frames) garbage.length

/-- The magic word after the garbage is seen in a buffer of `n` bytes: it is there, no zero byte
    precedes it, and the search has no negative `max_index`. -/
def MagicSeen (garbage : List UInt8) (n : Nat) : Prop :=
  garbage.length + 8 ≤ n ∧ 0 ∉ garbage ∧ n < 2 ^ 31 + 8

instance (garbage : List UInt8) (n : Nat) : Decidable (MagicSeen garbage n) :=
  inferInstanceAs (Decidable (_ ∧ _ ∧ _))

namespace Preceded

variable {order : ByteOrder} {garbage : List UInt8} {frames : List Msg}
  {bytes future : List UInt8}

theorem length_eq (h : Preceded order garbage frames bytes future) :
    bytes.length + future.length = garbage.length + (wire order frames).length := by
  have := congrArg List.length h.bytes_eq
  rwa [List.length_append, List.length_append] at this

private theorem occursAt_left {p t u : List UInt8} {k : Nat} (h : OccursAt p t k) :
    OccursAt p (t ++ u) k := by
  intro m hm
  obtain ⟨x, hx⟩ : ∃ x, p[m]? = some x := ⟨p[m], List.getElem?_eq_getElem hm⟩
  have ht := h m hm
  rw [hx] at ht ⊢
  obtain ⟨hlt, -⟩ := List.getElem?_eq_some_iff.mp ht
  rw [List.getElem?_append_left hlt, ht]

theorem le_of_occursAt (h : Preceded order garbage frames bytes future) {k : Nat}
    (hk : OccursAt COMMUTIL_MSG_MAGIC bytes k) : garbage.length ≤ k := by
  apply Nat.le_of_not_lt
  intro hlt
  apply h.first.first k hlt
  rw [← h.bytes_eq]
  exact occursAt_left hk

theorem getElem?_garbage (h : Preceded order garbage frames bytes future) {m : Nat}
    (hm : m < garbage.length) (hlen : garbage.length ≤ bytes.length) :
    bytes[m]? = garbage[m]? := by
  rw [← @List.getElem?_append_left _ bytes future m (by omega), h.bytes_eq,
    List.getElem?_append_left hm]

/-- The search finds the first frame if its magic word is there, no zero byte precedes it and
    `max_index` is not negative. -/
theorem found (h : Preceded order garbage frames bytes future)
    (hseen : MagicSeen garbage bytes.length) :
    Common.Seen bytes COMMUTIL_MSG_MAGIC garbage.length := by
  obtain ⟨hlen, hzero, hindex⟩ := hseen
  have hocc : OccursAt COMMUTIL_MSG_MAGIC bytes garbage.length := by
    have hpre := occursAt_iff_drop.mp h.first.occurs
    rw [← h.bytes_eq, List.drop_append_of_le_length (by omega)] at hpre
    rw [occursAt_iff_drop]
    refine List.prefix_of_prefix_length_le hpre (List.prefix_append _ _) ?_
    rw [List.length_drop]
    exact Nat.le_sub_of_add_le' hlen
  refine ⟨⟨hocc, fun k hk hbefore => ?_⟩, ?_, fun m hm hz => ?_⟩
  · have := h.le_of_occursAt hbefore
    omega
  · show bytes.length - 8 < 2 ^ 31
    omega
  · rcases Nat.lt_or_ge m garbage.length with hlt | hge
    · rw [h.getElem?_garbage hlt (by omega)] at hz
      exact hzero (List.mem_of_getElem? hz)
    · have := hocc (m - garbage.length) (by omega)
      rw [Nat.add_sub_cancel' hge, hz] at this
      exact magic_zero_free (List.mem_of_getElem? this.symm)

/-- Otherwise it finds nothing. -/
theorem missed (h : Preceded order garbage frames bytes future)
    (hnot : ¬ MagicSeen garbage bytes.length) (k : Nat)
    (hk : OccursAt COMMUTIL_MSG_MAGIC bytes k) :
    ¬ Common.Visible bytes COMMUTIL_MSG_MAGIC k := by
  rintro ⟨hindex, hzero⟩
  change bytes.length - 8 < 2 ^ 31 at hindex
  have hge := h.le_of_occursAt hk
  have hend : k + 8 ≤ bytes.length := hk.length_le (by decide)
  apply hnot
  refine ⟨by omega, fun hmem => ?_, by omega⟩
  obtain ⟨m, hm, heq⟩ := List.mem_iff_getElem.mp hmem
  apply hzero m (by omega)
  rw [h.getElem?_garbage hm (by omega), List.getElem?_eq_getElem hm, heq]

/-- What is consumed beyond the garbage is missing in the end. -/
theorem not_finishes {buffers : List Buffer}
    (h : Preceded order garbage frames bytes (payloadOf buffers)) {alloc : Nat → Bool}
    {a : Assembly} {delivered : List Msg} (hwf : ∀ f ∈ frames, WellFormed f)
    (hdel : a.delivered = delivered)
    (hlost : garbage.length + a.m_stream.m_is.m_size < bytes.length) :
    ¬ Finishes alloc a buffers (delivered ++ frames) := by
  apply not_finishes_of_volume
  have hlen := h.length_eq
  rw [deliveredBytes_append, deliveredBytes_wire order hwf, bytesIn_eq]
  unfold volume
  rw [hdel]
  omega

end Preceded

/-- Where the buffers may end while the connection searches for the first frame: a buffer either
    has the magic word of the frame after garbage without zero bytes, or is all garbage and
    does not end like a magic word begins. -/
def ResyncCuts (order : ByteOrder) (frames : List Msg) : List UInt8 → List Buffer → Prop
  | _, [] => True
  | garbage, buffer :: rest =>
    8 ≤ buffer.m_bytes.length ∧
      (MagicSeen garbage buffer.m_bytes.length ∧
          CleanCut order frames (buffer.m_bytes.length - garbage.length) ∧
          SyncCuts order frames (buffer.m_bytes.length - garbage.length) rest ∨
        buffer.m_bytes.length ≤ garbage.length ∧
          (∀ k < buffer.m_bytes.length, ¬ buffer.m_bytes.drop k <+: COMMUTIL_MSG_MAGIC) ∧
          ResyncCuts order frames (garbage.drop buffer.m_bytes.length) rest)

instance decidableResyncCuts (order : ByteOrder) (frames : List Msg) :
    ∀ (garbage : List UInt8) (buffers : List Buffer),
      Decidable (ResyncCuts order frames garbage buffers)
  | _, [] => .isTrue trivial
  | garbage, buffer :: rest =>
    have := decidableResyncCuts order frames (garbage.drop buffer.m_bytes.length) rest
    inferInstanceAs (Decidable (_ ∧ (_ ∧ _ ∧ _ ∨ _ ∧ _ ∧ _)))

/-- The garbage that is left when a buffer was all garbage. -/
private theorem Preceded.drop {order : ByteOrder} {garbage : List UInt8} {frames : List Msg}
    {bytes future : List UInt8} (h : Preceded order garbage frames bytes future)
    (hlen : bytes.length ≤ garbage.length) :
    future = garbage.drop bytes.length ++ wire order frames ∧
      IsFirstOccurrence COMMUTIL_MSG_MAGIC (garbage.drop bytes.length ++ wire order frames)
        (garbage.drop bytes.length).length := by
  have hfuture : future = garbage.drop bytes.length ++ wire order frames := by
    rw [← List.drop_append_of_le_length hlen, ← h.bytes_eq, List.drop_left]
  have hdrop : ∀ k, OccursAt COMMUTIL_MSG_MAGIC (garbage.drop bytes.length ++ wire order frames) k ↔
      OccursAt COMMUTIL_MSG_MAGIC (garbage ++ wire order frames) (bytes.length + k) := by
    intro k
    rw [occursAt_iff_drop, occursAt_iff_drop, ← List.drop_drop,
      List.drop_append_of_le_length hlen]
  refine ⟨hfuture, (hdrop _).mpr ?_, fun k hk hocc => ?_⟩
  · rw [List.length_drop, Nat.add_sub_cancel' hlen]
    exact h.first.occurs
  · rw [List.length_drop] at hk
    exact h.first.first (bytes.length + k) (by omega) ((hdrop k).mp hocc)

/-- A connection that has consumed the whole buffer while searching: if it was all garbage the
    search goes on, and otherwise part of a frame is lost. -/
private theorem finishes_swallowed {order : ByteOrder} (alloc : Nat → Bool)
    (delivered : List Msg) {c : Assembly}
    {garbage bytes : List UInt8} {frames : List Msg} {buffers : List Buffer}
    {cond : Prop} (h : Preceded order garbage frames bytes (payloadOf buffers))
    (hwf : ∀ f ∈ frames, WellFormed f) (hc : AtRest order c) (hdel : c.delivered = delivered)
    (hrec : bytes.length ≤ garbage.length →
      (Delivers alloc c buffers (delivered ++ frames) ↔ cond)) :
    Finishes alloc c buffers (delivered ++ frames) ↔ bytes.length ≤ garbage.length ∧ cond := by
  have hsize : c.m_stream.m_is.m_size = 0 := by rw [hc.inv.size_eq, hc.empty, List.length_nil]
  by_cases hlen : bytes.length ≤ garbage.length
  · rw [finishes_of_ends (LoopStep.ends_of_done (assembleStep_empty hsize)), hrec hlen]
    exact ⟨fun hcond => ⟨hlen, hcond⟩, And.right⟩
  · refine iff_of_false (h.not_finishes hwf hdel ?_) fun hcond => hlen hcond.1
    rw [hsize]
    omega

private theorem resyncCuts_found {order : ByteOrder} {frames : List Msg} {garbage : List UInt8}
    {buffer : Buffer} {buffers : List Buffer}
    (hseen : MagicSeen garbage buffer.m_bytes.length) :
    ResyncCuts order frames garbage (buffer :: buffers) ↔
      CleanCut order frames (buffer.m_bytes.length - garbage.length) ∧
        SyncCuts order frames (buffer.m_bytes.length - garbage.length) buffers := by
  unfold ResyncCuts
  have hlen := hseen.1
  refine ⟨?_, fun hcuts => ⟨by omega, .inl ⟨hseen, hcuts⟩⟩⟩
  rintro ⟨-, ⟨-, hcuts⟩ | ⟨hle, -⟩⟩
  · exact hcuts
  · omega

private theorem resyncCuts_missed {order : ByteOrder} {frames : List Msg} {garbage : List UInt8}
    {buffer : Buffer} {buffers : List Buffer} (hlen : 8 ≤ buffer.m_bytes.length)
    (hmissed : ¬ MagicSeen garbage buffer.m_bytes.length) :
    ResyncCuts order frames garbage (buffer :: buffers) ↔
      buffer.m_bytes.length ≤ garbage.length ∧
        (∀ k < buffer.m_bytes.length, ¬ buffer.m_bytes.drop k <+: COMMUTIL_MSG_MAGIC) ∧
        ResyncCuts order frames (garbage.drop buffer.m_bytes.length) buffers := by
  conv_lhs => unfold ResyncCuts
  refine ⟨?_, fun hcuts => ⟨hlen, .inr hcuts⟩⟩
  rintro ⟨-, ⟨hfound, -⟩ | hcuts⟩
  · exact absurd hfound hmissed
  · exact hcuts

/-- A connection at rest to which a buffer has been appended. -/
structure Loaded (order : ByteOrder) (buffer : Buffer) (c : Assembly) : Prop where
  inv : c.m_stream.m_is.Inv
  byteOrder_eq : c.m_stream.m_is.m_byteOrder = order
  unread_eq : c.m_stream.m_is.unread = buffer.m_bytes
  nodes_eq : ∃ addr, c.m_stream.m_is.m_nodes = [⟨addr, buffer⟩]

namespace Loaded

variable {order : ByteOrder} {buffer : Buffer} {c : Assembly} {garbage : List UInt8}
  {frames : List Msg} {buffers : List Buffer} {alloc : Nat → Bool}

/-- The search finds the magic word: from here on the connection is in sync. -/
private theorem found_iff (h : Loaded order buffer c) (hstate : c.m_stream.m_state = .resync)
    (hpre : Preceded order garbage frames buffer.m_bytes (payloadOf buffers))
    (hwf : ∀ f ∈ frames, WellFormed f) (hne : ∀ b ∈ buffers, b.m_bytes ≠ [])
    (hseen : MagicSeen garbage buffer.m_bytes.length) :
    Finishes alloc c buffers (c.delivered ++ frames) ↔
      AllocsSucceed alloc c frames ∧ ResyncCuts order frames garbage (buffer :: buffers) := by
  have hroom := hseen.1
  have hlen : c.m_stream.m_is.unread.length = buffer.m_bytes.length := by rw [h.unread_eq]
  obtain ⟨addr, hnodes⟩ := h.nodes_eq
  obtain ⟨is, hcons, hstep⟩ := resync_pass_found alloc h.inv hstate hnodes (by omega)
    (hpre.found hseen)
  rw [hlen, Nat.min_eq_right (by omega)] at hcons
  have hunread : is.unread = buffer.m_bytes.drop garbage.length := by
    rw [hcons.unread_eq, h.unread_eq]
  have hsync : InSync order { c with m_stream := ⟨is, c.m_stream.m_msgHeader, .waitingHeader⟩ }
      frames (payloadOf buffers) := by
    refine ⟨hcons.inv, hcons.byteOrder_eq.trans h.byteOrder_eq, hwf, ?_, .inl rfl⟩
    show wire order frames = is.unread ++ payloadOf buffers
    rw [hunread, ← List.drop_append_of_le_length (by omega), hpre.bytes_eq, List.drop_left]
  have hiff := hsync.finishes_iff alloc hne
  have hlen' : is.unread.length = buffer.m_bytes.length - garbage.length := by
    rw [hunread, List.length_drop]
  rw [finishes_of_visits (.pass hstep (.refl _)), resyncCuts_found hseen, ← hlen']
  exact hiff

/-- The search does not see the magic word: a pass keeps what may be the beginning of one. -/
private theorem pass_missed (h : Loaded order buffer c) (hstate : c.m_stream.m_state = .resync)
    (hpre : Preceded order garbage frames buffer.m_bytes (payloadOf buffers))
    (hlong : 8 ≤ buffer.m_bytes.length)
    (hmissed : ¬ MagicSeen garbage buffer.m_bytes.length) (alloc : Nat → Bool) :
    ∃ o is, is.Inv ∧ is.m_byteOrder = order ∧ is.unread = buffer.m_bytes.drop o ∧
      is.m_nodes <:+ c.m_stream.m_is.m_nodes ∧
      assembleStep alloc c =
        .next { c with m_stream := ⟨is, c.m_stream.m_msgHeader, .resync⟩ } ∧
      o ≤ buffer.m_bytes.length ∧ buffer.m_bytes.drop o <+: COMMUTIL_MSG_MAGIC ∧
      ∀ k < o, ¬ buffer.m_bytes.drop k <+: COMMUTIL_MSG_MAGIC := by
  have hlen : c.m_stream.m_is.unread.length = buffer.m_bytes.length := by rw [h.unread_eq]
  obtain ⟨addr, hnodes⟩ := h.nodes_eq
  obtain ⟨o, is, hcons, hstep, hlow, hhigh, hstarts, hleast⟩ := resync_pass_missed alloc h.inv
    hstate hnodes (by omega) hlong (hpre.missed hmissed)
  change buffer.m_bytes.length - 8 ≤ o at hlow
  change o ≤ buffer.m_bytes.length at hhigh
  rw [hlen, Nat.min_eq_right hhigh] at hcons
  refine ⟨o, is, hcons.inv, hcons.byteOrder_eq.trans h.byteOrder_eq, ?_, hcons.suffix, hstep,
    hhigh, hstarts, fun k hk hkpre => ?_⟩
  · rw [hcons.unread_eq, h.unread_eq]
  · -- what begins the magic word is not longer than it
    have hle := hkpre.length_le
    rw [List.length_drop] at hle
    change buffer.m_bytes.length - k ≤ 8 at hle
    exact hleast k (by show buffer.m_bytes.length - 8 ≤ k; omega) hk hkpre

/-- A magic word that the search has kept is skipped into by the next pass. -/
private theorem kept_magic_lost {is : SegmentedInputStream} {header : MsgHeader} {o : Nat}
    (h : Loaded order buffer c)
    (hpre : Preceded order garbage frames buffer.m_bytes (payloadOf buffers))
    (hwf : ∀ f ∈ frames, WellFormed f) (hmissed : ¬ MagicSeen garbage buffer.m_bytes.length)
    (hinv : is.Inv) (hunread : is.unread = buffer.m_bytes.drop o)
    (hsuffix : is.m_nodes <:+ c.m_stream.m_is.m_nodes)
    (hstarts : buffer.m_bytes.drop o <+: COMMUTIL_MSG_MAGIC)
    (heq : buffer.m_bytes.length - o = 8) :
    ¬ Finishes alloc { c with m_stream := ⟨is, header, .resync⟩ } buffers
      (c.delivered ++ frames) := by
  have hlen : is.unread.length = 8 := by rw [hunread, List.length_drop, heq]
  have hmagic : buffer.m_bytes.drop o = COMMUTIL_MSG_MAGIC :=
    hstarts.eq_of_length_le (by rw [List.length_drop, heq]; decide)
  have hafter : garbage.length ≤ o := by
    apply hpre.le_of_occursAt
    exact occursAt_iff_drop.mpr (hmagic ▸ List.prefix_refl _)
  have hpos : 0 < o := by
    apply Nat.pos_of_ne_zero
    rintro rfl
    obtain rfl := List.eq_nil_of_length_eq_zero (Nat.le_zero.mp hafter)
    exact hmissed ⟨by simp only [List.length_nil]; omega, by simp, by omega⟩
  have hnodes : is.m_nodes = c.m_stream.m_is.m_nodes := by
    obtain ⟨addr, hcell⟩ := h.nodes_eq
    obtain ⟨head, rest, hcons⟩ := hinv.exists_cons (List.length_pos_iff.mp (by omega))
    refine hsuffix.eq_of_length_le ?_
    rw [hcell, hcons]
    simp
  obtain ⟨addr, hcell⟩ := h.nodes_eq
  obtain ⟨o₂, is₂, hcons₂, hstep₂, hlow₂, -⟩ := resync_pass_missed alloc
    (a := { c with m_stream := ⟨is, header, .resync⟩ }) hinv rfl (hnodes.trans hcell)
    (by show 8 ≤ is.unread.length; omega) (by show 8 ≤ buffer.m_bytes.length; omega)
    (hpre.missed hmissed)
  change buffer.m_bytes.length - 8 ≤ o₂ at hlow₂
  refine mt (finishes_of_visits (.pass hstep₂ (.refl _))).mp (hpre.not_finishes hwf rfl ?_)
  have hsize₂ := hcons₂.inv.size_eq
  rw [hcons₂.unread_eq, List.length_drop] at hsize₂
  change is₂.m_size = is.unread.length - min is.unread.length o₂ at hsize₂
  show garbage.length + is₂.m_size < buffer.m_bytes.length
  omega

end Loaded

/-- A connection that resynchronises spins on fewer bytes than a magic word has. -/
private theorem not_finishes_of_few {alloc : Nat → Bool} {c : Assembly} {buffers : List Buffer}
    {target : List Msg} (hstate : c.m_stream.m_state = .resync) (hinv : c.m_stream.m_is.Inv)
    (hpos : 0 < c.m_stream.m_is.unread.length) (hfew : c.m_stream.m_is.unread.length < 8) :
    ¬ Finishes alloc c buffers target := by
  rw [← hinv.size_eq] at hpos hfew
  exact not_finishes_of_diverges (LoopStep.diverges_of_fixpoint
    (assembleStep_resync_short hstate hpos hfew))

/-- **Exact recovery while searching**: a connection in `MS_RESYNC` delivers the frames behind
    the garbage if and only if the allocations succeed and the buffers are cut as `ResyncCuts`
    says. -/
theorem AtRest.resync_delivers_iff {order : ByteOrder} {alloc : Nat → Bool} {a : Assembly}
    {garbage : List UInt8} {frames : List Msg} {buffers : List Buffer} (ha : AtRest order a)
    (hstate : a.m_stream.m_state = .resync) (hwf : ∀ f ∈ frames, WellFormed f)
    (hfirst : IsFirstOccurrence COMMUTIL_MSG_MAGIC (garbage ++ wire order frames) garbage.length)
    (hne : ∀ b ∈ buffers, b.m_bytes ≠ [])
    (hbytes : payloadOf buffers = garbage ++ wire order frames) :
    Delivers alloc a buffers (a.delivered ++ frames) ↔
      AllocsSucceed alloc a frames ∧ ResyncCuts order frames garbage buffers := by
  induction buffers generalizing a garbage with
  | nil =>
    have hlen := hfirst.occurs.length_le (by decide)
    rw [← hbytes] at hlen
    exact absurd hlen (Nat.not_le.mpr (Nat.add_pos_right _ (by decide)))
  | cons buffer buffers ih =>
    rw [payloadOf_cons] at hbytes
    have hpre : Preceded order garbage frames buffer.m_bytes (payloadOf buffers) :=
      ⟨hbytes, hfirst⟩
    have hbne := hne buffer List.mem_cons_self
    have hne' : ∀ b ∈ buffers, b.m_bytes ≠ [] := fun b hb => hne b (List.mem_cons_of_mem _ hb)
    have hpos : 0 < buffer.m_bytes.length := List.length_pos_iff.mpr hbne
    obtain ⟨is, -, hinv, horder, hunread, hnodes, hcons⟩ := ha.append hbne
    have hloaded : Loaded order buffer (a.withStream is) := ⟨hinv, horder, hunread, _, hnodes⟩
    rw [hcons]
    rcases Nat.lt_or_ge buffer.m_bytes.length 8 with hshort | hlong
    · -- the buffer is too short to be searched
      rw [← hunread] at hpos hshort
      refine iff_of_false (not_finishes_of_few hstate hinv hpos hshort) fun hcond => ?_
      have hlong := hcond.2.1
      rw [← hunread] at hlong
      omega
    by_cases hseen : MagicSeen garbage buffer.m_bytes.length
    · exact hloaded.found_iff hstate hpre hwf hne' hseen
    obtain ⟨o, is', hinv', horder', hunread', hsuffix, hstep, hhigh, hstarts, hleast⟩ :=
      hloaded.pass_missed hstate hpre hlong hseen alloc
    have hlen' : is'.unread.length = buffer.m_bytes.length - o := by
      rw [hunread', List.length_drop]
    rw [finishes_of_visits (.pass hstep (.refl _)), resyncCuts_missed hlong hseen]
    rcases Nat.lt_or_eq_of_le hhigh with hsome | rfl
    · -- the end of the buffer begins a magic word: the loop waits for it, or skips into it
      refine iff_of_false ?_ fun hcond => hcond.2.2.1 o hsome hstarts
      have hle := hstarts.length_le
      rw [List.length_drop] at hle
      change buffer.m_bytes.length - o ≤ 8 at hle
      rcases Nat.lt_or_eq_of_le hle with hfew | heq
      · exact not_finishes_of_few rfl hinv' (by show 0 < is'.unread.length; omega)
          (by show is'.unread.length < 8; omega)
      · exact hloaded.kept_magic_lost hpre hwf hseen hinv' hunread' hsuffix hstarts heq
    · -- the whole buffer is skipped
      have hrest : AtRest order { a.withStream is with
          m_stream := ⟨is', a.m_stream.m_msgHeader, .resync⟩ } :=
        ⟨hinv', horder', List.eq_nil_of_length_eq_zero (by rw [hlen']; omega)⟩
      have hiff := finishes_swallowed alloc a.delivered hpre hwf hrest rfl
        (fun hle => ih hrest rfl (hpre.drop hle).2 hne' (hpre.drop hle).1)
      refine hiff.trans ⟨?_, ?_⟩
      · rintro ⟨hle, halloc, hcuts⟩
        exact ⟨halloc, hle, hleast, hcuts⟩
      · rintro ⟨halloc, hle, -, hcuts⟩
        exact ⟨hle, halloc, hcuts⟩

/-! ## §4 Garbage in place of a header -/

/-- Where the buffers may end when the garbage is read as a header: the first buffer is all
    garbage, and after 40 bytes nothing or a searchable rest of it is left. -/
def HeaderCuts (order : ByteOrder) (frames : List Msg) (garbage : List UInt8) :
    List Buffer → Prop
  | [] => True
  | buffer :: rest =>
    (buffer.m_bytes.length = 40 ∨ 48 ≤ buffer.m_bytes.length) ∧
      buffer.m_bytes.length ≤ garbage.length ∧
      ResyncCuts order frames (garbage.drop buffer.m_bytes.length) rest

/-- Where the buffers may end, by the state of the connection. -/
def RecoveryCuts (order : ByteOrder) (frames : List Msg) (garbage : List UInt8)
    (buffers : List Buffer) : MsgState → Prop
  | .waitingHeader =>
    if garbage = [] then SyncCuts order frames 0 buffers
    else HeaderCuts order frames garbage buffers
  | .resync => ResyncCuts order frames garbage buffers
  | .waitingBody => False

instance decidableHeaderCuts (order : ByteOrder) (frames : List Msg) (garbage : List UInt8)
    (buffers : List Buffer) : Decidable (HeaderCuts order frames garbage buffers) :=
  match buffers with
  | [] => .isTrue trivial
  | _ :: _ => inferInstanceAs (Decidable ((_ ∨ _) ∧ _ ∧ _))

instance decidableRecoveryCuts (order : ByteOrder) (frames : List Msg) (garbage : List UInt8)
    (buffers : List Buffer) (state : MsgState) :
    Decidable (RecoveryCuts order frames garbage buffers state) :=
  match state with
  | .waitingHeader =>
    inferInstanceAs (Decidable (if garbage = [] then SyncCuts order frames 0 buffers
      else HeaderCuts order frames garbage buffers))
  | .resync => decidableResyncCuts order frames garbage buffers
  | .waitingBody => .isFalse id

private theorem isValid_eq_false {order : ByteOrder} {u : List UInt8}
    (h : ¬ COMMUTIL_MSG_MAGIC <+: u) : (headerAt order u).isValid = false := by
  unfold MsgHeader.isValid
  rw [beq_eq_false_iff_ne]
  intro heq
  apply h
  rw [← heq]
  exact List.take_prefix 8 u

namespace Loaded

variable {order : ByteOrder} {buffer : Buffer} {c : Assembly} {garbage : List UInt8}
  {frames : List Msg} {buffers : List Buffer} {alloc : Nat → Bool}

/-- Forty bytes that are no header are skipped, and the rest is to be searched. -/
private theorem header_skipped (h : Loaded order buffer c)
    (hstate : c.m_stream.m_state = .waitingHeader)
    (hpre : Preceded order garbage frames buffer.m_bytes (payloadOf buffers))
    (hgarbage : garbage ≠ []) (hlong : 40 ≤ buffer.m_bytes.length) (alloc : Nat → Bool) :
    ∃ is header, assembleStep alloc c = .next { c with m_stream := ⟨is, header, .resync⟩ } ∧
      is.Inv ∧ is.m_byteOrder = order ∧ is.unread = buffer.m_bytes.drop 40 ∧
      is.m_nodes <:+ c.m_stream.m_is.m_nodes := by
  have hlen : c.m_stream.m_is.unread.length = buffer.m_bytes.length := by rw [h.unread_eq]
  have hinvalid :
      (headerAt c.m_stream.m_is.m_byteOrder c.m_stream.m_is.unread).isValid = false := by
    -- the first magic word comes after the garbage
    apply isValid_eq_false
    rw [h.unread_eq]
    intro hmagic
    have hle := hpre.le_of_occursAt (k := 0) (occursAt_iff_drop.mpr (by simpa using hmagic))
    exact hgarbage (List.eq_nil_of_length_eq_zero (Nat.le_zero.mp hle))
  obtain ⟨is, hcons, hstep⟩ :=
    assembleStep_header_invalid alloc hstate h.inv (by omega) hinvalid
  refine ⟨is, _, hstep, hcons.inv, hcons.byteOrder_eq.trans h.byteOrder_eq, ?_, hcons.suffix⟩
  rw [hcons.unread_eq, h.unread_eq]

section Skipped

variable {is : SegmentedInputStream} {header : MsgHeader} (h : Loaded order buffer c)
  (hpre : Preceded order garbage frames buffer.m_bytes (payloadOf buffers)) (hinv : is.Inv)
  (hunread : is.unread = buffer.m_bytes.drop 40)
  (hsuffix : is.m_nodes <:+ c.m_stream.m_is.m_nodes) (hmany : 48 ≤ buffer.m_bytes.length)

include h hinv hunread hsuffix hmany in
/-- The segment that is searched is still the whole buffer. -/
private theorem skipped_nodes : ∃ addr, is.m_nodes = [⟨addr, buffer⟩] := by
  obtain ⟨addr, hcell⟩ := h.nodes_eq
  have hpos : 0 < is.unread.length := by
    rw [hunread, List.length_drop]
    omega
  obtain ⟨head, rest, hcons⟩ := hinv.exists_cons (List.length_pos_iff.mp hpos)
  refine ⟨addr, ?_⟩
  rw [hcell] at hsuffix
  refine hsuffix.eq_of_length_le ?_
  rw [hcons]
  simp

include h hpre hinv hunread hsuffix hmany

/-- The magic word is found, but the 40 bytes skipped before are not counted: part of the frame
    is skipped. -/
private theorem found_after_skip (hwf : ∀ f ∈ frames, WellFormed f)
    (hseen : MagicSeen garbage buffer.m_bytes.length) :
    ¬ Finishes alloc { c with m_stream := ⟨is, header, .resync⟩ } buffers
      (c.delivered ++ frames) := by
  have hroom := hseen.1
  have hlen : is.unread.length = buffer.m_bytes.length - 40 := by
    rw [hunread, List.length_drop]
  obtain ⟨addr, hnodes⟩ := h.skipped_nodes hinv hunread hsuffix hmany
  obtain ⟨is₂, hcons, hstep⟩ := resync_pass_found alloc
    (a := { c with m_stream := ⟨is, header, .resync⟩ }) hinv rfl hnodes
    (by show 8 ≤ is.unread.length; omega) (hpre.found hseen)
  refine mt (finishes_of_visits (.pass hstep (.refl _))).mp (hpre.not_finishes hwf rfl ?_)
  have hsize := hcons.inv.size_eq
  rw [hcons.unread_eq, List.length_drop] at hsize
  change is₂.m_size = is.unread.length - min is.unread.length garbage.length at hsize
  show garbage.length + is₂.m_size < buffer.m_bytes.length
  omega

/-- The magic word is not found: the search skips more than is left of the buffer. -/
private theorem missed_after_skip (horder : is.m_byteOrder = order)
    (hmissed : ¬ MagicSeen garbage buffer.m_bytes.length) (alloc : Nat → Bool)
    (header : MsgHeader) :
    ∃ is₂, assembleStep alloc { c with m_stream := ⟨is, header, .resync⟩ } =
        .next { c with m_stream := ⟨is₂, header, .resync⟩ } ∧
      AtRest order { c with m_stream := ⟨is₂, header, .resync⟩ } := by
  have hlen : is.unread.length = buffer.m_bytes.length - 40 := by
    rw [hunread, List.length_drop]
  obtain ⟨addr, hnodes⟩ := h.skipped_nodes hinv hunread hsuffix hmany
  obtain ⟨o, is₂, hcons, hstep, hlow, -⟩ := resync_pass_missed alloc
    (a := { c with m_stream := ⟨is, header, .resync⟩ }) hinv rfl hnodes
    (by show 8 ≤ is.unread.length; omega) (Nat.le_trans (by decide) hmany)
    (hpre.missed hmissed)
  change buffer.m_bytes.length - 8 ≤ o at hlow
  refine ⟨is₂, hstep, hcons.inv, hcons.byteOrder_eq.trans horder, ?_⟩
  apply List.eq_nil_of_length_eq_zero
  show is₂.unread.length = 0
  rw [hcons.unread_eq, List.length_drop]
  show is.unread.length - min is.unread.length o = 0
  omega

end Skipped

end Loaded

/-- **Exact recovery from garbage in place of a header**: a connection in `MS_WAITING_HEADER`
    skips 40 bytes and then searches, but the search starts at the beginning of the buffer. -/
theorem AtRest.header_delivers_iff {order : ByteOrder} {alloc : Nat → Bool} {a : Assembly}
    {garbage : List UInt8} {frames : List Msg} {buffers : List Buffer} (ha : AtRest order a)
    (hstate : a.m_stream.m_state = .waitingHeader) (hwf : ∀ f ∈ frames, WellFormed f)
    (hfirst : IsFirstOccurrence COMMUTIL_MSG_MAGIC (garbage ++ wire order frames) garbage.length)
    (hne : ∀ b ∈ buffers, b.m_bytes ≠ [])
    (hbytes : payloadOf buffers = garbage ++ wire order frames) (hgarbage : garbage ≠ []) :
    Delivers alloc a buffers (a.delivered ++ frames) ↔
      AllocsSucceed alloc a frames ∧ HeaderCuts order frames garbage buffers := by
  cases buffers with
  | nil => exact absurd (List.append_eq_nil_iff.mp hbytes.symm).1 hgarbage
  | cons buffer buffers =>
    rw [payloadOf_cons] at hbytes
    have hpre : Preceded order garbage frames buffer.m_bytes (payloadOf buffers) :=
      ⟨hbytes, hfirst⟩
    have hbne := hne buffer List.mem_cons_self
    have hne' : ∀ b ∈ buffers, b.m_bytes ≠ [] := fun b hb => hne b (List.mem_cons_of_mem _ hb)
    obtain ⟨is, -, hinv, horder, hunread, hnodes, hcons⟩ := ha.append hbne
    have hloaded : Loaded order buffer (a.withStream is) := ⟨hinv, horder, hunread, _, hnodes⟩
    have hpos : 0 < buffer.m_bytes.length := List.length_pos_iff.mpr hbne
    rw [hcons]
    rcases Nat.lt_or_ge buffer.m_bytes.length 40 with hshort | hlong
    · -- part of a header: the loop waits for the rest of it
      have hsize : is.m_size = buffer.m_bytes.length := by rw [hinv.size_eq, hunread]
      refine iff_of_false (not_finishes_of_diverges (LoopStep.diverges_of_fixpoint
        (assembleStep_header_short (a := a.withStream is) hstate ?_ ?_))) fun hcond => ?_
      · show 0 < is.m_size
        omega
      · show is.m_size < 40
        omega
      · have := hcond.2.1
        omega
    obtain ⟨is₁, header, hstep₁, hinv₁, horder₁, hunread₁, hsuffix₁⟩ :=
      hloaded.header_skipped hstate hpre hgarbage hlong alloc
    have hlen₁ : is₁.unread.length = buffer.m_bytes.length - 40 := by
      rw [hunread₁, List.length_drop]
    rw [finishes_of_visits (.pass hstep₁ (.refl _))]
    -- what follows once the buffer is swallowed
    have hswallowed : ∀ (is₂ : SegmentedInputStream),
        AtRest order { a.withStream is with m_stream := ⟨is₂, header, .resync⟩ } →
        (Finishes alloc { a.withStream is with m_stream := ⟨is₂, header, .resync⟩ } buffers
            (a.delivered ++ frames) ↔
          buffer.m_bytes.length ≤ garbage.length ∧ AllocsSucceed alloc a frames ∧
            ResyncCuts order frames (garbage.drop buffer.m_bytes.length) buffers) := by
      intro is₂ hrest
      exact finishes_swallowed alloc a.delivered hpre hwf hrest rfl fun hle =>
        hrest.resync_delivers_iff rfl hwf (hpre.drop hle).2 hne' (hpre.drop hle).1
    rcases Nat.lt_or_ge (buffer.m_bytes.length - 40) 8 with hfew | hmany
    · rcases Nat.eq_zero_or_pos (buffer.m_bytes.length - 40) with hzero | hsome
      · -- exactly the bytes of a header
        have hrest : AtRest order { a.withStream is with m_stream := ⟨is₁, header, .resync⟩ } :=
          ⟨hinv₁, horder₁, List.eq_nil_of_length_eq_zero (hlen₁.trans hzero)⟩
        refine (hswallowed is₁ hrest).trans ⟨?_, ?_⟩
        · rintro ⟨hle, halloc, hcuts⟩
          exact ⟨halloc, .inl (by omega), hle, hcuts⟩
        · rintro ⟨halloc, -, hle, hcuts⟩
          exact ⟨hle, halloc, hcuts⟩
      · -- too few bytes are left for a magic word
        refine iff_of_false (not_finishes_of_few rfl hinv₁ ?_ ?_) fun hcond => ?_
        · show 0 < is₁.unread.length
          omega
        · show is₁.unread.length < 8
          omega
        · have := hcond.2.1
          omega
    have hmany' : 48 ≤ buffer.m_bytes.length := by omega
    by_cases hseen : MagicSeen garbage buffer.m_bytes.length
    · -- the buffer is not all garbage
      refine iff_of_false
        (hloaded.found_after_skip hpre hinv₁ hunread₁ hsuffix₁ hmany' hwf hseen) fun hcond => ?_
      have hroom := hseen.1
      have := hcond.2.2.1
      omega
    · obtain ⟨is₂, hstep₂, hrest⟩ := hloaded.missed_after_skip hpre hinv₁ hunread₁ hsuffix₁
        hmany' horder₁ hseen alloc header
      refine (finishes_of_visits (.pass hstep₂ (.refl _))).trans
        ((hswallowed is₂ hrest).trans ⟨?_, ?_⟩)
      · rintro ⟨hle, halloc, hcuts⟩
        exact ⟨halloc, .inr (by omega), hle, hcuts⟩
      · rintro ⟨halloc, -, hle, hcuts⟩
        exact ⟨hle, halloc, hcuts⟩

/-! ## §5 Recovery -/

/-- **Resynchronisation, exactly**: a connection at rest that waits for a header or
    resynchronises, and receives garbage followed by frames, delivers these frames and nothing
    else if and only if the message allocations succeed and no buffer is cut where
    `RecoveryCuts` forbids it.  The `int`s of the search are to stay in their range. -/
theorem resync_recovers_iff (order : ByteOrder) (alloc : Nat → Bool) (a : Assembly)
    (ha : AtRest order a)
    (hstate : a.m_stream.m_state = .waitingHeader ∨ a.m_stream.m_state = .resync)
    (garbage : List UInt8) (frames : List Msg) (hwf : ∀ f ∈ frames, WellFormed f)
    (hfirst : IsFirstOccurrence COMMUTIL_MSG_MAGIC (garbage ++ wire order frames) garbage.length)
    (buffers : List Buffer) (hne : ∀ b ∈ buffers, b.m_bytes ≠ [])
    (_hindex : ∀ b ∈ buffers,
      Common.IndexInRange b.m_bytes.length COMMUTIL_MSG_MAGIC_SIZE)
    (hbytes : payloadOf buffers = garbage ++ wire order frames) :
    Delivers alloc a buffers (a.delivered ++ frames) ↔
      AllocsSucceed alloc a frames ∧
        RecoveryCuts order frames garbage buffers a.m_stream.m_state := by
  rcases hstate with hstate | hstate
  · rw [hstate]
    dsimp only [RecoveryCuts]
    split
    · -- no garbage: the connection is in sync
      rename_i hnil
      rw [hnil, List.nil_append] at hbytes
      have hsync : InSync order a frames (payloadOf buffers) :=
        ⟨ha.inv, ha.byteOrder_eq, hwf, by rw [hbytes, ha.empty, List.nil_append], .inl hstate⟩
      have hzero : a.m_stream.m_is.m_size = 0 := by rw [ha.inv.size_eq, ha.empty, List.length_nil]
      have hiff := hsync.finishes_iff alloc hne
      rw [finishes_of_ends (LoopStep.ends_of_done (assembleStep_empty hzero)), ha.empty] at hiff
      have hclean : CleanCut order frames 0 := .inl (leftover_of_settled (framesWithin_zero hwf))
      rw [hiff]
      exact ⟨fun h => ⟨h.1, h.2.2⟩, fun h => ⟨h.1, hclean, h.2⟩⟩
    · rename_i hgarbage
      exact ha.header_delivers_iff hstate hwf hfirst hne hbytes hgarbage
  · rw [hstate]
    exact ha.resync_delivers_iff hstate hwf hfirst hne hbytes

private theorem first_after_one_byte {x : UInt8}
    (h : ¬ COMMUTIL_MSG_MAGIC <+: [x] ++ wire .hostOrder [⟨.mk' 41 7 0 5 3, [9]⟩]) :
    IsFirstOccurrence COMMUTIL_MSG_MAGIC ([x] ++ wire .hostOrder [⟨.mk' 41 7 0 5 3, [9]⟩]) 1 := by
  have hmagic : COMMUTIL_MSG_MAGIC <+: wire .hostOrder [⟨.mk' 41 7 0 5 3, [9]⟩] := by decide
  refine ⟨occursAt_iff_drop.mpr hmagic, fun k hk hocc => ?_⟩
  obtain rfl : k = 0 := by omega
  exact h (by simpa using occursAt_iff_drop.mp hocc)

private theorem connected_atRest (order : ByteOrder) : AtRest order (connected order 0) :=
  ⟨new_inv order 0 [], rfl, rfl⟩

/-- One byte of garbage that is not zero, then a frame, in one buffer. -/
theorem resync_recovers_after_one_byte :
    Delivers (fun _ => true) (connected .hostOrder 0)
      [⟨100, [1] ++ wire .hostOrder [⟨.mk' 41 7 0 5 3, [9]⟩], by decide⟩]
      [⟨.mk' 41 7 0 5 3, [9]⟩] :=
  (resync_recovers_iff .hostOrder (fun _ => true) (connected .hostOrder 0)
    (connected_atRest .hostOrder) (.inr rfl) [1] [⟨.mk' 41 7 0 5 3, [9]⟩] (by decide)
    (first_after_one_byte (by decide))
    [⟨100, [1] ++ wire .hostOrder [⟨.mk' 41 7 0 5 3, [9]⟩], by decide⟩] (by decide)
    (by decide) (by decide)).mpr ⟨fun _ _ => rfl, by decide⟩

/-- A stale offset need not lose a frame: the search drops a shorter segment, and the offset with
    it. -/
example :
    (receiveAll? (fun _ => true) 20
        { connected .hostOrder 0 with
          m_stream := ⟨⟨.hostOrder, [], none, 41, 0, 0, []⟩, .default, .resync⟩ }
        [⟨100, List.replicate 20 1, by decide⟩,
          ⟨200, wire .hostOrder [⟨.mk' 41 7 0 5 3, [9]⟩], by decide⟩]).map Assembly.delivered =
      some [⟨.mk' 41 7 0 5 3, [9]⟩] := by
  decide +kernel

/-- A zero byte ends the search: the frame behind it, in the same buffer, is lost. -/
theorem resync_zero_byte_loses_frame :
    (connected .hostOrder 0).m_stream.m_state = .resync ∧
      (connected .hostOrder 0).m_stream.m_is.unread = [] ∧
      (∀ f ∈ [(⟨.mk' 41 7 0 5 3, [9]⟩ : Msg)], WellFormed f) ∧
      IsFirstOccurrence COMMUTIL_MSG_MAGIC ([0] ++ wire .hostOrder [⟨.mk' 41 7 0 5 3, [9]⟩]) 1 ∧
      ¬ Delivers (fun _ => true) (connected .hostOrder 0)
        [⟨100, [0] ++ wire .hostOrder [⟨.mk' 41 7 0 5 3, [9]⟩], by decide⟩]
        [⟨.mk' 41 7 0 5 3, [9]⟩] := by
  have hfirst : IsFirstOccurrence COMMUTIL_MSG_MAGIC
      ([0] ++ wire .hostOrder [⟨.mk' 41 7 0 5 3, [9]⟩]) 1 := first_after_one_byte (by decide)
  refine ⟨rfl, rfl, by decide, hfirst, fun hdel => ?_⟩
  have hiff := @AtRest.resync_delivers_iff .hostOrder (fun _ => true) (connected .hostOrder 0) [0]
    [⟨.mk' 41 7 0 5 3, [9]⟩]
    [⟨100, [0] ++ wire .hostOrder [⟨.mk' 41 7 0 5 3, [9]⟩], by decide⟩]
    (connected_atRest .hostOrder) rfl (by decide) hfirst (by decide) (by decide)
  exact absurd (hiff.mp hdel).2 (by decide)

end Commutil.Framing
