import Commutil.Framing.MsgAssembler

/-!
# When the Assembly Loop Ends

Of the three handlers of the loop only `onWaitBody` can leave it.  `onWaitHeader`
and `onResync` return nothing, so a pass of theirs that finds too few bytes is
followed by the same pass again.

`Stalls` names these states.  Every other pass lowers `measure`, so the loop of
`onBytesReceived` ends exactly if it meets neither a stalled state nor a fault,
and runs forever exactly if it meets a stalled one, from any state whatsoever.
`volume` is what a pass cannot increase: the bytes delivered and unread.
-/

namespace Commutil.Framing.Assembly

open Commutil.Io Commutil.Library SegmentedInputStream

/-! ## §1 Stalled states -/

/-- The loop is entered and the pass changes nothing: part of a header, part of a magic word,
    or a first segment too short to search. -/
def Stalls (a : Assembly) : Prop :=
  0 < a.m_stream.m_is.m_size ∧
    (a.m_stream.m_state = .waitingHeader ∧ a.m_stream.m_is.m_size < 40 ∨
      a.m_stream.m_state = .resync ∧
        (a.m_stream.m_is.m_size < 8 ∨ SearchStalls COMMUTIL_MSG_MAGIC a.m_stream.m_is))

theorem assembleStep_of_stalls {alloc : Nat → Bool} {a : Assembly} (h : Stalls a) :
    assembleStep alloc a = .next a := by
  obtain ⟨hpos, ⟨hstate, hlt⟩ | ⟨hstate, hshort⟩⟩ := h
  · exact assembleStep_header_short hstate hpos hlt
  · rcases Nat.lt_or_ge a.m_stream.m_is.m_size 8 with hlt | hge
    · exact assembleStep_resync_short hstate hpos hlt
    · -- enough bytes, but the search gives up before looking
      have hstall := hshort.resolve_left (by omega)
      have hstep := (assembleStep_resync_search alloc hstate hge
        (searchBytes_of_stalls hstall)).2 rfl
      rw [hstep, ← hstate]

/-! ## §2 Every other pass makes progress -/

/-- The order in which the states can follow each other without taking bytes. -/
def rank : MsgState → Nat
  | .resync => 2
  | .waitingHeader => 1
  | .waitingBody => 0

/-- Unread bytes and segments first, then the state. -/
def measure (a : Assembly) : Nat := 3 * a.m_stream.m_is.weight + rank a.m_stream.m_state

/-- The bytes of the messages delivered. -/
def deliveredBytes (msgs : List Msg) : Nat := (msgs.map fun m => 40 + m.m_payload.length).sum

/-- The bytes delivered and unread. -/
def volume (a : Assembly) : Nat := deliveredBytes a.delivered + a.m_stream.m_is.m_size

/-- What a pass can do to a state, whatever the state. -/
structure PassBounds (a b : Assembly) : Prop where
  volume_le : b.volume ≤ a.volume
  byteOrder_eq : b.m_stream.m_is.m_byteOrder = a.m_stream.m_is.m_byteOrder

theorem rank_le (s : MsgState) : rank s ≤ 2 := by cases s <;> decide

private theorem bounds_of_size_le {a b : Assembly} (hdel : b.delivered = a.delivered)
    (hsize : b.m_stream.m_is.m_size ≤ a.m_stream.m_is.m_size)
    (horder : b.m_stream.m_is.m_byteOrder = a.m_stream.m_is.m_byteOrder) : PassBounds a b := by
  refine ⟨?_, horder⟩
  unfold volume
  rw [hdel]
  omega

private theorem measure_lt_of_weight_lt {a b : Assembly}
    (h : b.m_stream.m_is.weight < a.m_stream.m_is.weight) : b.measure < a.measure := by
  have hb := rank_le b.m_stream.m_state
  unfold measure
  omega

private theorem onWaitHeader_general {a : Assembly} {ms : MsgStream}
    (hstate : a.m_stream.m_state = .waitingHeader) (hpos : 0 < a.m_stream.m_is.m_size)
    (h : onWaitHeader a.m_stream = .ok ms) :
    ms.m_is.m_size ≤ a.m_stream.m_is.m_size ∧
      ms.m_is.m_byteOrder = a.m_stream.m_is.m_byteOrder ∧
      (40 ≤ a.m_stream.m_is.m_size → measure { a with m_stream := ms } < measure a) := by
  unfold onWaitHeader at h
  split at h
  · rename_i hlt
    cases h
    exact ⟨Nat.le_refl _, rfl, fun hge => absurd hlt (Nat.not_lt.mpr hge)⟩
  split at h
  · cases h
  · cases h
    exact ⟨Nat.zero_le _, rfl, fun _ => measure_lt_of_weight_lt (reset_weight_lt hpos)⟩
  dsimp only at h
  split at h
  · -- a valid header: the state moves on with the same stream
    cases h
    refine ⟨Nat.le_refl _, rfl, fun _ => ?_⟩
    simp only [measure, rank, hstate]
    omega
  split at h
  · cases h
  rename_i rc n is hskip
  obtain ⟨hrc, hsize, -, horder⟩ := skipBytes_general hskip
  have hweight := skipBytes_weight hskip
  subst hrc
  rw [if_neg (by simp)] at h
  cases h
  refine ⟨by dsimp only; omega, horder, fun hge => measure_lt_of_weight_lt ?_⟩
  unfold sizeofMsgHeader at hweight
  dsimp only
  omega

private theorem onResync_general {a : Assembly} {ms : MsgStream}
    (hstate : a.m_stream.m_state = .resync) (hpos : 0 < a.m_stream.m_is.m_size)
    (h : onResync a.m_stream = .ok ms) :
    ms.m_is.m_size ≤ a.m_stream.m_is.m_size ∧
      ms.m_is.m_byteOrder = a.m_stream.m_is.m_byteOrder ∧
      (8 ≤ a.m_stream.m_is.m_size → ¬ SearchStalls COMMUTIL_MSG_MAGIC a.m_stream.m_is →
        measure { a with m_stream := ms } < measure a) := by
  unfold onResync at h
  split at h
  · rename_i hlt
    cases h
    exact ⟨Nat.le_refl _, rfl, fun hge => absurd hlt (Nat.not_lt.mpr hge)⟩
  split at h
  · cases h
  rename_i rc is hsearch
  have hout := searchBytes_progress magic_zero_free hpos hsearch
  have hle := hout.size_le
  split at h
  · -- not found: the search made progress, or it stalled
    rename_i hrc
    cases h
    refine ⟨hle, hout.byteOrder_eq, fun _ hstall => measure_lt_of_weight_lt ?_⟩
    rcases hout.progress (by rw [hrc]; simp) with hlt | ⟨-, hst⟩
    · exact hlt
    · exact absurd hst hstall
  split at h
  · rename_i hrc
    cases h
    refine ⟨Nat.zero_le _, hout.byteOrder_eq, fun _ hstall => measure_lt_of_weight_lt ?_⟩
    have hw := hout.weight_le
    have hreset : is.reset.weight ≤ is.weight := by
      simp only [weight, reset, List.length_nil]
      omega
    rcases hout.progress hrc with hlt | ⟨-, hst⟩
    · exact Nat.lt_of_le_of_lt hreset hlt
    · exact absurd hst hstall
  · cases h
    refine ⟨hle, hout.byteOrder_eq, fun _ _ => ?_⟩
    have hw := hout.weight_le
    simp only [measure, rank, hstate]
    omega

private theorem onWaitBody_general {alloc : Nat → Bool} {a b : Assembly} {more : Bool}
    (h : onWaitBody alloc a = .ok (more, b)) :
    PassBounds a b ∧ (more = true → b.m_stream.m_is.weight < a.m_stream.m_is.weight) := by
  unfold onWaitBody at h
  dsimp only at h
  split at h
  · cases h
    exact ⟨bounds_of_size_le rfl (Nat.le_refl _) rfl, fun hm => by cases hm⟩
  split at h
  · cases h
  · -- the allocation failed: the bytes are skipped
    split at h
    · cases h
    rename_i rc n is hskip
    obtain ⟨hrc, hsize, -, horder⟩ := skipBytes_general hskip
    subst hrc
    rw [if_neg (by simp)] at h
    cases h
    exact ⟨bounds_of_size_le rfl (by dsimp only; omega) horder, fun hm => by cases hm⟩
  split at h
  · cases h
  · rename_i rc is hdes
    obtain ⟨horder, -, -, -⟩ := Msg.deserialize_general hdes
    cases h
    exact ⟨bounds_of_size_le rfl (Nat.zero_le _) horder, fun hm => by cases hm⟩
  · -- a message: what it takes from the stream it adds to the deliveries
    rename_i msg is hdes
    obtain ⟨horder, -, -, hok⟩ := Msg.deserialize_general hdes
    obtain ⟨hsize, hweight⟩ := hok msg rfl
    cases h
    refine ⟨⟨?_, horder⟩, fun _ => hweight⟩
    simp only [volume, deliveredBytes, List.map_append, List.map_cons, List.map_nil,
      List.sum_append, List.sum_cons, List.sum_nil]
    omega

/-- **What a pass can do in any state**: it never adds to the bytes delivered and unread. -/
theorem assembleStep_bounds {alloc : Nat → Bool} {a b : Assembly}
    (h : assembleStep alloc a = .next b ∨ assembleStep alloc a = .done b) : PassBounds a b := by
  unfold assembleStep at h
  split at h
  · rcases h with h | h
    · cases h
    · cases h
      exact bounds_of_size_le rfl (Nat.le_refl _) rfl
  rename_i hsize
  have hpos : 0 < a.m_stream.m_is.m_size := Nat.pos_of_ne_zero hsize
  cases hstate : a.m_stream.m_state with
  | waitingHeader =>
    simp only [hstate] at h
    cases hhead : onWaitHeader a.m_stream with
    | error fault => simp [hhead, goOn] at h
    | ok ms =>
      simp only [hhead, goOn, reduceCtorEq, or_false, LoopStep.next.injEq] at h
      subst h
      obtain ⟨hle, horder, -⟩ := onWaitHeader_general hstate hpos hhead
      exact bounds_of_size_le rfl hle horder
  | waitingBody =>
    simp only [hstate] at h
    cases hbody : onWaitBody alloc a with
    | error fault => simp [hbody] at h
    | ok r =>
      obtain ⟨more, a'⟩ := r
      have hb : b = a' := by
        cases more <;> simpa [hbody, eq_comm] using h
      subst hb
      exact (onWaitBody_general hbody).1
  | resync =>
    simp only [hstate] at h
    cases hres : onResync a.m_stream with
    | error fault => simp [hres, goOn] at h
    | ok ms =>
      simp only [hres, goOn, reduceCtorEq, or_false, LoopStep.next.injEq] at h
      subst h
      obtain ⟨hle, horder, -⟩ := onResync_general hstate hpos hres
      exact bounds_of_size_le rfl hle horder

/-- **Progress**: a pass that is followed by another one lowers the measure, unless it stalls. -/
theorem assembleStep_progress {alloc : Nat → Bool} (a b : Assembly)
    (h : assembleStep alloc a = .next b) (hstall : ¬ Stalls a) : b.measure < a.measure := by
  unfold assembleStep at h
  split at h
  · cases h
  rename_i hsize
  have hpos : 0 < a.m_stream.m_is.m_size := Nat.pos_of_ne_zero hsize
  cases hstate : a.m_stream.m_state with
  | waitingHeader =>
    simp only [hstate] at h
    cases hhead : onWaitHeader a.m_stream with
    | error fault => simp [hhead, goOn] at h
    | ok ms =>
      simp only [hhead, goOn, LoopStep.next.injEq] at h
      subst h
      -- a whole header is there, or the loop would stall
      apply (onWaitHeader_general hstate hpos hhead).2.2
      apply Nat.le_of_not_lt
      intro hlt
      exact hstall ⟨hpos, .inl ⟨hstate, hlt⟩⟩
  | waitingBody =>
    simp only [hstate] at h
    cases hbody : onWaitBody alloc a with
    | error fault => simp [hbody] at h
    | ok r =>
      obtain ⟨more, a'⟩ := r
      cases more with
      | false => simp [hbody] at h
      | true =>
        simp only [hbody, LoopStep.next.injEq] at h
        subst h
        -- a body was taken from the stream
        exact measure_lt_of_weight_lt ((onWaitBody_general hbody).2 rfl)
  | resync =>
    simp only [hstate] at h
    cases hres : onResync a.m_stream with
    | error fault => simp [hres, goOn] at h
    | ok ms =>
      simp only [hres, goOn, LoopStep.next.injEq] at h
      subst h
      -- a pass of the search consumes bytes unless it stalls
      apply (onResync_general hstate hpos hres).2.2
      · apply Nat.le_of_not_lt
        intro hlt
        exact hstall ⟨hpos, .inr ⟨hstate, .inl hlt⟩⟩
      · intro hst
        exact hstall ⟨hpos, .inr ⟨hstate, .inr hst⟩⟩

/-! ## §3 Termination -/

/-- **When the loop ends**: a call of `onBytesReceived` returns exactly if the append succeeds
    and the loop reaches no stalled and no faulting state, and it runs forever exactly if the
    loop reaches a stalled one. -/
theorem assembly_loop_ends_iff (alloc : Nat → Bool) (a : Assembly) (buffer : Buffer) :
    ((∃ r, OnBytesReceived alloc a buffer r) ↔
      ∃ is, a.m_stream.m_is.appendBuffer buffer = .ok is ∧
        ∀ t, LoopStep.Visits (assembleStep alloc) (a.withStream is) t →
          ¬ Stalls t ∧ ∀ fault, assembleStep alloc t ≠ .fault fault) ∧
    ∀ is, a.m_stream.m_is.appendBuffer buffer = .ok is →
      (LoopStep.Diverges (assembleStep alloc) (a.withStream is) ↔
        ∃ t, LoopStep.Visits (assembleStep alloc) (a.withStream is) t ∧ Stalls t) := by
  have hstuck : ∀ t, Stalls t → assembleStep alloc t = .next t :=
    fun t ht => assembleStep_of_stalls ht
  refine ⟨⟨?_, ?_⟩, ?_⟩
  · rintro ⟨r, is, his, hends⟩
    exact ⟨is, his, (LoopStep.ends_iff_no_stuck assembleStep_progress hstuck _).mp ⟨r, hends⟩⟩
  · rintro ⟨is, his, hall⟩
    obtain ⟨r, hr⟩ := (LoopStep.ends_iff_no_stuck assembleStep_progress hstuck _).mpr hall
    exact ⟨r, is, his, hr⟩
  · intro is _
    exact LoopStep.diverges_iff_stuck assembleStep_progress hstuck _

/-- One byte on a new connection keeps the loop running forever. -/
theorem assembly_loop_one_byte_diverges :
    ∃ is, (new .hostOrder ⟨0, [], [], 0⟩).onConnect.m_stream.m_is.appendBuffer
        ⟨100, [0x43], by decide⟩ = .ok is ∧
      LoopStep.Diverges (assembleStep fun _ => true)
        ((new .hostOrder ⟨0, [], [], 0⟩).onConnect.withStream is) ∧
      ¬ ∃ r, OnBytesReceived (fun _ => true) (new .hostOrder ⟨0, [], [], 0⟩).onConnect
        ⟨100, [0x43], by decide⟩ r := by
  have hdiv : LoopStep.Diverges (assembleStep fun _ => true)
      ((new .hostOrder ⟨0, [], [], 0⟩).onConnect.withStream
        ⟨.hostOrder, [⟨0, ⟨100, [0x43], by decide⟩⟩], some 0, 0, 1, 1, []⟩) := by
    apply LoopStep.diverges_of_fixpoint
    exact assembleStep_resync_short rfl (by decide) (by decide)
  refine ⟨_, rfl, hdiv, ?_⟩
  rintro ⟨r, is, his, hends⟩
  cases his
  exact LoopStep.not_ends_of_diverges hdiv hends

end Commutil.Framing.Assembly
