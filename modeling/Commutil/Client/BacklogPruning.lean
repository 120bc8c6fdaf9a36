import Commutil.Client.BacklogIndices
import Commutil.Library.PartialLoop

/-!
# Pruning the Backlog

`MsgBacklog::pruneBacklog`: while the backlog is larger than its limit, the oldest
request goes.  The loop takes the payload size off the counter, and so does the
removal that it calls.

`Doubled` is the invariant of the counter; it says for which limits the loop does
what it is for.
-/

namespace Commutil.Client

open Commutil.Framing Commutil.Library

/-! ## §1 The loop -/

/-- The state at the head of the loop, and the result. -/
structure PruneState where
  rc : ErrorCode
  m_backlog : MsgBacklog
  pool : MsgRequestPool
  deriving DecidableEq, Repr

/-- A round of the loop of `pruneBacklog`, with the test before it. -/
def pruneStep (maxBacklogSizeBytes : UInt64) (messages : MsgPtr → Option Msg) (s : PruneState) :
    LoopStep PruneState Fault :=
  if s.m_backlog.m_backlogSizeBytes > maxBacklogSizeBytes then
    match s.m_backlog.m_requestSet with
    | [] => .done { s with rc := .internalError }
    | entry :: _ =>
      match s.m_backlog.pruneRound s.pool messages entry with
      | .error fault => .fault fault
      | .ok (rc, pool, b) => .next ⟨if s.rc ≠ .ok then s.rc else rc, b, pool⟩
  else .done s

namespace MsgBacklog

/-- `pruneBacklog` returns with this code, backlog and pool. -/
def PruneReturns (b : MsgBacklog) (pool : MsgRequestPool) (messages : MsgPtr → Option Msg)
    (maxBacklogSizeBytes : UInt64) (result : PruneState) : Prop :=
  LoopStep.Ends (pruneStep maxBacklogSizeBytes messages) ⟨.ok, b, pool⟩ result

end MsgBacklog

/-! ## §2 What pruning is for -/

/-- The sum of the payload sizes. -/
def totalPayload (messages : MsgPtr → Option Msg) (entries : List BacklogEntry) : Nat :=
  (entries.map fun e => payloadSizeOf messages e.m_msg).sum

/-- Of the requests in the order of their times, the first `n` have to go. -/
structure ShortestPrefix (messages : MsgPtr → Option Msg) (limit : UInt64)
    (entries : List BacklogEntry) (n : Nat) : Prop where
  fits : totalPayload messages (entries.drop n) ≤ limit.toNat
  shortest : ∀ k < n, limit.toNat < totalPayload messages (entries.drop k)

/-- What `pruneBacklog` is for: exactly these requests leave the indices and their slots, the
    result is `E_OK`, and the counter is the sum of what is left. -/
structure Pruned (b : MsgBacklog) (pool : MsgRequestPool) (messages : MsgPtr → Option Msg)
    (limit : UInt64) (n : Nat) (result : PruneState) : Prop where
  rc : result.rc = .ok
  shortest : ShortestPrefix messages limit b.m_requestSet n
  set : result.m_backlog.m_requestSet = b.m_requestSet.drop n
  heap : result.m_backlog.m_minHeap.Perm (b.m_requestSet.drop n)
  map : (result.m_backlog.m_requestMap.map Prod.snd).Perm (b.m_requestSet.drop n)
  slots : ∀ i, result.pool.slot i =
    if ∃ e ∈ b.m_requestSet.take n, e.m_request = i then (pool.slot i).clearResponse
    else pool.slot i
  size : result.m_backlog.m_backlogSizeBytes.toNat =
    totalPayload messages result.m_backlog.m_requestSet

/-- `pruneBacklog` ends, and does what it is for. -/
def PrunesExactly (b : MsgBacklog) (pool : MsgRequestPool) (messages : MsgPtr → Option Msg)
    (limit : UInt64) : Prop :=
  ∃ n result, b.PruneReturns pool messages limit result ∧ Pruned b pool messages limit n result

/-! ## §3 The counter -/

/-- The counter `c` where entries of `total` bytes are left of `start` bytes: each byte that left
    was taken off twice, with at most one wrap below zero. -/
def Doubled (start c total : Nat) : Prop :=
  c + start = 2 * total ∨ 2 * total + 2 ^ 64 ≤ c + start

theorem Doubled.first (start : Nat) : Doubled start start start :=
  .inl (Nat.two_mul start).symm

/-- The payload size is taken off by the loop, and again by the removal. -/
theorem Doubled.round {start total total' size : Nat} {c : UInt64} (h : Doubled start c.toNat total)
    (hsize : size < 2 ^ 32) (htotal : total = size + total') :
    Doubled start ((if UInt64.ofNat size > c then 0 else c - .ofNat size) - .ofNat size).toNat
      total' := by
  have hc := c.toNat_lt
  have hnat : (UInt64.ofNat size).toNat = size :=
    UInt64.toNat_ofNat_of_lt' (lt_trans hsize (by decide))
  unfold Doubled at h ⊢
  split
  · rename_i hgt
    have hlt : c.toNat < size := by
      have := UInt64.lt_iff_toNat_lt.mp hgt
      omega
    rw [UInt64.toNat_sub, hnat]
    -- the counter was reset to zero, and wraps
    have hwrap : (2 ^ 64 - size + (0 : UInt64).toNat) % 2 ^ 64 = 2 ^ 64 - size := by
      have hzero : (0 : UInt64).toNat = 0 := rfl
      rw [hzero]
      omega
    rw [hwrap]
    omega
  · rename_i hle
    have hge : size ≤ c.toNat := by
      have := UInt64.le_iff_toNat_le.mp (UInt64.not_lt.mp hle)
      omega
    rw [UInt64.toNat_sub, UInt64.toNat_sub, hnat]
    omega

/-- A counter that is the sum of what is left was not touched. -/
theorem Doubled.exact {start total : Nat} (h : Doubled start total total)
    (hstart : start < 2 ^ 64) :
    total = start := by
  unfold Doubled at h
  omega

section Loop

variable {messages : MsgPtr → Option Msg} {limit : UInt64} {s t : PruneState}

/-- A round without an error takes the oldest request off the set, and its size off the counter
    twice. -/
theorem pruneRound_counter {b b' : MsgBacklog} {pool pool' : MsgRequestPool} {entry : BacklogEntry}
    {start : Nat}
    (h : Doubled start b.m_backlogSizeBytes.toNat (totalPayload messages b.m_requestSet))
    (hround : b.pruneRound pool messages entry = .ok (.ok, pool', b')) :
    Doubled start b'.m_backlogSizeBytes.toNat (totalPayload messages b'.m_requestSet) := by
  unfold MsgBacklog.pruneRound at hround
  split at hround
  · cases hround
  · rename_i header hread
    dsimp only at hround
    split at hround
    · cases hround
    · rename_i rc2 b₂ hremove
      have hresult := Except.ok.inj hround
      simp only [Prod.mk.injEq] at hresult
      obtain ⟨hrc, -, rfl⟩ := hresult
      rcases MsgBacklog.removePendingRequest_cases hremove with ⟨-, msg, hmsg, hremoved⟩ | ⟨hne, -⟩
      -- one subtraction is in the removal, the other one in the loop
      · obtain ⟨e, he, hperm⟩ := hremoved.set
        have hheader : header = msg.m_header := by
          unfold readHeader at hread
          rw [hmsg] at hread
          exact (Except.ok.inj hread).symm
        subst hheader
        have hpayload : payloadSizeOf messages e.m_msg = getPayloadSizeBytes msg.m_header := by
          rw [he, payloadSizeOf_eq hmsg]
        have hlt : getPayloadSizeBytes msg.m_header < 2 ^ 32 := by
          rw [← hpayload]
          exact payloadSizeOf_lt messages e.m_msg
        have htotal : totalPayload messages b.m_requestSet =
            getPayloadSizeBytes msg.m_header + totalPayload messages b₂.m_requestSet := by
          have hsum := (hperm.map fun e => payloadSizeOf messages e.m_msg).sum_eq
          rw [List.map_cons, List.sum_cons, hpayload] at hsum
          exact hsum
        rw [hremoved.size]
        dsimp only
        -- only the size of the message matters from here on
        generalize getPayloadSizeBytes msg.m_header = size at hlt htotal ⊢
        exact h.round hlt htotal
      · -- the removal failed, and so did the round
        split at hrc
        · rename_i hclear
          exact absurd hrc hclear
        · exact absurd hrc hne

theorem pruneStep_counter {start : Nat}
    (h : s.rc = .ok → Doubled start s.m_backlog.m_backlogSizeBytes.toNat
      (totalPayload messages s.m_backlog.m_requestSet))
    (hstep : pruneStep limit messages s = .next t) (hrc : t.rc = .ok) :
    Doubled start t.m_backlog.m_backlogSizeBytes.toNat
      (totalPayload messages t.m_backlog.m_requestSet) := by
  unfold pruneStep at hstep
  split at hstep
  · split at hstep
    · cases hstep
    · rename_i entry rest hset
      split at hstep
      · cases hstep
      · rename_i rc pool b hround
        cases hstep
        dsimp only at hrc ⊢
        by_cases hs : s.rc = .ok
        · rw [if_neg (not_not.mpr hs)] at hrc
          subst hrc
          exact pruneRound_counter (h hs) hround
        · rw [if_pos hs] at hrc
          exact absurd hrc hs
  · cases hstep

theorem pruneStep_done (hstep : pruneStep limit messages s = .done t) (hrc : t.rc = .ok) :
    t = s ∧ s.m_backlog.m_backlogSizeBytes ≤ limit := by
  unfold pruneStep at hstep
  split at hstep
  · split at hstep
    · cases hstep
      cases hrc
    · split at hstep <;> cases hstep
  · rename_i hle
    cases hstep
    exact ⟨rfl, UInt64.not_lt.mp hle⟩

end Loop

/-! ## §4 When pruning is exact -/

section Pruning

variable {b : MsgBacklog} {pool : MsgRequestPool} {messages : MsgPtr → Option Msg}
  {contents : List BacklogEntry} {limit : UInt64}

/-- The counter of a result without an error tells whether anything was pruned. -/
theorem prune_counter (h : Indexed b pool messages contents) {result : PruneState}
    (hends : b.PruneReturns pool messages limit result) (hrc : result.rc = .ok) :
    result.m_backlog.m_backlogSizeBytes ≤ limit ∧
      Doubled (totalPayload messages b.m_requestSet) result.m_backlog.m_backlogSizeBytes.toNat
        (totalPayload messages result.m_backlog.m_requestSet) := by
  have hsize : b.m_backlogSizeBytes.toNat = totalPayload messages b.m_requestSet := by
    rw [h.size]
    exact (h.set.map fun e => payloadSizeOf messages e.m_msg).sum_eq.symm
  obtain ⟨t, hvisits, hdone⟩ := hends.exists_last
  obtain ⟨rfl, hle⟩ := pruneStep_done hdone hrc
  refine ⟨hle, hvisits.invariant (fun s => s.rc = .ok →
      Doubled (totalPayload messages b.m_requestSet)
    s.m_backlog.m_backlogSizeBytes.toNat (totalPayload messages s.m_backlog.m_requestSet))
    (fun s t hs hstep => pruneStep_counter hs hstep) ?_ hrc⟩
  intro _
  dsimp only
  rw [hsize]
  exact Doubled.first _

/-- **Pruning** does what it is for exactly if there is nothing to prune. -/
theorem prunes_exactly_iff (h : Indexed b pool messages contents) :
    PrunesExactly b pool messages limit ↔ b.m_backlogSizeBytes ≤ limit := by
  have hsize : b.m_backlogSizeBytes.toNat = totalPayload messages b.m_requestSet := by
    rw [h.size]
    exact (h.set.map fun e => payloadSizeOf messages e.m_msg).sum_eq.symm
  constructor
  · rintro ⟨n, result, hends, hpruned⟩
    obtain ⟨hle, hcounter⟩ := prune_counter h hends hpruned.rc
    have hlt : totalPayload messages b.m_requestSet < 2 ^ 64 := by
      rw [← hsize]
      exact b.m_backlogSizeBytes.toNat_lt
    rw [hpruned.size] at hcounter
    have hsame := hcounter.exact hlt
    rw [UInt64.le_iff_toNat_le] at hle ⊢
    rwa [hsize, ← hsame, ← hpruned.size]
  · intro hle
    have hdone : pruneStep limit messages ⟨.ok, b, pool⟩ = .done ⟨.ok, b, pool⟩ :=
      if_neg (UInt64.not_lt.mpr hle)
    refine ⟨0, ⟨.ok, b, pool⟩, LoopStep.ends_of_done hdone, rfl, ⟨?_, nofun⟩, rfl,
      h.heap.trans h.set.symm, ?_, ?_, hsize⟩
    · rw [List.drop_zero, ← hsize]
      exact UInt64.le_iff_toNat_le.mp hle
    · have hmap := h.map.map Prod.snd
      rw [List.map_map] at hmap
      exact hmap.trans (by simpa [Function.comp_def] using h.set.symm)
    · intro i
      simp

end Pruning

/-- The backlog of three requests of 10, 20 and 30 bytes. -/
def threeBacklog : MsgBacklog :=
  ⟨60, [(7, ⟨0, 0⟩), (8, ⟨1, 1⟩), (9, ⟨2, 2⟩)], [⟨0, 0⟩, ⟨1, 1⟩, ⟨2, 2⟩],
    [⟨0, 0⟩, ⟨1, 1⟩, ⟨2, 2⟩]⟩

private theorem threeBacklog_indexed :
    Indexed threeBacklog BacklogState.threeSlots BacklogState.threeRequests
      [⟨0, 0⟩, ⟨1, 1⟩, ⟨2, 2⟩] where
  live := by decide
  index_lt := by decide
  slot_id := by decide
  distinct := by decide
  map := .refl _
  set := .refl _
  heap := .refl _
  setOrder := by unfold InOrder; decide
  size := by decide

/-- At its limit, the backlog stays as it is. -/
theorem prunes_exactly_at_limit :
    PrunesExactly threeBacklog BacklogState.threeSlots BacklogState.threeRequests 60 :=
  (prunes_exactly_iff threeBacklog_indexed).mpr (by decide)

/-- Below it, one request goes and its 10 bytes are counted twice: the counter says 40 and the loop
    ends, with 50 bytes left above a limit of 45. -/
theorem prune_counts_twice :
    Indexed threeBacklog BacklogState.threeSlots BacklogState.threeRequests
      [⟨0, 0⟩, ⟨1, 1⟩, ⟨2, 2⟩] ∧
    (∃ result, threeBacklog.PruneReturns BacklogState.threeSlots BacklogState.threeRequests 45
        result ∧ result.rc = .ok ∧ result.m_backlog.m_requestSet = [⟨1, 1⟩, ⟨2, 2⟩] ∧
      result.m_backlog.m_backlogSizeBytes = 40 ∧
      totalPayload BacklogState.threeRequests result.m_backlog.m_requestSet = 50) ∧
    ¬ PrunesExactly threeBacklog BacklogState.threeSlots BacklogState.threeRequests 45 := by
  obtain ⟨result, hiterate, hrc, hset, hsize, htotal⟩ : ∃ result,
      LoopStep.iterate (pruneStep 45 BacklogState.threeRequests) 2
          ⟨.ok, threeBacklog, BacklogState.threeSlots⟩ = some (.ok result) ∧
        result.rc = .ok ∧ result.m_backlog.m_requestSet = [⟨1, 1⟩, ⟨2, 2⟩] ∧
        result.m_backlog.m_backlogSizeBytes = 40 ∧
        totalPayload BacklogState.threeRequests result.m_backlog.m_requestSet = 50 :=
    ⟨_, rfl, rfl, rfl, rfl, rfl⟩
  have hends : threeBacklog.PruneReturns BacklogState.threeSlots BacklogState.threeRequests 45
      result := ⟨2, hiterate⟩
  refine ⟨threeBacklog_indexed, ⟨result, hends, hrc, hset, hsize, htotal⟩, ?_⟩
  rintro ⟨n, result', hends', hpruned⟩
  obtain rfl := hends.unique hends'
  have hcounter := hpruned.size
  rw [hsize, htotal] at hcounter
  exact absurd hcounter (by decide)

end Commutil.Client
