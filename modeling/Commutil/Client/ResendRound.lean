import Commutil.Client.BacklogIndices
import Commutil.Client.FailedSends
import Commutil.Client.MsgSender

/-!
# One Round of Resends

The loop of `MsgSender::resendShippingBacklog`, with `hasReadyResendRequest`,
`getReadyResendRequest` and `updateReadyResendRequest` of the backlog.

The loop looks at the request with the oldest request time, until it was sent since the round
began.  Two main results: when the loop ends within as many rounds as the backlog has entries,
and when it resends the requests that are due and no others.
-/

namespace Commutil.Client

open Commutil.Framing Commutil.Io Commutil.Library

variable {κ : Type}

/-! ## §1 The round -/

/-- The round from its start. -/
def roundOf (s : MsgSender κ) : ResendRound κ := ⟨.ok, s, 0⟩

/-- The clock readings of a round do not decrease. -/
structure ClockRuns (currentTimeMillis : UInt64) (envs : Nat → ResendEnv) : Prop where
  start : currentTimeMillis ≤ (envs 0).renewNow
  renew : ∀ i, (envs i).renewNow ≤ (envs i).now
  update : ∀ i, (envs i).now ≤ (envs i).updateNow
  next : ∀ i, (envs i).updateNow ≤ (envs (i + 1)).renewNow

namespace ClockRuns

variable {T : UInt64} {envs : Nat → ResendEnv}

theorem le_renewNow (h : ClockRuns T envs) (i : Nat) : T ≤ (envs i).renewNow := by
  induction i with
  | zero => exact h.start
  | succ i ih =>
    have hnow := UInt64.le_trans ih (h.renew i)
    exact UInt64.le_trans (UInt64.le_trans hnow (h.update i)) (h.next i)

theorem le_now (h : ClockRuns T envs) (i : Nat) : T ≤ (envs i).now :=
  UInt64.le_trans (h.le_renewNow i) (h.renew i)

theorem le_updateNow (h : ClockRuns T envs) (i : Nat) : T ≤ (envs i).updateNow :=
  UInt64.le_trans (h.le_now i) (h.update i)

end ClockRuns

/-- The slot of an entry was last sent from before the given time. -/
def SentBefore (pool : MsgRequestPool) (T : UInt64) (entry : BacklogEntry) : Prop :=
  (pool.slot entry.m_request).m_resendTimeMillis < T

instance (pool : MsgRequestPool) (T : UInt64) : DecidablePred (SentBefore pool T) :=
  fun _ => inferInstanceAs (Decidable (_ < _))

theorem readyResendRequest_eq {b : MsgBacklog} {pool : MsgRequestPool} {T : UInt64}
    {entry : BacklogEntry} {rest : List BacklogEntry} (hset : b.m_requestSet = entry :: rest) :
    b.readyResendRequest pool T = if SentBefore pool T entry then some entry.m_msg else none := by
  unfold MsgBacklog.readyResendRequest
  rw [hset]
  rfl

theorem readyResendRequest_eq_some {b : MsgBacklog} {pool : MsgRequestPool} {T : UInt64}
    {request : MsgPtr} (h : b.readyResendRequest pool T = some request) :
    ∃ entry rest, b.m_requestSet = entry :: rest ∧ SentBefore pool T entry ∧
      entry.m_msg = request := by
  cases hset : b.m_requestSet with
  | nil =>
    unfold MsgBacklog.readyResendRequest at h
    rw [hset] at h
    cases h
  | cons entry rest =>
    rw [readyResendRequest_eq hset] at h
    split at h
    · rename_i hbefore
      exact ⟨entry, rest, rfl, hbefore, Option.some.inj h⟩
    · cases h

/-! ## §2 Sending a request again -/

/-- Putting a consistent message on the wire returns. -/
theorem sendThrough_returns {c : MsgClient} {msg : Msg} (hmsg : Consistent msg) (index : Nat)
    (r : MsgRequest) (userData : Option MsgPtr) (env : SendEnv) :
    (∃ writes, c.sendThrough msg index r userData env = .ok (.ok, { c with writes := writes })) ∨
    ∃ rc, rc ≠ .ok ∧
      c.sendThrough msg index r userData env = .ok (rc, c.setSlot index r.clearRequest) := by
  have htransmit := transmit_eq c.byteOrder hmsg env
  unfold MsgClient.sendThrough
  cases hallocated : env.allocated with
  | false =>
    rw [if_pos hallocated] at htransmit
    rw [htransmit]
    exact .inr ⟨.nomem, by decide, rfl⟩
  | true =>
    rw [if_neg (by rw [hallocated]; decide)] at htransmit
    by_cases hwrite : env.write = .ok
    · rw [if_neg (not_not.mpr hwrite)] at htransmit
      rw [htransmit]
      exact .inl ⟨_, rfl⟩
    · rw [if_pos hwrite] at htransmit
      rw [htransmit]
      exact .inr ⟨env.write, hwrite, rfl⟩

/-- `resendMsg` of a consistent message from its slot changes the slot and what was written, and is
    logged. -/
theorem resendMsg_spec (s : MsgSender κ) {request : MsgPtr} {msg : Msg} {index : Nat}
    {r : MsgRequest} (hload : s.messages request = some msg) (hmsg : Consistent msg)
    (hdata : s.pool.getRequestData msg.m_header = some (index, r)) (env : SendEnv) :
    ∃ rc r' s', s.resendMsg request env = .ok (rc, s') ∧ s'.pool = s.pool.setSlot index r' ∧
      s'.messages = s.messages ∧ s'.m_backlog = s.m_backlog ∧ s'.resent = s.resent ++ [request] ∧
      s'.m_config = s.m_config ∧ r'.m_requestId = r.m_requestId ∧
      (rc = .ok → r'.m_requestTimeMillis = r.m_requestTimeMillis) := by
  have hsend : s.m_msgClient.sendMsg request COMMUTIL_REQUEST_FLAG_REUSE env =
      s.m_msgClient.sendReused request COMMUTIL_REQUEST_FLAG_REUSE env := if_pos (by decide)
  have hread := load_eq hload
  have hslot : s.m_msgClient.m_requestPool.getRequestData msg.m_header = some (index, r) := hdata
  unfold MsgSender.resendMsg
  rw [hsend]
  unfold MsgClient.sendReused
  rw [hread]
  dsimp only
  rw [hslot]
  dsimp only
  rcases sendThrough_returns (c := s.m_msgClient.setSlot index
      (r.setFlags COMMUTIL_REQUEST_FLAG_REUSE)) hmsg index
      (r.setFlags COMMUTIL_REQUEST_FLAG_REUSE) none env with ⟨writes, hok⟩ | ⟨rc, hrc, hfail⟩
  · rw [hok]
    exact ⟨.ok, r.setFlags COMMUTIL_REQUEST_FLAG_REUSE, _, rfl, rfl, rfl, rfl, rfl, rfl, rfl,
      fun _ => rfl⟩
  · rw [hfail]
    refine ⟨rc, (r.setFlags COMMUTIL_REQUEST_FLAG_REUSE).clearRequest, _, rfl, ?_, rfl, rfl, rfl,
      rfl, rfl, fun h => absurd h hrc⟩
    exact MsgRequestPool.setSlot_setSlot ..

/-- What sending a request again changes: its slot, which has a new resend time, and the log. -/
structure SentAgain (s : MsgSender κ) (request : MsgPtr) (index : Nat) (time : UInt64)
    (rc : ErrorCode) (s' : MsgSender κ) : Prop where
  messages : s'.messages = s.messages
  backlog : s'.m_backlog = s.m_backlog
  config : s'.m_config = s.m_config
  resent : s'.resent = s.resent ++ [request]
  slot : ∃ r, s'.pool = s.pool.setSlot index r ∧
    r.m_requestId = (s.pool.slot index).m_requestId ∧ r.m_resendTimeMillis = time ∧
    (rc = .ok → r.m_requestTimeMillis = (s.pool.slot index).m_requestTimeMillis)

/-- `resendRequest` of a request whose period has passed. -/
theorem resendFound_due (s : MsgSender κ) {request : MsgPtr} {msg : Msg} {index : Nat}
    {r : MsgRequest} {env : ResendEnv} (hload : s.messages request = some msg)
    (hmsg : Consistent msg) (hdata : s.pool.getRequestData msg.m_header = some (index, r))
    (hdue : s.shouldResend r env.now = true) :
    ∃ rc s', s.resendFound request index r env = .ok (rc, s') ∧
      SentAgain s request index env.updateNow rc s' := by
  obtain ⟨rc, r', s₁, hsend, hpool, hmessages, hbacklog, hresent, hconfig, hid, htime⟩ :=
    resendMsg_spec s hload hmsg hdata env.send
  have hslot := (MsgBacklog.getRequestData_eq_some.mp hdata).2.1
  have hlt := (List.getElem?_eq_some_iff.mp hslot).1
  have hr := slot_eq hslot
  unfold MsgSender.resendFound
  rw [if_pos hdue, hsend]
  refine ⟨rc, _, rfl, hmessages, hbacklog, hconfig, hresent,
    r'.updateResendTime env.updateNow, ?_, ?_, rfl, ?_⟩
  · have hread : s₁.pool.slot index = r' := by
      rw [hpool]
      exact slot_setSlot_self hlt r'
    rw [hread]
    have hset : (s₁.setSlot index (r'.updateResendTime env.updateNow)).pool =
        s₁.pool.setSlot index (r'.updateResendTime env.updateNow) := rfl
    rw [hset, hpool, MsgRequestPool.setSlot_setSlot]
  · rw [hr]
    exact hid
  · rw [hr]
    exact htime

theorem resendFound_early (s : MsgSender κ) (request : MsgPtr) (index : Nat) {r : MsgRequest}
    {env : ResendEnv} (hearly : s.shouldResend r env.now = false) :
    s.resendFound request index r env = .ok (.ok, s) :=
  if_neg (by rw [hearly]; decide)

/-! ## §3 Requests with their own slots -/

/-- The requests of the set are allocated and have ids of their own, the slots of the entries are
    those that their headers name, as `addPendingRequest` has it, and the set is in the order of
    the request times.  Nothing is asked of the map and of `m_minHeap`, whose order the first
    resend breaks. -/
structure Resendable (s : MsgSender κ) : Prop where
  named : ∀ e ∈ s.m_backlog.m_requestSet, ∃ msg, s.messages e.m_msg = some msg ∧ Consistent msg ∧
    msg.m_header.m_requestId ≠ COMMUTIL_MSG_INVALID_REQUEST_ID ∧
    s.pool.getRequestData msg.m_header = some (e.m_request, s.pool.slot e.m_request)
  distinct : (s.m_backlog.m_requestSet.map fun e => requestIdOf s.messages e.m_msg).Nodup
  order : InOrder MsgRequest.m_requestTimeMillis s.pool s.messages s.m_backlog.m_requestSet

/-- The period of the entry has passed at the time `now`. -/
def PeriodPassed (s : MsgSender κ) (entry : BacklogEntry) (now : UInt64) : Prop :=
  s.shouldResend (s.pool.slot entry.m_request) now = true

instance (s : MsgSender κ) (entry : BacklogEntry) (now : UInt64) :
    Decidable (PeriodPassed s entry now) := inferInstanceAs (Decidable (_ = _))

theorem resendNamed_eq (s : MsgSender κ) {request : MsgPtr} {msg : Msg} {found : Nat × MsgRequest}
    (env : ResendEnv)
    (hload : s.messages request = some msg)
    (hdata : s.pool.getRequestData msg.m_header = some found) :
    s.resendNamed request env = s.resendFound request found.1 found.2 env := by
  unfold MsgSender.resendNamed
  rw [load_eq hload]
  dsimp only
  rw [hdata]

theorem resendRequest_eq (s : MsgSender κ) {request : MsgPtr} {msg : Msg} {found : Nat × MsgRequest}
    (env : ResendEnv) (hload : s.messages request = some msg)
    (hid : msg.m_header.m_requestId ≠ COMMUTIL_MSG_INVALID_REQUEST_ID)
    (hdata : s.pool.getRequestData msg.m_header = some found) :
    s.resendRequest request env = s.resendFound request found.1 found.2 env := by
  unfold MsgSender.resendRequest
  rw [load_eq hload]
  dsimp only
  rw [if_neg hid]
  exact resendNamed_eq s env hload hdata

/-- **`updateReadyResendRequest`** puts the first entry back where it was, while its request time
    is what it was. -/
theorem updateReadyResendRequest_eq {b : MsgBacklog} {pool : MsgRequestPool}
    {messages : MsgPtr → Option Msg} {entry : BacklogEntry} {rest : List BacklogEntry}
    (hset : b.m_requestSet = entry :: rest)
    (hlive : ∀ e ∈ entry :: rest, (messages e.m_msg).isSome)
    (horder : InOrder MsgRequest.m_requestTimeMillis pool messages (entry :: rest))
    (hids : ∀ e ∈ rest, requestIdOf messages e.m_msg ≠ requestIdOf messages entry.m_msg) :
    b.updateReadyResendRequest pool messages = .ok b := by
  have hposition : insertPosition (entryRequestTimeCmp pool messages) entry rest =
      .ok (some 0) := by
    cases rest with
    | nil => rfl
    | cons next more =>
      have hle := (List.pairwise_cons.mp horder).1 next List.mem_cons_self
      have hne : entryKey MsgRequest.m_requestTimeMillis pool messages entry ≠
          entryKey MsgRequest.m_requestTimeMillis pool messages next := by
        intro heq
        have hid := (Prod.ext_iff.mp (toLex.injective heq)).2
        exact hids next List.mem_cons_self (UInt64.toNat_inj.mp hid.symm)
      -- the first entry is taken out and, still the earliest, put back in front
      have hlt := lt_of_le_of_ne hle hne
      have hcmp := @entryTimeCmp_eq pool messages MsgRequest.m_requestTimeMillis entry next
        (hlive entry List.mem_cons_self)
        (hlive next (List.mem_cons_of_mem _ List.mem_cons_self))
      rw [decide_eq_true hlt] at hcmp
      unfold insertPosition entryRequestTimeCmp
      rw [hcmp]
  unfold MsgBacklog.updateReadyResendRequest
  rw [hset]
  dsimp only
  rw [hposition]
  dsimp only
  rw [List.insertIdx_zero, ← hset]

/-! ## §4 The first entry -/

section FirstEntry

variable {s : MsgSender κ} {rest : List BacklogEntry} {entry : BacklogEntry} {T : UInt64}
  {envs : Nat → ResendEnv}

theorem resendStep_done {t : ResendRound κ}
    (h : t.sender.m_backlog.readyResendRequest t.sender.pool T = none) :
    MsgSender.resendStep T envs t = .done t := by
  unfold MsgSender.resendStep
  rw [h]

namespace Resendable

theorem set_live (h : Resendable s) (hset : s.m_backlog.m_requestSet = entry :: rest) :
    ∀ e ∈ entry :: rest, (s.messages e.m_msg).isSome := by
  intro e he
  rw [← hset] at he
  obtain ⟨msg, hload, -⟩ := h.named e he
  exact Option.isSome_iff_exists.mpr ⟨msg, hload⟩

theorem set_ids (h : Resendable s) (hset : s.m_backlog.m_requestSet = entry :: rest) :
    ∀ e ∈ rest, requestIdOf s.messages e.m_msg ≠ requestIdOf s.messages entry.m_msg := by
  have hids := h.distinct
  rw [hset, List.map_cons, List.nodup_cons] at hids
  intro e he heq
  exact hids.1 (List.mem_map.mpr ⟨e, he, heq⟩)

/-- `resendRequest` of the first entry looks at its own slot. -/
theorem resend_first (h : Resendable s) (hset : s.m_backlog.m_requestSet = entry :: rest)
    (env : ResendEnv) :
    s.resendRequest entry.m_msg env =
      s.resendFound entry.m_msg entry.m_request (s.pool.slot entry.m_request) env := by
  obtain ⟨msg, hload, -, hid, hdata⟩ := h.named entry (hset ▸ List.mem_cons_self)
  exact resendRequest_eq s env hload hid hdata

/-- Before its period has passed, the first entry is looked at again, in the same state. -/
theorem resendStep_early (h : Resendable s)
    (hset : s.m_backlog.m_requestSet = entry :: rest) (hready : SentBefore s.pool T entry)
    (rc : ErrorCode) {n : Nat} (hearly : ¬ PeriodPassed s entry (envs n).now) :
    MsgSender.resendStep T envs ⟨rc, s, n⟩ = .next ⟨rc, s, n + 1⟩ := by
  have horder := h.order
  rw [hset] at horder
  have hupdate := updateReadyResendRequest_eq hset (h.set_live hset) horder (h.set_ids hset)
  have hresend := resendFound_early s entry.m_msg entry.m_request
    (Bool.eq_false_iff.mpr hearly : s.shouldResend (s.pool.slot entry.m_request)
        (envs n).now = false)
  unfold MsgSender.resendStep
  dsimp only
  rw [readyResendRequest_eq hset, if_pos hready]
  dsimp only
  rw [h.resend_first hset, hresend]
  dsimp only
  rw [if_neg (by decide), hupdate]

end Resendable

/-- Where only resend times change, the order by request time does not. -/
theorem inOrder_setSlot {pool : MsgRequestPool} {messages : MsgPtr → Option Msg} {index : Nat}
    {r : MsgRequest} {l : List BacklogEntry}
    (htime : r.m_requestTimeMillis = (pool.slot index).m_requestTimeMillis)
    (h : InOrder MsgRequest.m_requestTimeMillis pool messages l) :
    InOrder MsgRequest.m_requestTimeMillis (pool.setSlot index r) messages l := by
  have hslot : ∀ i, ((pool.setSlot index r).slot i).m_requestTimeMillis =
      (pool.slot i).m_requestTimeMillis := by
    intro i
    by_cases hi : index = i
    · subst hi
      by_cases hlt : index < pool.m_requests.length
      · rw [slot_setSlot_self hlt, htime]
      · unfold MsgRequestPool.slot MsgRequestPool.setSlot
        rw [List.set_eq_of_length_le (Nat.not_lt.mp hlt)]
    · rw [slot_setSlot_ne hi]
  refine h.imp fun {a c} hle => ?_
  unfold entryKey at hle ⊢
  rw [hslot, hslot]
  exact hle

/-- When its period has passed, the first entry is sent, and the loop is left. -/
theorem Resendable.resendStep_due (h : Resendable s)
    (hset : s.m_backlog.m_requestSet = entry :: rest) (hready : SentBefore s.pool T entry)
    (rc : ErrorCode) {n : Nat} (hdue : PeriodPassed s entry (envs n).now)
    (hclock : T ≤ (envs n).updateNow) :
    ∃ t, MsgSender.resendStep T envs ⟨rc, s, n⟩ = .next t ∧
      t.sender.resent = s.resent ++ [entry.m_msg] ∧ MsgSender.resendStep T envs t = .done t := by
  obtain ⟨msg, hload, hmsg, hid, hdata⟩ := h.named entry (hset ▸ List.mem_cons_self)
  obtain ⟨rc2, s', hresend, hagain⟩ := resendFound_due s hload hmsg hdata hdue
  obtain ⟨r', hpool, -, htime, hrequestTime⟩ := hagain.slot
  have hlt := (List.getElem?_eq_some_iff.mp (MsgBacklog.getRequestData_eq_some.mp hdata).2.1).1
  have hset' : s'.m_backlog.m_requestSet = entry :: rest := by rw [hagain.backlog, hset]
  -- the slot was sent from at a later time than the start of the round
  have hsettled : ¬ SentBefore s'.pool T entry := by
    unfold SentBefore
    rw [hpool, slot_setSlot_self hlt, htime]
    exact UInt64.not_lt.mpr hclock
  have hnone : s'.m_backlog.readyResendRequest s'.pool T = none := by
    rw [readyResendRequest_eq hset', if_neg hsettled]
  by_cases hrc : rc2 = .ok
  · have horder : InOrder MsgRequest.m_requestTimeMillis s'.pool s'.messages (entry :: rest) := by
      have horder := h.order
      rw [hset] at horder
      rw [hpool, hagain.messages]
      exact inOrder_setSlot (hrequestTime hrc) horder
    have hlive := h.set_live hset
    have hids := h.set_ids hset
    rw [← hagain.messages] at hlive hids
    have hupdate := updateReadyResendRequest_eq hset' hlive horder hids
    refine ⟨⟨rc, s', n + 1⟩, ?_, hagain.resent, resendStep_done hnone⟩
    unfold MsgSender.resendStep
    dsimp only
    rw [readyResendRequest_eq hset, if_pos hready]
    dsimp only
    rw [h.resend_first hset, hresend]
    dsimp only
    rw [if_neg (not_not.mpr hrc), hupdate]
  · refine ⟨⟨if rc = .ok then rc2 else rc, s', n + 1⟩, ?_, hagain.resent, resendStep_done hnone⟩
    unfold MsgSender.resendStep
    dsimp only
    rw [readyResendRequest_eq hset, if_pos hready]
    dsimp only
    rw [h.resend_first hset, hresend]
    dsimp only
    rw [if_pos hrc]

/-- As long as its period has not passed, the loop only looks at the first entry. -/
theorem Resendable.passes_early (h : Resendable s)
    (hset : s.m_backlog.m_requestSet = entry :: rest) (hready : SentBefore s.pool T entry) {n : Nat}
    (hearly : ∀ i < n, ¬ PeriodPassed s entry (envs i).now) :
    LoopStep.passes (MsgSender.resendStep T envs) n (roundOf s) = some ⟨.ok, s, n⟩ := by
  induction n with
  | zero => rfl
  | succ n ih =>
    have hpasses := ih fun i hi => hearly i (Nat.lt_succ_of_lt hi)
    exact LoopStep.passes_succ_of_next hpasses
      (h.resendStep_early hset hready .ok (hearly n (Nat.lt_succ_self n)))

/-- The loop is left in the round after the first one for which the period has passed. -/
theorem Resendable.iterate_due (h : Resendable s)
    (hset : s.m_backlog.m_requestSet = entry :: rest) (hready : SentBefore s.pool T entry) {n : Nat}
    (hearly : ∀ i < n, ¬ PeriodPassed s entry (envs i).now)
    (hdue : PeriodPassed s entry (envs n).now) (hclock : ClockRuns T envs) :
    ∃ t, LoopStep.iterate (MsgSender.resendStep T envs) (n + 2) (roundOf s) = some (.ok t) ∧
      t.sender.resent = s.resent ++ [entry.m_msg] := by
  obtain ⟨t, hstep, hresent, hdone⟩ :=
    h.resendStep_due hset hready .ok hdue (hclock.le_updateNow n)
  have hpasses := LoopStep.passes_succ_of_next (h.passes_early hset hready hearly) hstep
  exact ⟨t, LoopStep.iterate_of_passes hpasses hdone, hresent⟩

/-- If its period never passes, the loop is never left. -/
theorem Resendable.diverges (h : Resendable s)
    (hset : s.m_backlog.m_requestSet = entry :: rest) (hready : SentBefore s.pool T entry)
    (hearly : ∀ i, ¬ PeriodPassed s entry (envs i).now) :
    LoopStep.Diverges (MsgSender.resendStep T envs) (roundOf s) :=
  fun n => LoopStep.iterate_eq_none_of_passes
    (h.passes_early (n := n) hset hready fun i _ => hearly i)

end FirstEntry

/-! ## §5 Any backlog -/

/-- The call of `resendRequest` for the entry gives its slot a new resend time: the slot is the one
    that the header names, and the period has passed; or the message has lost its id, and the new
    slot that it gets is the slot of the entry. -/
def Settles (s : MsgSender κ) (entry : BacklogEntry) (env : ResendEnv) : Prop :=
  ∃ msg, s.messages entry.m_msg = some msg ∧
    if msg.m_header.m_requestId = COMMUTIL_MSG_INVALID_REQUEST_ID then
      ∃ requestId pool, s.pool.grabSlot = .ok (requestId, some entry.m_request, pool) ∧
        entry.m_request < 2 ^ 32
    else
      ∃ r, s.pool.getRequestData msg.m_header = some (entry.m_request, r) ∧
        s.shouldResend r env.now = true

/-- What a call that settles an entry changes. -/
structure Settled (s : MsgSender κ) (T : UInt64) (entry : BacklogEntry) (s' : MsgSender κ) :
    Prop where
  backlog : s'.m_backlog = s.m_backlog
  live : ∀ p, (∃ msg, s.messages p = some msg ∧ Consistent msg) →
    ∃ msg, s'.messages p = some msg ∧ Consistent msg
  entry_sent : ¬ SentBefore s'.pool T entry
  others : ∀ e, SentBefore s'.pool T e → SentBefore s.pool T e

section AnyBacklog

variable {s s₁ s' : MsgSender κ} {T : UInt64} {entry : BacklogEntry} {rest : List BacklogEntry}

/-- A new resend time that is not before the round leaves no more entries to be sent. -/
private theorem sentBefore_setSlot {pool : MsgRequestPool} {index : Nat} {r : MsgRequest}
    (hlt : index < pool.m_requests.length) (htime : T ≤ r.m_resendTimeMillis) {e : BacklogEntry}
    (h : SentBefore (pool.setSlot index r) T e) : e.m_request ≠ index ∧ SentBefore pool T e := by
  unfold SentBefore at h ⊢
  by_cases hi : index = e.m_request
  · subst hi
    rw [slot_setSlot_self hlt] at h
    exact absurd h (UInt64.not_lt.mpr htime)
  · rw [slot_setSlot_ne hi] at h
    exact ⟨fun heq => hi heq.symm, h⟩

theorem Settled.trans (h : Settled s T entry s₁) (h' : Settled s₁ T entry s') :
    Settled s T entry s' where
  backlog := h'.backlog.trans h.backlog
  live p hp := h'.live p (h.live p hp)
  entry_sent := h'.entry_sent
  others e he := h.others e (h'.others e he)

theorem SentAgain.settled {rc : ErrorCode} {time : UInt64} {request : MsgPtr}
    (h : SentAgain s request entry.m_request time rc s')
    (hlt : entry.m_request < s.pool.m_requests.length) (htime : T ≤ time) :
    Settled s T entry s' := by
  obtain ⟨r, hpool, -, hresend, -⟩ := h.slot
  have hback : ∀ e, SentBefore s'.pool T e →
      e.m_request ≠ entry.m_request ∧ SentBefore s.pool T e := by
    intro e he
    rw [hpool] at he
    exact sentBefore_setSlot hlt (hresend ▸ htime) he
  refine ⟨h.backlog, fun p hp => ?_, fun hentry => (hback entry hentry).1 rfl,
    fun e he => (hback e he).2⟩
  rw [h.messages]
  exact hp

/-- A request whose slot is found in its entry's place is settled by being sent again. -/
theorem resendFound_settles {env : ResendEnv} {msg : Msg} {r : MsgRequest}
    (hload : s.messages entry.m_msg = some msg) (hmsg : Consistent msg)
    (hdata : s.pool.getRequestData msg.m_header = some (entry.m_request, r))
    (hdue : s.shouldResend r env.now = true) (hclock : T ≤ env.updateNow) :
    ∃ rc s', s.resendFound entry.m_msg entry.m_request r env = .ok (rc, s') ∧
      Settled s T entry s' := by
  obtain ⟨rc, s', hresend, hagain⟩ := resendFound_due s hload hmsg hdata hdue
  have hlt := (List.getElem?_eq_some_iff.mp (MsgBacklog.getRequestData_eq_some.mp hdata).2.1).1
  exact ⟨rc, s', hresend, hagain.settled hlt hclock⟩

/-- Renewing a request into the slot of its entry settles the entry, and the message is there under
    its new id. -/
theorem renewed_settles {msg : Msg} {r : MsgRequest} {now : UInt64} (hmsg : Consistent msg)
    (hslot : s.pool.m_requests[entry.m_request]? = some r) (hsmall : entry.m_request < 2 ^ 32)
    (hclock : T ≤ now) :
    Settled s T entry (renewed s entry.m_msg msg entry.m_request r now) ∧
      ∃ m, (renewed s entry.m_msg msg entry.m_request r now).messages entry.m_msg = some m ∧
        Consistent m ∧
        (renewed s entry.m_msg msg entry.m_request r now).pool.getRequestData m.m_header =
          some (entry.m_request,
            (r.grabbed s.pool.m_nextRequestId).setRequest entry.m_msg now) := by
  have hlt : entry.m_request < s.pool.issued.m_requests.length :=
    (List.getElem?_eq_some_iff.mp hslot).1
  have hstamped := stampHeader_consistent hmsg s.pool.m_nextRequestId entry.m_request
  -- a slot that was renewed now was not sent before the barrier
  have hback : ∀ e, SentBefore (renewed s entry.m_msg msg entry.m_request r now).pool T e →
      e.m_request ≠ entry.m_request ∧ SentBefore s.pool T e :=
    fun e he => sentBefore_setSlot hlt hclock he
  refine ⟨⟨rfl, fun p hp => ?_, fun hentry => (hback entry hentry).1 rfl,
    fun e he => (hback e he).2⟩, stampHeader msg s.pool.m_nextRequestId entry.m_request,
    Function.update_self .., hstamped, ?_⟩
  · have hmessages : (renewed s entry.m_msg msg entry.m_request r now).messages =
        Function.update s.messages entry.m_msg
          (some (stampHeader msg s.pool.m_nextRequestId entry.m_request)) := rfl
    rw [hmessages]
    by_cases hp' : p = entry.m_msg
    · subst hp'
      exact ⟨_, Function.update_self .., hstamped⟩
    · rw [Function.update_of_ne hp']
      exact hp
  -- the new header names the slot again
  · have hindex : (stampHeader msg s.pool.m_nextRequestId
        entry.m_request).m_header.m_requestIndex.toNat = entry.m_request :=
      UInt32.toNat_ofNat_of_lt' hsmall
    exact MsgBacklog.getRequestData_eq_some.mpr
      ⟨hindex.symm, MsgRequestPool.setSlot_self _ hlt _, rfl⟩

/-- A call that is to settle an entry returns and does so. -/
theorem Settles.settled {env : ResendEnv} (h : Settles s entry env)
    (hlive : ∃ msg, s.messages entry.m_msg = some msg ∧ Consistent msg)
    (hclock : T ≤ env.renewNow ∧ T ≤ env.updateNow) :
    ∃ rc s', s.resendRequest entry.m_msg env = .ok (rc, s') ∧ Settled s T entry s' := by
  obtain ⟨msg, hload, hcase⟩ := h
  obtain ⟨msg', hload', hmsg⟩ := hlive
  obtain rfl : msg' = msg := Option.some.inj (hload'.symm.trans hload)
  unfold MsgSender.resendRequest
  rw [load_eq hload]
  dsimp only
  by_cases hid : msg'.m_header.m_requestId = COMMUTIL_MSG_INVALID_REQUEST_ID
  · -- the message gets the slot of its entry
    rw [if_pos hid] at hcase ⊢
    obtain ⟨requestId, pool, hgrab, hsmall⟩ := hcase
    have hne : s.pool.m_requests ≠ [] := by
      intro hnil
      rcases s.pool.grabSlot_cases with ⟨_, _, hslot, -, -⟩ | ⟨hne, -, -⟩ | ⟨-, hfault⟩
      · rw [hnil] at hslot
        cases hslot
      · exact hne hnil
      · rw [hfault] at hgrab
        cases hgrab
    rcases renewRequestId_cases s env.renewNow hload hne with
      ⟨index, r, hslot, -, hgrab', hrenew⟩ | ⟨-, hgrab', -⟩
    · rw [hgrab'] at hgrab
      have hindex : index = entry.m_request :=
        Option.some.inj (Prod.mk.inj (Prod.mk.inj (Except.ok.inj hgrab)).2).1
      subst hindex
      obtain ⟨hsettled, m, hm, hconsistent, hdata⟩ :=
        renewed_settles hmsg hslot hsmall hclock.1
      rw [hrenew]
      dsimp only
      rw [if_neg (by decide), resendNamed_eq _ env hm hdata]
      -- the new slot may be due at once, if there is no period
      by_cases hdue : (renewed s entry.m_msg msg' entry.m_request r env.renewNow).shouldResend
          ((r.grabbed s.pool.m_nextRequestId).setRequest entry.m_msg env.renewNow) env.now = true
      · obtain ⟨rc, s', hresend, hthen⟩ := resendFound_settles hm hconsistent hdata hdue hclock.2
        exact ⟨rc, s', hresend, hsettled.trans hthen⟩
      · exact ⟨.ok, _, resendFound_early _ _ _ (Bool.eq_false_iff.mpr hdue), hsettled⟩
    · rw [hgrab'] at hgrab
      cases hgrab
  · rw [if_neg hid] at hcase ⊢
    obtain ⟨r, hdata, hdue⟩ := hcase
    rw [resendNamed_eq s env hload hdata]
    exact resendFound_settles hload hmsg hdata hdue hclock.2

end AnyBacklog

/-! ## §6 When the round ends -/

/-- Two requests of one byte, sent at the times 5 and 6, and a period of 1000 milliseconds. -/
def twoPending : MsgSender Unit where
  m_msgClient :=
    { m_requestPool :=
        ⟨[⟨7, .pending, 0, some 0, none, 5, 5⟩, ⟨8, .pending, 0, some 1, none, 6, 6⟩], 9⟩
      byteOrder := .networkOrder
      messages := fun request =>
        if request < 2 then
          some (stampHeader ⟨.mk' 41 1 0 0 0, [97]⟩ (.ofNat (7 + request)) request)
        else none
      writes := [] }
  m_backlog :=
    ⟨2, [(7, ⟨0, 0⟩), (8, ⟨1, 1⟩)], [⟨0, 0⟩, ⟨1, 1⟩], [⟨0, 0⟩, ⟨1, 1⟩]⟩
  m_config := ⟨1000, 60000, 1000000⟩
  m_stopResend := false
  m_frameReader := ⟨.ofWhole some some, .networkOrder, fun _ _ => .ok, ()⟩
  calls := []
  resent := []
  freed := []

theorem twoPending_resendable : Resendable twoPending where
  distinct := by decide
  order := by unfold InOrder; decide
  named := by
    intro e he
    rcases List.mem_cons.mp he with rfl | he
    · exact ⟨_, rfl, by decide, by decide, rfl⟩
    · obtain rfl := List.mem_singleton.mp he
      exact ⟨_, rfl, by decide, by decide, rfl⟩

/-- A clock that stands still. -/
def clockAt (now : UInt64) : Nat → ResendEnv := fun _ => ⟨now, now, ⟨now, true, .ok⟩, now⟩

theorem clockAt_runs (now : UInt64) : ClockRuns now (clockAt now) :=
  ⟨UInt64.le_refl _, fun _ => UInt64.le_refl _, fun _ => UInt64.le_refl _,
    fun _ => UInt64.le_refl _⟩

/-- When a slot was last sent from. -/
def MsgRequest.lastSendTime (r : MsgRequest) : UInt64 :=
  if r.m_resendTimeMillis = 0 then r.m_requestTimeMillis else r.m_resendTimeMillis

/-- The entry was last sent a period before the given time, or earlier. -/
def Due (s : MsgSender κ) (T : UInt64) (entry : BacklogEntry) : Prop :=
  (s.pool.slot entry.m_request).lastSendTime.toNat + s.m_config.m_resendPeriodMillis.toNat ≤ T.toNat

instance (s : MsgSender κ) (T : UInt64) : DecidablePred (Due s T) :=
  fun _ => inferInstanceAs (Decidable (_ ≤ _))

/-- What a round of resends is for. -/
structure ResendsDue (s : MsgSender κ) (T : UInt64) (envs : Nat → ResendEnv) : Prop where
  /-- When the round returns, it has sent the requests that are due, and no others. -/
  sends : ∀ r, LoopStep.Ends (MsgSender.resendStep T envs) (roundOf s) r →
    ∀ e ∈ s.m_backlog.m_requestSet,
      e.m_msg ∈ r.sender.resent.drop s.resent.length ↔ Due s T e
  /-- `hasReadyResendRequest` tells whether some request is ready. -/
  ready : (s.m_backlog.readyResendRequest s.pool T).isSome ↔
    ∃ e ∈ s.m_backlog.m_requestSet, SentBefore s.pool T e
  /-- `getReadyResendRequest` returns such a request. -/
  found : ∀ request, s.m_backlog.readyResendRequest s.pool T = some request →
    ∃ e ∈ s.m_backlog.m_requestSet, SentBefore s.pool T e ∧ e.m_msg = request

section DueRequests

variable {s : MsgSender κ} {rest : List BacklogEntry} {entry : BacklogEntry} {T : UInt64}
  {envs : Nat → ResendEnv}

theorem Resendable.eq_of_msg (h : Resendable s) {e e' : BacklogEntry}
    (he : e ∈ s.m_backlog.m_requestSet) (he' : e' ∈ s.m_backlog.m_requestSet)
    (hmsg : e.m_msg = e'.m_msg) : e = e' :=
  List.inj_on_of_nodup_map h.distinct he he' (by rw [hmsg])

/-- A round that does not begin sends nothing. -/
theorem ends_at_once {r : ResendRound κ}
    (hnone : s.m_backlog.readyResendRequest s.pool T = none) :
    LoopStep.Ends (MsgSender.resendStep T envs) (roundOf s) r ↔ r = roundOf s := by
  have hdone : MsgSender.resendStep T envs (roundOf s) = .done (roundOf s) := resendStep_done hnone
  exact LoopStep.ends_iff_of_done hdone

/-- Which requests a round sends that does not begin. -/
theorem resendsDue_of_none
    (hnone : s.m_backlog.readyResendRequest s.pool T = none) :
    ResendsDue s T envs ↔
      ∀ e ∈ s.m_backlog.m_requestSet, ¬ SentBefore s.pool T e ∧ ¬ Due s T e := by
  constructor
  · intro hresends e he
    constructor
    · intro hbefore
      have hsome := hresends.ready.mpr ⟨e, he, hbefore⟩
      rw [hnone] at hsome
      cases hsome
    · intro hdue
      have hsent := (hresends.sends (roundOf s) ((ends_at_once hnone).mpr rfl) e he).mpr hdue
      have hnothing : (roundOf s).sender.resent.drop s.resent.length = [] := List.drop_length
      rw [hnothing] at hsent
      cases hsent
  · intro hall
    refine ⟨fun r hends e he => ?_, ?_, ?_⟩
    · rw [(ends_at_once hnone).mp hends]
      have hnothing : (roundOf s).sender.resent.drop s.resent.length = [] := List.drop_length
      rw [hnothing]
      exact iff_of_false List.not_mem_nil (hall e he).2
    · rw [hnone]
      exact iff_of_false (by decide) fun ⟨e, he, hbefore⟩ => (hall e he).1 hbefore
    · intro request hrequest
      rw [hnone] at hrequest
      cases hrequest

/-- Which requests a round sends that begins with the given entry. -/
theorem Resendable.resendsDue_of_ready (h : Resendable s) (hclock : ClockRuns T envs)
    (hset : s.m_backlog.m_requestSet = entry :: rest) (hready : SentBefore s.pool T entry) :
    ResendsDue s T envs ↔
      ((∃ j, PeriodPassed s entry (envs j).now) →
        ∀ e ∈ s.m_backlog.m_requestSet, Due s T e ↔ e = entry) := by
  have hmem : entry ∈ s.m_backlog.m_requestSet := hset ▸ List.mem_cons_self
  -- the round returns exactly if the period passes, and then it has sent the first request
  have hreturns : ∀ r, LoopStep.Ends (MsgSender.resendStep T envs) (roundOf s) r →
      (∃ j, PeriodPassed s entry (envs j).now) ∧ r.sender.resent = s.resent ++ [entry.m_msg] := by
    intro r hends
    by_cases hpasses : ∃ j, PeriodPassed s entry (envs j).now
    · obtain ⟨t, hiterate, hresent⟩ := h.iterate_due hset hready
        (fun i hi hdue => Nat.find_min hpasses hi hdue) (Nat.find_spec hpasses) hclock
      obtain rfl := hends.unique ⟨_, hiterate⟩
      exact ⟨hpasses, hresent⟩
    · have hdiverges := h.diverges hset hready fun i hdue => hpasses ⟨i, hdue⟩
      exact absurd hends (LoopStep.not_ends_of_diverges hdiverges)
  have hsent : ∀ r : ResendRound κ, r.sender.resent = s.resent ++ [entry.m_msg] →
      ∀ e ∈ s.m_backlog.m_requestSet,
        (e.m_msg ∈ r.sender.resent.drop s.resent.length ↔ e = entry) := by
    intro r hresent e he
    rw [hresent, List.drop_left, List.mem_singleton]
    exact ⟨fun hmsg => h.eq_of_msg he hmem hmsg, fun heq => heq ▸ rfl⟩
  constructor
  · intro hresends hpasses e he
    obtain ⟨t, hiterate, hresent⟩ := h.iterate_due hset hready
      (fun i hi hdue => Nat.find_min hpasses hi hdue) (Nat.find_spec hpasses) hclock
    exact (hresends.sends t ⟨_, hiterate⟩ e he).symm.trans (hsent t hresent e he)
  · intro honly
    refine ⟨fun r hends e he => ?_, ?_, ?_⟩
    · obtain ⟨hpasses, hresent⟩ := hreturns r hends
      exact (hsent r hresent e he).trans (honly hpasses e he).symm
    · rw [readyResendRequest_eq hset, if_pos hready]
      exact iff_of_true rfl ⟨entry, hmem, hready⟩
    · intro request hrequest
      rw [readyResendRequest_eq hset, if_pos hready] at hrequest
      cases hrequest
      exact ⟨entry, hmem, hready, rfl⟩

end DueRequests

/-- **Due requests are sent again**, and no others, exactly if there are none and the round does
    not begin, or if the round begins and, should it return, the oldest request was the only one
    that was due. -/
theorem due_requests_resent_iff {s : MsgSender κ} {T : UInt64} {envs : Nat → ResendEnv}
    (h : Resendable s) (hclock : ClockRuns T envs) :
    ResendsDue s T envs ↔
      (∀ e ∈ s.m_backlog.m_requestSet, ¬ SentBefore s.pool T e ∧ ¬ Due s T e) ∨
      ∃ entry rest, s.m_backlog.m_requestSet = entry :: rest ∧ SentBefore s.pool T entry ∧
        ((∃ j, PeriodPassed s entry (envs j).now) →
          ∀ e ∈ s.m_backlog.m_requestSet, Due s T e ↔ e = entry) := by
  cases hready : s.m_backlog.readyResendRequest s.pool T with
  | none =>
    rw [resendsDue_of_none hready]
    refine ⟨.inl, fun hcases => hcases.elim id ?_⟩
    rintro ⟨entry, rest, hset, hbefore, -⟩
    rw [readyResendRequest_eq hset, if_pos hbefore] at hready
    cases hready
  | some request =>
    -- only the first entry is ever looked at
    obtain ⟨entry, rest, hset, hbefore, -⟩ := readyResendRequest_eq_some hready
    rw [h.resendsDue_of_ready hclock hset hbefore]
    constructor
    · exact fun honly => .inr ⟨entry, rest, hset, hbefore, honly⟩
    · rintro (hnone | ⟨entry', rest', hset', -, honly⟩)
      · exact absurd hbefore (hnone entry (hset ▸ List.mem_cons_self)).1
      · rw [hset] at hset'
        cases hset'
        exact honly

/-- One millisecond earlier only the first request is due, and it is the one that is sent. -/
theorem due_requests_resent_first_only :
    ResendsDue twoPending 1005 (clockAt 1005) :=
  (due_requests_resent_iff twoPending_resendable (clockAt_runs 1005)).mpr
    (.inr ⟨⟨0, 0⟩, [⟨1, 1⟩], rfl, by decide, fun _ => by decide⟩)

/-- When both requests are due, the round returns with the oldest one sent only. -/
theorem due_request_not_resent :
    Resendable twoPending ∧ ClockRuns 2000 (clockAt 2000) ∧
    (∃ r, LoopStep.Ends (MsgSender.resendStep 2000 (clockAt 2000)) (roundOf twoPending) r ∧
      r.sender.resent = [0]) ∧
    Due twoPending 2000 ⟨0, 0⟩ ∧ Due twoPending 2000 ⟨1, 1⟩ ∧
    ¬ ResendsDue twoPending 2000 (clockAt 2000) := by
  have hready : SentBefore twoPending.pool 2000 ⟨0, 0⟩ := by decide
  have hdue : PeriodPassed twoPending ⟨0, 0⟩ (clockAt 2000 0).now := by decide
  obtain ⟨r, hiterate, hresent⟩ := twoPending_resendable.iterate_due rfl hready
    (fun i hi => absurd hi (Nat.not_lt_zero i)) hdue (clockAt_runs 2000)
  have hends : LoopStep.Ends (MsgSender.resendStep 2000 (clockAt 2000)) (roundOf twoPending) r :=
    ⟨_, hiterate⟩
  refine ⟨twoPending_resendable, clockAt_runs 2000, ⟨r, hends, hresent⟩, by decide, by decide,
    fun hresends => ?_⟩
  have hsent := (hresends.sends r hends ⟨1, 1⟩ (by decide)).mpr (by decide)
  rw [hresent] at hsent
  exact absurd hsent (by decide)

end Commutil.Client
