import Commutil.Client.RequestPool
import Commutil.Library.Transitions

/-!
# Senders, Waiters and the I/O Thread on One Pool

The steps of `MsgRequestPool` that run in different threads, one at a time and in any
order: `getVacantRequest` with the load, the compare-exchange and the store of the id
as three steps, `waitPendingResponse` with the comparison of the id, the wait and the
final `clearResponse`, and `setResponse` on the I/O thread with the comparison of the
id and the store of the response.

A slot that is taken again has the id of its previous owner until the new id is
stored.  A late response that is stored in between, or whose id was compared before,
is handed to the new owner.  `responses_are_attributed` proves that nothing else can
go wrong.
-/

namespace Commutil.Client

open Commutil.Framing Commutil.Library

/-! ## §1 States and steps -/

/-- Where a sending thread is. -/
inductive SenderPc where
  | start
  /-- `tryGrab` is about to load the status of the `i`-th slot of the search. -/
  | load (requestId : UInt64) (i : Nat)
  /-- It has read `RS_IDLE` and is about to compare and exchange. -/
  | exchange (requestId : UInt64) (i : Nat)
  /-- It has taken the slot and is about to store the id. -/
  | storeId (requestId : UInt64) (index : Nat)
  /-- The caller has the request data. -/
  | holds (requestId : UInt64) (index : Nat)
  /-- `waitPendingResponse` has compared the ids. -/
  | waits (requestId : UInt64) (index : Nat)
  /-- It has the response and is about to clear the slot. -/
  | clears (requestId : UInt64) (index : Nat) (response : Msg)
  deriving DecidableEq, Repr

/-- Where the I/O thread is. -/
inductive IoPc where
  | ready
  /-- `setResponse` has compared the ids and is about to store the response. -/
  | matched (msg : Msg)
  deriving DecidableEq, Repr

/-- A call of `waitPendingResponse` that returned `E_OK`. -/
structure Answer where
  requestId : UInt64
  index : Nat
  response : Msg
  deriving DecidableEq, Repr

/-- A pool and its threads, and the answers given so far. -/
structure RaceState where
  pool : MsgRequestPool
  threads : Nat → SenderPc
  io : IoPc
  answers : List Answer

/-- The next step of a thread. -/
inductive RaceEvent where
  /-- A sending or waiting thread makes its next step. -/
  | thread (t : Nat)
  /-- A thread does not wait (again) for its response. -/
  | leave (t : Nat)
  /-- A message arrives, and its id is compared. -/
  | receive (msg : Msg)
  /-- The response is stored. -/
  | store
  deriving DecidableEq, Repr

namespace RaceState

/-- A new pool with idle threads. -/
def start (poolSize : Nat) (nextRequestId : UInt64) : RaceState :=
  ⟨.initializePool poolSize nextRequestId, fun _ => .start, .ready, []⟩

/-- A thread goes on. -/
def goto (s : RaceState) (t : Nat) (pc : SenderPc) : RaceState :=
  { s with threads := Function.update s.threads t pc }

/-- A slot changes. -/
def setSlot (s : RaceState) (index : Nat) (r : MsgRequest) : RaceState :=
  { s with pool := s.pool.setSlot index r }

/-- `waitPendingResponse` returns `E_OK`. -/
def answer (s : RaceState) (a : Answer) : RaceState := { s with answers := s.answers ++ [a] }

/-- The index of the `i`-th slot that the search for an id visits. -/
def searchIndex (s : RaceState) (requestId : UInt64) (i : Nat) : Nat :=
  (requestId.toNat % 2 ^ 32 % s.pool.m_requests.length + i) % s.pool.m_requests.length

/-- The next step of a thread, if it has one. -/
def threadStep (s : RaceState) (t : Nat) : Option RaceState :=
  match s.threads t with
  | .start => some ({ s with pool := s.pool.issued }.goto t (.load s.pool.m_nextRequestId 0))
  | .load requestId i =>
    -- the search has gone around once
    if s.pool.m_requests.length ≤ i then some (s.goto t .start)
    else
      match s.pool.m_requests[s.searchIndex requestId i]? with
      | none => none
      | some r =>
        if r.m_requestStatus = .idle then some (s.goto t (.exchange requestId i))
        else some (s.goto t (.load requestId (i + 1)))
  | .exchange requestId i =>
    match s.pool.m_requests[s.searchIndex requestId i]? with
    | none => none
    | some r =>
      if r.m_requestStatus = .idle then
        some ((s.setSlot (s.searchIndex requestId i) { r with m_requestStatus := .pending }).goto t
          (.storeId requestId (s.searchIndex requestId i)))
      else some (s.goto t (.load requestId (i + 1)))
  | .storeId requestId index =>
    match s.pool.m_requests[index]? with
    | none => none
    | some r =>
      some ((s.setSlot index { r with m_requestId := requestId }).goto t (.holds requestId index))
  | .holds requestId index =>
    match s.pool.m_requests[index]? with
    | none => none
    | some r =>
      if r.m_requestId = requestId then some (s.goto t (.waits requestId index)) else some s
  | .waits requestId index =>
    match s.pool.m_requests[index]? with
    | none => none
    | some r =>
      match r.waitResponse with
      | (.ok, some response) => some (s.goto t (.clears requestId index response))
      | _ => some (s.goto t (.holds requestId index))
  | .clears requestId index response =>
    match s.pool.m_requests[index]? with
    | none => none
    | some r =>
      some (((s.setSlot index r.clearResponse).answer ⟨requestId, index, response⟩).goto t .start)

/-- One step of the system. -/
def step (s : RaceState) : RaceEvent → Option RaceState
  | .thread t => s.threadStep t
  | .leave t =>
    match s.threads t with
    | .holds _ _ => some (s.goto t .start)
    | _ => none
  | .receive msg =>
    match s.io, s.pool.findByHeader msg.m_header with
    | .ready, .ok _ => some { s with io := .matched msg }
    | .ready, .error _ => some s
    | .matched _, _ => none
  | .store =>
    match s.io with
    | .ready => none
    | .matched msg =>
      match s.pool.m_requests[msg.m_header.m_requestIndex.toNat]? with
      | none => none
      | some r =>
        some { s.setSlot msg.m_header.m_requestIndex.toNat (r.setResponse msg) with io := .ready }

/-! ## §2 The invariant -/

/-- The slot that a thread has taken and not given back. -/
def owned : SenderPc → Option Nat
  | .start => none
  | .load _ _ => none
  | .exchange _ _ => none
  | .storeId _ index => some index
  | .holds _ index => some index
  | .waits _ index => some index
  | .clears _ index _ => some index

/-- The slot of a thread is taken, and has its id once that is stored. -/
def ThreadOk (pool : MsgRequestPool) : SenderPc → Prop
  | .start => True
  | .load _ _ => True
  | .exchange _ _ => True
  | .storeId _ index => ∃ r, pool.m_requests[index]? = some r ∧ r.m_requestStatus = .pending
  | .holds requestId index => ∃ r, pool.m_requests[index]? = some r ∧
      r.m_requestStatus ≠ .idle ∧ r.m_requestId = requestId
  | .waits requestId index => ∃ r, pool.m_requests[index]? = some r ∧
      r.m_requestStatus ≠ .idle ∧ r.m_requestId = requestId
  | .clears requestId index response => (∃ r, pool.m_requests[index]? = some r ∧
      r.m_requestStatus ≠ .idle ∧ r.m_requestId = requestId) ∧
      response.m_header.m_requestId = requestId

/-- A response in a slot is one to the request of the slot. -/
def SlotOk (r : MsgRequest) : Prop :=
  r.m_requestStatus = .arrived → ∀ m, r.m_response = some m → m.m_header.m_requestId = r.m_requestId

/-- No two threads have one slot, and everything has the right id. -/
structure Inv (s : RaceState) : Prop where
  unique : ∀ t t' index, owned (s.threads t) = some index → owned (s.threads t') = some index →
    t = t'
  threadOk : ∀ t, ThreadOk s.pool (s.threads t)
  slotOk : ∀ (index : Nat) r, s.pool.m_requests[index]? = some r → SlotOk r
  answered : ∀ a ∈ s.answers, a.response.m_header.m_requestId = a.requestId

theorem start_inv (poolSize : Nat) (nextRequestId : UInt64) :
    Inv (start poolSize nextRequestId) := by
  refine ⟨nofun, fun _ => trivial, fun index r hr => ?_, nofun⟩
  obtain rfl : r = .new := List.eq_of_mem_replicate (List.mem_of_getElem? hr)
  exact nofun

/-- A slot that a thread has taken is not idle. -/
theorem ThreadOk.not_idle {pool : MsgRequestPool} {pc : SenderPc} {index : Nat} {r : MsgRequest}
    (h : ThreadOk pool pc) (howned : owned pc = some index)
    (hr : pool.m_requests[index]? = some r) : r.m_requestStatus ≠ .idle := by
  cases pc with
  | start => cases howned
  | load _ _ => cases howned
  | exchange _ _ => cases howned
  | storeId _ i =>
    cases howned
    obtain ⟨r', hr', hpending⟩ := h
    rw [hr] at hr'
    cases hr'
    rw [hpending]
    exact nofun
  | holds _ i =>
    cases howned
    obtain ⟨r', hr', hbusy, -⟩ := h
    rw [hr] at hr'
    cases hr'
    exact hbusy
  | waits _ i =>
    cases howned
    obtain ⟨r', hr', hbusy, -⟩ := h
    rw [hr] at hr'
    cases hr'
    exact hbusy
  | clears _ i _ =>
    cases howned
    obtain ⟨⟨r', hr', hbusy, -⟩, -⟩ := h
    rw [hr] at hr'
    cases hr'
    exact hbusy

/-- A thread does not see a change of another slot. -/
theorem ThreadOk.setSlot_ne {pool : MsgRequestPool} {pc : SenderPc} (h : ThreadOk pool pc)
    {index : Nat} (hne : owned pc ≠ some index) (r : MsgRequest) :
    ThreadOk (pool.setSlot index r) pc := by
  have hother : ∀ i, owned pc = some i →
      (pool.setSlot index r).m_requests[i]? = pool.m_requests[i]? := by
    intro i hi
    refine MsgRequestPool.setSlot_ne ?_ r
    rintro rfl
    exact hne hi
  cases pc with
  | start => trivial
  | load _ _ => trivial
  | exchange _ _ => trivial
  | storeId _ i => simpa only [ThreadOk, hother i rfl] using h
  | holds _ i => simpa only [ThreadOk, hother i rfl] using h
  | waits _ i => simpa only [ThreadOk, hother i rfl] using h
  | clears _ i _ => simpa only [ThreadOk, hother i rfl] using h

theorem goto_self (s : RaceState) (t : Nat) (pc : SenderPc) : (s.goto t pc).threads t = pc := by
  simp [RaceState.goto]

theorem goto_of_ne (s : RaceState) {t t' : Nat} (h : t' ≠ t) (pc : SenderPc) :
    (s.goto t pc).threads t' = s.threads t' := by
  simp [RaceState.goto, Function.update_of_ne h]

/-- A thread goes on, with a slot that no other thread has. -/
theorem Inv.goto {s : RaceState} (h : s.Inv) {t : Nat} {pc : SenderPc} (hpc : ThreadOk s.pool pc)
    (hnew : ∀ index, owned pc = some index → ∀ t', t' ≠ t → owned (s.threads t') ≠ some index) :
    Inv (s.goto t pc) := by
  have hself := s.goto_self t pc
  have hother : ∀ t', t' ≠ t → (s.goto t pc).threads t' = s.threads t' :=
    fun t' hne => s.goto_of_ne hne pc
  refine ⟨fun t₁ t₂ index h₁ h₂ => ?_, fun t' => ?_, h.slotOk, h.answered⟩
  · by_cases e₁ : t₁ = t
    · by_cases e₂ : t₂ = t
      · rw [e₁, e₂]
      · rw [e₁, hself] at h₁
        rw [hother t₂ e₂] at h₂
        exact absurd h₂ (hnew index h₁ t₂ e₂)
    · rw [hother t₁ e₁] at h₁
      by_cases e₂ : t₂ = t
      · rw [e₂, hself] at h₂
        exact absurd h₁ (hnew index h₂ t₁ e₁)
      · rw [hother t₂ e₂] at h₂
        exact h.unique t₁ t₂ index h₁ h₂
  · by_cases e : t' = t
    · rw [e, hself]
      exact hpc
    · rw [hother t' e]
      exact h.threadOk t'

/-- A slot changes in a way that its owner, if it has one, can see. -/
theorem Inv.setSlot {s : RaceState} (h : s.Inv) {index : Nat} {r : MsgRequest} (hr : SlotOk r)
    (howner : ∀ t, owned (s.threads t) = some index →
      ThreadOk (s.pool.setSlot index r) (s.threads t)) :
    Inv (s.setSlot index r) := by
  refine ⟨h.unique, fun t => ?_, fun i r' hi => ?_, h.answered⟩
  · by_cases howned : owned (s.threads t) = some index
    · exact howner t howned
    · exact (h.threadOk t).setSlot_ne howned r
  · by_cases hne : index = i
    · subst hne
      have hlt : index < s.pool.m_requests.length := by
        have := (List.getElem?_eq_some_iff.mp hi).1
        simpa [RaceState.setSlot] using this
      obtain rfl : r = r' := by
        have hself := MsgRequestPool.setSlot_self s.pool hlt r
        exact Option.some.inj (hself.symm.trans hi)
      exact hr
    · have hkeep := @MsgRequestPool.setSlot_ne s.pool index i hne r
      exact h.slotOk i r' (hkeep.symm.trans hi)

theorem Inv.issued {s : RaceState} (h : s.Inv) : Inv { s with pool := s.pool.issued } :=
  ⟨h.unique, h.threadOk, h.slotOk, h.answered⟩

theorem Inv.answer {s : RaceState} (h : s.Inv) {a : Answer}
    (ha : a.response.m_header.m_requestId = a.requestId) : Inv (s.answer a) := by
  refine ⟨h.unique, h.threadOk, h.slotOk, fun b hb => ?_⟩
  rcases List.mem_append.mp hb with hold | hnew
  · exact h.answered b hold
  · obtain rfl := List.mem_singleton.mp hnew
    exact ha

/-! ## §3 Every step keeps it -/

/-- The other threads do not have the slot of a thread. -/
theorem Inv.alone {s : RaceState} (h : s.Inv) {t index : Nat}
    (howned : owned (s.threads t) = some index) {t' : Nat} (hne : t' ≠ t) :
    owned (s.threads t') ≠ some index :=
  fun howned' => hne (h.unique t' t index howned' howned)

/-- A thread goes on with the slot that it has, if any. -/
theorem Inv.keeps {s : RaceState} (h : s.Inv) {t : Nat} {pc : SenderPc}
    (hpc : ThreadOk s.pool pc) (howned : owned pc = owned (s.threads t)) : Inv (s.goto t pc) :=
  h.goto hpc fun _ hindex _ hne => h.alone (howned ▸ hindex) hne

/-- The compare-exchange succeeds: the slot was idle, so nobody has it. -/
theorem Inv.exchanged {s : RaceState} (h : s.Inv) {t index : Nat} {requestId : UInt64}
    {r : MsgRequest} (hr : s.pool.m_requests[index]? = some r)
    (hidle : r.m_requestStatus = .idle) :
    Inv ((s.setSlot index { r with m_requestStatus := .pending }).goto t
      (.storeId requestId index)) := by
  have hnobody : ∀ t', owned (s.threads t') ≠ some index :=
    fun t' howned => (h.threadOk t').not_idle howned hr hidle
  have hlt := (List.getElem?_eq_some_iff.mp hr).1
  have hset : Inv (s.setSlot index { r with m_requestStatus := .pending }) :=
    h.setSlot nofun fun t' howned => absurd howned (hnobody t')
  refine hset.goto ⟨_, MsgRequestPool.setSlot_self s.pool hlt _, rfl⟩ ?_
  intro index' hindex t' _
  cases hindex
  exact hnobody t'

/-- The id is stored in a slot that only this thread has. -/
theorem Inv.storedId {s : RaceState} (h : s.Inv) {t index : Nat} {requestId : UInt64}
    {r : MsgRequest} (hpc : s.threads t = .storeId requestId index)
    (hr : s.pool.m_requests[index]? = some r) :
    Inv ((s.setSlot index { r with m_requestId := requestId }).goto t
      (.holds requestId index)) := by
  have howned : owned (s.threads t) = some index := by
    rw [hpc]
    rfl
  have hok := h.threadOk t
  rw [hpc] at hok
  obtain ⟨r', hr', hpending⟩ := hok
  rw [hr] at hr'
  cases hr'
  have hlt := (List.getElem?_eq_some_iff.mp hr).1
  have hread := MsgRequestPool.setSlot_self s.pool hlt { r with m_requestId := requestId }
  refine (h.setSlot (r := { r with m_requestId := requestId }) ?_ ?_).keeps
    ⟨_, hread, ?_, rfl⟩ howned.symm
  · -- a slot that is pending has no response to another id
    intro harrived
    rw [hpending] at harrived
    cases harrived
  · intro t' howned'
    by_cases hne : t' = t
    · rw [hne, hpc]
      exact ⟨_, hread, hpending⟩
    · exact absurd howned' (h.alone howned hne)
  · show r.m_requestStatus ≠ .idle
    rw [hpending]
    exact nofun

/-- The response that a thread finds in its slot is one to the request of the slot. -/
theorem Inv.waited {s : RaceState} (h : s.Inv) {t index : Nat} {requestId : UInt64}
    {r : MsgRequest} {response : Msg} (hpc : s.threads t = .waits requestId index)
    (hr : s.pool.m_requests[index]? = some r) (hwait : r.waitResponse = (.ok, some response)) :
    Inv (s.goto t (.clears requestId index response)) := by
  have hok := h.threadOk t
  rw [hpc] at hok
  refine h.keeps ⟨hok, ?_⟩ (by rw [hpc]; rfl)
  obtain ⟨r', hr', -, hid⟩ := hok
  rw [hr] at hr'
  cases hr'
  unfold MsgRequest.waitResponse at hwait
  split at hwait
  · cases hwait
  · cases hwait
  · cases hwait
  · rename_i harrived
    rw [← hid]
    exact h.slotOk index r hr harrived response (congrArg Prod.snd hwait)

/-- The slot is cleared by the thread that has it, which no longer has it after that. -/
theorem Inv.cleared {s : RaceState} (h : s.Inv) {t index : Nat} {requestId : UInt64}
    {r : MsgRequest} {response : Msg} (hpc : s.threads t = .clears requestId index response) :
    Inv ((s.goto t .start).setSlot index r.clearResponse) := by
  have howned : owned (s.threads t) = some index := by
    rw [hpc]
    rfl
  have hleft : Inv (s.goto t .start) := h.goto trivial nofun
  refine hleft.setSlot nofun fun t' howned' => ?_
  by_cases hne : t' = t
  · rw [hne, s.goto_self] at howned'
    cases howned'
  · rw [s.goto_of_ne hne] at howned'
    exact absurd howned' (h.alone howned hne)

/-- **Steps of the sending and waiting threads.** -/
theorem Inv.threadStep {s s' : RaceState} (h : s.Inv) {t : Nat} (hstep : s.threadStep t = some s') :
    s'.Inv := by
  have hok := h.threadOk t
  unfold RaceState.threadStep at hstep
  cases hpc : s.threads t with
  | start =>
    simp only [hpc] at hstep
    cases hstep
    exact h.issued.goto trivial nofun
  | load requestId i =>
    simp only [hpc] at hstep
    -- the search gives up, takes the slot on trial or goes on
    split at hstep
    · cases hstep
      exact h.goto trivial nofun
    split at hstep
    · cases hstep
    split at hstep
    · cases hstep
      exact h.goto trivial nofun
    · cases hstep
      exact h.goto trivial nofun
  | exchange requestId i =>
    simp only [hpc] at hstep
    split at hstep
    · cases hstep
    rename_i r hr
    split at hstep
    · rename_i hidle
      cases hstep
      exact h.exchanged hr hidle
    · -- another thread has been faster
      cases hstep
      exact h.goto trivial nofun
  | storeId requestId index =>
    simp only [hpc] at hstep
    split at hstep
    · cases hstep
    rename_i r hr
    cases hstep
    exact h.storedId hpc hr
  | holds requestId index =>
    simp only [hpc] at hstep
    split at hstep
    · cases hstep
    rename_i r hr
    split at hstep
    · cases hstep
      rw [hpc] at hok
      exact h.keeps hok (by rw [hpc]; rfl)
    · cases hstep
      exact h
  | waits requestId index =>
    simp only [hpc] at hstep
    split at hstep
    · cases hstep
    rename_i r hr
    split at hstep
    · rename_i response hwait
      cases hstep
      exact h.waited hpc hr hwait
    · -- no response yet
      cases hstep
      rw [hpc] at hok
      exact h.keeps hok (by rw [hpc]; rfl)
  | clears requestId index response =>
    simp only [hpc] at hstep
    split at hstep
    · cases hstep
    cases hstep
    rw [hpc] at hok
    exact (h.cleared hpc).answer (a := ⟨requestId, index, response⟩) hok.2

/-- When the response is stored, the slot has its id, and no thread has taken the slot without
    having stored its own id yet. -/
def NoLateStore (s : RaceState) : RaceEvent → Prop
  | .store => ∀ msg, s.io = .matched msg →
      (∀ r, s.pool.m_requests[msg.m_header.m_requestIndex.toNat]? = some r →
        r.m_requestId = msg.m_header.m_requestId) ∧
      ∀ t requestId, s.threads t ≠ .storeId requestId msg.m_header.m_requestIndex.toNat
  | _ => True

/-- **One step keeps the invariant**, unless it stores a late response. -/
theorem Inv.step {s s' : RaceState} (h : s.Inv) {e : RaceEvent} (he : s.NoLateStore e)
    (hstep : s.step e = some s') : s'.Inv := by
  cases e with
  | thread t => exact h.threadStep hstep
  -- a thread gives its slot up without waiting
  | leave t =>
    unfold RaceState.step at hstep
    dsimp only at hstep
    split at hstep
    · cases hstep
      exact h.goto trivial nofun
    · cases hstep
  -- the ids are compared, nothing is stored yet
  | receive msg =>
    unfold RaceState.step at hstep
    dsimp only at hstep
    split at hstep
    · cases hstep
      exact ⟨h.unique, h.threadOk, h.slotOk, h.answered⟩
    · cases hstep
      exact h
    · cases hstep
  | store =>
    unfold RaceState.step at hstep
    dsimp only at hstep
    split at hstep
    · cases hstep
    rename_i msg hio
    split at hstep
    · cases hstep
    rename_i r hr
    cases hstep
    obtain ⟨hid, hnobody⟩ := he msg hio
    have hlt := (List.getElem?_eq_some_iff.mp hr).1
    have hread := MsgRequestPool.setSlot_self s.pool hlt (r.setResponse msg)
    -- the slot that was compared still has the id, and nobody is about to store another
    have hstored : Inv (s.setSlot msg.m_header.m_requestIndex.toNat (r.setResponse msg)) := by
      refine h.setSlot ?_ fun t howned => ?_
      · intro _ m hm
        cases hm
        exact (hid r hr).symm
      · -- the owner of the slot has stored its id, and the id does not change
        have hok := h.threadOk t
        cases hpc : s.threads t with
        | start => trivial
        | load _ _ => trivial
        | exchange _ _ => trivial
        | storeId requestId i =>
          rw [hpc] at howned
          cases howned
          exact absurd hpc (hnobody t requestId)
        | holds requestId i =>
          rw [hpc] at howned hok
          cases howned
          obtain ⟨r', hr', -, hid'⟩ := hok
          rw [hr] at hr'
          cases hr'
          exact ⟨_, hread, nofun, hid'⟩
        | waits requestId i =>
          rw [hpc] at howned hok
          cases howned
          obtain ⟨r', hr', -, hid'⟩ := hok
          rw [hr] at hr'
          cases hr'
          exact ⟨_, hread, nofun, hid'⟩
        | clears requestId i response =>
          rw [hpc] at howned hok
          cases howned
          obtain ⟨⟨r', hr', -, hid'⟩, hresponse⟩ := hok
          rw [hr] at hr'
          cases hr'
          exact ⟨⟨_, hread, nofun, hid'⟩, hresponse⟩
    exact ⟨hstored.unique, hstored.threadOk, hstored.slotOk, hstored.answered⟩

/-! ## §4 Attribution -/

/-- **A response is not attributed to another request**: in every interleaving in which no late
    response is stored, whatever `waitPendingResponse` returns for a request id carries that
    id. -/
theorem responses_are_attributed (poolSize : Nat) (nextRequestId : UInt64)
    (events : List RaceEvent) (s : RaceState)
    (hrun : RunsWith (stepOf RaceState.step) NoLateStore (start poolSize nextRequestId) events s) :
    ∀ a ∈ s.answers, a.response.m_header.m_requestId = a.requestId :=
  (hrun.invariant Inv (fun _ _ _ hs he hstep => hs.step he hstep)
    (start_inv poolSize nextRequestId)).answered

/-- One thread sends a request and waits, and the response arrives in time. -/
theorem responses_are_attributed_in_time :
    ∃ s, RunsWith (stepOf RaceState.step) NoLateStore (start 1 5)
        [.thread 0, .thread 0, .thread 0, .thread 0, .receive ⟨.mk' 40 0 0 5 0, []⟩, .store,
          .thread 0, .thread 0, .thread 0] s ∧
      s.answers = [⟨5, 0, ⟨.mk' 40 0 0 5 0, []⟩⟩] ∧
      ∀ a ∈ s.answers, a.response.m_header.m_requestId = a.requestId := by
  have hrun : ∃ s, RunsWith (stepOf RaceState.step) NoLateStore (start 1 5)
      [.thread 0, .thread 0, .thread 0, .thread 0, .receive ⟨.mk' 40 0 0 5 0, []⟩, .store,
        .thread 0, .thread 0, .thread 0] s ∧ s.answers = [⟨5, 0, ⟨.mk' 40 0 0 5 0, []⟩⟩] := by
    refine ⟨_, .cons trivial rfl (.cons trivial rfl (.cons trivial rfl (.cons trivial rfl
      (.cons trivial rfl (.cons ?_ rfl (.cons trivial rfl (.cons trivial rfl
      (.cons trivial rfl (.nil _))))))))), rfl⟩
    intro msg hmsg
    cases hmsg
    refine ⟨fun r hr => by cases hr; rfl, fun t requestId hpc => ?_⟩
    by_cases ht : t = 0
    · subst ht
      cases hpc
    · simp [goto, setSlot, start, Function.update_of_ne ht] at hpc
  obtain ⟨s, hrun, hanswers⟩ := hrun
  exact ⟨s, hrun, hanswers, responses_are_attributed 1 5 _ s hrun⟩

/-- The response to a request comes again after the slot was taken for the next request and
    before the new id was stored: the next request is answered with it. -/
theorem late_response_misattributed :
    ∃ s, RunsWith (stepOf RaceState.step) (fun _ _ => True) (start 1 5)
        [.thread 0, .thread 0, .thread 0, .thread 0, .receive ⟨.mk' 40 0 0 5 0, []⟩, .store,
          .thread 0, .thread 0, .thread 0,
          .thread 1, .thread 1, .thread 1, .receive ⟨.mk' 40 0 0 5 0, []⟩, .store,
          .thread 1, .thread 1, .thread 1, .thread 1] s ∧
      (⟨6, 0, ⟨.mk' 40 0 0 5 0, []⟩⟩ : Answer) ∈ s.answers := by
  refine ⟨_, runsWith_of_runWhere (f := RaceState.step) (P := fun _ _ => True) rfl, ?_⟩
  exact List.mem_cons_of_mem _ List.mem_cons_self

end RaceState

end Commutil.Client
