import Commutil.Client.MsgClient

/-!
# Late and Duplicate Responses

A slot keeps the id of its last request after it is answered, aborted or cleared,
and `MsgRequestPool::setResponse` compares ids only.  A response that comes again,
or comes too late, is therefore accepted as long as the slot has not been taken for
another request.

`SlotLife` follows each slot from the outside, by what the calls on the pool return:
the id it was last given, and whether a response to that request is still awaited.
`late_responses_harmless_iff` proves that a run treats every response as it should
exactly if no response of the run is stale in this sense.
-/

namespace Commutil.Client

open Commutil.Framing

/-! ## §1 Runs of a pool -/

/-- A call on the pool. -/
inductive PoolOp where
  /-- A new id and a slot for a request; `sent` says whether it could be written. -/
  | grab (request : MsgPtr) (requestFlags : UInt32) (now : UInt64) (sent : Bool)
  /-- `setResponse`. -/
  | respond (msg : Msg)
  /-- `abortPendingRequests`. -/
  | abort
  /-- `waitPendingResponse`. -/
  | wait (requestId : UInt64) (requestIndex : Nat)
  /-- `clearPendingRequest`. -/
  | clear (response : MsgHeader)
  /-- `clearResponse` on a slot. -/
  | clearSlot (index : Nat)
  deriving DecidableEq, Repr

/-- What is known of a slot from outside: its last id, and whether a response is awaited. -/
structure SlotLife where
  lastId : UInt64
  awaited : Bool
  deriving DecidableEq, Repr

/-- A pool and the lives of its slots. -/
structure TrackedPool where
  pool : MsgRequestPool
  lives : Nat → SlotLife

namespace TrackedPool

/-- A new pool; its slots have id 0 and await nothing. -/
def start (poolSize : Nat) (nextRequestId : UInt64) : TrackedPool :=
  ⟨.initializePool poolSize nextRequestId, fun _ => ⟨0, false⟩⟩

/-- Nothing is awaited on a slot any more. -/
def close (t : TrackedPool) (index : Nat) : Nat → SlotLife :=
  Function.update t.lives index ⟨(t.lives index).lastId, false⟩

/-- A new id and a slot for a request: `sendMsg` without `COMMUTIL_REQUEST_FLAG_REUSE`. -/
def grab (t : TrackedPool) (request : MsgPtr) (requestFlags : UInt32) (now : UInt64)
    (sent : Bool) : Except Fault TrackedPool :=
  match t.pool.grabSlot with
  | .error fault => .error fault
  | .ok (_, none, pool) => .ok { t with pool := pool }
  | .ok (requestId, some index, pool) =>
    match pool.m_requests[index]? with
    | none => .error .outOfBounds
    | some r =>
      let r := (r.setFlags requestFlags).setRequest request now
      .ok ⟨pool.setSlot index (if sent then r else r.clearRequest),
        Function.update t.lives index ⟨requestId, sent⟩⟩

/-- One call, and how it changes what is awaited. -/
def step (t : TrackedPool) : PoolOp → Except Fault TrackedPool
  | .grab request requestFlags now sent => t.grab request requestFlags now sent
  | .respond msg =>
    let (rc, _, pool) := t.pool.setResponse msg
    .ok ⟨pool, if rc = .ok then t.close msg.m_header.m_requestIndex.toNat else t.lives⟩
  | .abort => .ok ⟨t.pool.abortPendingRequests, fun i => ⟨(t.lives i).lastId, false⟩⟩
  | .wait requestId requestIndex =>
    let (rc, _, pool) := t.pool.waitPendingResponse requestId requestIndex
    .ok ⟨pool, if rc = .ok then t.close requestIndex else t.lives⟩
  | .clear response =>
    let (rc, pool) := t.pool.clearPendingRequest response
    .ok ⟨pool, if rc = .ok then t.close response.m_requestIndex.toNat else t.lives⟩
  | .clearSlot index =>
    match t.pool.m_requests[index]? with
    | none => .error .outOfBounds
    | some r => .ok ⟨t.pool.setSlot index r.clearResponse, t.close index⟩

/-- A response to this message's index and id is awaited. -/
def Awaits (t : TrackedPool) (msg : Msg) : Prop :=
  msg.m_header.m_requestIndex.toNat < t.pool.m_requests.length ∧
    t.lives msg.m_header.m_requestIndex.toNat = ⟨msg.m_header.m_requestId, true⟩

/-- The message names the last request of a slot, and no response to it is awaited. -/
def Stale (t : TrackedPool) (msg : Msg) : Prop :=
  msg.m_header.m_requestIndex.toNat < t.pool.m_requests.length ∧
    t.lives msg.m_header.m_requestIndex.toNat = ⟨msg.m_header.m_requestId, false⟩

/-- No response of the run is stale when it arrives. -/
def NoStaleResponse : TrackedPool → List PoolOp → Prop
  | _, [] => True
  | t, op :: ops =>
    (∀ msg, op = .respond msg → ¬ t.Stale msg) ∧
      ∀ t', t.step op = .ok t' → NoStaleResponse t' ops

/-! ## §2 The law -/

/-- `setResponse` accepts a message only for a slot that is pending under its id; it refuses
    every message that is not awaited, changes nothing, and the client lets it be deleted. -/
structure TakenRightly (t : TrackedPool) (msg : Msg) : Prop where
  accepted : (t.pool.setResponse msg).1 = .ok →
    ∃ r, t.pool.m_requests[msg.m_header.m_requestIndex.toNat]? = some r ∧
      r.m_requestStatus = .pending ∧ r.m_requestId = msg.m_header.m_requestId
  refused : ¬ t.Awaits msg → (t.pool.setResponse msg).1 ≠ .ok
  unchanged : (t.pool.setResponse msg).1 ≠ .ok → (t.pool.setResponse msg).2.2 = t.pool ∧
    ∀ c : MsgClient, c.m_requestPool = t.pool → (c.onMsg msg).1 = .canDelete

/-- No slot has a response but no request. -/
def NoOrphan (pool : MsgRequestPool) : Prop :=
  ∀ r ∈ pool.m_requests, r.hasResponse = true → r.m_request ≠ none

/-- The law holds at every response and in every state of the run. -/
def Lawful : TrackedPool → List PoolOp → Prop
  | t, [] => NoOrphan t.pool
  | t, op :: ops =>
    NoOrphan t.pool ∧ (∀ msg, op = .respond msg → t.TakenRightly msg) ∧
      ∀ t', t.step op = .ok t' → Lawful t' ops

/-! ## §3 The invariant -/

/-- How the life of a slot tells of its contents. -/
structure SlotMatches (life : SlotLife) (r : MsgRequest) : Prop where
  lastId_eq : life.lastId = r.m_requestId
  awaited : life.awaited = true → r.m_requestStatus = .pending ∧ r.m_request ≠ none
  arrived : r.m_requestStatus = .arrived → r.m_request ≠ none

/-- Every slot matches its life. -/
def Inv (t : TrackedPool) : Prop :=
  ∀ i r, t.pool.m_requests[i]? = some r → SlotMatches (t.lives i) r

/-- Changing a slot and its life together. -/
theorem Inv.set {t : TrackedPool} (h : t.Inv) {index : Nat} {r : MsgRequest} {life : SlotLife}
    (hr : SlotMatches life r) :
    Inv ⟨t.pool.setSlot index r, Function.update t.lives index life⟩ := by
  intro i r' hi
  by_cases hne : index = i
  · subst hne
    obtain rfl : r' = r := by
      have hlt : index < t.pool.m_requests.length := by
        obtain ⟨hlt, -⟩ := List.getElem?_eq_some_iff.mp hi
        simpa using hlt
      rw [MsgRequestPool.setSlot_self _ hlt] at hi
      exact (Option.some.inj hi).symm
    simpa using hr
  · rw [MsgRequestPool.setSlot_ne hne] at hi
    simpa [Function.update_of_ne (Ne.symm hne)] using h i r' hi

theorem Inv.issued {t : TrackedPool} (h : t.Inv) : Inv { t with pool := t.pool.issued } := h

theorem start_inv (poolSize : Nat) (nextRequestId : UInt64) :
    Inv (start poolSize nextRequestId) := by
  intro i r hi
  obtain rfl : r = .new := by
    have := List.mem_of_getElem? hi
    exact List.eq_of_mem_replicate this
  exact ⟨rfl, by simp [start], by simp [MsgRequest.new]⟩

theorem Inv.noOrphan {t : TrackedPool} (h : t.Inv) : NoOrphan t.pool := by
  intro r hr hresp
  obtain ⟨i, hi⟩ := List.mem_iff_getElem?.mp hr
  simp only [MsgRequest.hasResponse, Bool.and_eq_true, beq_iff_eq] at hresp
  exact (h i r hi).arrived hresp.1

private theorem cleared_matches {life : SlotLife} {r : MsgRequest} (h : SlotMatches life r) :
    SlotMatches ⟨life.lastId, false⟩ r.clearResponse :=
  ⟨h.lastId_eq, by simp, by simp [MsgRequest.clearResponse]⟩

private theorem aborted_matches {life : SlotLife} {r : MsgRequest} (h : SlotMatches life r) :
    SlotMatches ⟨life.lastId, false⟩ r.abortResponse := by
  unfold MsgRequest.abortResponse
  split
  · exact ⟨h.lastId_eq, by simp, by simp⟩
  · exact ⟨h.lastId_eq, by simp, h.arrived⟩

/-- A response that is not stale goes to a slot that awaits it, or nowhere. -/
theorem Inv.setResponse_cases {t : TrackedPool} (h : t.Inv) {msg : Msg} (hstale : ¬ t.Stale msg) :
    (∃ r, t.pool.m_requests[msg.m_header.m_requestIndex.toNat]? = some r ∧
      r.m_requestStatus = .pending ∧ r.m_request ≠ none ∧
      r.m_requestId = msg.m_header.m_requestId ∧ t.Awaits msg ∧
      t.pool.setResponse msg = (.ok, r.m_flags,
        t.pool.setSlot msg.m_header.m_requestIndex.toNat (r.setResponse msg))) ∨
    ∃ rc, rc ≠ .ok ∧ ¬ t.Awaits msg ∧ t.pool.setResponse msg = (rc, 0, t.pool) := by
  unfold MsgRequestPool.setResponse MsgRequestPool.findByHeader
  cases hfind : t.pool.findSlot msg.m_header.m_requestIndex.toNat msg.m_header.m_requestId with
  | error rc =>
    obtain ⟨hrc, hother⟩ := MsgRequestPool.findSlot_eq_error hfind
    refine .inr ⟨rc, hrc, ?_, rfl⟩
    rintro ⟨hlt, hlife⟩
    have hslot := List.getElem?_eq_getElem hlt
    apply hother _ hslot
    rw [← (h _ _ hslot).lastId_eq, hlife]
  | ok found =>
    obtain ⟨i, r⟩ := found
    obtain ⟨rfl, hslot, hid⟩ := MsgRequestPool.findSlot_eq_ok.mp hfind
    have hlt := (List.getElem?_eq_some_iff.mp hslot).1
    have hmatch := h _ r hslot
    -- the id is the last one of the slot, so the response is awaited or stale
    have hlife : t.lives msg.m_header.m_requestIndex.toNat = ⟨msg.m_header.m_requestId, true⟩ := by
      cases hl : t.lives msg.m_header.m_requestIndex.toNat with
      | mk lastId awaited =>
        have hlast : lastId = msg.m_header.m_requestId := by
          have := hmatch.lastId_eq
          rw [hl, hid] at this
          exact this
        cases awaited with
        | true => rw [hlast]
        | false => exact absurd ⟨hlt, by rw [hl, hlast]⟩ hstale
    obtain ⟨hpending, hrequest⟩ := hmatch.awaited (by rw [hlife])
    exact .inl ⟨r, hslot, hpending, hrequest, hid, ⟨hlt, hlife⟩, rfl⟩

/-- **One call keeps the invariant**, unless it brings a stale response. -/
theorem Inv.step {t t' : TrackedPool} (h : t.Inv) {op : PoolOp}
    (hstale : ∀ msg, op = .respond msg → ¬ t.Stale msg) (hstep : t.step op = .ok t') :
    t'.Inv := by
  cases op with
  | grab request requestFlags now sent =>
    unfold TrackedPool.step TrackedPool.grab at hstep
    rcases t.pool.grabSlot_cases with ⟨index, r, hslot, -, hgrab⟩ | ⟨-, -, hgrab⟩ | ⟨-, hgrab⟩
    · have hlt := (List.getElem?_eq_some_iff.mp hslot).1
      simp only [hgrab, MsgRequestPool.setSlot_self t.pool.issued hlt,
        MsgRequestPool.setSlot_setSlot] at hstep
      cases hstep
      refine h.issued.set ?_
      -- a request that was not sent leaves a slot that waits for nothing
      cases sent with
      | true => exact ⟨rfl, fun _ => ⟨rfl, by simp [MsgRequest.setRequest]⟩, nofun⟩
      | false => exact ⟨rfl, nofun, nofun⟩
    · simp only [hgrab] at hstep
      cases hstep
      exact h.issued
    · simp only [hgrab] at hstep
      cases hstep
  | respond msg =>
    -- not stale: a response that is taken answers the request in the slot
    rcases h.setResponse_cases (hstale msg rfl) with
      ⟨r, hslot, hpending, hrequest, hid, -, hset⟩ | ⟨rc, hrc, -, hset⟩
    · simp only [TrackedPool.step, hset, if_true] at hstep
      cases hstep
      exact h.set ⟨(h _ r hslot).lastId_eq, nofun, fun _ => hrequest⟩
    · simp only [TrackedPool.step, hset, hrc, if_false] at hstep
      cases hstep
      exact h
  | abort =>
    cases hstep
    intro i r hi
    simp only [MsgRequestPool.abortPendingRequests, List.getElem?_map, Option.map_eq_some_iff] at hi
    obtain ⟨r₀, hr₀, rfl⟩ := hi
    exact aborted_matches (h i r₀ hr₀)
  | wait requestId requestIndex =>
    rcases t.pool.waitPendingResponse_cases requestId requestIndex with
      ⟨r, response, hslot, -, -, -, hwait⟩ | ⟨rc, hrc, hwait⟩
    · simp only [TrackedPool.step, hwait, if_true] at hstep
      cases hstep
      exact h.set (cleared_matches (h _ r hslot))
    · simp only [TrackedPool.step, hwait, hrc, if_false] at hstep
      cases hstep
      exact h
  | clear response =>
    rcases t.pool.clearPendingRequest_cases response with
      ⟨r, hslot, -, hclear⟩ | ⟨rc, hrc, hclear⟩
    · simp only [TrackedPool.step, hclear, if_true] at hstep
      cases hstep
      exact h.set (cleared_matches (h _ r hslot))
    · simp only [TrackedPool.step, hclear, hrc, if_false] at hstep
      cases hstep
      exact h
  | clearSlot index =>
    unfold TrackedPool.step at hstep
    dsimp only at hstep
    split at hstep
    · cases hstep
    rename_i r hslot
    cases hstep
    exact h.set (cleared_matches (h _ r hslot))

/-! ## §4 The law, exactly -/

/-- A response that is not stale is taken as it should be. -/
theorem Inv.takenRightly {t : TrackedPool} (h : t.Inv) {msg : Msg} (hstale : ¬ t.Stale msg) :
    t.TakenRightly msg := by
  rcases h.setResponse_cases hstale with
    ⟨r, hslot, hpending, -, hid, hawaits, hset⟩ | ⟨rc, hrc, -, hset⟩
  · refine ⟨fun _ => ⟨r, hslot, hpending, hid⟩, fun hnot => absurd hawaits hnot, fun hne => ?_⟩
    rw [hset] at hne
    exact absurd rfl hne
  · refine ⟨fun hok => ?_, fun _ => by rw [hset]; exact hrc, fun _ => ⟨by rw [hset], ?_⟩⟩
    · rw [hset] at hok
      exact absurd hok hrc
    · intro c hc
      unfold MsgClient.onMsg
      rw [hc, hset]
      exact if_neg hrc

/-- A stale response is accepted, though nobody awaits it. -/
theorem Inv.not_takenRightly {t : TrackedPool} (h : t.Inv) {msg : Msg} (hstale : t.Stale msg) :
    ¬ t.TakenRightly msg := by
  intro hright
  obtain ⟨hlt, hlife⟩ := hstale
  refine hright.refused ?_ ?_
  · rintro ⟨-, hawaited⟩
    rw [hlife] at hawaited
    cases hawaited
  · have hslot := List.getElem?_eq_getElem hlt
    have hid := (h _ _ hslot).lastId_eq
    rw [hlife] at hid
    have hfind := MsgRequestPool.findSlot_eq_ok.mpr ⟨rfl, hslot, hid.symm⟩
    unfold MsgRequestPool.setResponse MsgRequestPool.findByHeader
    rw [hfind]

/-- **Late and duplicate responses**: whatever the order of calls on a pool, it takes every
    response as it should, and no slot ever has a response but no request, if and only if no
    response names a request that is the last one of its slot and is not awaited any more. -/
theorem late_responses_harmless_iff (poolSize : Nat) (nextRequestId : UInt64)
    (ops : List PoolOp) :
    Lawful (start poolSize nextRequestId) ops ↔
      NoStaleResponse (start poolSize nextRequestId) ops := by
  -- the invariant carries the induction on the calls
  suffices hrun : ∀ t : TrackedPool, t.Inv → (Lawful t ops ↔ NoStaleResponse t ops) from
    hrun _ (start_inv poolSize nextRequestId)
  induction ops with
  | nil =>
    intro t h
    exact ⟨fun _ => trivial, fun _ => h.noOrphan⟩
  | cons op ops ih =>
    intro t h
    refine ⟨fun hlaw => ?_, fun hno => ?_⟩
    · have hfresh : ∀ msg, op = .respond msg → ¬ t.Stale msg :=
        fun msg hop hstale => h.not_takenRightly hstale (hlaw.2.1 msg hop)
      exact ⟨hfresh, fun t' hstep => (ih t' (h.step hfresh hstep)).mp (hlaw.2.2 t' hstep)⟩
    · refine ⟨h.noOrphan, fun msg hop => h.takenRightly (hno.1 msg hop), fun t' hstep => ?_⟩
      exact (ih t' (h.step hno.1 hstep)).mpr (hno.2 t' hstep)

/-- A response that comes a second time, after the first one was fetched, is accepted into the
    vacant slot, which then has a response but no request. -/
theorem duplicate_response_accepted :
    ¬ Lawful (start 1 5) [.grab 100 0 10 true, .respond ⟨.mk' 40 0 0 5 0, []⟩, .wait 5 0,
      .respond ⟨.mk' 40 0 0 5 0, []⟩] := by
  intro hlaw
  have h₁ := hlaw.2.2 _ rfl
  have h₂ := h₁.2.2 _ rfl
  have h₃ := h₂.2.2 _ rfl
  have h₄ := h₃.2.2 _ rfl
  exact h₄ _ List.mem_cons_self rfl rfl

end TrackedPool

end Commutil.Client
