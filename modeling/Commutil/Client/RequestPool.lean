import Commutil.Framing.Message

/-!
# Requests and the Request Pool

`msg_request.cpp` and `msg_request_pool.cpp`: the slots a client keeps for its
outstanding requests, and the pool that finds a slot by the index and the id in
a message header.

A request message is known by its address, since the backlog and the callers hold
pointers to it; a response is stored by value.  A call that waits is modelled at
the moment it returns.  `MsgRequestPool::setListener` is never called in the
library, so the pool has no listener.
-/

namespace Commutil.Client

open Commutil.Framing

/-! ## §1 One slot -/

/-- The address of a request message. -/
abbrev MsgPtr := Nat

/-- `COMMUTIL_REQUEST_FLAG_TX`. -/
def COMMUTIL_REQUEST_FLAG_TX : UInt32 := 1

/-- `COMMUTIL_REQUEST_FLAG_REUSE`. -/
def COMMUTIL_REQUEST_FLAG_REUSE : UInt32 := 2

/-- `enum class MsgRequestStatus`. -/
inductive MsgRequestStatus where
  | idle
  | pending
  | arrived
  | aborted
  deriving DecidableEq, Repr

/-- `class MsgRequest`. -/
structure MsgRequest where
  m_requestId : UInt64
  m_requestStatus : MsgRequestStatus
  m_flags : UInt32
  m_request : Option MsgPtr
  m_response : Option Msg
  m_requestTimeMillis : UInt64
  m_resendTimeMillis : UInt64
  deriving DecidableEq, Repr

namespace MsgRequest

/-- The default constructor. -/
def new : MsgRequest := ⟨0, .idle, 0, none, none, 0, 0⟩

/-- `isVacant`. -/
def isVacant (r : MsgRequest) : Bool := r.m_requestStatus == .idle

/-- The slot taken for a request id. -/
def grabbed (r : MsgRequest) (requestId : UInt64) : MsgRequest :=
  { r with m_requestStatus := .pending, m_requestId := requestId }

/-- `tryGrab`, without another thread between its steps. -/
def tryGrab (r : MsgRequest) (requestId : UInt64) : Option MsgRequest :=
  if r.m_requestStatus ≠ .idle then none else some (r.grabbed requestId)

/-- `setRequest` at time `now`. -/
def setRequest (r : MsgRequest) (request : MsgPtr) (now : UInt64) : MsgRequest :=
  { r with m_request := some request, m_requestTimeMillis := now, m_resendTimeMillis := now }

/-- `setFlags`. -/
def setFlags (r : MsgRequest) (flags : UInt32) : MsgRequest := { r with m_flags := flags }

/-- The slot was taken for a transaction. -/
def isTx (r : MsgRequest) : Bool := r.m_flags &&& COMMUTIL_REQUEST_FLAG_TX ≠ 0

/-- `clearRequest`. -/
def clearRequest (r : MsgRequest) : MsgRequest :=
  { r with m_request := none, m_requestTimeMillis := 0 }

/-- `updateResendTime` at time `now`. -/
def updateResendTime (r : MsgRequest) (now : UInt64) : MsgRequest :=
  { r with m_resendTimeMillis := now }

/-- `waitResponse`, when it returns: the result and what is stored to `*response`. -/
def waitResponse (r : MsgRequest) : ErrorCode × Option Msg :=
  match r.m_requestStatus with
  | .idle => (.invalidState, none)
  | .pending => (.timedOut, none)
  | .aborted => (.ioCanceled, none)
  | .arrived => (.ok, r.m_response)

/-- `setResponse`. -/
def setResponse (r : MsgRequest) (response : Msg) : MsgRequest :=
  { r with m_response := some response, m_requestStatus := .arrived }

/-- `hasResponse`. -/
def hasResponse (r : MsgRequest) : Bool :=
  r.m_requestStatus == .arrived && r.m_response.isSome

/-- `abortResponse`. -/
def abortResponse (r : MsgRequest) : MsgRequest :=
  if r.m_requestStatus = .pending then { r with m_response := none, m_requestStatus := .aborted }
  else r

/-- `clearResponse`. -/
def clearResponse (r : MsgRequest) : MsgRequest :=
  { r with m_request := none, m_requestTimeMillis := 0, m_response := none,
           m_requestStatus := .idle }

end MsgRequest

/-! ## §2 The pool -/

/-- `class MsgRequestPool`. -/
structure MsgRequestPool where
  m_requests : List MsgRequest
  m_nextRequestId : UInt64
  deriving DecidableEq, Repr

namespace MsgRequestPool

/-- `initialize` of a new pool.  The constructor leaves `m_nextRequestId` undetermined. -/
def initializePool (poolSize : Nat) (nextRequestId : UInt64) : MsgRequestPool :=
  ⟨List.replicate poolSize .new, nextRequestId⟩

/-- Replace a slot. -/
def setSlot (pool : MsgRequestPool) (index : Nat) (r : MsgRequest) : MsgRequestPool :=
  { pool with m_requests := pool.m_requests.set index r }

/-- The pool after an id was issued. -/
def issued (pool : MsgRequestPool) : MsgRequestPool :=
  { pool with m_nextRequestId := pool.m_nextRequestId + 1 }

/-- `fetchAddRequestId`. -/
def fetchAddRequestId (pool : MsgRequestPool) : UInt64 × MsgRequestPool :=
  (pool.m_nextRequestId, pool.issued)

/-- The loop of `getVacantRequest`: the index and the slots after it was grabbed. -/
def vacantLoop (requestId : UInt64) (initial : Nat) (requests : List MsgRequest) :
    Nat → Nat → Option (Nat × List MsgRequest)
  | 0, _ => none
  | remaining + 1, i =>
    let index := (initial + i) % requests.length
    match requests[index]?.bind fun r => r.tryGrab requestId with
    | some r => some (index, requests.set index r)
    -- a slot in use, the next one is tried
    | none => vacantLoop requestId initial requests remaining (i + 1)

/-- `getVacantRequest`: the index of the slot, if there is a vacant one. -/
def getVacantRequest (pool : MsgRequestPool) (requestId : UInt64) :
    Except Fault (Option (Nat × MsgRequestPool)) :=
  let requestCount := pool.m_requests.length
  -- the remainder by the number of slots
  if requestCount = 0 then .error .divideByZero
  else
    let initialRequestId := requestId.toNat % 2 ^ 32 % requestCount
    match vacantLoop requestId initialRequestId pool.m_requests requestCount 0 with
    | some (index, requests) => .ok (some (index, { pool with m_requests := requests }))
    | none => .ok none

/-- A new id, and a slot for it: how `MsgClient::sendMsg` and `MsgSender::renewRequestId` begin. -/
def grabSlot (pool : MsgRequestPool) : Except Fault (UInt64 × Option Nat × MsgRequestPool) :=
  let (requestId, pool) := pool.fetchAddRequestId
  match pool.getVacantRequest requestId with
  | .error fault => .error fault
  | .ok none => .ok (requestId, none, pool)
  | .ok (some (requestIndex, pool)) => .ok (requestId, some requestIndex, pool)

/-- The slot that a message names by its index and id, or the error. -/
def findSlot (pool : MsgRequestPool) (requestIndex : Nat) (requestId : UInt64) :
    Except ErrorCode (Nat × MsgRequest) :=
  match pool.m_requests[requestIndex]? with
  | none => .error .invalidArgument
  | some r => if r.m_requestId ≠ requestId then .error .dataCorrupt else .ok (requestIndex, r)

/-- The slot named by a message header. -/
def findByHeader (pool : MsgRequestPool) (h : MsgHeader) : Except ErrorCode (Nat × MsgRequest) :=
  pool.findSlot h.m_requestIndex.toNat h.m_requestId

/-- `getRequestData`. -/
def getRequestData (pool : MsgRequestPool) (request : MsgHeader) : Option (Nat × MsgRequest) :=
  (pool.findByHeader request).toOption

/-- `abortPendingRequests`. -/
def abortPendingRequests (pool : MsgRequestPool) : MsgRequestPool :=
  { pool with m_requests := pool.m_requests.map .abortResponse }

/-- `waitPendingResponse`, when it returns. -/
def waitPendingResponse (pool : MsgRequestPool) (requestId : UInt64) (requestIndex : Nat) :
    ErrorCode × Option Msg × MsgRequestPool :=
  match pool.findSlot requestIndex requestId with
  | .error rc => (rc, none, pool)
  | .ok (index, r) =>
    match r.waitResponse with
    -- the slot is vacant from here on
    | (.ok, some response) => (.ok, some response, pool.setSlot index r.clearResponse)
    | (.ok, none) => (.internalError, none, pool)
    | (rc, _) => (rc, none, pool)

/-- `clearPendingRequest`. -/
def clearPendingRequest (pool : MsgRequestPool) (response : MsgHeader) :
    ErrorCode × MsgRequestPool :=
  match pool.findByHeader response with
  | .error rc => (rc, pool)
  | .ok (index, r) => (.ok, pool.setSlot index r.clearResponse)

/-- `setResponse`: the result, the flags of the request if it was found, and the pool. -/
def setResponse (pool : MsgRequestPool) (msg : Msg) : ErrorCode × UInt32 × MsgRequestPool :=
  match pool.findByHeader msg.m_header with
  | .error rc => (rc, 0, pool)
  | .ok (index, r) => (.ok, r.m_flags, pool.setSlot index (r.setResponse msg))

/-! ## §3 Finding a slot -/

section Lookup

variable {pool : MsgRequestPool} {index : Nat} {requestId : UInt64} {r : MsgRequest}

@[simp] theorem setSlot_length (pool : MsgRequestPool) (index : Nat) (r : MsgRequest) :
    (pool.setSlot index r).m_requests.length = pool.m_requests.length :=
  List.length_set

@[simp] theorem issued_requests (pool : MsgRequestPool) :
    pool.issued.m_requests = pool.m_requests := rfl

@[simp] theorem setSlot_setSlot (pool : MsgRequestPool) (index : Nat) (r r' : MsgRequest) :
    (pool.setSlot index r).setSlot index r' = pool.setSlot index r' := by
  unfold setSlot
  rw [List.set_set]

theorem setSlot_self (pool : MsgRequestPool) (h : index < pool.m_requests.length)
    (r : MsgRequest) :
    (pool.setSlot index r).m_requests[index]? = some r :=
  List.getElem?_set_self h

theorem setSlot_ne {j : Nat} (h : index ≠ j) (r : MsgRequest) :
    (pool.setSlot index r).m_requests[j]? = pool.m_requests[j]? :=
  List.getElem?_set_ne h

theorem findSlot_eq_ok {i : Nat} :
    pool.findSlot index requestId = .ok (i, r) ↔
      i = index ∧ pool.m_requests[index]? = some r ∧ r.m_requestId = requestId := by
  unfold findSlot
  cases hslot : pool.m_requests[index]? with
  | none => simp
  | some s =>
    by_cases hid : s.m_requestId = requestId
    · simp only [hid, ne_eq, not_true_eq_false, if_false, Except.ok.injEq, Prod.mk.injEq,
        Option.some.injEq]
      refine ⟨?_, ?_⟩
      · rintro ⟨rfl, rfl⟩
        exact ⟨rfl, rfl, hid⟩
      · rintro ⟨rfl, rfl, -⟩
        exact ⟨rfl, rfl⟩
    · simp only [ne_eq, hid, not_false_eq_true, if_true, reduceCtorEq, Option.some.injEq,
        false_iff]
      rintro ⟨-, rfl, hid'⟩
      exact hid hid'

/-- A lookup that fails is one for an index out of range or for another id. -/
theorem findSlot_eq_error {rc : ErrorCode} (h : pool.findSlot index requestId = .error rc) :
    rc ≠ .ok ∧ ∀ r, pool.m_requests[index]? = some r → r.m_requestId ≠ requestId := by
  unfold findSlot at h
  split at h
  · rename_i hnone
    cases h
    exact ⟨by decide, fun r hr => by rw [hnone] at hr; cases hr⟩
  · rename_i s hsome
    split at h
    · rename_i hid
      cases h
      refine ⟨by decide, fun r hr => ?_⟩
      rw [hsome] at hr
      cases hr
      exact hid
    · cases h

end Lookup

/-! ## §4 Grabbing a slot -/

theorem tryGrab_eq_some {r r' : MsgRequest} {requestId : UInt64} :
    r.tryGrab requestId = some r' ↔ r.m_requestStatus = .idle ∧
      r' = r.grabbed requestId := by
  unfold MsgRequest.tryGrab
  split
  · rename_i h
    simp [h]
  · rename_i h
    simp [not_not.mp h, eq_comm]

/-- What the search returns: a slot that was vacant, now pending under the id. -/
theorem vacantLoop_eq_some {requestId : UInt64} {initial : Nat}
    {requests requests' : List MsgRequest}
    {remaining i index : Nat}
    (h : vacantLoop requestId initial requests remaining i = some (index, requests')) :
    ∃ r, requests[index]? = some r ∧ r.m_requestStatus = .idle ∧
      requests' = requests.set index (r.grabbed requestId) := by
  induction remaining generalizing i with
  | zero => cases h
  | succ remaining ih =>
    rw [vacantLoop] at h
    split at h
    · rename_i r' hgrab
      cases h
      obtain ⟨r, hr, hr'⟩ := Option.bind_eq_some_iff.mp hgrab
      obtain ⟨hidle, rfl⟩ := tryGrab_eq_some.mp hr'
      exact ⟨r, hr, hidle, rfl⟩
    · exact ih h

/-- The search goes around the whole pool. -/
theorem vacantLoop_eq_none {requestId : UInt64} {initial : Nat} {requests : List MsgRequest}
    {remaining i : Nat} (h : vacantLoop requestId initial requests remaining i = none) {k : Nat}
    (hk : i ≤ k) (hk' : k < i + remaining) {r : MsgRequest}
    (hr : requests[(initial + k) % requests.length]? = some r) : r.m_requestStatus ≠ .idle := by
  induction remaining generalizing i with
  | zero => omega
  | succ remaining ih =>
    rw [vacantLoop] at h
    split at h
    · cases h
    · rename_i hnone
      rcases Nat.eq_or_lt_of_le hk with rfl | hlt
      · rw [hr, Option.bind_some] at hnone
        intro hidle
        unfold MsgRequest.tryGrab at hnone
        rw [if_neg (not_not.mpr hidle)] at hnone
        cases hnone
      · exact ih h (by omega) (by omega)

/-- **Specification of `getVacantRequest`** on a pool that has slots. -/
theorem getVacantRequest_spec (pool : MsgRequestPool) (hne : pool.m_requests ≠ [])
    (requestId : UInt64) :
    (∃ index r, pool.m_requests[index]? = some r ∧ r.m_requestStatus = .idle ∧
      pool.getVacantRequest requestId =
        .ok (some (index, pool.setSlot index (r.grabbed requestId)))) ∨
    (pool.getVacantRequest requestId = .ok none ∧
      ∀ r ∈ pool.m_requests, r.m_requestStatus ≠ .idle) := by
  have hpos : 0 < pool.m_requests.length := List.length_pos_iff.mpr hne
  unfold getVacantRequest
  rw [if_neg (by omega)]
  dsimp only
  cases hloop : vacantLoop requestId (requestId.toNat % 2 ^ 32 % pool.m_requests.length)
      pool.m_requests pool.m_requests.length 0 with
  | some res =>
    obtain ⟨index, requests⟩ := res
    obtain ⟨r, hr, hidle, rfl⟩ := vacantLoop_eq_some hloop
    exact .inl ⟨index, r, hr, hidle, rfl⟩
  | none =>
    refine .inr ⟨rfl, fun r hr => ?_⟩
    -- every index is visited: go around from the start of the search
    obtain ⟨j, hj, rfl⟩ := List.mem_iff_getElem.mp hr
    generalize requestId.toNat % 2 ^ 32 % pool.m_requests.length = initial at hloop
    have hwrap : (initial + (j + pool.m_requests.length - initial % pool.m_requests.length) %
        pool.m_requests.length) % pool.m_requests.length = j := by
      have hlt := Nat.mod_lt initial hpos
      have hsum : initial + (j + pool.m_requests.length - initial % pool.m_requests.length) =
          j + pool.m_requests.length * (initial / pool.m_requests.length + 1) := by
        have := Nat.div_add_mod initial pool.m_requests.length
        rw [Nat.mul_add, Nat.mul_one]
        omega
      rw [Nat.add_mod_mod, hsum, Nat.add_mul_mod_self_left, Nat.mod_eq_of_lt hj]
    refine vacantLoop_eq_none hloop (Nat.zero_le _) (k := (j + pool.m_requests.length -
      initial % pool.m_requests.length) % pool.m_requests.length) ?_ ?_
    · rw [Nat.zero_add]
      exact Nat.mod_lt _ hpos
    · rw [hwrap]
      exact List.getElem?_eq_getElem hj

/-- **Specification of `grabSlot`**, also for a pool without slots. -/
theorem grabSlot_cases (pool : MsgRequestPool) :
    (∃ index r, pool.m_requests[index]? = some r ∧ r.m_requestStatus = .idle ∧
      pool.grabSlot = .ok (pool.m_nextRequestId, some index,
        pool.issued.setSlot index (r.grabbed pool.m_nextRequestId))) ∨
    (pool.m_requests ≠ [] ∧ (∀ r ∈ pool.m_requests, r.m_requestStatus ≠ .idle) ∧
      pool.grabSlot = .ok (pool.m_nextRequestId, none, pool.issued)) ∨
    (pool.m_requests = [] ∧ pool.grabSlot = .error .divideByZero) := by
  unfold grabSlot fetchAddRequestId
  dsimp only
  by_cases hne : pool.m_requests = []
  · refine .inr (.inr ⟨hne, ?_⟩)
    unfold getVacantRequest
    rw [issued_requests, hne]
    rfl
  · rcases getVacantRequest_spec pool.issued hne pool.m_nextRequestId with
      ⟨index, r, hr, hidle, hget⟩ | ⟨hget, hbusy⟩
    · exact .inl ⟨index, r, hr, hidle, by rw [hget]⟩
    · exact .inr (.inl ⟨hne, hbusy, by rw [hget]⟩)

/-! ## §5 Waiting and clearing -/

/-- A wait succeeds with the response of the slot, which it clears, or changes nothing. -/
theorem waitPendingResponse_cases (pool : MsgRequestPool) (requestId : UInt64) (index : Nat) :
    (∃ r response, pool.m_requests[index]? = some r ∧ r.m_requestId = requestId ∧
      r.m_requestStatus = .arrived ∧ r.m_response = some response ∧
      pool.waitPendingResponse requestId index =
        (.ok, some response, pool.setSlot index r.clearResponse)) ∨
    ∃ rc, rc ≠ .ok ∧ pool.waitPendingResponse requestId index = (rc, none, pool) := by
  unfold waitPendingResponse
  cases hfind : pool.findSlot index requestId with
  | error rc => exact .inr ⟨rc, (findSlot_eq_error hfind).1, rfl⟩
  | ok found =>
    obtain ⟨i, r⟩ := found
    obtain ⟨rfl, hslot, hid⟩ := findSlot_eq_ok.mp hfind
    unfold MsgRequest.waitResponse
    cases hstatus : r.m_requestStatus with
    | idle => exact .inr ⟨.invalidState, by decide, by simp only [hstatus]⟩
    | pending => exact .inr ⟨.timedOut, by decide, by simp only [hstatus]⟩
    | aborted => exact .inr ⟨.ioCanceled, by decide, by simp only [hstatus]⟩
    | arrived =>
      cases hresponse : r.m_response with
      | none => exact .inr ⟨.internalError, by decide, by simp only [hstatus, hresponse]⟩
      | some response =>
        exact .inl ⟨r, response, hslot, hid, hstatus, hresponse, by simp only [hstatus, hresponse]⟩

theorem clearPendingRequest_cases (pool : MsgRequestPool) (h : MsgHeader) :
    (∃ r, pool.m_requests[h.m_requestIndex.toNat]? = some r ∧ r.m_requestId = h.m_requestId ∧
      pool.clearPendingRequest h =
        (.ok, pool.setSlot h.m_requestIndex.toNat r.clearResponse)) ∨
    ∃ rc, rc ≠ .ok ∧ pool.clearPendingRequest h = (rc, pool) := by
  unfold clearPendingRequest findByHeader
  cases hfind : pool.findSlot h.m_requestIndex.toNat h.m_requestId with
  | error rc => exact .inr ⟨rc, (findSlot_eq_error hfind).1, rfl⟩
  | ok found =>
    obtain ⟨i, r⟩ := found
    obtain ⟨rfl, hslot, hid⟩ := findSlot_eq_ok.mp hfind
    exact .inl ⟨r, hslot, hid, rfl⟩

end MsgRequestPool

end Commutil.Client
