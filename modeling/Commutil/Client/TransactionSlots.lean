import Mathlib.Data.List.Nodup
import Mathlib.Data.List.Perm.Basic
import Commutil.Client.MsgClient
import Commutil.Library.Transitions

/-!
# The Slots of Transactions

`MsgRequestPool::getVacantRequest` finds a slot whenever there is one.  `MsgClient::transactMsgResponse`
takes such a slot for its request, and `waitPendingResponse` gives it back.

A transaction is two events, the send and the return of the wait, with responses, disconnects and
other transactions in between.  Main results: the slot search is complete and precise, and which
events leave a slot taken although nobody waits for it.
-/

namespace Commutil.Client

open Commutil.Framing Commutil.Io Commutil.Library

/-! ## §1 The slot search -/

namespace MsgRequestPool

/-- The search has taken the slot for the request id, and changed nothing else. -/
structure TakesSlot (pool : MsgRequestPool) (requestId : UInt64) (index : Nat)
    (pool' : MsgRequestPool) : Prop where
  in_range : index < pool.m_requests.length
  /-- The slot was vacant and is pending under the id; a message with id and index finds it. -/
  slot : ∃ r r', pool.m_requests[index]? = some r ∧ r.m_requestStatus = .idle ∧
    pool'.m_requests[index]? = some r' ∧ r'.m_requestStatus = .pending ∧
    r'.m_requestId = requestId ∧ ∀ h : MsgHeader, h.m_requestId = requestId →
      h.m_requestIndex.toNat = index → pool'.getRequestData h = some (index, r')
  others : ∀ j, j ≠ index → pool'.m_requests[j]? = pool.m_requests[j]?

theorem takesSlot_setSlot {pool : MsgRequestPool} {requestId : UInt64} {index : Nat}
    {r : MsgRequest} (hslot : pool.m_requests[index]? = some r)
    (hidle : r.m_requestStatus = .idle) :
    pool.TakesSlot requestId index (pool.setSlot index (r.grabbed requestId)) := by
  have hlt := (List.getElem?_eq_some_iff.mp hslot).1
  have hself := setSlot_self pool hlt (r.grabbed requestId)
  refine ⟨hlt, ⟨r, r.grabbed requestId, hslot, hidle, hself, rfl, rfl, ?_⟩, ?_⟩
  · intro h hid hindex
    have hfind : (pool.setSlot index (r.grabbed requestId)).findSlot index requestId =
        .ok (index, r.grabbed requestId) := findSlot_eq_ok.mpr ⟨rfl, hself, rfl⟩
    unfold getRequestData findByHeader
    rw [hid, hindex, hfind]
    rfl
  · exact fun j hj => setSlot_ne (Ne.symm hj) _

/-- **The slot search** of a pool that has slots finds a vacant one exactly if there is one. -/
theorem slot_search_complete (pool : MsgRequestPool) (hne : pool.m_requests ≠ [])
    (requestId : UInt64) :
    ((∃ found, pool.getVacantRequest requestId = .ok (some found)) ↔
      ∃ r ∈ pool.m_requests, r.m_requestStatus = .idle) ∧
    ((∃ found, pool.getVacantRequest requestId = .ok (some found)) ∨
      pool.getVacantRequest requestId = .ok none) ∧
    ∀ index pool', pool.getVacantRequest requestId = .ok (some (index, pool')) →
      pool.TakesSlot requestId index pool' := by
  rcases pool.getVacantRequest_spec hne requestId with
    ⟨index, r, hslot, hidle, hget⟩ | ⟨hget, hbusy⟩
  · rw [hget]
    refine ⟨iff_of_true ⟨_, rfl⟩ ⟨r, List.mem_of_getElem? hslot, hidle⟩, .inl ⟨_, rfl⟩, ?_⟩
    intro index' pool' hfound
    cases hfound
    exact takesSlot_setSlot hslot hidle
  · rw [hget]
    refine ⟨iff_of_false (fun ⟨_, h⟩ => (nomatch h)) fun ⟨r, hr, hidle⟩ => hbusy r hr hidle,
      .inr rfl, ?_⟩
    intro index' pool' hfound
    cases hfound

/-- The search for id 5 starts at the slot 2 of three, and goes around to the slot 1. -/
theorem slot_search_wraps :
    ∃ pool', (⟨[⟨3, .pending, 0, none, none, 0, 0⟩, .new, ⟨2, .arrived, 0, none, none, 0, 0⟩], 6⟩ :
        MsgRequestPool).getVacantRequest 5 = .ok (some (1, pool')) ∧
      (⟨[⟨3, .pending, 0, none, none, 0, 0⟩, .new, ⟨2, .arrived, 0, none, none, 0, 0⟩], 6⟩ :
        MsgRequestPool).TakesSlot 5 1 pool' :=
  ⟨_, rfl, (slot_search_complete _ (by decide) 5).2.2 1 _ rfl⟩

end MsgRequestPool

/-! ## §2 Runs of transactions -/

/-- A message client, and the calls of `transactMsgResponse` on it: those that wait for their
    responses, and the results of those that have returned. -/
structure TransactState where
  client : MsgClient
  waiting : List MsgRequestData
  returned : List ErrorCode

/-- An event of a run. -/
inductive TransactOp where
  /-- A call of `transactMsgResponse` sends its message. -/
  | call (request : MsgPtr) (msg : { msg : Msg // Consistent msg }) (env : SendEnv)
  /-- The wait of a call returns, and the call with it. -/
  | endWait (k : Nat)
  /-- A message arrives. -/
  | respond (msg : Msg)
  | disconnect

namespace TransactState

/-- The slots of the pool. -/
def slots (s : TransactState) : List MsgRequest := s.client.m_requestPool.m_requests

/-- One event. -/
def step (s : TransactState) : TransactOp → Except Fault TransactState
  | .call request msg env =>
    match (s.client.store request msg).sendMsg request COMMUTIL_REQUEST_FLAG_TX env with
    | .error fault => .error fault
    | .ok (.ok, some requestData, c) =>
      .ok { s with client := c, waiting := s.waiting ++ [requestData] }
    | .ok (rc, _, c) => .ok { s with client := c, returned := s.returned ++ [rc] }
  | .endWait k =>
    match s.waiting[k]? with
    | none => .ok s
    | some requestData =>
      let (rc, _, pool) := s.client.m_requestPool.waitPendingResponse requestData.m_requestId
        requestData.m_requestIndex
      .ok ⟨{ s.client with m_requestPool := pool }, s.waiting.eraseIdx k, s.returned ++ [rc]⟩
  | .respond msg => .ok { s with client := (s.client.onMsg msg).2.2 }
  | .disconnect => .ok { s with client := s.client.onDisconnect }

/-- A client with a new pool, and no calls. -/
def start (poolSize : Nat) (nextRequestId : UInt64) (byteOrder : ByteOrder) : TransactState :=
  ⟨⟨.initializePool poolSize nextRequestId, byteOrder, fun _ => none, []⟩, [], []⟩

/-- No call that has returned occupies a slot: a slot that is taken is that of a call that waits. -/
def NoneLeft (s : TransactState) : Prop :=
  ∀ i r, s.slots[i]? = some r → r.m_requestStatus ≠ .idle →
    ∃ requestData ∈ s.waiting, requestData.m_requestIndex = i

/-- The event gives back the slot of the call that it ends, and takes none for nobody.  A call that
    finds a slot is sent; a wait ends with the response; no response names a vacant slot by its
    last id. -/
def GivesBack (s : TransactState) : TransactOp → Prop
  | .call _ _ env =>
    (∃ r ∈ s.slots, r.m_requestStatus = .idle) → env.allocated = true ∧ env.write = .ok
  | .endWait k => ∀ requestData, s.waiting[k]? = some requestData →
    ∀ r, s.slots[requestData.m_requestIndex]? = some r → r.hasResponse = true
  | .respond msg => ∀ r, s.slots[msg.m_header.m_requestIndex.toNat]? = some r →
    r.m_requestId = msg.m_header.m_requestId → r.m_requestStatus ≠ .idle
  | .disconnect => True

/-! ## §3 The calls that wait -/

/-- Every call that waits has a slot of its own, under its id. -/
structure Waits (s : TransactState) : Prop where
  distinct : (s.waiting.map MsgRequestData.m_requestIndex).Nodup
  taken : ∀ requestData ∈ s.waiting, ∃ r, s.slots[requestData.m_requestIndex]? = some r ∧
    r.m_requestId = requestData.m_requestId ∧ r.m_requestStatus ≠ .idle

variable {s t : TransactState}

/-- What a call does that gets to its end or to its wait. -/
theorem step_call {request : MsgPtr} {msg : { msg : Msg // Consistent msg }} {env : SendEnv}
    (h : s.step (.call request msg env) = .ok t) :
    (∃ index r r' requestId, s.slots[index]? = some r ∧ r.m_requestStatus = .idle ∧
      r'.m_requestStatus = .pending ∧ r'.m_requestId = requestId ∧ t.slots = s.slots.set index r' ∧
      (env.allocated = true ∧ env.write = .ok ∧ t.waiting = s.waiting ++ [⟨requestId, index⟩] ∨
        ¬ (env.allocated = true ∧ env.write = .ok) ∧ t.waiting = s.waiting)) ∨
    (∀ r ∈ s.slots, r.m_requestStatus ≠ .idle) ∧ t.slots = s.slots ∧ t.waiting = s.waiting := by
  have hnew : (s.client.store request msg).sendMsg request COMMUTIL_REQUEST_FLAG_TX env =
      (s.client.store request msg).sendNew request COMMUTIL_REQUEST_FLAG_TX env :=
    if_neg (by decide)
  have hload : (s.client.store request msg).messages request = some msg.val :=
    Function.update_self ..
  unfold step at h
  dsimp only at h
  rw [hnew] at h
  by_cases hne : s.slots = []
  · -- a pool without slots is a fault
    have hgrab : (s.client.store request msg).m_requestPool.grabSlot = .error .divideByZero := by
      rcases (s.client.store request msg).m_requestPool.grabSlot_cases with
        ⟨index, r, hslot, -⟩ | ⟨hslots, -⟩ | ⟨-, hfault⟩
      · have hnil : (s.client.store request msg).m_requestPool.m_requests = [] := hne
        rw [hnil] at hslot
        cases hslot
      · exact absurd hne hslots
      · exact hfault
    unfold MsgClient.sendNew at h
    rw [hgrab] at h
    cases h
  · rcases MsgClient.sendNew_cases (s.client.store request msg) COMMUTIL_REQUEST_FLAG_TX env hne
        hload msg.property with ⟨index, r, hslot, hidle, hcase⟩ | ⟨hbusy, hcall⟩
    · -- a slot was idle and is pending now, also if the call fails
      left
      rcases hcase with ⟨halloc, hwrite, hcall⟩ | ⟨rc, hrc, hfailed, hcall⟩
      · rw [hcall] at h
        cases h
        exact ⟨index, r, _, _, hslot, hidle, rfl, rfl, rfl, .inl ⟨halloc, hwrite, rfl⟩⟩
      · rw [hcall] at h
        refine ⟨index, r, (r.holding request s.client.m_requestPool.m_nextRequestId
          COMMUTIL_REQUEST_FLAG_TX env.now).clearRequest, _, hslot, hidle, rfl, rfl, ?_⟩
        have hother : ¬ (env.allocated = true ∧ env.write = .ok) := by
          rintro ⟨halloc, hwrite⟩
          rcases hfailed with hno | hno
          · rw [halloc] at hno
            cases hno
          · exact hno hwrite
        split at h
        · cases h
        · rename_i heq
          cases heq
          exact absurd rfl hrc
        · rename_i heq
          cases heq
          cases h
          exact ⟨List.set_set .., .inr ⟨hother, rfl⟩⟩
    · -- no slot is idle
      right
      rw [hcall] at h
      cases h
      exact ⟨hbusy, rfl, rfl⟩

/-- What the end of a wait does. -/
theorem step_endWait {k : Nat} (h : s.step (.endWait k) = .ok t) :
    (s.waiting[k]? = none ∧ t = s) ∨
    ∃ requestData, s.waiting[k]? = some requestData ∧ t.waiting = s.waiting.eraseIdx k ∧
      ((∃ r, s.slots[requestData.m_requestIndex]? = some r ∧ r.hasResponse = true ∧
          t.slots = s.slots.set requestData.m_requestIndex r.clearResponse) ∨
        (∀ r, s.slots[requestData.m_requestIndex]? = some r →
          r.m_requestId = requestData.m_requestId → r.hasResponse = false) ∧
        t.slots = s.slots) := by
  unfold step at h
  dsimp only at h
  cases hk : s.waiting[k]? with
  | none =>
    rw [hk] at h
    cases h
    exact .inl ⟨rfl, rfl⟩
  | some requestData =>
    rw [hk] at h
    dsimp only at h
    refine .inr ⟨requestData, rfl, ?_⟩
    rcases s.client.m_requestPool.waitPendingResponse_cases requestData.m_requestId
        requestData.m_requestIndex with
      -- a response is in the slot and is taken out
      ⟨r, response, hslot, -, harrived, hresponse, hwait⟩ | ⟨rc, hrc, hwait⟩
    · rw [hwait] at h
      cases h
      refine ⟨rfl, .inl ⟨r, hslot, ?_, rfl⟩⟩
      unfold MsgRequest.hasResponse
      rw [harrived, hresponse]
      rfl
    · -- the wait is given up: the slot holds no response of this request
      have hother : ∀ r, s.slots[requestData.m_requestIndex]? = some r →
          r.m_requestId = requestData.m_requestId → r.hasResponse = false := by
        intro r hslot hid
        have hfind := MsgRequestPool.findSlot_eq_ok.mpr ⟨rfl, hslot, hid⟩
        by_contra hresponse
        unfold MsgRequest.hasResponse at hresponse
        simp only [Bool.not_eq_false, Bool.and_eq_true, beq_iff_eq] at hresponse
        obtain ⟨response, hsome⟩ := Option.isSome_iff_exists.mp hresponse.2
        unfold MsgRequestPool.waitPendingResponse MsgRequest.waitResponse at hwait
        simp only [hfind, hresponse.1, hsome] at hwait
        exact hrc (Prod.mk.inj hwait).1.symm
      rw [hwait] at h
      cases h
      exact ⟨rfl, .inr ⟨hother, rfl⟩⟩

/-- What an incoming message does. -/
theorem step_respond {msg : Msg} (h : s.step (.respond msg) = .ok t) :
    t.waiting = s.waiting ∧
    ((∃ r, s.slots[msg.m_header.m_requestIndex.toNat]? = some r ∧
        r.m_requestId = msg.m_header.m_requestId ∧
        t.slots = s.slots.set msg.m_header.m_requestIndex.toNat (r.setResponse msg)) ∨
      (∀ r, s.slots[msg.m_header.m_requestIndex.toNat]? = some r →
        r.m_requestId ≠ msg.m_header.m_requestId) ∧ t.slots = s.slots) := by
  unfold step MsgClient.onMsg MsgRequestPool.setResponse MsgRequestPool.findByHeader at h
  dsimp only at h
  cases hfind : s.client.m_requestPool.findSlot msg.m_header.m_requestIndex.toNat
      msg.m_header.m_requestId with
  | error rc =>
    rw [hfind] at h
    cases h
    exact ⟨rfl, .inr ⟨(MsgRequestPool.findSlot_eq_error hfind).2, rfl⟩⟩
  | ok found =>
    obtain ⟨i, r⟩ := found
    obtain ⟨rfl, hslot, hid⟩ := MsgRequestPool.findSlot_eq_ok.mp hfind
    rw [hfind] at h
    cases h
    exact ⟨rfl, .inl ⟨r, hslot, hid, rfl⟩⟩

theorem step_disconnect (h : s.step .disconnect = .ok t) :
    t.waiting = s.waiting ∧ t.slots = s.slots.map .abortResponse := by
  cases h
  exact ⟨rfl, rfl⟩

theorem abortResponse_id (r : MsgRequest) : r.abortResponse.m_requestId = r.m_requestId := by
  unfold MsgRequest.abortResponse
  split <;> rfl

theorem abortResponse_idle {r : MsgRequest} :
    r.abortResponse.m_requestStatus = .idle ↔ r.m_requestStatus = .idle := by
  unfold MsgRequest.abortResponse
  split
  · rename_i hpending
    rw [hpending]
    exact iff_of_false nofun nofun
  · exact Iff.rfl

/-- Whose slot is vacant does not wait. -/
theorem Waits.index_ne (hs : s.Waits) {index : Nat} {r : MsgRequest}
    (hslot : s.slots[index]? = some r) (hidle : r.m_requestStatus = .idle)
    {requestData : MsgRequestData} (hmem : requestData ∈ s.waiting) :
    requestData.m_requestIndex ≠ index := by
  rintro rfl
  obtain ⟨r', hslot', -, hbusy⟩ := hs.taken requestData hmem
  rw [hslot] at hslot'
  cases hslot'
  exact hbusy hidle

/-- The other calls have other slots. -/
theorem Waits.eraseIdx_ne (hs : s.Waits) {k : Nat} {requestData other : MsgRequestData}
    (hk : s.waiting[k]? = some requestData) (hother : other ∈ s.waiting.eraseIdx k) :
    other.m_requestIndex ≠ requestData.m_requestIndex := by
  obtain ⟨hlt, rfl⟩ := List.getElem?_eq_some_iff.mp hk
  have hperm := (List.getElem_cons_eraseIdx_perm hlt).map MsgRequestData.m_requestIndex
  have hnodup := hperm.nodup_iff.mpr hs.distinct
  rw [List.map_cons, List.nodup_cons] at hnodup
  exact fun heq => hnodup.1 (List.mem_map.mpr ⟨other, hother, heq⟩)

/-- **One event** leaves every call that waits its slot. -/
theorem Waits.step (hs : s.Waits) {op : TransactOp} (h : s.step op = .ok t) : t.Waits := by
  cases op with
  | call request msg env =>
    rcases step_call h with
      ⟨index, r, r', requestId, hslot, hidle, hpending, hid, hslots, hsent⟩ | ⟨-, hslots, hwaiting⟩
    · -- the slot is set pending, and no call waits for an idle one
      have hlt := (List.getElem?_eq_some_iff.mp hslot).1
      have hold : ∀ requestData ∈ s.waiting, ∃ r, t.slots[requestData.m_requestIndex]? = some r ∧
          r.m_requestId = requestData.m_requestId ∧ r.m_requestStatus ≠ .idle := by
        intro requestData hmem
        have hne := hs.index_ne hslot hidle hmem
        rw [hslots, List.getElem?_set_ne (Ne.symm hne)]
        exact hs.taken requestData hmem
      rcases hsent with ⟨-, -, hwaiting⟩ | ⟨-, hwaiting⟩
      · -- the call waits with the slot that it has taken
        refine ⟨?_, fun requestData hmem => ?_⟩
        · rw [hwaiting, List.map_append, List.map_singleton]
          refine List.nodup_append.mpr ⟨hs.distinct, List.nodup_singleton _, ?_⟩
          intro i hi j hj
          obtain ⟨requestData, hmem, rfl⟩ := List.mem_map.mp hi
          rw [List.mem_singleton.mp hj]
          exact hs.index_ne hslot hidle hmem
        · rw [hwaiting, List.mem_append, List.mem_singleton] at hmem
          rcases hmem with hmem | rfl
          · exact hold requestData hmem
          · refine ⟨r', ?_, hid, ?_⟩
            · rw [hslots]
              exact List.getElem?_set_self hlt
            · rw [hpending]
              decide
      · -- the call does not come to wait, and the others wait as before
        exact ⟨hwaiting ▸ hs.distinct, hwaiting ▸ hold⟩
    · refine ⟨hwaiting ▸ hs.distinct, ?_⟩
      rw [hwaiting, hslots]
      exact hs.taken
  -- the slot of the call may be cleared, and nobody else waits for it
  | endWait k =>
    rcases step_endWait h with ⟨-, rfl⟩ | ⟨requestData, hk, hwaiting, hslots⟩
    · exact hs
    · refine ⟨?_, fun other hother => ?_⟩
      · rw [hwaiting]
        exact hs.distinct.sublist ((List.eraseIdx_sublist ..).map _)
      · rw [hwaiting] at hother
        have hne := hs.eraseIdx_ne hk hother
        have hold := hs.taken other (List.mem_of_mem_eraseIdx hother)
        rcases hslots with ⟨r, -, -, hslots⟩ | ⟨-, hslots⟩
        · rw [hslots, List.getElem?_set_ne (Ne.symm hne)]
          exact hold
        · rw [hslots]
          exact hold
  | respond msg =>
    obtain ⟨hwaiting, hslots⟩ := step_respond h
    refine ⟨hwaiting ▸ hs.distinct, fun requestData hmem => ?_⟩
    rw [hwaiting] at hmem
    have hold := hs.taken requestData hmem
    rcases hslots with ⟨r, hslot, -, hslots⟩ | ⟨-, hslots⟩
    · rw [hslots]
      -- a response changes the status of a slot, not its id
      by_cases hindex : msg.m_header.m_requestIndex.toNat = requestData.m_requestIndex
      · obtain ⟨r₀, hslot₀, hid, -⟩ := hold
        rw [← hindex, hslot] at hslot₀
        cases hslot₀
        rw [← hindex]
        exact ⟨_, List.getElem?_set_self (List.getElem?_eq_some_iff.mp hslot).1, hid,
          by unfold MsgRequest.setResponse; exact nofun⟩
      · rw [List.getElem?_set_ne hindex]
        exact hold
    · rw [hslots]
      exact hold
  -- `abortResponse` keeps the ids
  | disconnect =>
    obtain ⟨hwaiting, hslots⟩ := step_disconnect h
    refine ⟨hwaiting ▸ hs.distinct, fun requestData hmem => ?_⟩
    rw [hwaiting] at hmem
    obtain ⟨r, hslot, hid, hbusy⟩ := hs.taken requestData hmem
    refine ⟨r.abortResponse, ?_, (abortResponse_id r).trans hid, fun hidle =>
      hbusy (abortResponse_idle.mp hidle)⟩
    rw [hslots, List.getElem?_map, hslot]
    rfl

/-! ## §4 Which events leave a slot behind -/

/-- A slot that is changed alone: nothing is left behind exactly if it is vacant now or one waits
    for it. -/
theorem noneLeft_set {index : Nat} {r' : MsgRequest} (hs : s.NoneLeft)
    (hlt : index < s.slots.length) (hslots : t.slots = s.slots.set index r')
    (hothers : ∀ requestData ∈ s.waiting, requestData.m_requestIndex ≠ index →
      ∃ data ∈ t.waiting, data.m_requestIndex = requestData.m_requestIndex) :
    t.NoneLeft ↔ (r'.m_requestStatus ≠ .idle →
      ∃ requestData ∈ t.waiting, requestData.m_requestIndex = index) := by
  constructor
  · intro hnone hbusy
    refine hnone index r' ?_ hbusy
    rw [hslots]
    exact List.getElem?_set_self hlt
  · intro hself i r hslot hbusy
    rw [hslots] at hslot
    by_cases hi : index = i
    · subst hi
      rw [List.getElem?_set_self hlt] at hslot
      cases hslot
      exact hself hbusy
    · rw [List.getElem?_set_ne hi] at hslot
      obtain ⟨requestData, hmem, rfl⟩ := hs i r hslot hbusy
      exact hothers requestData hmem (Ne.symm hi)

/-- **One event** keeps every taken slot with a call exactly if it gives back what it ends. -/
theorem noneLeft_step_iff (hwaits : s.Waits) (hs : s.NoneLeft) {op : TransactOp}
    (h : s.step op = .ok t) : t.NoneLeft ↔ s.GivesBack op := by
  cases op with
  -- a call takes an idle slot: if it does not come to wait, the slot is left taken
  | call request msg env =>
    rcases step_call h with
      ⟨index, r, r', requestId, hslot, hidle, hpending, -, hslots, hsent⟩ |
      ⟨hbusy, hslots, hwaiting⟩
    · have hlt := (List.getElem?_eq_some_iff.mp hslot).1
      have hsome : ∃ r ∈ s.slots, r.m_requestStatus = .idle :=
        ⟨r, List.mem_of_getElem? hslot, hidle⟩
      have hbusy : r'.m_requestStatus ≠ .idle := by
        rw [hpending]
        decide
      rcases hsent with ⟨halloc, hwrite, hwaiting⟩ | ⟨hnot, hwaiting⟩
      · have hiff := noneLeft_set hs hlt hslots fun requestData hmem _ =>
          ⟨requestData, by rw [hwaiting]; exact List.mem_append_left _ hmem, rfl⟩
        refine hiff.trans (iff_of_true (fun _ => ?_) fun _ => ⟨halloc, hwrite⟩)
        rw [hwaiting]
        exact ⟨⟨requestId, index⟩, List.mem_append_right _ List.mem_cons_self, rfl⟩
      · have hiff := noneLeft_set hs hlt hslots fun requestData hmem _ =>
          ⟨requestData, by rw [hwaiting]; exact hmem, rfl⟩
        refine hiff.trans (iff_of_false (fun hself => ?_) fun hgives => hnot (hgives hsome))
        -- the slot was vacant, so nobody waits for it
        obtain ⟨requestData, hmem, hindex⟩ := hself hbusy
        rw [hwaiting] at hmem
        exact hwaits.index_ne hslot hidle hmem hindex
    · -- no slot is idle, and nothing changes
      have hgives : s.GivesBack (.call request msg env) :=
        fun ⟨r, hr, hidle⟩ => absurd hidle (hbusy r hr)
      refine iff_of_true ?_ hgives
      unfold NoneLeft
      rw [hslots, hwaiting]
      exact hs
  -- a call ends: only a response makes it clear its slot
  | endWait k =>
    rcases step_endWait h with ⟨hk, rfl⟩ | ⟨requestData, hk, hwaiting, hslots⟩
    · exact iff_of_true hs fun requestData hsome => by rw [hk] at hsome; cases hsome
    · obtain ⟨r₀, hslot₀, hid, hbusy⟩ := hwaits.taken requestData (List.mem_of_getElem? hk)
      rcases hslots with ⟨r, hslot, hresponse, hslots⟩ | ⟨hnoResponse, hslots⟩
      · have hlt := (List.getElem?_eq_some_iff.mp hslot).1
        have hiff := noneLeft_set hs hlt hslots fun other hother hne => by
          refine ⟨other, ?_, rfl⟩
          obtain ⟨hltk, rfl⟩ := List.getElem?_eq_some_iff.mp hk
          have hperm := List.getElem_cons_eraseIdx_perm hltk
          rcases List.mem_cons.mp (hperm.mem_iff.mpr hother) with rfl | herase
          · exact absurd rfl hne
          · rw [hwaiting]
            exact herase
        refine hiff.trans (iff_of_true (fun hcleared => absurd rfl hcleared) ?_)
        intro data hdata r' hslot'
        rw [hk] at hdata
        cases hdata
        rw [hslot] at hslot'
        cases hslot'
        exact hresponse
      · refine iff_of_false (fun hnone => ?_) fun hgives => ?_
        · -- the slot is taken, and its call has returned
          obtain ⟨other, hother, hindex⟩ := hnone _ r₀ (by rw [hslots]; exact hslot₀) hbusy
          rw [hwaiting] at hother
          exact hwaits.eraseIdx_ne hk hother hindex
        · have hresponse := hgives requestData hk r₀ hslot₀
          rw [hnoResponse r₀ hslot₀ hid] at hresponse
          cases hresponse
  -- a response is stored even in a slot that nobody waits for
  | respond msg =>
    obtain ⟨hwaiting, hslots⟩ := step_respond h
    rcases hslots with ⟨r, hslot, hid, hslots⟩ | ⟨hother, hslots⟩
    · have hlt := (List.getElem?_eq_some_iff.mp hslot).1
      have hiff := noneLeft_set hs hlt hslots fun requestData hmem _ =>
        ⟨requestData, by rw [hwaiting]; exact hmem, rfl⟩
      refine hiff.trans ⟨fun hself r' hslot' _ hidle => ?_, fun hgives _ => ?_⟩
      · rw [hslot] at hslot'
        cases hslot'
        obtain ⟨requestData, hmem, hindex⟩ := hself
          (by unfold MsgRequest.setResponse; exact nofun)
        rw [hwaiting] at hmem
        exact hwaits.index_ne hslot hidle hmem hindex
      · rw [hwaiting]
        exact hs _ r hslot (hgives r hslot hid)
    · refine iff_of_true ?_ fun r hslot hid => absurd hid (hother r hslot)
      unfold NoneLeft
      rw [hslots, hwaiting]
      exact hs
  -- `abortResponse` changes no idle slot
  | disconnect =>
    obtain ⟨hwaiting, hslots⟩ := step_disconnect h
    refine iff_of_true (fun i r hslot hbusy => ?_) trivial
    rw [hslots, List.getElem?_map, Option.map_eq_some_iff] at hslot
    obtain ⟨r₀, hslot₀, rfl⟩ := hslot
    rw [hwaiting]
    exact hs i r₀ hslot₀ fun hidle => hbusy (abortResponse_idle.mpr hidle)

theorem start_waits (poolSize : Nat) (nextRequestId : UInt64) (byteOrder : ByteOrder) :
    (start poolSize nextRequestId byteOrder).Waits ∧
      (start poolSize nextRequestId byteOrder).NoneLeft := by
  refine ⟨⟨List.nodup_nil, fun _ hmem => nomatch hmem⟩, fun i r hslot hbusy => ?_⟩
  have hnew : r = .new := List.eq_of_mem_replicate (List.mem_of_getElem? hslot)
  rw [hnew] at hbusy
  exact absurd rfl hbusy

/-- **Transactions return their slots** in every run whose events all give back what they end: no
    slot is taken without a call that waits, and when none waits, every search finds a slot.  And an
    event of any run that does not give back leaves a slot behind. -/
theorem transactions_return_slots_iff (poolSize : Nat) (nextRequestId : UInt64)
    (byteOrder : ByteOrder) :
    (∀ ops s, RunsWith (fun s op t => s.step op = .ok t) GivesBack
        (start poolSize nextRequestId byteOrder) ops s →
      s.NoneLeft ∧ (s.waiting = [] → (∀ r ∈ s.slots, r.m_requestStatus = .idle) ∧
        ∀ requestId, s.client.m_requestPool.getVacantRequest requestId ≠ .ok none)) ∧
    ∀ ops s op t, RunsWith (fun s op t => s.step op = .ok t) (fun _ _ => True)
        (start poolSize nextRequestId byteOrder) ops s →
      s.NoneLeft → s.step op = .ok t → (t.NoneLeft ↔ s.GivesBack op) := by
  obtain ⟨hwaits, hnone⟩ := start_waits poolSize nextRequestId byteOrder
  constructor
  · intro ops s hrun
    have hs : s.Waits ∧ s.NoneLeft := by
      refine hrun.invariant (fun s => s.Waits ∧ s.NoneLeft) (fun s op t hs hgives hstep => ?_)
        ⟨hwaits, hnone⟩
      exact ⟨hs.1.step hstep, (noneLeft_step_iff hs.1 hs.2 hstep).mpr hgives⟩
    refine ⟨hs.2, fun hquiet => ?_⟩
    have hidle : ∀ r ∈ s.slots, r.m_requestStatus = .idle := by
      intro r hr
      obtain ⟨i, hi⟩ := List.mem_iff_getElem?.mp hr
      by_contra hbusy
      obtain ⟨requestData, hmem, -⟩ := hs.2 i r hi hbusy
      rw [hquiet] at hmem
      cases hmem
    refine ⟨hidle, fun requestId hget => ?_⟩
    by_cases hne : s.slots = []
    · have hnil : s.client.m_requestPool.m_requests = [] := hne
      unfold MsgRequestPool.getVacantRequest at hget
      rw [hnil] at hget
      cases hget
    · rcases s.client.m_requestPool.getVacantRequest_spec hne requestId with
        ⟨index, r, -, -, hfound⟩ | ⟨-, hbusy⟩
      · rw [hget] at hfound
        cases hfound
      · obtain ⟨r, hr⟩ := List.exists_mem_of_ne_nil _ hne
        exact hbusy r hr (hidle r hr)
  · intro ops s op t hrun hs hstep
    have hwaits' := hrun.invariant Waits (fun _ _ _ hs _ hstep => hs.step hstep) hwaits
    exact noneLeft_step_iff hwaits' hs hstep

/-- A request of one byte. -/
def oneByte : { msg : Msg // Consistent msg } := ⟨⟨.mk' 41 1 0 0 0, [97]⟩, by decide⟩

/-- A send that succeeds. -/
def sendNow : SendEnv := ⟨10, true, .ok⟩

/-- A transaction that gets its response gives its slot back. -/
theorem transaction_returns_slot :
    ∃ s, RunsWith (fun s op t => s.step op = .ok t) GivesBack (start 1 5 .networkOrder)
        [.call 100 oneByte sendNow, .respond ⟨.mk' 40 1 0 5 0, []⟩, .endWait 0] s ∧
      s.returned = [.ok] ∧ s.waiting = [] ∧ ∀ r ∈ s.slots, r.m_requestStatus = .idle := by
  obtain ⟨s, hrun, hreturned, hquiet⟩ : ∃ s, RunsWith (fun s op t => s.step op = .ok t) GivesBack
      (start 1 5 .networkOrder)
      [.call 100 oneByte sendNow, .respond ⟨.mk' 40 1 0 5 0, []⟩, .endWait 0] s ∧
      s.returned = [.ok] ∧ s.waiting = [] := by
    refine ⟨_, .cons (fun _ => ⟨rfl, rfl⟩) rfl (.cons ?_ rfl (.cons ?_ rfl (.nil _))), rfl, rfl⟩
    · intro r hslot _
      cases hslot
      exact nofun
    · intro data hdata r hslot
      cases hdata
      cases hslot
      rfl
  exact ⟨s, hrun, hreturned, hquiet,
    (((transactions_return_slots_iff 1 5 .networkOrder).1 _ s hrun).2 hquiet).1⟩

/-- A transaction that times out keeps the only slot, and the next one finds none. -/
theorem timed_out_transaction_keeps_slot :
    ∃ s t, RunsWith (fun s op t => s.step op = .ok t) (fun _ _ => True) (start 1 5 .networkOrder)
        [.call 100 oneByte sendNow, .endWait 0] s ∧
      s.returned = [.timedOut] ∧ s.waiting = [] ∧ ¬ s.NoneLeft ∧
      (∃ r ∈ s.slots, r.m_requestStatus = .pending) ∧
      s.step (.call 101 oneByte sendNow) = .ok t ∧ t.returned = [.timedOut, .resourceLimit] := by
  refine ⟨_, _, .cons trivial rfl (.cons trivial rfl (.nil _)), rfl, rfl, fun hnone => ?_,
    ⟨_, List.mem_cons_self, rfl⟩, rfl, rfl⟩
  obtain ⟨requestData, hmem, -⟩ := hnone 0 _ rfl nofun
  cases hmem

end TransactState

end Commutil.Client
