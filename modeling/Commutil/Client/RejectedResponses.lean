import Commutil.Client.MsgSender

/-!
# Rejected Responses

What becomes of a request when the frame listener does not accept the response to it: in
`MsgSender::processPendingResponses` for asynchronous requests, and in `MsgSender::recvResponse`
and `MsgSender::transactMsgInternal` for transactions.

The README has such a request renew its id and go out again.  Two main results: on neither path
does a rejected request survive the call, and which verdicts a transaction reports.
-/

namespace Commutil.Client

open Commutil.Framing Commutil.Io Commutil.Library

namespace MsgSender

variable {κ : Type} {s s' : MsgSender κ} {request : Option MsgPtr} {p : MsgPtr}

/-! ## §1 What the calls leave alone -/

/-- The listener changes nothing of the sender. -/
theorem handleResponse_eq {response : Msg} {rc : ErrorCode}
    (h : s.handleResponse response = .ok (rc, s')) : s' = { s with calls := s'.calls } := by
  unfold handleResponse at h
  dsimp only at h
  generalize Dispatch.readMsgFrame
      (fun calls => s.m_frameReader.m_frameListener (s.calls ++ calls))
      s.m_frameReader.connectionDetails s.m_frameReader.z s.m_frameReader.m_byteOrder response =
    run at h
  cases run with
  | error fault => cases h
  | ok result =>
    cases h
    rfl

/-- A single message is handed to the listener, whose verdict is the result. -/
theorem handleResponse_single {response : Msg} {payload : List UInt8}
    (hpayload : MsgFrameReader.readPayload s.m_frameReader.z response = .ok (.ok payload))
    (hbatch : response.m_header.isBatch = false) :
    s.handleResponse response =
      .ok (s.m_frameReader.m_frameListener s.calls
          (.handleMsg s.m_frameReader.connectionDetails response.m_header
              (0, payload.length) true 1),
        { s with calls := s.calls ++ [.handleMsg s.m_frameReader.connectionDetails
          response.m_header (0, payload.length) true 1] }) := by
  have hrun : ∀ listener : Dispatch.Listener κ,
      Dispatch.readMsgFrame listener s.m_frameReader.connectionDetails s.m_frameReader.z
          s.m_frameReader.m_byteOrder response =
        .ok (listener [] (.handleMsg s.m_frameReader.connectionDetails response.m_header
          (0, payload.length) true 1), [.handleMsg s.m_frameReader.connectionDetails
          response.m_header (0, payload.length) true 1]) := by
    intro listener
    unfold Dispatch.readMsgFrame
    rw [hpayload]
    unfold MsgFrameReader.handlePayload MsgFrameReader.dispatchPayload
    dsimp only
    rw [hbatch]
    rfl
  have hlogged := congrArg s.logCalls
    (hrun fun calls => s.m_frameReader.m_frameListener (s.calls ++ calls))
  rw [List.append_nil] at hlogged
  exact hlogged

theorem removeFromBacklog_eq {rc : ErrorCode} (h : s.removeFromBacklog request = .ok (rc, s')) :
    s' = { s with m_backlog := s'.m_backlog } := by
  unfold removeFromBacklog at h
  split at h
  · cases h
  · split at h
    · cases h
    · cases h
      rfl

/-- A request that is freed was allocated, and is not any more. -/
theorem freeMsg_eq_ok : s.freeMsg (some p) = .ok s' ↔ (s.messages p).isSome ∧
    s' = { s.withMessages (Function.update s.messages p none) with
      freed := s.freed ++ [⟨p, s.refersTo p⟩] } := by
  unfold freeMsg
  dsimp only
  cases hmsg : s.messages p with
  | none => exact ⟨fun h => (nomatch h), fun h => (nomatch h.1)⟩
  | some msg =>
    constructor
    · intro h
      cases h
      exact ⟨rfl, rfl⟩
    · rintro ⟨-, rfl⟩
      rfl

theorem freeMsg_messages (h : s.freeMsg (some p) = .ok s') : s'.messages p = none := by
  obtain ⟨-, rfl⟩ := freeMsg_eq_ok.mp h
  exact Function.update_self ..

/-- What is freed stays freed. -/
theorem freeMsg_keeps_none (h : s.freeMsg request = .ok s') (hnone : s.messages p = none) :
    s'.messages p = none := by
  cases request with
  | none =>
    cases h
    exact hnone
  | some q =>
    obtain ⟨-, rfl⟩ := freeMsg_eq_ok.mp h
    have hupdate : (Function.update s.messages q none) p = none := by
      by_cases hpq : p = q
      · subst hpq
        exact Function.update_self ..
      · rw [Function.update_of_ne hpq]
        exact hnone
    exact hupdate

theorem takeResponse_messages {response : Option Msg}
    (h : s.takeResponse request response = .ok s') :
    s'.messages = s.messages := by
  cases response with
  | none =>
    cases h
    rfl
  | some response =>
    rw [takeResponse] at h
    cases hhandle : s.handleResponse response with
    | error fault =>
      rw [hhandle] at h
      cases h
    | ok result =>
      obtain ⟨rc, s₁⟩ := result
      have hs₁ := handleResponse_eq hhandle
      rw [hhandle] at h
      dsimp only [bind, Except.bind] at h
      split at h
      · cases hremove : s₁.removeFromBacklog request with
        | error fault =>
          rw [hremove] at h
          cases h
        | ok result =>
          obtain ⟨rc', s₂⟩ := result
          have hs₂ := removeFromBacklog_eq hremove
          rw [hremove] at h
          cases h
          rw [hs₂, hs₁]
          rfl
      · cases h
        rw [hs₁]
        rfl

/-! ## §2 One slot of `processPendingResponses` -/

/-- The slot is that of an asynchronous request with a response. -/
structure HasResponse (s : MsgSender κ) (index : Nat) (p : MsgPtr) (response : Msg) : Prop where
  taken : (s.pool.slot index).isVacant = false
  asynchronous : (s.pool.slot index).isTx = false
  arrived : (s.pool.slot index).m_requestStatus = .arrived
  request_eq : (s.pool.slot index).m_request = some p
  response_eq : (s.pool.slot index).m_response = some response

/-- The frame listener, or the reader before it, returns an error for the response. -/
def Rejects (s : MsgSender κ) (response : Msg) (verdict : ErrorCode) : Prop :=
  verdict ≠ .ok ∧ ∃ s', s.handleResponse response = .ok (verdict, s')

theorem HasResponse.process_eq {index : Nat} {response : Msg} (h : s.HasResponse index p response)
    (now : UInt64) :
    s.processPendingResponse index now =
      ((s.setSlot index (s.pool.slot index).clearResponse).takeResponse (some p) (some response) >>=
        fun s => s.freeMsg (some p)) := by
  have hwait : (s.pool.slot index).waitResponse = (.ok, some response) := by
    unfold MsgRequest.waitResponse
    rw [h.arrived, h.response_eq]
  unfold processPendingResponse
  dsimp only
  rw [h.taken, h.asynchronous, if_neg (by decide), hwait, h.request_eq]

/-- After a rejected response, the request is freed and nothing else happens. -/
theorem HasResponse.rejected_eq {index : Nat} {response : Msg} {verdict : ErrorCode}
    {t : MsgSender κ} (h : s.HasResponse index p response)
    (hhandle : (s.setSlot index (s.pool.slot index).clearResponse).handleResponse response =
      .ok (verdict, t)) (hne : verdict ≠ .ok) (now : UInt64) :
    s.processPendingResponse index now = t.freeMsg (some p) := by
  have htake : (s.setSlot index (s.pool.slot index).clearResponse).takeResponse (some p)
      (some response) = .ok t := by
    rw [takeResponse, hhandle]
    exact if_neg hne
  rw [h.process_eq now, htake]
  rfl

/-- After its response was looked at, a request is freed. -/
theorem HasResponse.frees {index : Nat} {response : Msg} (h : s.HasResponse index p response)
    {now : UInt64} (hcall : s.processPendingResponse index now = .ok s') :
    s'.messages p = none := by
  rw [h.process_eq now] at hcall
  cases htake : (s.setSlot index (s.pool.slot index).clearResponse).takeResponse (some p)
      (some response) with
  | error fault =>
    rw [htake] at hcall
    cases hcall
  | ok s₁ =>
    rw [htake] at hcall
    exact freeMsg_messages hcall

theorem processPendingResponse_keeps_none {index : Nat} {now : UInt64}
    (hcall : s.processPendingResponse index now = .ok s') (hnone : s.messages p = none) :
    s'.messages p = none := by
  unfold processPendingResponse at hcall
  dsimp only at hcall
  split at hcall
  · cases hcall
    exact hnone
  · split at hcall
    · rename_i response _
      cases htake : (s.setSlot index (s.pool.slot index).clearResponse).takeResponse
          (s.pool.slot index).m_request response with
      | error fault =>
        rw [htake] at hcall
        cases hcall
      | ok s₁ =>
        rw [htake] at hcall
        refine freeMsg_keeps_none hcall ?_
        rw [takeResponse_messages htake]
        exact hnone
    · split at hcall
      · exact freeMsg_keeps_none hcall hnone
      · cases hcall
        exact hnone

/-- A request that is freed stays freed to the end of the pass. -/
theorem processSlots_keeps_none {clock : Nat → UInt64} {slots : List Nat}
    (hcall : slots.foldlM (fun s index => s.processPendingResponse index (clock index)) s = .ok s')
    (hnone : s.messages p = none) : s'.messages p = none := by
  induction slots generalizing s with
  | nil =>
    cases hcall
    exact hnone
  | cons index slots ih =>
    rw [List.foldlM_cons] at hcall
    cases hfirst : s.processPendingResponse index (clock index) with
    | error fault =>
      rw [hfirst] at hcall
      cases hcall
    | ok s₁ =>
      rw [hfirst] at hcall
      exact ih hcall (processPendingResponse_keeps_none hfirst hnone)

/-- The pass over the slots reaches the given slot in the given state. -/
def ReachesSlot (s : MsgSender κ) (clock : Nat → UInt64) (index : Nat) (t : MsgSender κ) : Prop :=
  index < s.pool.m_requests.length ∧
  (List.range index).foldlM (fun s index => s.processPendingResponse index (clock index)) s = .ok t

/-- **Asynchronous requests**: the request of a slot that has a response does not survive the
    pass. -/
theorem ReachesSlot.frees {clock : Nat → UInt64} {index : Nat} {t : MsgSender κ} {response : Msg}
    (hreach : s.ReachesSlot clock index t) (h : t.HasResponse index p response)
    (hcall : s.processPendingResponses clock = .ok s') : s'.messages p = none := by
  obtain ⟨hlt, hbefore⟩ := hreach
  obtain ⟨more, hmore⟩ : ∃ more, s.pool.m_requests.length = index + (more + 1) :=
    ⟨s.pool.m_requests.length - index - 1, by omega⟩
  have hrest : List.foldlM (fun s index => s.processPendingResponse index (clock index)) t
      (index :: (List.range more).map fun i => index + (i + 1)) = .ok s' := by
    unfold processPendingResponses at hcall
    rw [hmore, List.range_add, List.foldlM_append, hbefore, List.range_succ_eq_map, List.map_cons,
      List.map_map] at hcall
    exact hcall
  rw [List.foldlM_cons] at hrest
  cases hslot : t.processPendingResponse index (clock index) with
  | error fault =>
    rw [hslot] at hrest
    cases hrest
  | ok s₁ =>
    rw [hslot] at hrest
    exact processSlots_keeps_none hrest (h.frees hslot)

/-! ## §3 Transactions -/

section Transactions

variable {env : TransactEnv κ} {form : TransactForm} {response : Msg} {rc verdict : ErrorCode}
  {t t₀ : MsgSender κ} {data : MsgRequestData} {pool : MsgRequestPool}

/-- A call of `transactMsg` that does not come to send a request reports an error. -/
theorem requestOf_error (h : s.requestOf env form = .ok (.error rc)) : rc ≠ .ok := by
  -- the errors of the four forms are those of building the frame
  have hplace : ∀ frame, s.placeRequest env.address frame = .ok (.error rc) →
      frame = .ok (.error rc) := by
    intro frame hframe
    unfold placeRequest at hframe
    rcases frame with fault | rc' | msg
    · cases hframe
    · cases hframe
      rfl
    · cases hframe
  cases form with
  | body msgId body compress flags =>
    have hframe := hplace _ h
    split at hframe
    · cases hframe
      decide
    · rw [prepareMsgFrame_error hframe]
      decide
  | writer msgId msgWriter hwriter compress flags =>
    have hframe := hplace _ h
    unfold Framing.MsgSender.transactMsgFrame at hframe
    split at hframe
    · cases hframe
      decide
    · rcases prepareMsgFrameOf_error _ _ _ _ hframe with rfl | hwrite
      · decide
      · exact fun hrc => hwriter (hrc ▸ hwrite)
  | batch msgId bufferArray compress flags =>
    have hframe := hplace _ h
    unfold Framing.MsgSender.transactMsgBatchFrame Framing.MsgSender.transactMsgFrame at hframe
    dsimp only at hframe
    split at hframe
    · cases hframe
      decide
    · rcases prepareMsgFrameOf_error _ _ _ _ hframe with rfl | hwrite
      · decide
      · rw [MsgBufferArrayWriter_error _ _ hwrite]
        decide
  -- a message that the caller brings is refused only while the sender stops
  | msg request =>
    have hstop : (if s.m_stopResend then Except.error .invalidState else .ok (request, s)) =
        (Except.error rc : Except ErrorCode (MsgPtr × MsgSender κ)) := Except.ok.inj h
    split at hstop
    · cases hstop
      decide
    · cases hstop

/-- A transaction that is sent has an id and a slot. -/
theorem sendMsg_tx_data {c c' : MsgClient} {env : SendEnv} {data : Option MsgRequestData}
    (h : c.sendMsg p COMMUTIL_REQUEST_FLAG_TX env = .ok (.ok, data, c')) : ∃ d, data = some d := by
  have hnew : c.sendMsg p COMMUTIL_REQUEST_FLAG_TX env =
      c.sendNew p COMMUTIL_REQUEST_FLAG_TX env := if_neg (by decide)
  rw [hnew] at h
  unfold MsgClient.sendNew at h
  split at h
  · cases h
  · cases h
  · split at h
    · dsimp only at h
      split at h
      · cases h
      · cases h
        exact ⟨_, rfl⟩
    · cases h
    · cases h

/-- The request of a transaction was sent, and the sender is in this state when the wait for the
    response returns. -/
def Woken (s : MsgSender κ) (request : MsgPtr) (env : TransactEnv κ) (data : MsgRequestData)
    (t : MsgSender κ) : Prop :=
  ∃ c, s.m_msgClient.sendMsg request COMMUTIL_REQUEST_FLAG_TX env.send = .ok (.ok, some data, c) ∧
    t = env.meanwhile { s with m_msgClient := c }

/-- A response to the transaction arrived in time; the sender is in this state when it is handed
    to the frame listener. -/
def Answered (s : MsgSender κ) (env : TransactEnv κ) (form : TransactForm) (request : MsgPtr)
    (response : Msg) (t : MsgSender κ) : Prop :=
  ∃ s₀ data t₀ pool, s.requestOf env form = .ok (.ok (request, s₀)) ∧ s₀.Woken request env data t₀ ∧
    t₀.pool.waitPendingResponse data.m_requestId data.m_requestIndex = (.ok, some response, pool) ∧
    t = t₀.withPool pool

theorem endTransaction_code {rc' : ErrorCode} (h : s.endTransaction p rc = .ok (rc', s')) :
    rc' = rc := by
  unfold endTransaction at h
  split at h
  · cases h
  · split at h
    · cases hfree : s.freeMsg (some p) with
      | error fault =>
        rw [hfree] at h
        cases h
      | ok s₁ =>
        rw [hfree] at h
        cases h
        rfl
    · cases h
      rfl

/-- A transaction that ends well, or whose request has no id any more, frees the request. -/
theorem endTransaction_frees {msg : Msg} (hmsg : s.messages p = some msg)
    (hcase : rc = .ok ∨ msg.m_header.m_requestId = COMMUTIL_MSG_INVALID_REQUEST_ID) :
    ∃ s', s.endTransaction p rc = .ok (rc, s') ∧ s'.messages p = none := by
  obtain ⟨s', hfree⟩ : ∃ s', s.freeMsg (some p) = .ok s' :=
    ⟨_, freeMsg_eq_ok.mpr ⟨by rw [hmsg]; rfl, rfl⟩⟩
  refine ⟨s', ?_, freeMsg_messages hfree⟩
  unfold endTransaction
  rw [load_eq hmsg]
  dsimp only
  rw [if_pos hcase, hfree]
  rfl

/-- The rest of a transaction when the response is rejected: whether or not there is a slot for a
    new id, the request is freed. -/
theorem renewed_request_freed (t : MsgSender κ) (p : MsgPtr) (now : UInt64)
    (hne : t.pool.m_requests ≠ []) :
    (t.messages p = none ∧ ∃ fault,
      (t.renewRequestId p now >>= fun result => result.2.endTransaction p result.1) =
        .error fault) ∨
    (t.messages p).isSome ∧ ∃ rc s',
      (t.renewRequestId p now >>= fun result => result.2.endTransaction p result.1) =
        .ok (rc, s') ∧ s'.messages p = none := by
  cases hmsg : t.messages p with
  | none =>
    refine .inl ⟨rfl, ?_⟩
    unfold renewRequestId
    rw [load_none hmsg]
    cases t.pool.grabSlot with
    | error fault => exact ⟨fault, rfl⟩
    | ok grabbed => exact ⟨.useAfterFree, rfl⟩
  | some msg =>
    refine .inr ⟨rfl, ?_⟩
    rcases renewRequestId_cases t now hmsg hne with ⟨index, r, -, -, -, hrenew⟩ | ⟨-, -, hrenew⟩
    · rw [hrenew]
      exact ⟨.ok, endTransaction_frees (Function.update_self ..) (.inl rfl)⟩
    · rw [hrenew]
      exact ⟨.resourceLimit, endTransaction_frees (Function.update_self ..) (.inr rfl)⟩

/-- Where there is a slot for a new id, the transaction ends without an error. -/
theorem renewed_request_ok {msg : Msg} (now : UInt64) (hmsg : t.messages p = some msg)
    (hidle : ∃ r ∈ t.pool.m_requests, r.m_requestStatus = .idle) :
    ∃ s', (t.renewRequestId p now >>= fun result => result.2.endTransaction p result.1) =
      .ok (.ok, s') ∧ s'.messages p = none := by
  obtain ⟨r, hr, hstatus⟩ := hidle
  rcases renewRequestId_cases t now hmsg (List.ne_nil_of_mem hr) with
    ⟨index, r, -, -, -, hrenew⟩ | ⟨hbusy, -, -⟩
  · rw [hrenew]
    exact endTransaction_frees (Function.update_self ..) (.inl rfl)
  · exact absurd hstatus (hbusy r hr)

theorem recvResponse_rejected {now : UInt64}
    (hwait : t₀.pool.waitPendingResponse data.m_requestId data.m_requestIndex =
      (.ok, some response, pool))
    (hhandle : (t₀.withPool pool).handleResponse response = .ok (verdict, t))
    (hne : verdict ≠ .ok) : t₀.recvResponse data p now = t.renewRequestId p now := by
  unfold recvResponse
  rw [hwait]
  dsimp only
  rw [hhandle]
  exact if_pos hne

theorem recvResponse_accepted {now : UInt64}
    (hwait : t₀.pool.waitPendingResponse data.m_requestId data.m_requestIndex =
      (.ok, some response, pool))
    (hhandle : (t₀.withPool pool).handleResponse response = .ok (.ok, t))
    (hcall : t₀.recvResponse data p now = .ok (rc, s')) : rc = .ok := by
  unfold recvResponse at hcall
  rw [hwait] at hcall
  dsimp only at hcall
  rw [hhandle] at hcall
  dsimp only [bind, Except.bind] at hcall
  rw [if_neg (not_not.mpr rfl)] at hcall
  cases hremove : t.removeFromBacklog (some p) with
  | error fault =>
    rw [hremove] at hcall
    cases hcall
  | ok result =>
    rw [hremove] at hcall
    cases hcall
    rfl

theorem recvResponse_failed {now : UInt64} {code : ErrorCode}
    (hwait : t₀.pool.waitPendingResponse data.m_requestId data.m_requestIndex = (code, none, pool))
    (hcall : t₀.recvResponse data p now = .ok (rc, s')) : rc = code := by
  unfold recvResponse at hcall
  rw [hwait] at hcall
  split at hcall
  · rename_i heq
    cases heq
  · rename_i heq
    cases heq
    cases hrelease : t₀.releaseTransaction p with
    | error fault =>
      rw [hrelease] at hcall
      cases hcall
    | ok s₁ =>
      rw [hrelease] at hcall
      cases hcall
      rfl

/-- After a rejected response, a transaction renews its request and ends. -/
theorem Answered.call_eq {t₁ : MsgSender κ} (h : s.Answered env form p response t)
    (hhandle : t.handleResponse response = .ok (verdict, t₁)) (hne : verdict ≠ .ok) :
    s.transactMsg env form =
      (t₁.renewRequestId p env.renewNow >>= fun result => result.2.endTransaction p result.1) := by
  obtain ⟨s₀, data, t₀, pool, hrequest, ⟨c, hsend, ht₀⟩, hwait, rfl⟩ := h
  unfold transactMsg
  rw [hrequest]
  dsimp only
  unfold transactMsgInternal
  rw [hsend]
  dsimp only
  rw [← ht₀, recvResponse_rejected hwait hhandle hne]

/-- The pool of a client that got a response has slots. -/
theorem Answered.slots_ne_nil (h : s.Answered env form p response t) : t.pool.m_requests ≠ [] := by
  obtain ⟨s₀, data, t₀, pool, -, -, hwait, rfl⟩ := h
  have hslots : pool.m_requests ≠ [] := by
    rcases t₀.pool.waitPendingResponse_cases data.m_requestId data.m_requestIndex with
      ⟨r, response', hslot, -, -, -, hfound⟩ | ⟨rc, hrc, hfailed⟩
    · rw [hwait] at hfound
      cases hfound
      intro hnil
      have hlength := congrArg List.length hnil
      rw [MsgRequestPool.setSlot_length] at hlength
      exact absurd (List.getElem?_eq_some_iff.mp hslot).1 (by rw [hlength]; exact Nat.not_lt_zero _)
    · rw [hwait] at hfailed
      cases hfailed
  exact hslots

/-- **Transactions**: the request of a rejected response does not survive the call. -/
theorem Answered.frees (h : s.Answered env form p response t)
    (hrejects : t.Rejects response verdict) :
    (t.messages p = none ∧ ∃ fault, s.transactMsg env form = .error fault) ∨
    (t.messages p).isSome ∧
      ∃ rc s', s.transactMsg env form = .ok (rc, s') ∧ s'.messages p = none := by
  obtain ⟨hne, t₁, hhandle⟩ := hrejects
  have hpool : t₁.pool.m_requests ≠ [] := by
    rw [handleResponse_eq hhandle]
    exact h.slots_ne_nil
  have hmessages : t₁.messages = t.messages := by
    rw [handleResponse_eq hhandle]
    rfl
  rw [h.call_eq hhandle hne, ← hmessages]
  exact renewed_request_freed t₁ p env.renewNow hpool

end Transactions

/-! ## §4 What should become of a rejected request -/

/-- All indices of the backlog find the request in the slot, under the id of its message. -/
structure FoundUnder (s : MsgSender κ) (p : MsgPtr) (requestId : UInt64) (index : Nat) : Prop where
  map : (requestId, ⟨p, index⟩) ∈ s.m_backlog.m_requestMap
  set : ⟨p, index⟩ ∈ s.m_backlog.m_requestSet
  heap : ⟨p, index⟩ ∈ s.m_backlog.m_minHeap

/-- The request has a slot that was vacant, with the id and the index of its header, and a good
    response removes it from the backlog. -/
structure Renewed (s : MsgSender κ) (index : Nat) (p : MsgPtr) (msg : Msg) (s' : MsgSender κ) :
    Prop where
  vacant : msg.m_header.m_requestIndex.toNat = index ∨
    (s.pool.slot msg.m_header.m_requestIndex.toNat).isVacant = true
  taken : (s'.pool.slot msg.m_header.m_requestIndex.toNat).isVacant = false
  holds : (s'.pool.slot msg.m_header.m_requestIndex.toNat).m_request = some p
  slot_id : (s'.pool.slot msg.m_header.m_requestIndex.toNat).m_requestId = msg.m_header.m_requestId
  found : s'.FoundUnder p msg.m_header.m_requestId msg.m_header.m_requestIndex.toNat
  removable : ∃ s'', s'.removeFromBacklog (some p) = .ok (.ok, s'')

/-- What the README has a rejected response lead to: `index` is the slot that the request had in
    the state `s`. -/
structure Rescheduled (s : MsgSender κ) (index : Nat) (p : MsgPtr) (s' : MsgSender κ) : Prop where
  /-- The message is not freed, and has a new id or waits for one. -/
  live : ∃ msg, s'.messages p = some msg ∧ (s.Renewed index p msg s' ∨
    msg.m_header.m_requestId = COMMUTIL_MSG_INVALID_REQUEST_ID ∧
      ∀ now, (∃ r ∈ s'.pool.m_requests, r.isVacant = true) →
        ∃ s'', s'.renewRequestId p now = .ok (.ok, s''))
  /-- The request stays in the backlog. -/
  map : ∃ item ∈ s'.m_backlog.m_requestMap, item.2.m_msg = p
  set : ∃ entry ∈ s'.m_backlog.m_requestSet, entry.m_msg = p
  heap : ∃ entry ∈ s'.m_backlog.m_minHeap, entry.m_msg = p
  /-- The old slot was given back. -/
  released : (s'.pool.slot index).isVacant = true ∨
    (s'.pool.slot index).m_requestId ≠ (s.pool.slot index).m_requestId

theorem not_rescheduled {index : Nat} {t : MsgSender κ} (hnone : s'.messages p = none) :
    ¬ t.Rescheduled index p s' := by
  rintro ⟨⟨msg, hmsg, -⟩, -⟩
  rw [hnone] at hmsg
  cases hmsg

/-- **Rejected responses.**  On neither path is a request scheduled again: once its response is
    rejected, a call that returns has freed it. -/
theorem rejected_request_freed (s : MsgSender κ) :
    (∀ (clock : Nat → UInt64) (index : Nat) (t : MsgSender κ) (p : MsgPtr) (response : Msg)
        (verdict : ErrorCode),
      s.ReachesSlot clock index t → t.HasResponse index p response →
      (t.setSlot index (t.pool.slot index).clearResponse).Rejects response verdict →
      (∀ s', s.processPendingResponses clock = .ok s' → s'.messages p = none) ∧
      ¬ ∃ s', s.processPendingResponses clock = .ok s' ∧ t.Rescheduled index p s') ∧
    ∀ (env : TransactEnv κ) (form : TransactForm) (p : MsgPtr) (response : Msg)
        (t : MsgSender κ) (verdict : ErrorCode),
      s.Answered env form p response t → t.Rejects response verdict →
      (∀ rc s', s.transactMsg env form = .ok (rc, s') → s'.messages p = none) ∧
      ∀ index, ¬ ∃ rc s', s.transactMsg env form = .ok (rc, s') ∧ t.Rescheduled index p s' := by
  constructor
  -- whatever the verdict, the visit frees the request behind the response
  · intro clock index t p response verdict hreach hresponse _
    have hfreed : ∀ s', s.processPendingResponses clock = .ok s' → s'.messages p = none :=
      fun s' hcall => hreach.frees hresponse hcall
    refine ⟨hfreed, ?_⟩
    rintro ⟨s', hcall, hrescheduled⟩
    exact not_rescheduled (hfreed s' hcall) hrescheduled
  · intro env form p response t verdict hanswered hrejects
    have hfreed : ∀ rc s', s.transactMsg env form = .ok (rc, s') → s'.messages p = none := by
      intro rc s' hcall
      -- the transaction ends in a fault, or it frees the request before it returns
      rcases hanswered.frees hrejects with ⟨-, fault, hfault⟩ | ⟨-, rc', s'', hreturns, hnone⟩
      · rw [hcall] at hfault
        cases hfault
      · rw [hcall] at hreturns
        cases hreturns
        exact hnone
    refine ⟨hfreed, ?_⟩
    rintro index ⟨rc, s', hcall, hrescheduled⟩
    exact not_rescheduled (hfreed rc s' hcall) hrescheduled

/-- A sender of one slot, whose frame listener rejects every response. -/
def rejecting (slot : MsgRequest) : MsgSender Unit where
  m_msgClient :=
    { m_requestPool := ⟨[slot], 8⟩
      byteOrder := .networkOrder
      messages := fun _ => some (stampHeader ⟨.mk' 41 1 0 0 0, [97]⟩ 7 0)
      writes := [] }
  m_backlog := ⟨1, [(7, ⟨0, 0⟩)], [⟨0, 0⟩], [⟨0, 0⟩]⟩
  m_config := ⟨1000, 60000, 1000000⟩
  m_stopResend := false
  m_frameReader := ⟨.ofWhole some some, .networkOrder, fun _ _ => .internalError, ()⟩
  calls := []
  resent := []
  freed := []

/-- A response of one byte. -/
def answer (requestId : UInt64) (requestIndex : UInt32 := 0) : Msg :=
  ⟨.mk' 41 1 0 requestId requestIndex, [98]⟩

/-- The slot of an asynchronous request with its response. -/
def answeredSlot : MsgRequest := ⟨7, .arrived, 0, some 0, some (answer 7), 5, 5⟩

/-- The response arrives while the transaction waits. -/
def answeredMeanwhile : TransactEnv Unit where
  allocated := true
  address := 1
  send := ⟨10, true, .ok⟩
  meanwhile := fun s => s.withPool (s.pool.setResponse (answer 8)).2.2
  renewNow := 20

/-- The response is neither compressed nor a batch. -/
theorem answer_flags (requestId : UInt64) (requestIndex : UInt32 := 0) :
    (answer requestId requestIndex).m_header.isCompressed = false ∧
      (answer requestId requestIndex).m_header.isBatch = false := by
  have hflags : (answer requestId requestIndex).m_header.m_flags = 0 := rfl
  unfold MsgHeader.isCompressed MsgHeader.isBatch
  rw [hflags]
  decide

theorem answer_payload (z : Zlib) (requestId : UInt64) (requestIndex : UInt32 := 0) :
    MsgFrameReader.readPayload z (answer requestId requestIndex) = .ok (.ok [98]) := by
  have hlength : (answer requestId requestIndex).m_header.m_length = 41 := rfl
  have hsize : getPayloadSizeBytes (answer requestId requestIndex).m_header = 1 := by
    unfold getPayloadSizeBytes
    rw [hlength]
    decide
  unfold MsgFrameReader.readPayload
  rw [hsize, (answer_flags requestId requestIndex).1]
  rfl

theorem rejecting_rejects {s : MsgSender Unit} (requestId : UInt64)
    (hreader : s.m_frameReader = (rejecting .new).m_frameReader) :
    s.Rejects (answer requestId) .internalError := by
  have hhandle := handleResponse_single (answer_payload s.m_frameReader.z requestId)
    (answer_flags requestId).2
  rw [hreader] at hhandle
  exact ⟨by decide, _, hhandle⟩

theorem answered_response :
    (rejecting answeredSlot).HasResponse 0 0 (answer 7) :=
  ⟨rfl, rfl, rfl, rfl, rfl⟩

theorem answered_transaction :
    ∃ t, (rejecting .new).Answered answeredMeanwhile (.msg 0) 0 (answer 8) t ∧
      t.Rejects (answer 8) .internalError ∧ (∃ msg, t.messages 0 = some msg) ∧
      ∃ r ∈ t.pool.m_requests, r.m_requestStatus = .idle :=
  ⟨_, ⟨_, _, _, _, rfl, ⟨_, rfl, rfl⟩, rfl, rfl⟩, rejecting_rejects 8 rfl, ⟨_, rfl⟩,
    ⟨_, List.mem_cons_self, rfl⟩⟩

/-- Neither on the asynchronous path nor in a transaction. -/
theorem rejected_request_freed_both :
    (¬ ∃ s', (rejecting answeredSlot).processPendingResponses (fun _ => 10) = .ok s' ∧
      (rejecting answeredSlot).Rescheduled 0 0 s') ∧
    ∃ t, (rejecting .new).Answered answeredMeanwhile (.msg 0) 0 (answer 8) t ∧
      ¬ ∃ rc s', (rejecting .new).transactMsg answeredMeanwhile (.msg 0) = .ok (rc, s') ∧
        t.Rescheduled 0 0 s' := by
  obtain ⟨t, hanswered, hrejects, -, -⟩ := answered_transaction
  exact ⟨((rejected_request_freed _).1 _ 0 _ 0 _ _ ⟨by decide, rfl⟩ answered_response
      (rejecting_rejects 7 rfl)).2,
    t, hanswered, ((rejected_request_freed _).2 _ _ _ _ _ _ hanswered hrejects).2 0⟩

/-- An asynchronous request is freed when its response is rejected, and stays in the backlog. -/
theorem rejected_response_frees :
    (rejecting answeredSlot).HasResponse 0 0 (answer 7) ∧
    ((rejecting answeredSlot).setSlot 0 answeredSlot.clearResponse).Rejects (answer 7)
      .internalError ∧
    ∃ s', (rejecting answeredSlot).processPendingResponses (fun _ => 10) = .ok s' ∧
      s'.messages 0 = none ∧ s'.m_backlog.m_requestSet = [⟨0, 0⟩] ∧
      ¬ (rejecting answeredSlot).Rescheduled 0 0 s' := by
  have hrejects : ((rejecting answeredSlot).setSlot 0 answeredSlot.clearResponse).Rejects (answer 7)
      .internalError := rejecting_rejects 7 rfl
  refine ⟨answered_response, hrejects, ?_⟩
  obtain ⟨hne, t, hhandle⟩ := hrejects
  have ht := handleResponse_eq hhandle
  have hcall : (rejecting answeredSlot).processPendingResponses (fun _ => 10) =
      t.freeMsg (some 0) := by
    rw [← answered_response.rejected_eq hhandle hne 10]
    unfold processPendingResponses
    exact bind_pure _
  have hfreed : ∃ s', t.freeMsg (some 0) = .ok s' ∧ s'.m_backlog.m_requestSet = [⟨0, 0⟩] := by
    rw [ht]
    exact ⟨_, rfl, rfl⟩
  obtain ⟨s', hfree, hset⟩ := hfreed
  have hnone := freeMsg_messages hfree
  exact ⟨s', hcall.trans hfree, hnone, hset, not_rescheduled hnone⟩

/-! ## §5 What a transaction reports -/

/-- What a transaction is to report. -/
structure ReportsVerdict (s : MsgSender κ) (env : TransactEnv κ) (form : TransactForm) : Prop where
  /-- `E_OK` says that a response arrived in time and was accepted. -/
  ok_iff : ∀ rc s', s.transactMsg env form = .ok (rc, s') → (rc = .ok ↔
    ∃ p response t t', s.Answered env form p response t ∧ t.handleResponse response = .ok (.ok, t'))
  /-- The error of a rejected response is returned, and the request is still there. -/
  rejected : ∀ p response t verdict, s.Answered env form p response t → t.Rejects response verdict →
    ∀ rc s', s.transactMsg env form = .ok (rc, s') → rc = verdict ∧ (s'.messages p).isSome

section Verdict

variable {env : TransactEnv κ} {form : TransactForm} {response response' : Msg}
  {rc verdict : ErrorCode} {t t' : MsgSender κ} {p' : MsgPtr}

/-- **How a transaction returns**: with an error and no response, or with a response that was
    accepted, or with one that was rejected. -/
theorem transactMsg_cases (hcall : s.transactMsg env form = .ok (rc, s')) :
    (rc ≠ .ok ∧ ∀ p response t, ¬ s.Answered env form p response t) ∨
    ∃ p response t verdict t', s.Answered env form p response t ∧
      t.handleResponse response = .ok (verdict, t') ∧ (verdict = .ok → rc = .ok) := by
  unfold transactMsg at hcall
  split at hcall
  · cases hcall
  · rename_i rc' hrequest
    cases hcall
    refine .inl ⟨requestOf_error hrequest, ?_⟩
    rintro p response t ⟨s₀, data, t₀, pool, hrequest', -⟩
    rw [hrequest] at hrequest'
    cases hrequest'
  · rename_i request s₀ hrequest
    unfold transactMsgInternal at hcall
    split at hcall
    · cases hcall
    · rename_i data c hsend
      -- the request was sent
      rcases (env.meanwhile { s₀ with m_msgClient := c }).pool.waitPendingResponse_cases
          data.m_requestId data.m_requestIndex with
        ⟨r, response, -, -, -, -, hwait⟩ | ⟨code, hne, hwait⟩
      · -- a response came: its verdict decides
        right
        have hanswered : s.Answered env form request response _ :=
          ⟨s₀, data, _, _, hrequest, ⟨c, hsend, rfl⟩, hwait, rfl⟩
        cases hhandle : ((env.meanwhile { s₀ with m_msgClient := c }).withPool
            ((env.meanwhile { s₀ with m_msgClient := c }).pool.setSlot data.m_requestIndex
              r.clearResponse)).handleResponse response with
        | error fault =>
          unfold recvResponse at hcall
          rw [hwait] at hcall
          dsimp only at hcall
          rw [hhandle] at hcall
          cases hcall
        | ok result =>
          obtain ⟨verdict, t'⟩ := result
          refine ⟨request, response, _, verdict, t', hanswered, hhandle, ?_⟩
          rintro rfl
          cases hrecv : (env.meanwhile { s₀ with m_msgClient := c }).recvResponse data request
              env.renewNow with
          | error fault =>
            rw [hrecv] at hcall
            cases hcall
          | ok result =>
            obtain ⟨rc', s₁⟩ := result
            rw [hrecv] at hcall
            rw [endTransaction_code hcall]
            exact recvResponse_accepted hwait hhandle hrecv
      · -- no response came, and the code of the wait is the result
        left
        constructor
        · cases hrecv : (env.meanwhile { s₀ with m_msgClient := c }).recvResponse data request
              env.renewNow with
          | error fault =>
            rw [hrecv] at hcall
            cases hcall
          | ok result =>
            obtain ⟨rc', s₁⟩ := result
            rw [hrecv] at hcall
            rw [endTransaction_code hcall, recvResponse_failed hwait hrecv]
            exact hne
        · -- the transaction could not have been answered otherwise
          rintro p response t ⟨s₀', data', t₀, pool, hrequest', ⟨c', hsend', rfl⟩, hwait', -⟩
          rw [hrequest] at hrequest'
          cases hrequest'
          rw [hsend] at hsend'
          cases hsend'
          rw [hwait] at hwait'
          cases hwait'
    · -- the request could not be sent
      rename_i rc' data c hother hsend
      have hne : rc' ≠ .ok := by
        rintro rfl
        obtain ⟨d, rfl⟩ := sendMsg_tx_data hsend
        exact hother d rfl rfl
      left
      constructor
      · rw [endTransaction_code hcall]
        exact hne
      · rintro p response t ⟨s₀', data', t₀, pool, hrequest', ⟨c', hsend', -⟩, -⟩
        rw [hrequest] at hrequest'
        cases hrequest'
        rw [hsend] at hsend'
        cases hsend'
        exact hne rfl

end Verdict

/-- **A transaction reports the verdict** of the frame listener exactly if the listener does not
    reject the response. -/
theorem reports_verdict_iff (s : MsgSender κ) (env : TransactEnv κ) (form : TransactForm) :
    s.ReportsVerdict env form ↔
      ¬ ∃ p response t verdict, s.Answered env form p response t ∧ t.Rejects response verdict ∧
        (t.messages p).isSome := by
  constructor
  · rintro hreports ⟨p, response, t, verdict, hanswered, hrejects, hlive⟩
    rcases hanswered.frees hrejects with ⟨hnone, -⟩ | ⟨-, rc, s', hcall, hfreed⟩
    · rw [hnone] at hlive
      cases hlive
    · have hkept := (hreports.rejected p response t verdict hanswered hrejects rc s' hcall).2
      rw [hfreed] at hkept
      cases hkept
  · intro haccepts
    -- a rejected response to a request that is gone is a fault
    have hreject : ∀ p response t verdict, s.Answered env form p response t →
        t.Rejects response verdict → ∀ rc s', s.transactMsg env form ≠ .ok (rc, s') := by
      intro p response t verdict hanswered hrejects rc s' hcall
      rcases hanswered.frees hrejects with ⟨-, fault, hfault⟩ | ⟨hlive, -⟩
      · rw [hcall] at hfault
        cases hfault
      · exact haccepts ⟨p, response, t, verdict, hanswered, hrejects, hlive⟩
    refine ⟨fun rc s' hcall => ?_, fun p response t verdict hanswered hrejects rc s' hcall =>
      absurd hcall (hreject p response t verdict hanswered hrejects rc s')⟩
    rcases transactMsg_cases hcall with
      ⟨hne, hnone⟩ | ⟨p, response, t, verdict, t', hanswered, hhandle, hok⟩
    · exact iff_of_false hne fun ⟨p, response, t, _, hanswered, _⟩ => hnone p response t hanswered
    · by_cases hverdict : verdict = .ok
      · subst hverdict
        exact iff_of_true (hok rfl) ⟨p, response, t, t', hanswered, hhandle⟩
      · exact absurd hcall (hreject p response t verdict hanswered ⟨hverdict, t', hhandle⟩ rc s')

/-- The listener rejects the response, a new slot is found, and the transaction says `E_OK` and
    frees its request. -/
theorem rejected_transaction_reports_ok :
    (∃ t, (rejecting .new).Answered answeredMeanwhile (.msg 0) 0 (answer 8) t ∧
      t.Rejects (answer 8) .internalError) ∧
    (∃ s', (rejecting .new).transactMsg answeredMeanwhile (.msg 0) = .ok (.ok, s') ∧
      s'.messages 0 = none) ∧
    ¬ (rejecting .new).ReportsVerdict answeredMeanwhile (.msg 0) := by
  obtain ⟨t, hanswered, hrejects, ⟨msg, hmsg⟩, hidle⟩ := answered_transaction
  obtain ⟨hne, t₁, hhandle⟩ := id hrejects
  have hcall : ∃ s', (rejecting .new).transactMsg answeredMeanwhile (.msg 0) = .ok (.ok, s') ∧
      s'.messages 0 = none := by
    rw [handleResponse_eq hhandle] at hhandle
    rw [hanswered.call_eq hhandle hne]
    exact renewed_request_ok _ hmsg hidle
  refine ⟨⟨t, hanswered, hrejects⟩, hcall, fun hreports => ?_⟩
  obtain ⟨s', hreturns, hnone⟩ := hcall
  have hkept := (hreports.rejected 0 (answer 8) t _ hanswered hrejects .ok s' hreturns).2
  rw [hnone] at hkept
  cases hkept

end MsgSender

end Commutil.Client
