import Commutil.Client.MsgBacklog
import Commutil.Client.MsgClient
import Commutil.Framing.FrameBuilding
import Commutil.Framing.FrameDispatch
import Commutil.Library.PartialLoop

/-!
# The Message Sender

`msg_sender.cpp`: asynchronous sends, transactions, and the upkeep of the I/O thread (responses,
expiry, resends) over a message client and a backlog.

Each call is atomic.  A transaction waits between its two halves, and other threads act
meanwhile.  The clock readings of a call are arguments, in the order in which the call makes
them.  The sender also keeps a log for the statements: what the frame listener was called with,
what was passed to `resendMsg`, and which requests were freed.
-/

namespace Commutil.Client

open Commutil.Framing Commutil.Framing.Dispatch Commutil.Io Commutil.Library

/-! ## §1 State -/

/-- `COMMUTIL_MSG_INVALID_REQUEST_ID`. -/
def COMMUTIL_MSG_INVALID_REQUEST_ID : UInt64 := 0xFFFFFFFFFFFFFFFF

/-- What the sender reads of `struct MsgConfig`. -/
structure MsgConfig where
  m_resendPeriodMillis : UInt64
  m_expireTimeoutMillis : UInt64
  m_backlogLimitBytes : UInt64
  deriving DecidableEq, Repr

/-- The frame reader of a sender, and the connection details that it is called with. -/
structure ResponseReader (κ : Type) where
  z : Zlib
  m_byteOrder : ByteOrder
  m_frameListener : Listener κ
  connectionDetails : κ

/-- A call of `freeMsg` on a request, and whether something still referred to it. -/
structure FreedRequest where
  request : MsgPtr
  referenced : Bool
  deriving DecidableEq, Repr

/-- `class MsgSender`. -/
structure MsgSender (κ : Type) where
  m_msgClient : MsgClient
  m_backlog : MsgBacklog
  m_config : MsgConfig
  m_stopResend : Bool
  m_frameReader : ResponseReader κ
  /-- The calls of the frame listener. -/
  calls : List (Call κ)
  /-- The requests that were passed to `resendMsg`. -/
  resent : List MsgPtr
  /-- The requests that were freed. -/
  freed : List FreedRequest

/-- What a call of `resendRequest` meets: its clock readings, and the outcome of the send. -/
structure ResendEnv where
  renewNow : UInt64
  now : UInt64
  send : SendEnv
  updateNow : UInt64
  deriving DecidableEq, Repr

/-- What a transaction meets: whether its frame is allocated, and where; the outcome of the send;
    what other threads do while it waits; and the clock reading for a new request id. -/
structure TransactEnv (κ : Type) where
  allocated : Bool
  address : MsgPtr
  send : SendEnv
  meanwhile : MsgSender κ → MsgSender κ
  renewNow : UInt64

/-- The forms of `transactMsg`, with their arguments; a writer that fails says so. -/
inductive TransactForm where
  | body (msgId : UInt16) (body : List UInt8) (compress : Bool) (flags : UInt16)
  | writer (msgId : UInt16) (msgWriter : MsgWriter) (hwriter : msgWriter.writeMsg ≠ .error .ok)
      (compress : Bool) (flags : UInt16)
  | batch (msgId : UInt16) (bufferArray : List (List UInt8)) (compress : Bool) (flags : UInt16)
  | msg (request : MsgPtr)

/-- The state at the head of the loop of `resendShippingBacklog`, and its result. -/
structure ResendRound (κ : Type) where
  rc : ErrorCode
  sender : MsgSender κ
  /-- The number of calls of `resendRequest` so far. -/
  count : Nat

namespace MsgSender

variable {κ : Type}

/-- The request pool of the client. -/
def pool (s : MsgSender κ) : MsgRequestPool := s.m_msgClient.m_requestPool

/-- The messages that are allocated. -/
def messages (s : MsgSender κ) : MsgPtr → Option Msg := s.m_msgClient.messages

/-- Change the request pool. -/
def withPool (s : MsgSender κ) (pool : MsgRequestPool) : MsgSender κ :=
  { s with m_msgClient := { s.m_msgClient with m_requestPool := pool } }

/-- Change a slot of the pool. -/
def setSlot (s : MsgSender κ) (index : Nat) (r : MsgRequest) : MsgSender κ :=
  s.withPool (s.pool.setSlot index r)

/-- Change the messages. -/
def withMessages (s : MsgSender κ) (messages : MsgPtr → Option Msg) : MsgSender κ :=
  { s with m_msgClient := { s.m_msgClient with messages := messages } }

/-- A backlog index or a slot that is taken refers to the message. -/
def refersTo (s : MsgSender κ) (request : MsgPtr) : Bool :=
  (s.m_backlog.m_requestMap.any fun item => item.2.m_msg = request) ||
  (s.m_backlog.m_requestSet.any fun entry => entry.m_msg = request) ||
  (s.m_backlog.m_minHeap.any fun entry => entry.m_msg = request) ||
  (s.pool.m_requests.any fun r => !r.isVacant && r.m_request = some request)

/-! ## §2 Messages and responses -/

/-- `freeMsg` on a request. -/
def freeMsg (s : MsgSender κ) : Option MsgPtr → Except Fault (MsgSender κ)
  | none => .ok s
  | some request =>
    match s.messages request with
    | none => .error .doubleFree
    | some _ => .ok { s.withMessages (Function.update s.messages request none) with
        freed := s.freed ++ [⟨request, s.refersTo request⟩] }

/-- The calls of the frame listener are logged. -/
def logCalls (s : MsgSender κ) :
    Except Fault (ErrorCode × List (Call κ)) → Except Fault (ErrorCode × MsgSender κ)
  | .error fault => .error fault
  | .ok (rc, calls) => .ok (rc, { s with calls := s.calls ++ calls })

/-- `MsgSender::handleResponse`. -/
def handleResponse (s : MsgSender κ) (response : Msg) : Except Fault (ErrorCode × MsgSender κ) :=
  let reader := s.m_frameReader
  s.logCalls (readMsgFrame (fun calls => reader.m_frameListener (s.calls ++ calls))
    reader.connectionDetails reader.z reader.m_byteOrder response)

/-- `m_backlog.removePendingRequest`, of a request that may be a null pointer. -/
def removeFromBacklog (s : MsgSender κ) : Option MsgPtr → Except Fault (ErrorCode × MsgSender κ)
  | none => .error .nullDereference
  | some request =>
    match s.m_backlog.removePendingRequest s.pool s.messages request with
    | .error fault => .error fault
    | .ok (rc, b) => .ok (rc, { s with m_backlog := b })

/-- `processPendingResponses` for a slot with an arrived response, before the request is freed. -/
def takeResponse (s : MsgSender κ) (request : Option MsgPtr) :
    Option Msg → Except Fault (MsgSender κ)
  | none => .ok s
  | some response => do
    let (rc, s) ← s.handleResponse response
    if rc = .ok then
      let (_, s) ← s.removeFromBacklog request
      pure s
    else
      pure s

/-- What `processPendingResponses` does with one slot, at time `now`. -/
def processPendingResponse (s : MsgSender κ) (index : Nat) (now : UInt64) :
    Except Fault (MsgSender κ) :=
  let requestData := s.pool.slot index
  if requestData.isVacant || requestData.isTx then .ok s
  else
    match requestData.waitResponse with
    | (.ok, response) => do
      let s ← (s.setSlot index requestData.clearResponse).takeResponse requestData.m_request
          response
      s.freeMsg requestData.m_request
    | (rc, _) =>
      if rc ≠ .timedOut ∨
          now - requestData.m_requestTimeMillis > s.m_config.m_expireTimeoutMillis then
        (s.setSlot index requestData.clearResponse).freeMsg requestData.m_request
      else .ok s

/-- `MsgSender::processPendingResponses`, with a clock reading for each slot. -/
def processPendingResponses (s : MsgSender κ) (clock : Nat → UInt64) :
    Except Fault (MsgSender κ) :=
  (List.range s.pool.m_requests.length).foldlM
    (fun s index => s.processPendingResponse index (clock index)) s

/-! ## §3 Resending -/

/-- `MsgSender::renewRequestId` at time `now`. -/
def renewRequestId (s : MsgSender κ) (msg : MsgPtr) (now : UInt64) :
    Except Fault (ErrorCode × MsgSender κ) :=
  match s.pool.grabSlot, s.m_msgClient.load msg with
  | .error fault, _ => .error fault
  | .ok _, .error fault => .error fault
  -- no slot: the message loses its id until a later round finds one
  | .ok (_, none, pool), .ok m =>
    let m := { m with m_header :=
      { m.m_header with m_requestId := COMMUTIL_MSG_INVALID_REQUEST_ID } }
    .ok (.resourceLimit,
      (s.withPool pool).withMessages (Function.update s.messages msg (some m)))
  | .ok (requestId, some requestIndex, pool), .ok m =>
    let pool := pool.setSlot requestIndex ((pool.slot requestIndex).setRequest msg now)
    .ok (.ok, (s.withPool pool).withMessages
      (Function.update s.messages msg (some (stampHeader m requestId requestIndex))))

/-- `MsgSender::resendMsg`. -/
def resendMsg (s : MsgSender κ) (msg : MsgPtr) (env : SendEnv) :
    Except Fault (ErrorCode × MsgSender κ) :=
  match s.m_msgClient.sendMsg msg COMMUTIL_REQUEST_FLAG_REUSE env with
  | .error fault => .error fault
  | .ok (rc, _, c) => .ok (rc, { s with m_msgClient := c, resent := s.resent ++ [msg] })

/-- The test of `resendRequest` whether the time to resend has come. -/
def shouldResend (s : MsgSender κ) (requestData : MsgRequest) (now : UInt64) : Bool :=
  if requestData.m_resendTimeMillis = 0 then
    now - requestData.m_requestTimeMillis ≥ s.m_config.m_resendPeriodMillis
  else
    now - requestData.m_resendTimeMillis ≥ s.m_config.m_resendPeriodMillis

/-- `resendRequest` of a request whose slot was found. -/
def resendFound (s : MsgSender κ) (request : MsgPtr) (index : Nat) (requestData : MsgRequest)
    (env : ResendEnv) : Except Fault (ErrorCode × MsgSender κ) :=
  if s.shouldResend requestData env.now then do
    let (rc, s) ← s.resendMsg request env.send
    -- regardless of what happened, the resend time is updated
    pure (rc, s.setSlot index ((s.pool.slot index).updateResendTime env.updateNow))
  else .ok (.ok, s)

/-- `resendRequest` of a request that has an id. -/
def resendNamed (s : MsgSender κ) (request : MsgPtr) (env : ResendEnv) :
    Except Fault (ErrorCode × MsgSender κ) :=
  match s.m_msgClient.load request with
  | .error fault => .error fault
  | .ok msg =>
    match s.pool.getRequestData msg.m_header with
    | none => .ok (.internalError, s)
    | some (index, requestData) => s.resendFound request index requestData env

/-- `MsgSender::resendRequest`, without the minimum that it computes for the next timer. -/
def resendRequest (s : MsgSender κ) (request : MsgPtr) (env : ResendEnv) :
    Except Fault (ErrorCode × MsgSender κ) :=
  match s.m_msgClient.load request with
  | .error fault => .error fault
  | .ok msg =>
    -- a request without an id gets one first
    if msg.m_header.m_requestId = COMMUTIL_MSG_INVALID_REQUEST_ID then
      match s.renewRequestId request env.renewNow with
      | .error fault => .error fault
      | .ok (rc, s) => if rc ≠ .ok then .ok (rc, s) else s.resendNamed request env
    else s.resendNamed request env

/-- A round of the loop of `resendShippingBacklog`, with the test before it; the calls of
    `resendRequest` meet `envs` one after the other. -/
def resendStep (currentTimeMillis : UInt64) (envs : Nat → ResendEnv) (t : ResendRound κ) :
    LoopStep (ResendRound κ) Fault :=
  match t.sender.m_backlog.readyResendRequest t.sender.pool currentTimeMillis with
  | none => .done t
  | some request =>
    match t.sender.resendRequest request (envs t.count) with
    | .error fault => .fault fault
    | .ok (rc2, s) =>
      -- the first error is kept, and the loop goes on with the same request
      if rc2 ≠ .ok then .next ⟨if t.rc = .ok then rc2 else t.rc, s, t.count + 1⟩
      else
        match s.m_backlog.updateReadyResendRequest s.pool s.messages with
        | .error fault => .fault fault
        | .ok b => .next ⟨t.rc, { s with m_backlog := b }, t.count + 1⟩

/-! ## §4 Sending -/

/-- `MsgSender::sendMsg` of a message. -/
def sendMsg (s : MsgSender κ) (msg : MsgPtr) (env : SendEnv) :
    Except Fault (ErrorCode × MsgSender κ) :=
  if s.m_stopResend then .ok (.invalidState, s)
  else
    match s.m_msgClient.sendMsg msg 0 env with
    | .error fault => .error fault
    | .ok (rc, _, c) => .ok (rc, { s with m_msgClient := c })

/-- `MsgSender::onLoopSend`. -/
def onLoopSend (s : MsgSender κ) : Option MsgPtr → Except Fault (MsgSender κ)
  -- only the write of a request has user data
  | none => .ok s
  | some request =>
    match s.m_msgClient.load request with
    | .error fault => .error fault
    | .ok msg =>
      match s.pool.getRequestData msg.m_header with
      | none => .ok s
      | some (_, requestData) =>
        -- a request that is sent again is in the backlog already
        if requestData.m_flags &&& COMMUTIL_REQUEST_FLAG_REUSE ≠ 0 then .ok s
        else
          match s.m_backlog.addPendingRequest s.pool s.messages request with
          | .error fault => .error fault
          | .ok (_, b) => .ok { s with m_backlog := b }

/-- `recvResponse` when the wait failed: the transaction flag of the slot is reset. -/
def releaseTransaction (s : MsgSender κ) (msg : MsgPtr) : Except Fault (MsgSender κ) :=
  match s.m_msgClient.load msg with
  | .error fault => .error fault
  | .ok m =>
    match s.pool.getRequestData m.m_header with
    -- `getRequestData` gives null, and the flags are set through it
    | none => .error .nullDereference
    | some (index, request) =>
      .ok (s.setSlot index (request.setFlags (request.m_flags &&& ~~~COMMUTIL_REQUEST_FLAG_TX)))

/-- `MsgSender::recvResponse`, from the moment when the wait returns. -/
def recvResponse (s : MsgSender κ) (requestData : MsgRequestData) (msg : MsgPtr) (now : UInt64) :
    Except Fault (ErrorCode × MsgSender κ) :=
  match s.pool.waitPendingResponse requestData.m_requestId requestData.m_requestIndex with
  | (.ok, some response, pool) => do
    let (rc, s) ← (s.withPool pool).handleResponse response
    if rc ≠ .ok then
      -- the verdict is overwritten
      s.renewRequestId msg now
    else
      let (_, s) ← s.removeFromBacklog (some msg)
      pure (rc, s)
  | (rc, _, _) => do
    let s ← s.releaseTransaction msg
    pure (rc, s)

/-- The end of `transactMsgInternal`. -/
def endTransaction (s : MsgSender κ) (request : MsgPtr) (rc : ErrorCode) :
    Except Fault (ErrorCode × MsgSender κ) :=
  match s.m_msgClient.load request with
  | .error fault => .error fault
  | .ok msg =>
    if rc = .ok ∨ msg.m_header.m_requestId = COMMUTIL_MSG_INVALID_REQUEST_ID then do
      let s ← s.freeMsg (some request)
      pure (rc, s)
    else .ok (rc, s)

/-- `MsgSender::transactMsgInternal`.  While it waits, other threads do what `meanwhile` says; the
    clock reading `now` is for a new request id. -/
def transactMsgInternal (s : MsgSender κ) (request : MsgPtr) (env : SendEnv)
    (meanwhile : MsgSender κ → MsgSender κ) (now : UInt64) :
    Except Fault (ErrorCode × MsgSender κ) :=
  match s.m_msgClient.sendMsg request COMMUTIL_REQUEST_FLAG_TX env with
  | .error fault => .error fault
  | .ok (.ok, some requestData, c) => do
    let (rc, s) ← (meanwhile { s with m_msgClient := c }).recvResponse requestData request now
    s.endTransaction request rc
  -- the send failed
  | .ok (rc, _, c) => ({ s with m_msgClient := c } : MsgSender κ).endTransaction request rc

/-- The end of each form of `transactMsg` that builds its own frame: the error of building it, or
    the new request. -/
def placeRequest (s : MsgSender κ) (address : MsgPtr) :
    Except Fault (Except ErrorCode Msg) → Except Fault (Except ErrorCode (MsgPtr × MsgSender κ))
  | .error fault => .error fault
  | .ok (.error rc) => .ok (.error rc)
  | .ok (.ok msg) =>
    .ok (.ok (address, s.withMessages (Function.update s.messages address (some msg))))

/-- What the forms of `transactMsg` do before they call `transactMsgInternal`: the request, and the
    sender that has it. -/
def requestOf (s : MsgSender κ) (env : TransactEnv κ) :
    TransactForm → Except Fault (Except ErrorCode (MsgPtr × MsgSender κ))
  | .body msgId body compress flags =>
    s.placeRequest env.address (if s.m_stopResend then .ok (.error .invalidState)
      else MsgFrameWriter.prepareMsgFrame s.m_frameReader.z env.allocated msgId body compress flags)
  | .writer msgId msgWriter _ compress flags =>
    s.placeRequest env.address (Framing.MsgSender.transactMsgFrame s.m_frameReader.z env.allocated
      s.m_stopResend msgId msgWriter compress flags)
  | .batch msgId bufferArray compress flags =>
    s.placeRequest env.address (Framing.MsgSender.transactMsgBatchFrame s.m_frameReader.z
      env.allocated s.m_stopResend msgId bufferArray s.m_msgClient.byteOrder compress flags)
  | .msg request => .ok (if s.m_stopResend then .error .invalidState else .ok (request, s))

/-- `MsgSender::transactMsg` and `MsgSender::transactMsgBatch`, in all their forms. -/
def transactMsg (s : MsgSender κ) (env : TransactEnv κ) (form : TransactForm) :
    Except Fault (ErrorCode × MsgSender κ) :=
  match s.requestOf env form with
  | .error fault => .error fault
  | .ok (.error rc) => .ok (rc, s)
  | .ok (.ok (request, s)) => s.transactMsgInternal request env.send env.meanwhile env.renewNow

end MsgSender

/-! ## §5 Slots and new ids -/

section Slots

variable {pool : MsgRequestPool} {index : Nat}

theorem slot_setSlot_self (h : index < pool.m_requests.length) (r : MsgRequest) :
    (pool.setSlot index r).slot index = r := by
  unfold MsgRequestPool.slot
  rw [MsgRequestPool.setSlot_self pool h]
  rfl

theorem slot_setSlot_ne {j : Nat} (h : index ≠ j) (r : MsgRequest) :
    (pool.setSlot index r).slot j = pool.slot j := by
  unfold MsgRequestPool.slot
  rw [MsgRequestPool.setSlot_ne h]

theorem slot_eq {r : MsgRequest} (h : pool.m_requests[index]? = some r) : pool.slot index = r := by
  unfold MsgRequestPool.slot
  rw [h]
  rfl

/-- A slot that is taken is one of the pool. -/
theorem exists_slot (h : ¬ (pool.slot index).isVacant = true) :
    ∃ r, pool.m_requests[index]? = some r := by
  cases hslot : pool.m_requests[index]? with
  | some r => exact ⟨r, rfl⟩
  | none =>
    unfold MsgRequestPool.slot at h
    rw [hslot] at h
    exact absurd rfl h

end Slots

section Renewing

variable {κ : Type} {s : MsgSender κ}

theorem load_eq {request : MsgPtr} {msg : Msg} (h : s.messages request = some msg) :
    s.m_msgClient.load request = .ok msg := by
  have hmessages : s.m_msgClient.messages request = some msg := h
  unfold MsgClient.load
  rw [hmessages]

theorem load_none {request : MsgPtr} (hmsg : s.messages request = none) :
    s.m_msgClient.load request = .error .useAfterFree := by
  have hmessages : s.m_msgClient.messages request = none := hmsg
  unfold MsgClient.load
  rw [hmessages]

/-- The sender after `renewRequestId` found the slot `r` at `index`. -/
def renewed (s : MsgSender κ) (request : MsgPtr) (msg : Msg) (index : Nat) (r : MsgRequest)
    (now : UInt64) : MsgSender κ :=
  (s.withPool (s.pool.issued.setSlot index
    ((r.grabbed s.pool.m_nextRequestId).setRequest request now))).withMessages
    (Function.update s.messages request
      (some (stampHeader msg s.pool.m_nextRequestId index)))

/-- **Specification of `renewRequestId`** of a message that is allocated. -/
theorem renewRequestId_cases (s : MsgSender κ) {request : MsgPtr} {msg : Msg} (now : UInt64)
    (hload : s.messages request = some msg) (hne : s.pool.m_requests ≠ []) :
    (∃ index r, s.pool.m_requests[index]? = some r ∧ r.m_requestStatus = .idle ∧
      s.pool.grabSlot = .ok (s.pool.m_nextRequestId, some index,
        s.pool.issued.setSlot index (r.grabbed s.pool.m_nextRequestId)) ∧
      s.renewRequestId request now = .ok (.ok, renewed s request msg index r now)) ∨
    ((∀ r ∈ s.pool.m_requests, r.m_requestStatus ≠ .idle) ∧
      s.pool.grabSlot = .ok (s.pool.m_nextRequestId, none, s.pool.issued) ∧
      s.renewRequestId request now = .ok (.resourceLimit,
        (s.withPool s.pool.issued).withMessages (Function.update s.messages request
          (some { msg with m_header :=
            { msg.m_header with m_requestId := COMMUTIL_MSG_INVALID_REQUEST_ID } })))) := by
  have hread := load_eq hload
  rcases s.pool.grabSlot_cases with ⟨index, r, hslot, hidle, hgrab⟩ | ⟨-, hbusy, hgrab⟩ | ⟨hnil, -⟩
  · refine .inl ⟨index, r, hslot, hidle, hgrab, ?_⟩
    have hlt := (List.getElem?_eq_some_iff.mp hslot).1
    have hread' : (s.pool.issued.setSlot index (r.grabbed s.pool.m_nextRequestId)).slot index =
        r.grabbed s.pool.m_nextRequestId := slot_setSlot_self hlt _
    unfold MsgSender.renewRequestId
    rw [hgrab, hread]
    dsimp only
    rw [hread', MsgRequestPool.setSlot_setSlot]
    rfl
  · refine .inr ⟨hbusy, hgrab, ?_⟩
    unfold MsgSender.renewRequestId
    rw [hgrab, hread]
  · exact absurd hnil hne

end Renewing

end Commutil.Client
