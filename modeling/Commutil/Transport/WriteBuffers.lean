import Commutil.Transport.DataServer

/-!
# Who Releases What Was Written

A write takes three steps.  `DataClient::write` and `DataServer::replyMsg` run in the
thread of the caller, copy the buffer and send an asynchronous request to the loop;
`onAsyncWriteStatic` passes the buffer to libuv by `writeTransport`; and `onWrite` reports
the outcome and releases the buffer and the object that describes it.

Each step is given by what it allocates, releases and reports, in order; the ledger of a
call is the sequence of all of these.  Any number of calls may be under way at a time.

`onAsyncWriteStatic` does not look at the result of `writeTransport`, and nobody else
hears of a buffer that libuv did not take: `released_once_iff`.
-/

namespace Commutil.Transport

open Commutil.Library

/-! ## §1 The ledger of a call -/

/-- Whose memory a buffer is. -/
inductive Owner where
  | caller
  | library
  deriving DecidableEq, Repr

/-- What a step of a write does outside of the call. -/
inductive WriteAction where
  | allocateRequestBuffer
  | freeRequestBuffer (owner : Owner)
  | allocateBufferData
  | freeBufferData
  | allocateAsyncRequest
  | freeAsyncRequest
  | allocateWriteRequest
  | freeWriteRequest
  | onBytesSent (length : Nat) (status : Int)
  | onWriteError (status : Int)
  /-- `uv_close` of the transport of a client. -/
  | close
  deriving DecidableEq, Repr

namespace WriteAction

/-- A data buffer is released. -/
def releasesBuffer : WriteAction → Bool
  | freeRequestBuffer _ => true
  | _ => false

/-- The listener hears of the outcome. -/
def reports : WriteAction → Bool
  | onBytesSent _ _ | onWriteError _ => true
  | _ => false

end WriteAction

/-- The two flags of a write. -/
structure WriteFlags where
  byRef : Bool
  disposeBuffer : Bool
  deriving DecidableEq, Repr

/-- What is written; the buffer of the caller may be null. -/
structure WriteArgs where
  bufferIsNull : Bool
  length : Nat
  flags : WriteFlags
  deriving DecidableEq, Repr

/-- `uv_buf_t`. -/
structure UvBuf where
  owner : Owner
  isNull : Bool
  len : Nat
  deriving DecidableEq, Repr

/-- `struct ClientBufferData` and `struct ServerBufferData`. -/
structure BufferData where
  m_buf : UvBuf
  m_shouldDeallocateBuffer : Bool
  deriving DecidableEq, Repr

/-- What the allocator and libuv answer while the request is sent. -/
structure WriteEnv where
  requestBuffer : Bool
  bufferData : Bool
  asyncRequest : Bool
  asyncInit : Bool
  asyncSend : Bool
  deriving DecidableEq, Repr

/-! ## §2 The thread of the caller -/

/-- `sendWriteRequest` and `sendWriteResponse`: the result, and what was done.  The server takes the
    loop from the connection handle, which may be null. -/
def sendWrite (handle : Bool) (env : WriteEnv) : Except Fault (ErrorCode × List WriteAction) :=
  if !env.asyncRequest then .ok (.nomem, [])
  else if !handle then .error .nullDereference
  else if !env.asyncInit then .ok (.transportError, [.allocateAsyncRequest, .freeAsyncRequest])
  else if !env.asyncSend then .ok (.transportError, [.allocateAsyncRequest, .freeAsyncRequest])
  else .ok (.ok, [.allocateAsyncRequest])

/-- A call as the caller sees it, with the buffer data under way if it was accepted. -/
structure WriteResult where
  result : ErrorCode
  actions : List WriteAction
  bufferData : Option BufferData
  deriving DecidableEq, Repr

/-- The buffer that goes out: a copy, or by reference that of the caller. -/
def WriteArgs.buf (args : WriteArgs) : UvBuf :=
  if args.flags.byRef then ⟨.caller, args.bufferIsNull, args.length⟩
  else ⟨.library, false, args.length⟩

/-- What `write` and `replyMsg` have in common. -/
def writeBuffer (handle : Bool) (env : WriteEnv) (args : WriteArgs) : Except Fault WriteResult :=
  let byRef := args.flags.byRef
  let shouldDisposeBuffer := !byRef || args.flags.disposeBuffer
  let copied := if byRef then [] else [WriteAction.allocateRequestBuffer]
  let discarded := if byRef then [] else [WriteAction.freeRequestBuffer .library]
  -- no copy, nothing to release
  if !byRef && !env.requestBuffer then .ok ⟨.nomem, [], none⟩
  -- the copy is all there is to release
  else if !env.bufferData then .ok ⟨.nomem, copied ++ discarded, none⟩
  else
    match sendWrite handle env with
    | .error fault => .error fault
    | .ok (rc, sent) =>
      let begun := copied ++ WriteAction.allocateBufferData :: sent
      -- the send failed: the copy goes, a buffer by reference stays with its caller
      if rc ≠ .ok then .ok ⟨rc, begun ++ WriteAction.freeBufferData :: discarded, none⟩
      else .ok ⟨.ok, begun, some ⟨args.buf, shouldDisposeBuffer⟩⟩

/-- `DataClient::write`. -/
def DataClient.write (env : WriteEnv) (args : WriteArgs) : Except Fault WriteResult :=
  writeBuffer true env args

/-- `DataServer::replyMsg`, for a running server or not, and a connection whose handle is set or
    not. -/
def DataServer.replyMsg (running handle : Bool) (env : WriteEnv) (args : WriteArgs) :
    Except Fault WriteResult :=
  if !running then .ok ⟨.invalidState, [], none⟩
  else writeBuffer handle env args

/-- What a reply of `ReplyState` is answered. -/
def ReplyEnv.writeEnv (env : ReplyEnv) : WriteEnv :=
  ⟨env.requestBuffer, env.serverBufferData, env.asyncRequest, env.asyncInit, env.asyncSend⟩

/-- The result of a reply is that of `ReplyState.replyMsg`. -/
theorem replyMsg_result_eq {s : ReplyState} {d : ConnectionDetails}
    {connData : ConnectionData StreamSlot}
    (hslot : s.server.m_connDataArray[d.m_connIndex]? = some connData) (env : ReplyEnv)
    (buffer : List UInt8) (args : WriteArgs) :
    (s.replyMsg env d buffer args.flags.byRef).map Prod.fst =
      (DataServer.replyMsg (s.server.m_runState = .running)
        connData.extension.m_connectionHandle env.writeEnv args).map WriteResult.result := by
  obtain ⟨requestBuffer, serverBufferData, asyncRequest, asyncInit, asyncSend⟩ := env
  unfold ReplyState.replyMsg DataServer.replyMsg
  by_cases hrunning : s.server.m_runState = .running
  · simp only [hrunning, ne_eq, not_true_eq_false, if_false, decide_true, Bool.not_true,
      Bool.false_eq_true, ReplyState.sendWriteResponse, hslot, writeBuffer, sendWrite,
      ReplyEnv.writeEnv]
    cases args.flags.byRef <;> cases requestBuffer <;> cases serverBufferData <;>
      cases asyncRequest <;> cases connData.extension.m_connectionHandle <;> cases asyncInit <;>
      cases asyncSend <;> rfl
  · simp [hrunning, Except.map]

/-! ## §3 The loop -/

/-- What is answered to `writeTransport`: whether the address of the peer is understood (UDP), the
    request is allocated, and libuv takes the buffer. -/
structure TransportEnv where
  address : Bool
  request : Bool
  write : Bool
  deriving DecidableEq, Repr

/-- `writeTransport`: with an address or without, and with the request released on a failure or
    not. -/
def writeTransport (addressed releases : Bool) (env : TransportEnv) :
    ErrorCode × List WriteAction :=
  if addressed && !env.address then (.transportError, [])
  else if !env.request then (.nomem, [])
  else if !env.write then
    (.transportError, .allocateWriteRequest :: if releases then [.freeWriteRequest] else [])
  else (.ok, [.allocateWriteRequest])

def DataStreamClient.writeTransport : TransportEnv → ErrorCode × List WriteAction :=
  Transport.writeTransport false true

def UdpClient.writeTransport : TransportEnv → ErrorCode × List WriteAction :=
  Transport.writeTransport true true

def DataStreamServer.writeTransport : TransportEnv → ErrorCode × List WriteAction :=
  Transport.writeTransport false true

/-- The request is not released. -/
def UdpServer.writeTransport : TransportEnv → ErrorCode × List WriteAction :=
  Transport.writeTransport true false

/-- `onWrite`, of a client that closes its transport on an error, or of a server. -/
def onWrite (closes : Bool) (bufferData : BufferData) (status : Int) : List WriteAction :=
  (if status < 0 then .onWriteError status :: (if closes then [.close] else [])
    else [.onBytesSent bufferData.m_buf.len status]) ++
  -- a buffer is released to whom it belongs, whatever the status
  (if bufferData.m_shouldDeallocateBuffer && !bufferData.m_buf.isNull then
      [.freeRequestBuffer bufferData.m_buf.owner]
    else []) ++
  [.freeBufferData]

def DataClient.onWrite : BufferData → Int → List WriteAction := Transport.onWrite true

def DataServer.onWrite : BufferData → Int → List WriteAction := Transport.onWrite false

/-! ## §4 Calls under way -/

/-- The classes that write. -/
inductive Endpoint where
  | streamClient
  | udpClient
  | streamServer
  | udpServer
  deriving DecidableEq, Repr

namespace Endpoint

/-- A call of `write` or `replyMsg`. -/
def call (endpoint : Endpoint) (running handle : Bool) (env : WriteEnv) (args : WriteArgs) :
    Except Fault WriteResult :=
  match endpoint with
  | streamClient | udpClient => DataClient.write env args
  | streamServer | udpServer => DataServer.replyMsg running handle env args

def writeTransport : Endpoint → TransportEnv → ErrorCode × List WriteAction
  | streamClient => DataStreamClient.writeTransport
  | udpClient => UdpClient.writeTransport
  | streamServer => DataStreamServer.writeTransport
  | udpServer => UdpServer.writeTransport

/-- `onWrite` and the request, which is released by its callback. -/
def written (endpoint : Endpoint) (bufferData : BufferData) (status : Int) : List WriteAction :=
  (match endpoint with
    | streamClient | udpClient => DataClient.onWrite bufferData status
    | streamServer | udpServer => DataServer.onWrite bufferData status) ++ [.freeWriteRequest]

/-- The buffer is passed to libuv, and libuv takes it. -/
def takes (endpoint : Endpoint) (env : TransportEnv) : Bool :=
  match endpoint with
  | streamClient | streamServer => env.request && env.write
  | udpClient | udpServer => env.address && env.request && env.write

end Endpoint

/-- How far a call has come. -/
inductive WriteStage where
  /-- The call has returned an error. -/
  | refused
  /-- The asynchronous request is under way. -/
  | queued (bufferData : BufferData)
  /-- libuv has taken the buffer. -/
  | writing (bufferData : BufferData)
  /-- `writeTransport` has failed. -/
  | dropped
  | done
  deriving DecidableEq, Repr

/-- A call with its ledger; `answer` is what `writeTransport` was answered, `asyncClosing` whether
    the asynchronous request is being closed. -/
structure WriteCall where
  args : WriteArgs
  result : ErrorCode
  stage : WriteStage
  answer : Option TransportEnv
  asyncClosing : Bool
  ledger : List WriteAction
  deriving DecidableEq, Repr

namespace WriteCall

/-- A call that has returned. -/
def returned (args : WriteArgs) (r : WriteResult) : WriteCall where
  args
  result := r.result
  stage := match r.bufferData with
    | none => .refused
    | some bufferData => .queued bufferData
  answer := none
  asyncClosing := false
  ledger := r.actions

/-- What comes to a call afterwards. -/
inductive Event where
  /-- `onAsyncWriteStatic`. -/
  | asyncWrite (env : TransportEnv)
  /-- `onCloseAsyncWriteReqStatic`. -/
  | asyncClosed
  /-- `onWriteStatic` or `onSendStatic`. -/
  | written (status : Int)
  deriving DecidableEq, Repr

/-- One event of a call, if it is possible. -/
def advance (endpoint : Endpoint) (c : WriteCall) : Event → Option WriteCall
  -- the loop takes the request up
  | .asyncWrite env =>
    match c.stage with
    | .queued bufferData =>
      let (rc, actions) := endpoint.writeTransport env
      some { c with
        stage := if rc = .ok then .writing bufferData else .dropped
        answer := some env
        asyncClosing := true
        ledger := c.ledger ++ actions }
    | _ => none
  -- its handle is closed on its own
  | .asyncClosed =>
    if c.asyncClosing then
      some { c with asyncClosing := false, ledger := c.ledger ++ [.freeAsyncRequest] }
    else none
  | .written status =>
    match c.stage with
    | .writing bufferData =>
      some { c with stage := .done, ledger := c.ledger ++ endpoint.written bufferData status }
    | _ => none

/-- The call has returned an error, or the loop has processed its request. -/
def Finished (c : WriteCall) : Prop :=
  c.stage = .refused ∨ c.stage = .dropped ∨ c.stage = .done

/-- Disposal applies: the buffer is a copy, or it is to be disposed; and there is one. -/
def disposes (args : WriteArgs) : Bool :=
  !args.flags.byRef || args.flags.disposeBuffer && !args.bufferIsNull

end WriteCall

/-- What happens at an endpoint: a new call, or an event of an earlier one. -/
inductive WriteEvent where
  | call (running handle : Bool) (env : WriteEnv) (args : WriteArgs)
  | advance (call : Nat) (event : WriteCall.Event)
  deriving DecidableEq, Repr

/-- One step of an endpoint, if it is possible. -/
def Endpoint.step (endpoint : Endpoint) (calls : List WriteCall) :
    WriteEvent → Option (List WriteCall)
  | .call running handle env args =>
    match endpoint.call running handle env args with
    | .error _ => none
    | .ok r => some (calls ++ [.returned args r])
  | .advance call event =>
    match calls[call]? with
    | none => none
    | some c => (c.advance endpoint event).map fun c' => calls.set call c'

/-! ## §5 What a ledger comes to -/

/-- The buffer data of an accepted call. -/
def WriteArgs.bufferData (args : WriteArgs) : BufferData :=
  ⟨args.buf, !args.flags.byRef || args.flags.disposeBuffer⟩

/-- How often the buffer data was released, the data buffer was released, and the outcome was
    reported. -/
structure Spent (ledger : List WriteAction) (bufferData buffer reported : Nat) : Prop where
  bufferData_eq : ledger.count .freeBufferData = bufferData
  buffer_eq : ledger.countP WriteAction.releasesBuffer = buffer
  reported_eq : ledger.countP WriteAction.reports = reported

/-- The library released what it had allocated, and nothing of the caller's. -/
structure Refunded (ledger : List WriteAction) : Prop where
  requestBuffer : ledger.count (.freeRequestBuffer .library) = ledger.count .allocateRequestBuffer
  bufferData : ledger.count .freeBufferData = ledger.count .allocateBufferData
  asyncRequest : ledger.count .freeAsyncRequest = ledger.count .allocateAsyncRequest
  caller : ledger.count (.freeRequestBuffer .caller) = 0

namespace WriteCall

/-- **What is asked of a call**: after an error everything is as before; otherwise the buffer data
    is released once, the data buffer once if disposal applies and else not at all, and the outcome
    is reported once. -/
structure Accounted (c : WriteCall) : Prop where
  refused : c.result ≠ .ok → Refunded c.ledger
  accepted : c.result = .ok → Spent c.ledger 1 (if disposes c.args then 1 else 0) 1

/-- libuv took the buffer, if the call was accepted. -/
def Taken (endpoint : Endpoint) (c : WriteCall) : Prop :=
  c.result = .ok → ∃ env, c.answer = some env ∧ endpoint.takes env = true

/-- What a call keeps, by how far it has come. -/
inductive Inv (endpoint : Endpoint) (c : WriteCall) : Prop where
  | refused (hstage : c.stage = .refused) (hresult : c.result ≠ .ok) (hledger : Refunded c.ledger)
      (hclosing : c.asyncClosing = false)
  | queued (hstage : c.stage = .queued c.args.bufferData) (hresult : c.result = .ok)
      (hledger : Spent c.ledger 0 0 0) (hclosing : c.asyncClosing = false)
  | writing (hstage : c.stage = .writing c.args.bufferData) (hresult : c.result = .ok)
      (hledger : Spent c.ledger 0 0 0)
      (htaken : ∃ env, c.answer = some env ∧ endpoint.takes env = true)
  | dropped (hstage : c.stage = .dropped) (hresult : c.result = .ok)
      (hledger : Spent c.ledger 0 0 0)
      (hlost : ∃ env, c.answer = some env ∧ endpoint.takes env = false)
  | done (hstage : c.stage = .done) (hresult : c.result = .ok)
      (hledger : Spent c.ledger 1 (if disposes c.args then 1 else 0) 1)
      (htaken : ∃ env, c.answer = some env ∧ endpoint.takes env = true)

end WriteCall

theorem Spent.append {ledger ledger' : List WriteAction} {d d' b b' r r' : Nat}
    (h : Spent ledger d b r) (h' : Spent ledger' d' b' r') :
    Spent (ledger ++ ledger') (d + d') (b + b') (r + r') where
  bufferData_eq := by rw [List.count_append, h.bufferData_eq, h'.bufferData_eq]
  buffer_eq := by rw [List.countP_append, h.buffer_eq, h'.buffer_eq]
  reported_eq := by rw [List.countP_append, h.reported_eq, h'.reported_eq]

/-- A request is neither a buffer nor a report. -/
theorem spent_freeAsyncRequest : Spent [.freeAsyncRequest] 0 0 0 := ⟨rfl, rfl, rfl⟩

theorem spent_freeWriteRequest : Spent [.freeWriteRequest] 0 0 0 := ⟨rfl, rfl, rfl⟩

theorem spent_writeTransport (endpoint : Endpoint) (env : TransportEnv) :
    Spent (endpoint.writeTransport env).2 0 0 0 := by
  obtain ⟨address, request, write⟩ := env
  cases endpoint <;> cases address <;> cases request <;> cases write <;> exact ⟨rfl, rfl, rfl⟩

/-- libuv takes the buffer exactly if `writeTransport` succeeds. -/
theorem writeTransport_ok_iff (endpoint : Endpoint) (env : TransportEnv) :
    (endpoint.writeTransport env).1 = .ok ↔ endpoint.takes env = true := by
  obtain ⟨address, request, write⟩ := env
  cases endpoint <;> cases address <;> cases request <;> cases write <;> decide

/-- `onWrite` reports once and releases the buffer data, and the buffer if it is marked and not
    null. -/
theorem spent_onWrite (closes : Bool) (bufferData : BufferData) (status : Int) :
    Spent (onWrite closes bufferData status) 1
      (if bufferData.m_shouldDeallocateBuffer && !bufferData.m_buf.isNull then 1 else 0) 1 := by
  have hreport : Spent (if status < 0 then
        .onWriteError status :: (if closes then [.close] else [])
      else [.onBytesSent bufferData.m_buf.len status]) 0 0 1 := by
    split
    · cases closes <;> exact ⟨rfl, rfl, rfl⟩
    · exact ⟨rfl, rfl, rfl⟩
  have hbuffer : Spent (if bufferData.m_shouldDeallocateBuffer && !bufferData.m_buf.isNull then
        [.freeRequestBuffer bufferData.m_buf.owner] else []) 0
      (if bufferData.m_shouldDeallocateBuffer && !bufferData.m_buf.isNull then 1 else 0) 0 := by
    split <;> exact ⟨rfl, rfl, rfl⟩
  have hdata : Spent [.freeBufferData] 1 0 0 := ⟨rfl, rfl, rfl⟩
  simpa [onWrite] using (hreport.append hbuffer).append hdata

theorem spent_written (endpoint : Endpoint) (args : WriteArgs) (status : Int) :
    Spent (endpoint.written args.bufferData status) 1
      (if WriteCall.disposes args then 1 else 0) 1 := by
  have hdisposes : ((!args.flags.byRef || args.flags.disposeBuffer) && !args.buf.isNull) =
      WriteCall.disposes args := by
    unfold WriteArgs.buf WriteCall.disposes
    cases args.flags.byRef <;> simp
  have hwrite := fun closes =>
    (spent_onWrite closes args.bufferData status).append spent_freeWriteRequest
  simp only [WriteArgs.bufferData, hdisposes, Nat.add_zero] at hwrite
  cases endpoint with
  | streamClient => exact hwrite true
  | udpClient => exact hwrite true
  | streamServer => exact hwrite false
  | udpServer => exact hwrite false

/-! ## §6 Every step of a call -/

/-- What sending a request comes to: on an error the request is released, if there was one. -/
theorem sendWrite_cases {handle : Bool} {env : WriteEnv} {rc : ErrorCode}
    {sent : List WriteAction} (h : sendWrite handle env = .ok (rc, sent)) :
    rc ≠ .ok ∧ (sent = [] ∨ sent = [.allocateAsyncRequest, .freeAsyncRequest]) ∨
      rc = .ok ∧ sent = [.allocateAsyncRequest] := by
  unfold sendWrite at h
  split at h
  · cases h
    exact .inl ⟨nofun, .inl rfl⟩
  split at h
  · cases h
  split at h
  · cases h
    exact .inl ⟨nofun, .inr rfl⟩
  split at h
  · cases h
    exact .inl ⟨nofun, .inr rfl⟩
  · cases h
    exact .inr ⟨rfl, rfl⟩

/-- What a call returns: an error with everything released, or the buffer data. -/
theorem writeBuffer_cases {handle : Bool} {env : WriteEnv} {args : WriteArgs} {r : WriteResult}
    (h : writeBuffer handle env args = .ok r) :
    r.result ≠ .ok ∧ r.bufferData = none ∧ Refunded r.actions ∨
      r.result = .ok ∧ Spent r.actions 0 0 0 ∧
        r.bufferData = some args.bufferData := by
  unfold writeBuffer at h
  dsimp only at h
  split at h
  · cases h
    exact .inl ⟨nofun, rfl, ⟨rfl, rfl, rfl, rfl⟩⟩
  split at h
  · cases h
    refine .inl ⟨nofun, rfl, ?_⟩
    dsimp only
    split <;> exact ⟨rfl, rfl, rfl, rfl⟩
  split at h
  · cases h
  rename_i rc sent hsent
  rcases sendWrite_cases hsent with ⟨hrc, hsent⟩ | ⟨rfl, rfl⟩
  · rw [if_pos hrc] at h
    cases h
    refine .inl ⟨hrc, rfl, ?_⟩
    dsimp only
    rcases hsent with rfl | rfl <;> split <;> exact ⟨rfl, rfl, rfl, rfl⟩
  · rw [if_neg (fun hne => hne rfl)] at h
    cases h
    refine .inr ⟨rfl, ?_, rfl⟩
    dsimp only
    split <;> exact ⟨rfl, rfl, rfl⟩

theorem replyMsg_cases {running handle : Bool} {env : WriteEnv} {args : WriteArgs}
    {r : WriteResult} (h : DataServer.replyMsg running handle env args = .ok r) :
    r.result ≠ .ok ∧ r.bufferData = none ∧ Refunded r.actions ∨
      r.result = .ok ∧ Spent r.actions 0 0 0 ∧
        r.bufferData = some args.bufferData := by
  unfold DataServer.replyMsg at h
  split at h
  · cases h
    exact .inl ⟨nofun, rfl, ⟨rfl, rfl, rfl, rfl⟩⟩
  · exact writeBuffer_cases h

theorem call_inv {endpoint : Endpoint} {running handle : Bool} {env : WriteEnv} {args : WriteArgs}
    {r : WriteResult} (h : endpoint.call running handle env args = .ok r) :
    (WriteCall.returned args r).Inv endpoint := by
  have hcases : r.result ≠ .ok ∧ r.bufferData = none ∧ Refunded r.actions ∨
      r.result = .ok ∧ Spent r.actions 0 0 0 ∧
        r.bufferData = some args.bufferData := by
    cases endpoint with
    | streamClient => exact writeBuffer_cases h
    | udpClient => exact writeBuffer_cases h
    | streamServer => exact replyMsg_cases h
    | udpServer => exact replyMsg_cases h
  rcases hcases with ⟨hresult, hdata, hledger⟩ | ⟨hresult, hledger, hdata⟩
  · exact .refused (by simp [WriteCall.returned, hdata]) hresult hledger rfl
  · exact .queued (by simp [WriteCall.returned, hdata]) hresult hledger rfl

namespace WriteCall

variable {endpoint : Endpoint} {c c' : WriteCall}

/-- **One event keeps what a call keeps.** -/
theorem Inv.advance (h : c.Inv endpoint) {event : Event}
    (hstep : c.advance endpoint event = some c') : c'.Inv endpoint := by
  cases event with
  -- the transport takes the buffer, or it drops it
  | asyncWrite env =>
    unfold WriteCall.advance at hstep
    cases h with
    | queued hstage hresult hledger hclosing =>
      rw [hstage] at hstep
      cases hstep
      have hnext := hledger.append (spent_writeTransport endpoint env)
      by_cases hok : (endpoint.writeTransport env).1 = .ok
      · have htaken := (writeTransport_ok_iff endpoint env).mp hok
        exact .writing (if_pos hok) hresult hnext ⟨env, rfl, htaken⟩
      · have hlost : endpoint.takes env = false := by
          rw [← Bool.not_eq_true, ← writeTransport_ok_iff]
          exact hok
        exact .dropped (if_neg hok) hresult hnext ⟨env, rfl, hlost⟩
    | refused hstage => rw [hstage] at hstep; cases hstep
    | writing hstage => rw [hstage] at hstep; cases hstep
    | dropped hstage => rw [hstage] at hstep; cases hstep
    | done hstage => rw [hstage] at hstep; cases hstep
  -- the request is freed when its handle is closed
  | asyncClosed =>
    simp only [WriteCall.advance] at hstep
    split at hstep
    · rename_i hclosing
      cases hstep
      cases h with
      | refused _ _ _ hnot => rw [hnot] at hclosing; cases hclosing
      | queued _ _ _ hnot => rw [hnot] at hclosing; cases hclosing
      | writing hstage hresult hledger htaken =>
        exact .writing hstage hresult (hledger.append spent_freeAsyncRequest) htaken
      | dropped hstage hresult hledger hlost =>
        exact .dropped hstage hresult (hledger.append spent_freeAsyncRequest) hlost
      | done hstage hresult hledger htaken =>
        exact .done hstage hresult (hledger.append spent_freeAsyncRequest) htaken
    · cases hstep
  -- the callback of the write spends the buffer
  | written status =>
    unfold WriteCall.advance at hstep
    cases h with
    | writing hstage hresult hledger htaken =>
      rw [hstage] at hstep
      cases hstep
      have hnext := hledger.append (spent_written endpoint c.args status)
      simp only [Nat.zero_add] at hnext
      exact .done rfl hresult hnext htaken
    | refused hstage => rw [hstage] at hstep; cases hstep
    | queued hstage => rw [hstage] at hstep; cases hstep
    | dropped hstage => rw [hstage] at hstep; cases hstep
    | done hstage => rw [hstage] at hstep; cases hstep

/-- A finished call is accounted for exactly if libuv took its buffer. -/
theorem Inv.accounted_iff (h : c.Inv endpoint) (hfinished : c.Finished) :
    c.Accounted ↔ c.Taken endpoint := by
  cases h with
  | refused _ hresult hledger _ =>
    exact iff_of_true ⟨fun _ => hledger, fun hok => absurd hok hresult⟩
      fun hok => absurd hok hresult
  | queued hstage _ _ _ => simp [Finished, hstage] at hfinished
  | writing hstage _ _ _ => simp [Finished, hstage] at hfinished
  | dropped _ hresult hledger hlost =>
    refine iff_of_false (fun hacc => ?_) (fun htaken => ?_)
    · have hspent := (hacc.accepted hresult).bufferData_eq
      rw [hledger.bufferData_eq] at hspent
      cases hspent
    · obtain ⟨env, henv, hno⟩ := hlost
      obtain ⟨env', henv', hyes⟩ := htaken hresult
      obtain rfl : env = env' := Option.some.inj (henv.symm.trans henv')
      rw [hno] at hyes
      cases hyes
  | done _ hresult hledger htaken =>
    exact iff_of_true ⟨fun hbad => absurd hresult hbad, fun _ => hledger⟩ fun _ => htaken

end WriteCall

/-- Every call of a run keeps it. -/
theorem step_inv {endpoint : Endpoint} {calls calls' : List WriteCall} {e : WriteEvent}
    (h : ∀ c ∈ calls, c.Inv endpoint) (hstep : endpoint.step calls e = some calls') :
    ∀ c ∈ calls', c.Inv endpoint := by
  intro c hc
  cases e with
  | call running handle env args =>
    simp only [Endpoint.step] at hstep
    split at hstep
    · cases hstep
    rename_i r hr
    cases hstep
    rcases List.mem_append.mp hc with hold | hnew
    · exact h c hold
    · cases List.mem_singleton.mp hnew
      exact call_inv hr
  | advance call event =>
    simp only [Endpoint.step] at hstep
    split at hstep
    · cases hstep
    rename_i old hget
    obtain ⟨new, hnew, rfl⟩ := Option.map_eq_some_iff.mp hstep
    rcases List.mem_or_eq_of_mem_set hc with hold | rfl
    · exact h c hold
    · exact (h old (List.mem_of_getElem? hget)).advance hnew

/-! ## §7 Released exactly once -/

/-- **Write buffers are released exactly once**: at every endpoint and in every run, a call that has
    returned an error has released what it allocated, and an accepted call that the loop has
    processed is accounted for exactly if libuv took its buffer. -/
theorem released_once_iff (endpoint : Endpoint) (events : List WriteEvent)
    (calls : List WriteCall)
    (hrun : RunsWith (stepOf endpoint.step) (fun _ _ => True) [] events calls) :
    ∀ c ∈ calls, c.Finished → (c.Accounted ↔ c.Taken endpoint) := by
  intro c hc hfinished
  have hinv := hrun.invariant (fun calls => ∀ c ∈ calls, c.Inv endpoint)
    (fun _ _ _ hs _ hstep => step_inv hs hstep)
    (fun _ hmem => absurd hmem List.not_mem_nil)
  exact (hinv c hc).accounted_iff hfinished

/-- A buffer of the caller is written and disposed; a second call has no memory for its buffer
    data. -/
theorem released_once_two_calls :
    ∃ calls, RunsWith (stepOf Endpoint.streamClient.step) (fun _ _ => True) []
        [.call true true ⟨true, true, true, true, true⟩ ⟨false, 20, ⟨true, true⟩⟩,
          .call true true ⟨true, false, true, true, true⟩ ⟨false, 20, ⟨false, false⟩⟩,
          .advance 0 (.asyncWrite ⟨true, true, true⟩), .advance 0 .asyncClosed,
          .advance 0 (.written 0)] calls ∧
      calls.map WriteCall.ledger =
        [[.allocateBufferData, .allocateAsyncRequest, .allocateWriteRequest, .freeAsyncRequest,
          .onBytesSent 20 0, .freeRequestBuffer .caller, .freeBufferData, .freeWriteRequest],
         [.allocateRequestBuffer, .freeRequestBuffer .library]] ∧
      ∀ c ∈ calls, c.Finished → (c.Accounted ↔ c.Taken .streamClient) := by
  have hrun : ∃ calls, RunsWith (stepOf Endpoint.streamClient.step) (fun _ _ => True) []
        [.call true true ⟨true, true, true, true, true⟩ ⟨false, 20, ⟨true, true⟩⟩,
          .call true true ⟨true, false, true, true, true⟩ ⟨false, 20, ⟨false, false⟩⟩,
          .advance 0 (.asyncWrite ⟨true, true, true⟩), .advance 0 .asyncClosed,
          .advance 0 (.written 0)] calls ∧
      calls.map WriteCall.ledger =
        [[.allocateBufferData, .allocateAsyncRequest, .allocateWriteRequest, .freeAsyncRequest,
          .onBytesSent 20 0, .freeRequestBuffer .caller, .freeBufferData, .freeWriteRequest],
         [.allocateRequestBuffer, .freeRequestBuffer .library]] :=
    ⟨_, runsWith_of_runWhere (f := Endpoint.streamClient.step) (P := fun _ _ => True) rfl, rfl⟩
  obtain ⟨calls, hcalls, hledger⟩ := hrun
  exact ⟨calls, hcalls, hledger, released_once_iff .streamClient _ calls hcalls⟩

/-- `write` has returned `E_OK`, and `uv_write` fails: the copy and the buffer data are never
    released, and the listener is not told. -/
theorem failed_uv_write_keeps_buffers :
    ∃ calls, RunsWith (stepOf Endpoint.streamClient.step) (fun _ _ => True) []
        [.call true true ⟨true, true, true, true, true⟩ ⟨false, 20, ⟨false, false⟩⟩,
          .advance 0 (.asyncWrite ⟨true, true, false⟩), .advance 0 .asyncClosed] calls ∧
      ∃ c ∈ calls, c.Finished ∧ c.result = .ok ∧ c.ledger = [.allocateRequestBuffer,
        .allocateBufferData, .allocateAsyncRequest, .allocateWriteRequest, .freeWriteRequest,
        .freeAsyncRequest] ∧ ¬ c.Accounted := by
  refine ⟨_, runsWith_of_runWhere (f := Endpoint.streamClient.step) (P := fun _ _ => True) rfl, _,
    List.mem_singleton_self _, .inr (.inl rfl), rfl, rfl, fun h => ?_⟩
  exact absurd (h.accepted rfl).bufferData_eq (by decide)

end Commutil.Transport
