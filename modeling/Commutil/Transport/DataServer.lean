import Commutil.Basic
import Commutil.Library.Transitions

/-!
# Data Servers and Replies

`connection_details.h`, the connection array of `data_server.cpp`, and the way a
reply goes from `DataServer::replyMsg` through an asynchronous request to
`DataStreamServer::writeTransport`.

A slot of the connection array is used again after its connection was closed; the
running connection id tells the connections on a slot apart.  A reply carries the
details of its connection, of which only the index is used.  The model lets
connections come and go in any order between the call and the write.
-/

namespace Commutil.Transport

open Commutil.Library

/-! ## §1 The connection array -/

/-- `class ConnectionDetails`, without the names and addresses. -/
structure ConnectionDetails where
  m_connId : UInt64
  m_connIndex : Nat
  deriving DecidableEq, Repr

/-- `struct ConnectionData`; `ε` is what the derived server keeps in a slot. -/
structure ConnectionData (ε : Type) where
  m_isUsed : Bool
  m_connectionId : UInt64
  m_connectionDetails : ConnectionDetails
  extension : ε
  deriving DecidableEq, Repr

/-- `enum class RunState`. -/
inductive RunState where
  | idle
  | startingUp
  | running
  | shuttingDown
  deriving DecidableEq, Repr

/-- `class DataServer`; `m_maxConnections` is the length of the array. -/
structure DataServer (ε : Type) where
  m_connDataArray : List (ConnectionData ε)
  m_nextConnectionId : UInt64
  m_runState : RunState
  deriving DecidableEq, Repr

namespace DataServer

variable {ε : Type}

/-- `DataServer::initConnDataArray`, with the slots as the derived server creates them. -/
def initConnDataArray (maxConnections : Nat) (extension : ε) : DataServer ε where
  m_connDataArray := (List.range maxConnections).map fun i =>
    ⟨false, 0xFFFFFFFFFFFFFFFF, ⟨0, i⟩, extension⟩
  m_nextConnectionId := 0
  m_runState := .running

/-- A slot written. -/
def setSlot (server : DataServer ε) (index : Nat) (connData : ConnectionData ε) : DataServer ε :=
  { server with m_connDataArray := server.m_connDataArray.set index connData }

/-- The loop of `grabConnectionData`: the first slot that is not in use. -/
def vacantSlot (server : DataServer ε) : Option Nat :=
  server.m_connDataArray.findIdx? fun connData => !connData.m_isUsed

/-- A slot as `grabConnectionData` leaves it. -/
def grabbed (connData : ConnectionData ε) (connectionId : UInt64) : ConnectionData ε :=
  { connData with
    m_isUsed := true
    m_connectionId := connectionId
    m_connectionDetails := { connData.m_connectionDetails with m_connId := connectionId } }

/-- `DataServer::grabConnectionData`: the index of the slot. -/
def grabConnectionData (server : DataServer ε) : Option (Nat × DataServer ε) :=
  match server.vacantSlot with
  | none => none
  | some index =>
    match server.m_connDataArray[index]? with
    | none => none
    | some connData =>
      some (index, { server.setSlot index (grabbed connData server.m_nextConnectionId) with
        m_nextConnectionId := server.m_nextConnectionId + 1 })

/-- `connData->m_isUsed = 0`. -/
def releaseSlot (server : DataServer ε) (index : Nat) : DataServer ε :=
  match server.m_connDataArray[index]? with
  | none => server
  | some connData => server.setSlot index { connData with m_isUsed := false }

theorem setSlot_self (server : DataServer ε) {index : Nat} {old : ConnectionData ε}
    (h : server.m_connDataArray[index]? = some old) (connData : ConnectionData ε) :
    (server.setSlot index connData).m_connDataArray[index]? = some connData := by
  have hlt := (List.getElem?_eq_some_iff.mp h).1
  simp [setSlot, hlt]

theorem setSlot_ne (server : DataServer ε) {index j : Nat} (h : index ≠ j)
    (connData : ConnectionData ε) :
    (server.setSlot index connData).m_connDataArray[j]? = server.m_connDataArray[j]? := by
  simp [setSlot, List.getElem?_set_ne h]

/-- **What grabbing does**: a slot that was not in use is taken under the next id, and nothing else
    changes. -/
theorem grabConnectionData_spec {server server' : DataServer ε} {index : Nat}
    (h : server.grabConnectionData = some (index, server')) :
    ∃ connData, server.m_connDataArray[index]? = some connData ∧ connData.m_isUsed = false ∧
      server'.m_connDataArray =
        server.m_connDataArray.set index (grabbed connData server.m_nextConnectionId) ∧
      server'.m_nextConnectionId = server.m_nextConnectionId + 1 ∧
      server'.m_runState = server.m_runState := by
  unfold grabConnectionData at h
  split at h
  · cases h
  rename_i i hvacant
  split at h
  · cases h
  rename_i connData hslot
  cases h
  refine ⟨connData, hslot, ?_, rfl, rfl, rfl⟩
  obtain ⟨hlt, hfree, -⟩ := List.findIdx?_eq_some_iff_getElem.mp hvacant
  have hget := (List.getElem?_eq_some_iff.mp hslot).2
  simpa [hget] using hfree

end DataServer

/-! ## §2 Replies -/

/-- What a stream server keeps in a slot: whether `m_connectionHandle` points to the socket of the
    slot, and the id of the connection for which this socket is open. -/
structure StreamSlot where
  m_connectionHandle : Bool
  openFor : Option UInt64
  deriving DecidableEq, Repr

/-- `struct ServerBufferData`; the details of the call are kept beside it. -/
structure ServerBufferData where
  m_connectionIndex : Nat
  m_buf : List UInt8
  addressed : ConnectionDetails
  deriving DecidableEq, Repr

/-- What the allocator and libuv answer during `replyMsg`. -/
structure ReplyEnv where
  requestBuffer : Bool
  serverBufferData : Bool
  asyncRequest : Bool
  asyncInit : Bool
  asyncSend : Bool
  deriving DecidableEq, Repr

/-- A call of `replyMsg`: whether its connection was open, and the result. -/
structure ReplyCall where
  connectionDetails : ConnectionDetails
  isOpen : Bool
  result : ErrorCode
  deriving DecidableEq, Repr

/-- Bytes that went out: the connection they were addressed to, and the one they were written
    to. -/
structure Written where
  addressed : ConnectionDetails
  connectionId : UInt64
  bytes : List UInt8
  deriving DecidableEq, Repr

/-- A stream server, the asynchronous requests under way, and what has happened so far. -/
structure ReplyState where
  server : DataServer StreamSlot
  asyncRequests : List ServerBufferData
  calls : List ReplyCall
  written : List Written
  deriving DecidableEq, Repr

namespace ReplyState

/-- The server after `initialize`, before the first connection. -/
def start (maxConnections : Nat) : ReplyState :=
  ⟨.initConnDataArray maxConnections ⟨false, none⟩, [], [], []⟩

/-- Whether the connection is open. -/
def isOpen (s : ReplyState) (connectionDetails : ConnectionDetails) : Bool :=
  match s.server.m_connDataArray[connectionDetails.m_connIndex]? with
  | none => false
  | some connData => connData.extension.openFor == some connectionDetails.m_connId

/-- `DataServer::sendWriteResponse`. -/
def sendWriteResponse (s : ReplyState) (env : ReplyEnv) (serverBufferData : ServerBufferData) :
    Except Fault (ErrorCode × ReplyState) :=
  match s.server.m_connDataArray[serverBufferData.m_connectionIndex]? with
  | none => .error .outOfBounds
  | some connData =>
    if !env.asyncRequest then .ok (.nomem, s)
    else if !connData.extension.m_connectionHandle then .error .nullDereference
    else if !env.asyncInit then .ok (.transportError, s)
    else if !env.asyncSend then .ok (.transportError, s)
    else .ok (.ok, { s with asyncRequests := s.asyncRequests ++ [serverBufferData] })

/-- `DataServer::replyMsg`. -/
def replyMsg (s : ReplyState) (env : ReplyEnv) (connectionDetails : ConnectionDetails)
    (buffer : List UInt8) (byRef : Bool) : Except Fault (ErrorCode × ReplyState) :=
  if s.server.m_runState ≠ .running then .ok (.invalidState, s)
  -- a copy is made first, unless the reply is by reference
  else if !byRef && !env.requestBuffer then .ok (.nomem, s)
  else if !env.serverBufferData then .ok (.nomem, s)
  else s.sendWriteResponse env ⟨connectionDetails.m_connIndex, buffer, connectionDetails⟩

/-- `DataStreamServer::writeTransport`.  `uv_write` refuses a socket that is not open, and can fail
    otherwise (`uvWrite`). -/
def writeTransport (s : ReplyState) (writeRequest uvWrite : Bool)
    (serverBufferData : ServerBufferData) : Except Fault (ErrorCode × ReplyState) :=
  if !writeRequest then .ok (.nomem, s)
  else
    match s.server.m_connDataArray[serverBufferData.m_connectionIndex]? with
    | none => .error .outOfBounds
    | some connData =>
      -- the slot of the index, whoever has it by now
      match connData.extension.openFor with
      | none => .ok (.transportError, s)
      | some connectionId =>
        if !uvWrite then .ok (.transportError, s)
        else .ok (.ok, { s with written := s.written ++
          [⟨serverBufferData.addressed, connectionId, serverBufferData.m_buf⟩] })

/-- A slot whose socket has been opened for its connection. -/
def opened (connData : ConnectionData StreamSlot) : ConnectionData StreamSlot :=
  { connData with extension := ⟨true, some connData.m_connectionId⟩ }

/-- A slot whose socket has been closed. -/
def closed (connData : ConnectionData StreamSlot) : ConnectionData StreamSlot :=
  { connData with
    m_isUsed := false
    extension := ⟨connData.extension.m_connectionHandle, none⟩ }

/-- What can happen to the connections and the replies of the server. -/
inductive Event where
  /-- A slot is grabbed for an incoming connection. -/
  | grab
  /-- A grabbed slot is given up before its socket is open. -/
  | release (index : Nat)
  /-- The socket of a grabbed slot is open, and `m_connectionHandle` is set. -/
  | open (index : Nat)
  /-- A read error: the socket is closed and the slot is free again. -/
  | close (index : Nat)
  | stop
  | replyMsg (connectionDetails : ConnectionDetails) (buffer : List UInt8) (byRef : Bool)
      (env : ReplyEnv)
  /-- `onAsyncWriteStatic` of one of the requests under way. -/
  | asyncWrite (request : Nat) (writeRequest uvWrite : Bool)
  deriving DecidableEq, Repr

/-- One step, if it is possible. -/
def step (s : ReplyState) : Event → Option ReplyState
  | .grab => (s.server.grabConnectionData).map fun (_, server) => { s with server }
  | .release index =>
    match s.server.m_connDataArray[index]? with
    | none => none
    | some connData =>
      if connData.m_isUsed && connData.extension.openFor.isNone then
        some { s with server := s.server.releaseSlot index }
      else none
  | .open index =>
    match s.server.m_connDataArray[index]? with
    | none => none
    | some connData =>
      if connData.m_isUsed && connData.extension.openFor.isNone then
        some { s with server := s.server.setSlot index (opened connData) }
      else none
  | .close index =>
    match s.server.m_connDataArray[index]? with
    | none => none
    | some connData =>
      if connData.extension.openFor.isSome then
        some { s with server := s.server.setSlot index (closed connData) }
      else none
  | .stop => some { s with server := { s.server with m_runState := .shuttingDown } }
  | .replyMsg connectionDetails buffer byRef env =>
    match s.replyMsg env connectionDetails buffer byRef with
    | .error _ => none
    | .ok (result, s') => some { s' with
        calls := s.calls ++ [⟨connectionDetails, s.isOpen connectionDetails, result⟩] }
  -- a reply that was accepted is written later, by its index
  | .asyncWrite request writeRequest uvWrite =>
    match s.asyncRequests[request]? with
    | none => none
    | some serverBufferData =>
      match s.writeTransport writeRequest uvWrite serverBufferData with
      | .error _ => none
      | .ok (_, s') => some { s' with asyncRequests := s.asyncRequests.eraseIdx request }

/-! ## §3 What a step does -/

/-- A reply call either changes nothing, or is accepted and queued. -/
theorem replyMsg_cases {s s' : ReplyState} {env : ReplyEnv} {d : ConnectionDetails}
    {buffer : List UInt8} {byRef : Bool} {result : ErrorCode}
    (h : s.replyMsg env d buffer byRef = .ok (result, s')) :
    (result ≠ .ok ∧ s' = s) ∨
      (result = .ok ∧ s.server.m_runState = .running ∧ (byRef || env.requestBuffer) = true ∧
        env = ⟨env.requestBuffer, true, true, true, true⟩ ∧
        s' = { s with asyncRequests := s.asyncRequests ++ [⟨d.m_connIndex, buffer, d⟩] }) := by
  obtain ⟨requestBuffer, serverBufferData, asyncRequest, asyncInit, asyncSend⟩ := env
  unfold replyMsg at h
  split at h
  · cases h
    exact .inl ⟨nofun, rfl⟩
  rename_i hrunning
  split at h
  · cases h
    exact .inl ⟨nofun, rfl⟩
  rename_i hbuffer
  split at h
  · cases h
    exact .inl ⟨nofun, rfl⟩
  rename_i hdata
  unfold sendWriteResponse at h
  split at h
  · cases h
  split at h
  · cases h
    exact .inl ⟨nofun, rfl⟩
  rename_i hrequest
  split at h
  · cases h
  split at h
  · cases h
    exact .inl ⟨nofun, rfl⟩
  rename_i hinit
  split at h
  · cases h
    exact .inl ⟨nofun, rfl⟩
  rename_i hsend
  cases h
  -- nothing was refused, so everything was allocated
  refine .inr ⟨rfl, by simpa using hrunning, ?_, ?_, rfl⟩
  · cases byRef <;> simp_all
  · simp_all

/-- A write either puts nothing out, or puts the bytes out on the socket that is open in the
    slot. -/
theorem writeTransport_cases {s s' : ReplyState} {writeRequest uvWrite : Bool}
    {r : ServerBufferData} {result : ErrorCode}
    (h : s.writeTransport writeRequest uvWrite r = .ok (result, s')) :
    s' = s ∨ ∃ connData connectionId,
      s.server.m_connDataArray[r.m_connectionIndex]? = some connData ∧
      connData.extension.openFor = some connectionId ∧
      s' = { s with written := s.written ++ [⟨r.addressed, connectionId, r.m_buf⟩] } := by
  unfold writeTransport at h
  split at h
  · cases h
    exact .inl rfl
  split at h
  · cases h
  rename_i connData hslot
  split at h
  · cases h
    exact .inl rfl
  rename_i connectionId hopen
  split at h
  · cases h
    exact .inl rfl
  · cases h
    exact .inr ⟨connData, connectionId, hslot, hopen, rfl⟩

/-! ## §4 Replies that reach their connection -/

/-- The call for these details was accepted while their connection was open. -/
def Accepted (s : ReplyState) (d : ConnectionDetails) : Prop :=
  ∃ c ∈ s.calls, c.connectionDetails = d ∧ c.isOpen = true ∧ c.result = .ok

/-- The slot is closed, or open for the connection. -/
def ClosedOrFor (server : DataServer StreamSlot) (d : ConnectionDetails) : Prop :=
  ∀ connData, server.m_connDataArray[d.m_connIndex]? = some connData →
    connData.extension.openFor = none ∨ connData.extension.openFor = some d.m_connId

/-- What the reply path keeps: no request waits for a slot that is open for another connection. -/
structure Inv (s : ReplyState) : Prop where
  index_eq : ∀ r ∈ s.asyncRequests, r.m_connectionIndex = r.addressed.m_connIndex
  waiting : ∀ r ∈ s.asyncRequests, ClosedOrFor s.server r.addressed
  accepted : ∀ r ∈ s.asyncRequests, s.Accepted r.addressed
  written : ∀ w ∈ s.written, w.connectionId = w.addressed.m_connId ∧ s.Accepted w.addressed
  refused : ∀ c ∈ s.calls, c.isOpen = false → c.result ≠ .ok

theorem start_inv (maxConnections : Nat) : Inv (start maxConnections) :=
  ⟨nofun, nofun, nofun, nofun, nofun⟩

/-- The slots may change as long as no request is left waiting for another connection. -/
theorem Inv.setServer {s : ReplyState} (h : s.Inv) {server : DataServer StreamSlot}
    (hserver : ∀ r ∈ s.asyncRequests, ClosedOrFor s.server r.addressed →
      ClosedOrFor server r.addressed) : Inv { s with server } :=
  ⟨h.index_eq, fun r hr => hserver r hr (h.waiting r hr), h.accepted, h.written, h.refused⟩

/-- A slot whose socket stays as it is, or is closed, makes nobody wait. -/
theorem ClosedOrFor.setSlot {server : DataServer StreamSlot} {d : ConnectionDetails}
    (h : ClosedOrFor server d) {index : Nat} {connData new : ConnectionData StreamSlot}
    (hslot : server.m_connDataArray[index]? = some connData)
    (hnew : new.extension.openFor = none ∨ new.extension.openFor = connData.extension.openFor) :
    ClosedOrFor (server.setSlot index new) d := by
  intro connData' hslot'
  -- only the slot that is written can change its socket
  by_cases hne : index = d.m_connIndex
  · subst hne
    rw [server.setSlot_self hslot] at hslot'
    cases hslot'
    rcases hnew with hnone | hsame
    · exact .inl hnone
    · rw [hsame]
      exact h connData hslot
  · rw [server.setSlot_ne hne] at hslot'
    exact h connData' hslot'

theorem Accepted.mono {s s' : ReplyState} {d : ConnectionDetails} (h : s.Accepted d)
    (hcalls : ∀ c ∈ s.calls, c ∈ s'.calls) : s'.Accepted d := by
  obtain ⟨c, hc, rest⟩ := h
  exact ⟨c, hcalls c hc, rest⟩

/-- A reply that nothing else refuses is for an open connection, and a socket is opened only when
    no reply to another connection waits for its slot. -/
def NoStaleReply (s : ReplyState) : Event → Prop
  | .replyMsg d _ byRef env =>
    s.server.m_runState = .running → (byRef || env.requestBuffer) = true →
      env = ⟨env.requestBuffer, true, true, true, true⟩ → s.isOpen d = true
  | .open index => ∀ r ∈ s.asyncRequests, r.m_connectionIndex = index →
      ∀ connData, s.server.m_connDataArray[index]? = some connData →
        connData.m_connectionId = r.addressed.m_connId
  | _ => True

private theorem isOpen_closedOrFor {s : ReplyState} {d : ConnectionDetails}
    (h : s.isOpen d = true) : ClosedOrFor s.server d := by
  intro connData hslot
  unfold isOpen at h
  rw [hslot] at h
  exact .inr (by simpa using h)

/-- A call is recorded that was refused if its connection was closed. -/
theorem Inv.called {s : ReplyState} (h : s.Inv) {c : ReplyCall}
    (hc : c.isOpen = false → c.result ≠ .ok) : Inv { s with calls := s.calls ++ [c] } := by
  have hmono : ∀ d, s.Accepted d → Accepted { s with calls := s.calls ++ [c] } d :=
    fun d hd => hd.mono fun c' hc' => List.mem_append_left _ hc'
  refine ⟨h.index_eq, h.waiting, fun r hr => hmono _ (h.accepted r hr), ?_, ?_⟩
  · exact fun w hw => ⟨(h.written w hw).1, hmono _ (h.written w hw).2⟩
  · intro c' hc'
    rcases List.mem_append.mp hc' with hold | hnew
    · exact h.refused c' hold
    · obtain rfl := List.mem_singleton.mp hnew
      exact hc

/-- A request is queued for a call that was accepted. -/
theorem Inv.queued {s : ReplyState} (h : s.Inv) {r : ServerBufferData}
    (hindex : r.m_connectionIndex = r.addressed.m_connIndex)
    (hwaiting : ClosedOrFor s.server r.addressed) (haccepted : s.Accepted r.addressed) :
    Inv { s with asyncRequests := s.asyncRequests ++ [r] } := by
  refine ⟨?_, ?_, ?_, h.written, h.refused⟩
  · exact List.forall_mem_append.mpr ⟨h.index_eq, List.forall_mem_singleton.mpr hindex⟩
  · exact List.forall_mem_append.mpr ⟨h.waiting, List.forall_mem_singleton.mpr hwaiting⟩
  · exact List.forall_mem_append.mpr ⟨h.accepted, List.forall_mem_singleton.mpr haccepted⟩

/-- A request is taken off the queue, written or not. -/
theorem Inv.taken {s : ReplyState} (h : s.Inv) (request : Nat) :
    Inv { s with asyncRequests := s.asyncRequests.eraseIdx request } :=
  ⟨fun r hr => h.index_eq r (List.mem_of_mem_eraseIdx hr),
    fun r hr => h.waiting r (List.mem_of_mem_eraseIdx hr),
    fun r hr => h.accepted r (List.mem_of_mem_eraseIdx hr), h.written, h.refused⟩

/-- What is written to the open slot of a waiting request goes to the connection it is for. -/
theorem Inv.wrote {s : ReplyState} (h : s.Inv) {r : ServerBufferData} (hr : r ∈ s.asyncRequests)
    {connData : ConnectionData StreamSlot} {connectionId : UInt64}
    (hslot : s.server.m_connDataArray[r.m_connectionIndex]? = some connData)
    (hopen : connData.extension.openFor = some connectionId) :
    Inv { s with written := s.written ++ [⟨r.addressed, connectionId, r.m_buf⟩] } := by
  refine ⟨h.index_eq, h.waiting, h.accepted, ?_, h.refused⟩
  refine List.forall_mem_append.mpr ⟨h.written, List.forall_mem_singleton.mpr ⟨?_, ?_⟩⟩
  · rw [h.index_eq r hr] at hslot
    rcases h.waiting r hr connData hslot with hnone | hsome
    · rw [hopen] at hnone
      cases hnone
    · rw [hopen] at hsome
      exact Option.some.inj hsome
  · exact h.accepted r hr

/-- A slot is opened for the connection that the requests waiting for it are addressed to. -/
theorem Inv.opens {s : ReplyState} (h : s.Inv) {index : Nat}
    {connData : ConnectionData StreamSlot} (he : s.NoStaleReply (.open index))
    (hslot : s.server.m_connDataArray[index]? = some connData) :
    Inv { s with server := s.server.setSlot index (opened connData) } := by
  apply h.setServer
  intro r hr hwait connData' hslot'
  by_cases hne : index = r.addressed.m_connIndex
  · subst hne
    rw [s.server.setSlot_self hslot] at hslot'
    cases hslot'
    exact .inr (congrArg some (he r hr (h.index_eq r hr) connData hslot))
  · rw [s.server.setSlot_ne hne] at hslot'
    exact hwait connData' hslot'

/-- **One step keeps the invariant**, unless a stale reply takes part in it. -/
theorem Inv.step {s s' : ReplyState} (h : s.Inv) {e : Event} (he : s.NoStaleReply e)
    (hstep : s.step e = some s') : s'.Inv := by
  cases e with
  | grab =>
    simp only [ReplyState.step, Option.map_eq_some_iff, Prod.exists] at hstep
    obtain ⟨index, server, hgrab, rfl⟩ := hstep
    obtain ⟨connData, hslot, -, harray, -, -⟩ := DataServer.grabConnectionData_spec hgrab
    apply h.setServer
    -- the slot gets a new id, but its socket is not open yet
    intro r _ hr connData' hslot'
    have hgrabbed : ClosedOrFor (s.server.setSlot index
        (DataServer.grabbed connData s.server.m_nextConnectionId)) r.addressed :=
      hr.setSlot hslot (.inr rfl)
    rw [harray] at hslot'
    exact hgrabbed connData' hslot'
  | release index =>
    simp only [ReplyState.step] at hstep
    split at hstep
    · cases hstep
    rename_i connData hslot
    split at hstep
    · cases hstep
      apply h.setServer
      intro r _ hr
      unfold DataServer.releaseSlot
      rw [hslot]
      exact hr.setSlot hslot (.inr rfl)
    · cases hstep
  | «open» index =>
    simp only [ReplyState.step] at hstep
    split at hstep
    · cases hstep
    rename_i connData hslot
    split at hstep
    · cases hstep
      exact h.opens he hslot
    · cases hstep
  | close index =>
    simp only [ReplyState.step] at hstep
    split at hstep
    · cases hstep
    rename_i connData hslot
    split at hstep
    · cases hstep
      apply h.setServer
      intro r _ hr
      exact hr.setSlot hslot (.inl rfl)
    · cases hstep
  | stop =>
    simp only [ReplyState.step, Option.some.injEq] at hstep
    subst hstep
    exact h.setServer fun r _ hr => hr
  | replyMsg d buffer byRef env =>
    simp only [ReplyState.step] at hstep
    split at hstep
    · cases hstep
    rename_i result t hreply
    cases hstep
    rcases replyMsg_cases hreply with ⟨hresult, rfl⟩ | ⟨rfl, hrun, hbuf, henv, rfl⟩
    · exact h.called fun _ => hresult
    · -- nothing refuses the call, so its connection is open
      have hopen := he hrun hbuf henv
      have hcalled := h.called (c := ⟨d, s.isOpen d, .ok⟩) fun hclosed => by
        rw [hopen] at hclosed
        cases hclosed
      exact hcalled.queued rfl (isOpen_closedOrFor hopen)
        ⟨_, List.mem_append_right _ List.mem_cons_self, rfl, hopen, rfl⟩
  | asyncWrite request writeRequest uvWrite =>
    simp only [ReplyState.step] at hstep
    split at hstep
    · cases hstep
    rename_i r hr
    split at hstep
    · cases hstep
    rename_i result t hwrite
    cases hstep
    rcases writeTransport_cases hwrite with rfl | ⟨connData, connectionId, hslot, hopen, rfl⟩
    · exact h.taken request
    · exact (h.wrote (List.mem_of_getElem? hr) hslot hopen).taken request

/-- **A reply reaches only the connection it is addressed to**: in every run without stale replies,
    what is written goes to the connection with the id of the call, which was open when the call
    was made, and a call for a closed connection returns an error. -/
theorem replies_reach_their_connection (maxConnections : Nat) (events : List Event)
    (s : ReplyState)
    (hrun : RunsWith (stepOf ReplyState.step) NoStaleReply (start maxConnections) events s) :
    (∀ w ∈ s.written, w.connectionId = w.addressed.m_connId ∧ s.Accepted w.addressed) ∧
      ∀ c ∈ s.calls, c.isOpen = false → c.result ≠ .ok := by
  have hinv := hrun.invariant Inv (fun _ _ _ hs he hstep => hs.step he hstep)
    (start_inv maxConnections)
  exact ⟨hinv.written, hinv.refused⟩

/-- One connection is open, and gets its reply. -/
theorem replies_reach_their_connection_once :
    ∃ s, RunsWith (stepOf ReplyState.step) NoStaleReply (start 1)
        [.grab, .open 0, .replyMsg ⟨0, 0⟩ [1, 2] true ⟨true, true, true, true, true⟩,
          .asyncWrite 0 true true] s ∧
      s.written = [⟨⟨0, 0⟩, 0, [1, 2]⟩] ∧
      ((∀ w ∈ s.written, w.connectionId = w.addressed.m_connId ∧ s.Accepted w.addressed) ∧
        ∀ c ∈ s.calls, c.isOpen = false → c.result ≠ .ok) := by
  have hrun : ∃ s, RunsWith (stepOf ReplyState.step) NoStaleReply (start 1)
      [.grab, .open 0, .replyMsg ⟨0, 0⟩ [1, 2] true ⟨true, true, true, true, true⟩,
        .asyncWrite 0 true true] s ∧ s.written = [⟨⟨0, 0⟩, 0, [1, 2]⟩] :=
    ⟨_, .cons trivial rfl (.cons nofun rfl (.cons (fun _ _ _ => rfl) rfl
      (.cons trivial rfl (.nil _)))), rfl⟩
  obtain ⟨s, hrun, hwritten⟩ := hrun
  exact ⟨s, hrun, hwritten, replies_reach_their_connection 1 _ s hrun⟩

/-- A reply to a connection that was closed, and whose slot was given to another client: the call
    returns `E_OK`, and the other client gets the bytes. -/
theorem stale_reply_written_to_other_connection :
    ∃ s, RunsWith (stepOf ReplyState.step) (fun _ _ => True) (start 1)
        [.grab, .open 0, .close 0, .grab, .open 0,
          .replyMsg ⟨0, 0⟩ [1, 2] true ⟨true, true, true, true, true⟩,
          .asyncWrite 0 true true] s ∧
      (⟨⟨0, 0⟩, false, .ok⟩ : ReplyCall) ∈ s.calls ∧
      (⟨⟨0, 0⟩, 1, [1, 2]⟩ : Written) ∈ s.written := by
  refine ⟨_, runsWith_of_runWhere (f := ReplyState.step) (P := fun _ _ => True) rfl, ?_, ?_⟩
  · exact List.mem_cons_self
  · exact List.mem_cons_self

end ReplyState

end Commutil.Transport
