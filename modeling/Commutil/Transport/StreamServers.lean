import Mathlib.Logic.Function.Basic
import Commutil.Transport.DataServer

/-!
# Connections of the Stream Servers

`tcp_server.cpp` and `pipe_server.cpp`: how a connection comes to be and ends.  In
`TcpServer` the server loop grabs a slot, queues it for an IO task and hands the
socket over through a pipe; the IO task takes the slot off the queue, asks the data
listener and starts to read.  In `PipeServer` all of it happens in one callback.

Every call of libuv can fail.  The two loops of `TcpServer` run side by side: the
hand-over of a socket and the notification of a disconnect are steps of their own.
-/

namespace Commutil.Transport

open Commutil.Library

/-! ## §1 What the data listener sees -/

/-- A call of the data listener; `accepted` is what `onConnect` returns. -/
inductive Notification where
  | onConnect (index : Nat) (accepted : Bool)
  | onDisconnect (index : Nat)
  deriving DecidableEq, Repr

namespace Notification

/-- The connection index of a call. -/
def index : Notification → Nat
  | onConnect index _ => index
  | onDisconnect index => index

/-- Whether the index is connected after the call; `none` if the call is out of order. -/
def follow (connected : Bool) : Notification → Option Bool
  | onConnect _ accepted => if connected then none else some accepted
  | onDisconnect _ => if connected then some false else none

/-- Whether the index is connected after all calls; `none` if one of them was out of order. -/
def connectedAfter (calls : List Notification) (index : Nat) : Option Bool :=
  (calls.filter fun call => call.index = index).foldlM follow false

/-- The calls for every index alternate: no `onConnect` while the index is connected, and no
    `onDisconnect` while it is not. -/
def Alternate (calls : List Notification) : Prop :=
  ∀ index, (connectedAfter calls index).isSome

theorem connectedAfter_concat_ne (calls : List Notification) {call : Notification} {index : Nat}
    (h : call.index ≠ index) :
    connectedAfter (calls ++ [call]) index = connectedAfter calls index := by
  simp [connectedAfter, List.filter_append, h]

theorem connectedAfter_concat_self (calls : List Notification) (call : Notification)
    {connected : Bool} (h : connectedAfter calls call.index = some connected) :
    connectedAfter (calls ++ [call]) call.index = follow connected call := by
  unfold connectedAfter at h ⊢
  simp [List.filter_append, List.foldlM_append, h]

end Notification

/-! ## §2 `TcpServer` -/

/-- What `TcpConnectionData` adds: whether libuv reads from `m_socket2`. -/
structure TcpSlot where
  reading : Bool
  deriving DecidableEq, Repr

/-- `struct IOTaskData`: the queue, oldest connection first, and the slot of a connection that has
    been closed and of which the listener is about to be told. -/
structure IOTaskData where
  m_pendingConns : List Nat
  disconnecting : Option Nat
  deriving DecidableEq, Repr

/-- `class TcpServer` with the calls of its listener.  `handingOver` is the slot for which
    `handleNewConnection` has yet to call `uv_write2`. -/
structure TcpServer where
  server : DataServer TcpSlot
  m_concurrency : Nat
  m_ioTasks : Nat → IOTaskData
  handingOver : Option Nat
  calls : List Notification

/-- What libuv and the listener answer during `handlePipeRead`. -/
structure PipeReadEnv where
  read : Bool
  pendingCount : Bool
  pendingTcp : Bool
  tcpInit : Bool
  accept : Bool
  onConnect : Bool
  readStart : Bool
  deriving DecidableEq, Repr

/-- The connection gets as far as an `onConnect` that returns true. -/
def PipeReadEnv.connects (env : PipeReadEnv) : Bool :=
  env.read && env.pendingCount && env.pendingTcp && env.tcpInit && env.accept && env.onConnect

namespace TcpServer

/-- The server before the first connection. -/
def start (maxConnections concurrency : Nat) : TcpServer :=
  ⟨.initConnDataArray maxConnections ⟨false⟩, concurrency, fun _ => ⟨[], none⟩, none, []⟩

/-- An IO task written. -/
def setTask (s : TcpServer) (task : Nat) (data : IOTaskData) : TcpServer :=
  { s with m_ioTasks := Function.update s.m_ioTasks task data }

/-- `connectionData->m_isUsed = 0`. -/
def release (s : TcpServer) (index : Nat) : TcpServer :=
  { s with server := s.server.releaseSlot index }

/-- The first part of `handleNewConnection`, up to the queue of the IO task. -/
def handleNewConnection (s : TcpServer) (status tcpInit accept : Bool) : TcpServer :=
  if !status then s
  else
    match s.server.grabConnectionData with
    -- no slot is free, the connection waits in the backlog of the socket
    | none => s
    | some (index, server) =>
      let s := { s with server }
      if !tcpInit then s.release index
      else if !accept then s.release index
      else
        -- each slot belongs to one IO task
        let task := index % s.m_concurrency
        { s.setTask task { s.m_ioTasks task with
            m_pendingConns := (s.m_ioTasks task).m_pendingConns ++ [index] } with
          handingOver := some index }

/-- The second part of `handleNewConnection`: a request is allocated (and used in any case) and
    the socket is written to the pipe. -/
def handOver (s : TcpServer) (index : Nat) (allocated write2 : Bool) : Except Fault TcpServer :=
  if !allocated then .error .nullDereference
  -- the slot is free again, and stays in the queue of the task
  else if !write2 then .ok { s.release index with handingOver := none }
  else .ok { s with handingOver := none }

/-- A slot written. -/
def setSlot (s : TcpServer) (index : Nat) (connData : ConnectionData TcpSlot) : TcpServer :=
  { s with server := s.server.setSlot index connData }

/-- `handlePipeRead` after the queue: the socket is received, the listener is asked, and reading
    starts. -/
def receiveSocket (s : TcpServer) (index : Nat) (connData : ConnectionData TcpSlot)
    (env : PipeReadEnv) : TcpServer :=
  if !env.read then s.release index
  else if !env.pendingCount then s.release index
  else if !env.pendingTcp then s.release index
  else if !env.tcpInit then s.release index
  else if !env.accept then s.release index
  else
    let s := { s with calls := s.calls ++ [Notification.onConnect index env.onConnect] }
    if !env.onConnect then s.release index
    -- the listener has accepted and is not told
    else if !env.readStart then s.release index
    else s.setSlot index { connData with extension := ⟨true⟩ }

/-- `handlePipeRead`.  Without a queued connection only a failed read is survived. -/
def handlePipeRead (s : TcpServer) (task : Nat) (env : PipeReadEnv) : Except Fault TcpServer :=
  match (s.m_ioTasks task).m_pendingConns with
  | [] => if env.read then .error .nullDereference else .ok s
  | index :: rest =>
    let s := s.setTask task { s.m_ioTasks task with m_pendingConns := rest }
    -- the oldest queued slot gets the socket
    match s.server.m_connDataArray[index]? with
    | none => .error .outOfBounds
    | some connData => .ok (s.receiveSocket index connData env)

/-- What can happen to the connections of a TCP server. -/
inductive Event where
  /-- `handleNewConnection` up to the queue. -/
  | newConnection (status tcpInit accept : Bool)
  /-- The rest of `handleNewConnection`. -/
  | handOver (allocated write2 : Bool)
  | pipeRead (task : Nat) (env : PipeReadEnv)
  /-- `onReadStatic` with an error, up to the release of the slot. -/
  | readError (index : Nat)
  /-- The rest of `onReadStatic`: the listener is told. -/
  | notifyDisconnect (task : Nat)
  deriving DecidableEq, Repr

/-- One step, if it is possible: a loop goes on with what it has begun. -/
def step (s : TcpServer) : Event → Option TcpServer
  | .newConnection status tcpInit accept =>
    if s.handingOver.isSome then none else some (s.handleNewConnection status tcpInit accept)
  | .handOver allocated write2 =>
    match s.handingOver with
    | none => none
    | some index =>
      match s.handOver index allocated write2 with
      | .error _ => none
      | .ok s' => some s'
  | .pipeRead task env =>
    if (s.m_ioTasks task).disconnecting.isSome then none
    else
      match s.handlePipeRead task env with
      | .error _ => none
      | .ok s' => some s'
  | .readError index =>
    match s.server.m_connDataArray[index]? with
    | none => none
    | some connData =>
      let task := index % s.m_concurrency
      if connData.extension.reading && (s.m_ioTasks task).disconnecting.isNone then
        -- the slot is free before the listener hears of it
        let s := s.setSlot index { connData with m_isUsed := false, extension := ⟨false⟩ }
        some (s.setTask task { s.m_ioTasks task with disconnecting := some index })
      else none
  | .notifyDisconnect task =>
    match (s.m_ioTasks task).disconnecting with
    | none => none
    | some index =>
      some { s.setTask task { s.m_ioTasks task with disconnecting := none } with
        calls := s.calls ++ [.onDisconnect index] }

/-! ## §3 The invariant of `TcpServer` -/

/-- Whether libuv reads from the socket of the slot. -/
def reading (s : TcpServer) (index : Nat) : Bool :=
  match s.server.m_connDataArray[index]? with
  | none => false
  | some connData => connData.extension.reading

/-- Whether the listener takes the index for connected: its socket is read, or the IO task is about
    to tell that it was closed. -/
def connected (s : TcpServer) (index : Nat) : Bool :=
  s.reading index || (s.m_ioTasks (index % s.m_concurrency)).disconnecting == some index

/-- A slot that waits in the queue of an IO task. -/
def Waiting (s : TcpServer) (index : Nat) : Prop :=
  ∃ connData, s.server.m_connDataArray[index]? = some connData ∧ connData.m_isUsed = true ∧
    connData.extension.reading = false

/-- What `TcpServer` keeps: a queued slot is in use and not read, once in the queue of its own task,
    and the listener has been told of exactly the connections there are. -/
structure Inv (s : TcpServer) : Prop where
  nodup : ∀ task, (s.m_ioTasks task).m_pendingConns.Nodup
  pending : ∀ task, ∀ index ∈ (s.m_ioTasks task).m_pendingConns,
    index % s.m_concurrency = task ∧ s.Waiting index
  used : ∀ (index : Nat) (connData : ConnectionData TcpSlot),
    s.server.m_connDataArray[index]? = some connData →
      connData.extension.reading = true → connData.m_isUsed = true
  disconnecting : ∀ task index, (s.m_ioTasks task).disconnecting = some index →
    index % s.m_concurrency = task ∧ s.reading index = false
  told : ∀ index, Notification.connectedAfter s.calls index = some (s.connected index)

theorem start_reading (maxConnections concurrency index : Nat) :
    (start maxConnections concurrency).reading index = false := by
  unfold reading
  split
  · rfl
  · rename_i connData hslot
    simp only [start, DataServer.initConnDataArray, List.getElem?_map,
      Option.map_eq_some_iff] at hslot
    obtain ⟨i, -, rfl⟩ := hslot
    rfl

theorem start_inv (maxConnections concurrency : Nat) :
    Inv (start maxConnections concurrency) := by
  refine ⟨fun _ => List.nodup_nil, nofun, ?_, nofun, ?_⟩
  · intro index connData hslot hreading
    have hno := start_reading maxConnections concurrency index
    simp only [reading, hslot, hreading] at hno
    cases hno
  · intro index
    simp only [connected, start_reading, Bool.false_or]
    rfl

section Slots

variable {s : TcpServer} {index : Nat} {connData new : ConnectionData TcpSlot}

theorem reading_setSlot_self (hslot : s.server.m_connDataArray[index]? = some connData) :
    (s.setSlot index new).reading index = new.extension.reading := by
  have hself := s.server.setSlot_self hslot new
  simp only [reading, setSlot, hself]

theorem reading_setSlot_ne {j : Nat} (hne : index ≠ j) :
    (s.setSlot index new).reading j = s.reading j := by
  have hother := s.server.setSlot_ne hne new
  simp only [reading, setSlot, hother]

theorem Waiting.setSlot_ne {j : Nat} (h : s.Waiting j) (hne : index ≠ j) :
    (s.setSlot index new).Waiting j := by
  obtain ⟨d, hd, hrest⟩ := h
  exact ⟨d, by rw [setSlot, s.server.setSlot_ne hne]; exact hd, hrest⟩

/-- A slot that nobody queues may change its flag, as long as it is not read. -/
theorem Inv.setSlot_quiet (h : s.Inv) (hslot : s.server.m_connDataArray[index]? = some connData)
    (hquiet : connData.extension.reading = false) (hnew : new.extension.reading = false)
    (hfree : ∀ task, index ∈ (s.m_ioTasks task).m_pendingConns → new.m_isUsed = true) :
    Inv (s.setSlot index new) := by
  have hreading : ∀ j, (s.setSlot index new).reading j = s.reading j := by
    intro j
    by_cases hne : index = j
    · subst hne
      rw [reading_setSlot_self hslot, hnew]
      simp only [reading, hslot, hquiet]
    · exact reading_setSlot_ne hne
  refine ⟨h.nodup, ?_, ?_, ?_, ?_⟩
  · intro task j hj
    obtain ⟨htask, hwait⟩ := h.pending task j hj
    refine ⟨htask, ?_⟩
    by_cases hne : index = j
    · subst hne
      exact ⟨new, s.server.setSlot_self hslot new, hfree task hj, hnew⟩
    · exact hwait.setSlot_ne hne
  · intro j d hd hread
    by_cases hne : index = j
    · subst hne
      rw [setSlot, s.server.setSlot_self hslot] at hd
      cases hd
      rw [hnew] at hread
      cases hread
    · rw [setSlot, s.server.setSlot_ne hne] at hd
      exact h.used j d hd hread
  · intro task j hj
    rw [hreading]
    exact h.disconnecting task j hj
  · intro j
    -- the task has nothing to tell
    have hconnected : (s.setSlot index new).connected j = s.connected j := by
      unfold connected
      rw [hreading]
      rfl
    rw [hconnected]
    exact h.told j

/-- A slot that is given up is not read and not queued. -/
theorem Inv.release (h : s.Inv) (hslot : s.server.m_connDataArray[index]? = some connData)
    (hquiet : connData.extension.reading = false)
    (hfree : ∀ task, index ∉ (s.m_ioTasks task).m_pendingConns) : Inv (s.release index) := by
  have hset : s.release index = s.setSlot index { connData with m_isUsed := false } := by
    simp only [TcpServer.release, DataServer.releaseSlot, hslot, setSlot]
  rw [hset]
  exact h.setSlot_quiet hslot hquiet hquiet fun task hmem => absurd hmem (hfree task)

/-- A slot that is not connected is reported as connected or refused. -/
theorem Inv.onConnect_refused (h : s.Inv) (hno : s.connected index = false) :
    Inv { s with calls := s.calls ++ [.onConnect index false] } := by
  refine ⟨h.nodup, h.pending, h.used, h.disconnecting, fun j => ?_⟩
  by_cases hne : index = j
  · subst hne
    have htold := h.told index
    rw [hno] at htold
    -- a refusal leaves the index unconnected
    have hafter := Notification.connectedAfter_concat_self s.calls (.onConnect index false) htold
    exact hafter.trans (congrArg some hno.symm)
  · have hafter := Notification.connectedAfter_concat_ne s.calls
      (show (Notification.onConnect index false).index ≠ j from hne)
    exact hafter.trans (h.told j)

/-- A slot that is connected by the listener is read from now on. -/
theorem Inv.onConnect_accepted (h : s.Inv)
    (hslot : s.server.m_connDataArray[index]? = some connData) (hused : connData.m_isUsed = true)
    (hno : s.connected index = false)
    (hfree : ∀ task, index ∉ (s.m_ioTasks task).m_pendingConns) :
    Inv (setSlot { s with calls := s.calls ++ [.onConnect index true] } index
      { connData with extension := ⟨true⟩ }) := by
  have hself : (setSlot { s with calls := s.calls ++ [Notification.onConnect index true] } index
      { connData with extension := ⟨true⟩ }).reading index = true := reading_setSlot_self hslot
  have hother : ∀ j, index ≠ j → (setSlot { s with calls := s.calls ++
      [Notification.onConnect index true] } index { connData with extension := ⟨true⟩ }).reading j =
        s.reading j := fun j hne => reading_setSlot_ne hne
  -- the task has nothing to tell of this index
  have hidle : (s.m_ioTasks (index % s.m_concurrency)).disconnecting ≠ some index := by
    simp only [connected, Bool.or_eq_false_iff, beq_eq_false_iff_ne] at hno
    exact hno.2
  -- nodup, pending, used, disconnecting, told
  refine ⟨h.nodup, ?_, ?_, ?_, ?_⟩
  · intro task j hj
    have hne : index ≠ j := fun heq => hfree task (heq ▸ hj)
    obtain ⟨htask, d, hd, hrest⟩ := h.pending task j hj
    refine ⟨htask, d, ?_, hrest⟩
    show (s.server.setSlot index _).m_connDataArray[j]? = some d
    rw [s.server.setSlot_ne hne]
    exact hd
  · intro j d hd hread
    by_cases hne : index = j
    · subst hne
      rw [setSlot, s.server.setSlot_self hslot] at hd
      cases hd
      exact hused
    · rw [setSlot, s.server.setSlot_ne hne] at hd
      exact h.used j d hd hread
  · intro task j hj
    obtain ⟨htask, hread⟩ := h.disconnecting task j hj
    refine ⟨htask, ?_⟩
    have hne : index ≠ j := by
      rintro rfl
      exact hidle (htask ▸ hj)
    rw [hother j hne]
    exact hread
  · -- now the server has told of the connection
    intro j
    by_cases hne : index = j
    · subst hne
      have htold := h.told index
      rw [hno] at htold
      have hafter := Notification.connectedAfter_concat_self s.calls (.onConnect index true) htold
      simp only [connected, hself, Bool.true_or]
      exact hafter
    · have hafter := Notification.connectedAfter_concat_ne s.calls
        (show (Notification.onConnect index true).index ≠ j from hne)
      simp only [connected, hother j hne]
      exact hafter.trans (h.told j)

end Slots

section Tasks

variable {s : TcpServer} {task index : Nat}

@[simp] theorem setTask_self (s : TcpServer) (task : Nat) (data : IOTaskData) :
    (s.setTask task data).m_ioTasks task = data := by
  simp [setTask]

theorem setTask_ne (s : TcpServer) {task t : Nat} (h : t ≠ task) (data : IOTaskData) :
    (s.setTask task data).m_ioTasks t = s.m_ioTasks t := by
  simp [setTask, Function.update_of_ne h]

/-- The queue of a task may change, if it holds waiting slots of the task once each. -/
theorem Inv.setPending (h : s.Inv) {pending : List Nat} (hnodup : pending.Nodup)
    (hpending : ∀ index ∈ pending, index % s.m_concurrency = task ∧ s.Waiting index) :
    Inv (s.setTask task { s.m_ioTasks task with m_pendingConns := pending }) := by
  have hdisc : ∀ t, ((s.setTask task { s.m_ioTasks task with
      m_pendingConns := pending }).m_ioTasks t).disconnecting = (s.m_ioTasks t).disconnecting := by
    intro t
    by_cases ht : t = task
    · subst ht
      rw [setTask_self]
    · rw [setTask_ne _ ht]
  refine ⟨fun t => ?_, fun t j hj => ?_, h.used, fun t j hj => ?_, fun j => ?_⟩
  · by_cases ht : t = task
    · subst ht
      rw [setTask_self]
      exact hnodup
    · rw [setTask_ne _ ht]
      exact h.nodup t
  · by_cases ht : t = task
    · subst ht
      rw [setTask_self] at hj
      exact hpending j hj
    · rw [setTask_ne _ ht] at hj
      exact h.pending t j hj
  · rw [hdisc] at hj
    exact h.disconnecting t j hj
  · have hconnected : (s.setTask task { s.m_ioTasks task with
        m_pendingConns := pending }).connected j = s.connected j := by
      show (s.reading j || _) = (s.reading j || _)
      rw [hdisc]
      rfl
    rw [hconnected]
    exact h.told j

/-- A slot that was read is closed; the task has yet to tell the listener, for which the index is
    still connected. -/
theorem Inv.closeSlot (h : s.Inv) {connData : ConnectionData TcpSlot}
    (hslot : s.server.m_connDataArray[index]? = some connData)
    (hread : connData.extension.reading = true)
    (hidle : (s.m_ioTasks (index % s.m_concurrency)).disconnecting = none) :
    Inv ((s.setSlot index { connData with m_isUsed := false, extension := ⟨false⟩ }).setTask
      (index % s.m_concurrency)
      { s.m_ioTasks (index % s.m_concurrency) with disconnecting := some index }) := by
  have hself : (s.setSlot index { connData with m_isUsed := false, extension := ⟨false⟩ }).reading
      index = false := reading_setSlot_self hslot
  have hother : ∀ j, index ≠ j → (s.setSlot index { connData with
      m_isUsed := false, extension := ⟨false⟩ }).reading j = s.reading j :=
    fun j hne => reading_setSlot_ne hne
  have hwas : s.reading index = true := by
    simp only [reading, hslot, hread]
  -- the queues stay as they are
  have hqueue : ∀ t, (((s.setSlot index { connData with
      m_isUsed := false, extension := ⟨false⟩ }).setTask (index % s.m_concurrency)
      { s.m_ioTasks (index % s.m_concurrency) with
        disconnecting := some index }).m_ioTasks t).m_pendingConns =
      (s.m_ioTasks t).m_pendingConns := by
    intro t
    by_cases ht : t = index % s.m_concurrency
    · rw [ht, setTask_self]
    · rw [setTask_ne _ ht]
      rfl
  refine ⟨fun t => ?_, fun t j hj => ?_, fun j d hd hdread => ?_, fun t j hj => ?_, fun j => ?_⟩
  · -- nodup, pending, used, disconnecting, told
    rw [hqueue]
    exact h.nodup t
  · rw [hqueue] at hj
    obtain ⟨htask, hwait⟩ := h.pending t j hj
    refine ⟨htask, ?_⟩
    -- a slot that waits to be accepted is not read yet
    have hne : index ≠ j := by
      rintro rfl
      obtain ⟨d, hd, -, hquiet⟩ := hwait
      rw [hslot] at hd
      cases hd
      rw [hread] at hquiet
      cases hquiet
    exact hwait.setSlot_ne hne
  · by_cases hne : index = j
    · subst hne
      have hd' : (s.server.setSlot index _).m_connDataArray[index]? = some d := hd
      rw [s.server.setSlot_self hslot] at hd'
      cases hd'
      cases hdread
    · have hd' : (s.server.setSlot index _).m_connDataArray[j]? = some d := hd
      rw [s.server.setSlot_ne hne] at hd'
      exact h.used j d hd' hdread
  · -- the task of the slot was not about to tell of another disconnect
    by_cases ht : t = index % s.m_concurrency
    · subst ht
      rw [setTask_self] at hj
      cases hj
      exact ⟨rfl, hself⟩
    · rw [setTask_ne _ ht] at hj
      obtain ⟨htask, hno⟩ := h.disconnecting t j hj
      refine ⟨htask, ?_⟩
      by_cases hne : index = j
      · subst hne
        exact hself
      · exact (hother j hne).trans hno
  · have htold := h.told j
    have hsame : connected ((s.setSlot index { connData with
        m_isUsed := false, extension := ⟨false⟩ }).setTask (index % s.m_concurrency)
        { s.m_ioTasks (index % s.m_concurrency) with disconnecting := some index }) j =
        s.connected j := by
      by_cases hne : index = j
      · -- before the socket was read, now the task is about to tell
        subst hne
        simp only [connected, hwas, Bool.true_or]
        show (_ || (((TcpServer.setTask _ (index % s.m_concurrency) _).m_ioTasks
          (index % s.m_concurrency)).disconnecting == some index)) = true
        rw [setTask_self]
        simp
      · -- for the other slots the task is about to tell as much as before
        show ((s.setSlot index _).reading j || _) = (s.reading j || _)
        rw [hother j hne]
        congr 1
        show (((TcpServer.setTask _ (index % s.m_concurrency) _).m_ioTasks
          (j % s.m_concurrency)).disconnecting == some j) = _
        by_cases ht : j % s.m_concurrency = index % s.m_concurrency
        · rw [ht, setTask_self, hidle]
          simpa using hne
        · rw [setTask_ne _ ht]
          rfl
    rw [hsame]
    exact htold

/-- The listener is told of a closed connection. -/
theorem Inv.notify (h : s.Inv) (hindex : (s.m_ioTasks task).disconnecting = some index) :
    Inv { s.setTask task { s.m_ioTasks task with disconnecting := none } with
      calls := s.calls ++ [.onDisconnect index] } := by
  obtain ⟨htask, hno⟩ := h.disconnecting task index hindex
  have hqueue : ∀ t, ((s.setTask task { s.m_ioTasks task with
      disconnecting := none }).m_ioTasks t).m_pendingConns = (s.m_ioTasks t).m_pendingConns := by
    intro t
    by_cases ht : t = task
    · rw [ht, setTask_self]
    · rw [setTask_ne _ ht]
  -- nodup, pending, used, disconnecting, told
  refine ⟨fun t => ?_, fun t j hj => ?_, h.used, fun t j hj => ?_, fun j => ?_⟩
  · show ((s.setTask task _).m_ioTasks t).m_pendingConns.Nodup
    rw [hqueue]
    exact h.nodup t
  · have hj' : j ∈ ((s.setTask task { s.m_ioTasks task with
        disconnecting := none }).m_ioTasks t).m_pendingConns := hj
    rw [hqueue] at hj'
    exact h.pending t j hj'
  · have hj' : ((s.setTask task { s.m_ioTasks task with
        disconnecting := none }).m_ioTasks t).disconnecting = some j := hj
    by_cases ht : t = task
    · rw [ht, setTask_self] at hj'
      cases hj'
    · rw [setTask_ne _ ht] at hj'
      exact h.disconnecting t j hj'
  · by_cases hne : index = j
    · subst hne
      have htold := h.told index
      have hwas : s.connected index = true := by
        simp only [connected, htask, hindex, hno]
        simp
      rw [hwas] at htold
      have hafter := Notification.connectedAfter_concat_self s.calls (.onDisconnect index) htold
      -- the socket is not read, and there is nothing left to tell
      have hnow : (s.reading index || (((s.setTask task { s.m_ioTasks task with
          disconnecting := none }).m_ioTasks (index % s.m_concurrency)).disconnecting ==
            some index)) = false := by
        rw [hno, htask, setTask_self]
        rfl
      exact hafter.trans (congrArg some hnow.symm)
    · have hafter := Notification.connectedAfter_concat_ne s.calls
        (show (Notification.onDisconnect index).index ≠ j from hne)
      have hsame : (s.reading j || (((s.setTask task { s.m_ioTasks task with
          disconnecting := none }).m_ioTasks (j % s.m_concurrency)).disconnecting == some j)) =
            s.connected j := by
        unfold connected
        -- the task had nothing to tell of the others
        by_cases ht : j % s.m_concurrency = task
        · rw [ht, setTask_self, hindex]
          congr 1
          simpa using hne
        · rw [setTask_ne _ ht]
      exact hafter.trans ((h.told j).trans (congrArg some hsame.symm))

end Tasks

/-! ## §4 Every step of `TcpServer` -/

/-- The socket is passed to the IO task, and reading starts once the listener has accepted. -/
def NoSilentClose (_ : TcpServer) : Event → Prop
  | .handOver allocated write2 => allocated = true → write2 = true
  | .pipeRead _ env => env.connects = true → env.readStart = true
  | _ => True

/-- A new connection takes a slot that nobody uses. -/
theorem Inv.handleNewConnection {s : TcpServer} (h : s.Inv) (status tcpInit accept : Bool) :
    Inv (s.handleNewConnection status tcpInit accept) := by
  unfold TcpServer.handleNewConnection
  split
  · exact h
  split
  · exact h
  rename_i index server hgrab
  obtain ⟨connData, hslot, hunused, harray, -, -⟩ := DataServer.grabConnectionData_spec hgrab
  have hquiet : connData.extension.reading = false := by
    cases hread : connData.extension.reading with
    | false => rfl
    | true =>
      rw [h.used index connData hslot hread] at hunused
      cases hunused
  -- a queued slot is in use, this one was not
  have hfree : ∀ task, index ∉ (s.m_ioTasks task).m_pendingConns := by
    intro task hmem
    obtain ⟨-, d, hd, hused, -⟩ := h.pending task index hmem
    rw [hslot] at hd
    cases hd
    rw [hused] at hunused
    cases hunused
  have hself : server.m_connDataArray[index]? =
      some (DataServer.grabbed connData s.server.m_nextConnectionId) := by
    rw [harray]
    exact s.server.setSlot_self hslot _
  -- the grabbed slot, with everything else as before
  have hgrabbed : Inv { s with server } := by
    have hset : Inv (s.setSlot index (DataServer.grabbed connData s.server.m_nextConnectionId)) :=
      h.setSlot_quiet hslot hquiet hquiet fun _ _ => rfl
    obtain ⟨array, next, state⟩ := server
    obtain rfl : array = _ := harray
    exact ⟨hset.nodup, hset.pending, hset.used, hset.disconnecting, hset.told⟩
  dsimp only
  split
  · exact hgrabbed.release hself hquiet hfree
  split
  · exact hgrabbed.release hself hquiet hfree
  have hqueued : Inv (setTask { s with server } (index % s.m_concurrency)
      { s.m_ioTasks (index % s.m_concurrency) with m_pendingConns :=
        (s.m_ioTasks (index % s.m_concurrency)).m_pendingConns ++ [index] }) := by
    refine hgrabbed.setPending ?_ ?_
    · rw [List.nodup_append]
      refine ⟨h.nodup _, by simp, fun a ha b hb => ?_⟩
      rw [List.mem_singleton.mp hb]
      rintro rfl
      exact hfree _ ha
    · intro j hj
      rcases List.mem_append.mp hj with hj | hj
      · exact hgrabbed.pending _ j hj
      · cases List.mem_singleton.mp hj
        exact ⟨rfl, _, hself, rfl, hquiet⟩
  exact ⟨hqueued.nodup, hqueued.pending, hqueued.used, hqueued.disconnecting, hqueued.told⟩

/-- A slot off the queue that is not connected: the connection is refused somewhere, or the listener
    accepts it and it is read. -/
theorem Inv.receiveSocket {s : TcpServer} (h : s.Inv) {index : Nat}
    {connData : ConnectionData TcpSlot}
    (hslot : s.server.m_connDataArray[index]? = some connData) (hused : connData.m_isUsed = true)
    (hquiet : connData.extension.reading = false) (hno : s.connected index = false)
    (hfree : ∀ task, index ∉ (s.m_ioTasks task).m_pendingConns) {env : PipeReadEnv}
    (hstart : env.connects = true → env.readStart = true) :
    Inv (s.receiveSocket index connData env) := by
  obtain ⟨read, pendingCount, pendingTcp, tcpInit, accept, accepted, readStart⟩ := env
  unfold TcpServer.receiveSocket
  split
  · exact h.release hslot hquiet hfree
  rename_i hread
  split
  · exact h.release hslot hquiet hfree
  rename_i hcount
  split
  · exact h.release hslot hquiet hfree
  rename_i htcp
  split
  · exact h.release hslot hquiet hfree
  rename_i hinit
  split
  · exact h.release hslot hquiet hfree
  rename_i haccept
  dsimp only
  cases accepted with
  | false =>
    rw [if_pos (by decide)]
    exact (h.onConnect_refused hno).release hslot hquiet hfree
  | true =>
    rw [if_neg (by decide)]
    have hgo : readStart = true := by
      apply hstart
      simp_all [PipeReadEnv.connects]
    rw [if_neg (by simp [hgo])]
    exact h.onConnect_accepted hslot hused hno hfree

/-- A task takes the next index off its queue and accepts the connection for it. -/
theorem Inv.pipeRead {s s' : TcpServer} (h : s.Inv) {task : Nat} {env : PipeReadEnv}
    (hready : (s.m_ioTasks task).disconnecting = none)
    (he : s.NoSilentClose (.pipeRead task env))
    (hstep : s.handlePipeRead task env = .ok s') : s'.Inv := by
  unfold TcpServer.handlePipeRead at hstep
  cases hqueue : (s.m_ioTasks task).m_pendingConns with
  -- nothing is queued: the read returns without a connection
  | nil =>
    rw [hqueue] at hstep
    dsimp only at hstep
    cases hread : env.read with
    | true =>
      rw [hread] at hstep
      cases hstep
    | false =>
      rw [hread] at hstep
      cases hstep
      exact h
  | cons index rest =>
    rw [hqueue] at hstep
    dsimp only at hstep
    have hmem : index ∈ (s.m_ioTasks task).m_pendingConns := by
      rw [hqueue]
      exact List.mem_cons_self
    obtain ⟨htask, connData, hslot, hused, hquiet⟩ := h.pending task index hmem
    have hnodup := h.nodup task
    rw [hqueue, List.nodup_cons] at hnodup
    have hdequeued : Inv (s.setTask task { s.m_ioTasks task with m_pendingConns := rest }) :=
      h.setPending hnodup.2 fun j hj =>
        h.pending task j (by rw [hqueue]; exact List.mem_cons_of_mem _ hj)
    have hslot' : (s.setTask task { s.m_ioTasks task with
        m_pendingConns := rest }).server.m_connDataArray[index]? = some connData := hslot
    rw [hslot'] at hstep
    cases hstep
    refine hdequeued.receiveSocket hslot hused hquiet ?_ ?_ he
    · -- the task is ready, so it is not about to tell of a disconnect
      have hidle : (s.m_ioTasks task).disconnecting ≠ some index := by
        rw [hready]
        exact nofun
      have hreading : s.reading index = false := by
        simp only [reading, hslot, hquiet]
      show (s.reading index || _) = false
      rw [hreading, Bool.false_or, beq_eq_false_iff_ne]
      show ((s.setTask task _).m_ioTasks (index % s.m_concurrency)).disconnecting ≠ _
      rw [htask, setTask_self]
      exact hidle
    · -- no other task has the index in its queue
      intro t hin
      by_cases ht : t = task
      · subst ht
        rw [setTask_self] at hin
        exact hnodup.1 hin
      · rw [setTask_ne _ ht] at hin
        exact ht ((h.pending t index hin).1.symm.trans htask)

/-- **One step keeps the invariant**, unless a connection is closed without a word. -/
theorem Inv.step {s s' : TcpServer} (h : s.Inv) {e : Event} (he : s.NoSilentClose e)
    (hstep : s.step e = some s') : s'.Inv := by
  cases e with
  | newConnection status tcpInit accept =>
    simp only [TcpServer.step] at hstep
    split at hstep
    · cases hstep
    · cases hstep
      -- the lowest free slot is taken for the connection
      exact h.handleNewConnection status tcpInit accept
  -- the descriptor is sent to the task on its pipe
  | handOver allocated write2 =>
    simp only [TcpServer.step] at hstep
    split at hstep
    · cases hstep
    rename_i index hindex
    unfold TcpServer.handOver at hstep
    cases allocated with
    | false => cases hstep
    | true =>
      obtain rfl : write2 = true := he rfl
      cases hstep
      exact ⟨h.nodup, h.pending, h.used, h.disconnecting, h.told⟩
  | pipeRead task env =>
    simp only [TcpServer.step] at hstep
    split at hstep
    · cases hstep
    rename_i hready
    split at hstep
    · cases hstep
    · rename_i hread
      cases hstep
      exact h.pipeRead (by simpa using hready) he hread
  -- a read error closes the slot of an open connection
  | readError index =>
    simp only [TcpServer.step] at hstep
    split at hstep
    · cases hstep
    rename_i connData hslot
    split at hstep
    · rename_i hcond
      rw [Bool.and_eq_true, Option.isNone_iff_eq_none] at hcond
      cases hstep
      exact h.closeSlot hslot hcond.1 hcond.2
    · cases hstep
  -- the callback of the closed handle tells the listener
  | notifyDisconnect task =>
    simp only [TcpServer.step] at hstep
    split at hstep
    · cases hstep
    rename_i index hindex
    cases hstep
    exact h.notify hindex

end TcpServer

/-! ## §5 `PipeServer` -/

/-- `class PipeServer` with the calls of its listener; a slot says whether libuv reads from
    `m_pipe`. -/
structure PipeServer where
  server : DataServer TcpSlot
  calls : List Notification

/-- What libuv and the listener answer during `handleNewPipeConnection`. -/
structure NewPipeEnv where
  status : Bool
  pipeInit : Bool
  accept : Bool
  onConnect : Bool
  readStart : Bool
  deriving DecidableEq, Repr

/-- The connection gets as far as an `onConnect` that returns true. -/
def NewPipeEnv.connects (env : NewPipeEnv) : Bool :=
  env.status && env.pipeInit && env.accept && env.onConnect

namespace PipeServer

/-- The server before the first connection. -/
def start (maxConnections : Nat) : PipeServer := ⟨.initConnDataArray maxConnections ⟨false⟩, []⟩

/-- `connectionData->m_isUsed = 0`. -/
def release (s : PipeServer) (index : Nat) : PipeServer :=
  { s with server := s.server.releaseSlot index }

/-- `handleNewPipeConnection` once a slot has been grabbed. -/
def acceptPipe (s : PipeServer) (index : Nat) (env : NewPipeEnv) : PipeServer :=
  if !env.pipeInit then s.release index
  else if !env.accept then s.release index
  else
    let s := { s with calls := s.calls ++ [Notification.onConnect index env.onConnect] }
    if !env.onConnect then s.release index
    else if !env.readStart then s.release index
    else
      match s.server.m_connDataArray[index]? with
      | none => s
      | some connData =>
        { s with server := s.server.setSlot index { connData with extension := ⟨true⟩ } }

/-- `handleNewPipeConnection`. -/
def handleNewPipeConnection (s : PipeServer) (env : NewPipeEnv) : PipeServer :=
  if !env.status then s
  else
    match s.server.grabConnectionData with
    | none => s
    | some (index, server) => acceptPipe { s with server } index env

/-- What can happen to the connections of a pipe server. -/
inductive Event where
  | newPipe (env : NewPipeEnv)
  /-- `onReadStatic` with an error. -/
  | readError (index : Nat)
  deriving DecidableEq, Repr

/-- One step, if it is possible. -/
def step (s : PipeServer) : Event → Option PipeServer
  | .newPipe env => some (s.handleNewPipeConnection env)
  | .readError index =>
    match s.server.m_connDataArray[index]? with
    | none => none
    | some connData =>
      if connData.extension.reading then
        some ⟨s.server.setSlot index { connData with m_isUsed := false, extension := ⟨false⟩ },
          s.calls ++ [.onDisconnect index]⟩
      else none

/-- Whether libuv reads from the pipe of the slot. -/
def reading (s : PipeServer) (index : Nat) : Bool :=
  match s.server.m_connDataArray[index]? with
  | none => false
  | some connData => connData.extension.reading

/-- What `PipeServer` keeps: a slot that is read is in use, and the listener has been told of
    exactly the connections that are read. -/
structure Inv (s : PipeServer) : Prop where
  used : ∀ (index : Nat) (connData : ConnectionData TcpSlot),
    s.server.m_connDataArray[index]? = some connData →
      connData.extension.reading = true → connData.m_isUsed = true
  told : ∀ index, Notification.connectedAfter s.calls index = some (s.reading index)

/-- Reading starts once the listener has accepted. -/
def NoSilentClose (_ : PipeServer) : Event → Prop
  | .newPipe env => env.connects = true → env.readStart = true
  | _ => True

theorem start_inv (maxConnections : Nat) : Inv (start maxConnections) := by
  have h := TcpServer.start_inv maxConnections 1
  refine ⟨h.used, fun index => ?_⟩
  have hno : (start maxConnections).reading index = false :=
    TcpServer.start_reading maxConnections 1 index
  rw [hno]
  rfl

section Slots

variable {s : PipeServer} {index : Nat} {connData new : ConnectionData TcpSlot}

theorem reading_setSlot_self (hslot : s.server.m_connDataArray[index]? = some connData)
    (calls : List Notification) :
    reading ⟨s.server.setSlot index new, calls⟩ index = new.extension.reading := by
  simp only [reading, s.server.setSlot_self hslot]

theorem reading_setSlot_ne {j : Nat} (hne : index ≠ j) (calls : List Notification) :
    reading ⟨s.server.setSlot index new, calls⟩ j = s.reading j := by
  simp only [reading, s.server.setSlot_ne hne]

/-- A slot is written and the listener is called for its index, in step with each other. -/
theorem Inv.setSlot_call (h : s.Inv) (hslot : s.server.m_connDataArray[index]? = some connData)
    (hused : new.extension.reading = true → new.m_isUsed = true) {call : Notification}
    (hcall : call.index = index)
    (hfollow : Notification.follow connData.extension.reading call = some new.extension.reading) :
    Inv ⟨s.server.setSlot index new, s.calls ++ [call]⟩ := by
  refine ⟨fun j d hd hread => ?_, fun j => ?_⟩
  · by_cases hne : index = j
    · subst hne
      rw [s.server.setSlot_self hslot] at hd
      cases hd
      exact hused hread
    · rw [s.server.setSlot_ne hne] at hd
      exact h.used j d hd hread
  · by_cases hne : index = j
    · subst hne
      have htold : Notification.connectedAfter s.calls call.index =
          some connData.extension.reading := by
        rw [hcall, h.told index]
        simp only [reading, hslot]
      have hafter := Notification.connectedAfter_concat_self s.calls call htold
      rw [hcall, hfollow] at hafter
      rw [reading_setSlot_self hslot]
      exact hafter
    · rw [reading_setSlot_ne hne]
      exact (Notification.connectedAfter_concat_ne s.calls (by rw [hcall]; exact hne)).trans
        (h.told j)

/-- A slot that is not read may change its flag. -/
theorem Inv.setSlot_quiet (h : s.Inv) (hslot : s.server.m_connDataArray[index]? = some connData)
    (hquiet : connData.extension.reading = false) (hnew : new.extension.reading = false) :
    Inv ⟨s.server.setSlot index new, s.calls⟩ := by
  refine ⟨fun j d hd hread => ?_, fun j => ?_⟩
  · by_cases hne : index = j
    · subst hne
      rw [s.server.setSlot_self hslot] at hd
      cases hd
      rw [hnew] at hread
      cases hread
    · rw [s.server.setSlot_ne hne] at hd
      exact h.used j d hd hread
  · by_cases hne : index = j
    · subst hne
      rw [reading_setSlot_self hslot, hnew, h.told index]
      simp only [reading, hslot, hquiet]
    · rw [reading_setSlot_ne hne]
      exact h.told j

theorem Inv.release (h : s.Inv) (hslot : s.server.m_connDataArray[index]? = some connData)
    (hquiet : connData.extension.reading = false) : Inv (s.release index) := by
  have hset : s.release index =
      ⟨s.server.setSlot index { connData with m_isUsed := false }, s.calls⟩ := by
    simp only [PipeServer.release, DataServer.releaseSlot, hslot]
  rw [hset]
  exact h.setSlot_quiet hslot hquiet hquiet

/-- A grabbed slot: the connection is refused somewhere, or the listener accepts it and it is
    read. -/
theorem Inv.acceptPipe (h : s.Inv) (hslot : s.server.m_connDataArray[index]? = some connData)
    (hused : connData.m_isUsed = true) (hquiet : connData.extension.reading = false)
    {env : NewPipeEnv} (hstatus : env.status = true)
    (hstart : env.connects = true → env.readStart = true) : Inv (s.acceptPipe index env) := by
  obtain ⟨status, pipeInit, accept, accepted, readStart⟩ := env
  unfold PipeServer.acceptPipe
  split
  · exact h.release hslot hquiet
  rename_i hinit
  split
  · exact h.release hslot hquiet
  rename_i haccept
  dsimp only
  cases accepted with
  | false =>
    rw [if_pos (by decide)]
    -- the refusal is reported, and the slot is given up
    have hset : PipeServer.release { s with calls := s.calls ++
        [Notification.onConnect index false] } index =
        ⟨s.server.setSlot index { connData with m_isUsed := false },
          s.calls ++ [Notification.onConnect index false]⟩ := by
      simp only [PipeServer.release, DataServer.releaseSlot, hslot]
    rw [hset]
    apply h.setSlot_call hslot
    · intro hread
      rw [show connData.extension.reading = true from hread] at hquiet
      cases hquiet
    · rfl
    · rw [hquiet]
      rfl
  | true =>
    rw [if_neg (by decide)]
    have hgo : readStart = true := by
      apply hstart
      simp_all [NewPipeEnv.connects]
    rw [if_neg (by simp [hgo]), hslot]
    apply h.setSlot_call hslot
    · exact fun _ => hused
    · rfl
    · rw [hquiet]
      rfl

end Slots

/-- **One step keeps the invariant**, unless a connection is closed without a word. -/
theorem Inv.step {s s' : PipeServer} (h : s.Inv) {e : Event} (he : s.NoSilentClose e)
    (hstep : s.step e = some s') : s'.Inv := by
  cases e with
  | newPipe env =>
    cases hstep
    unfold PipeServer.handleNewPipeConnection
    split
    · exact h
    rename_i hstatus
    split
    · exact h
    rename_i index server hgrab
    obtain ⟨connData, hslot, hunused, harray, -, -⟩ := DataServer.grabConnectionData_spec hgrab
    have hquiet : connData.extension.reading = false := by
      cases hread : connData.extension.reading with
      | false => rfl
      | true =>
        rw [h.used index connData hslot hread] at hunused
        cases hunused
    have hgrabbed : Inv ⟨server, s.calls⟩ := by
      have hset : Inv ⟨s.server.setSlot index
          (DataServer.grabbed connData s.server.m_nextConnectionId), s.calls⟩ :=
        h.setSlot_quiet hslot hquiet hquiet
      obtain ⟨array, next, state⟩ := server
      obtain rfl : array = _ := harray
      exact ⟨hset.used, hset.told⟩
    have hself : server.m_connDataArray[index]? =
        some (DataServer.grabbed connData s.server.m_nextConnectionId) := by
      rw [harray]
      exact s.server.setSlot_self hslot _
    exact hgrabbed.acceptPipe hself rfl hquiet (by simpa using hstatus) he
  | readError index =>
    simp only [PipeServer.step] at hstep
    split at hstep
    · cases hstep
    rename_i connData hslot
    split at hstep
    · rename_i hread
      cases hstep
      apply h.setSlot_call hslot
      · intro hstill
        cases hstill
      · rfl
      · rw [hread]
        rfl
    · cases hstep

end PipeServer

/-! ## §6 Alternation -/

/-- **Connect and disconnect notifications alternate** in both servers, in every run in which every
    socket is passed to its IO task and reading starts after every accepted `onConnect`. -/
theorem notifications_alternate (maxConnections : Nat) :
    (∀ (concurrency : Nat) (events : List TcpServer.Event) (s : TcpServer),
      RunsWith (stepOf TcpServer.step) TcpServer.NoSilentClose
        (TcpServer.start maxConnections concurrency) events s →
      Notification.Alternate s.calls) ∧
    ∀ (events : List PipeServer.Event) (s : PipeServer),
      RunsWith (stepOf PipeServer.step) PipeServer.NoSilentClose
        (PipeServer.start maxConnections) events s →
      Notification.Alternate s.calls := by
  constructor
  · intro concurrency events s hrun index
    have hinv := hrun.invariant TcpServer.Inv (fun _ _ _ hs he hstep => hs.step he hstep)
      (TcpServer.start_inv maxConnections concurrency)
    rw [hinv.told index]
    rfl
  · intro events s hrun index
    have hinv := hrun.invariant PipeServer.Inv (fun _ _ _ hs he hstep => hs.step he hstep)
      (PipeServer.start_inv maxConnections)
    rw [hinv.told index]
    rfl

/-- A connection comes, is read, and is closed, in each of the servers. -/
theorem notifications_alternate_one_connection :
    (∃ s, RunsWith (stepOf TcpServer.step) TcpServer.NoSilentClose (TcpServer.start 1 1)
        [.newConnection true true true, .handOver true true,
          .pipeRead 0 ⟨true, true, true, true, true, true, true⟩, .readError 0,
          .notifyDisconnect 0] s ∧
      s.calls = [.onConnect 0 true, .onDisconnect 0] ∧ Notification.Alternate s.calls) ∧
    ∃ s, RunsWith (stepOf PipeServer.step) PipeServer.NoSilentClose (PipeServer.start 1)
        [.newPipe ⟨true, true, true, true, true⟩, .readError 0] s ∧
      s.calls = [.onConnect 0 true, .onDisconnect 0] ∧ Notification.Alternate s.calls := by
  have htcp : ∃ s, RunsWith (stepOf TcpServer.step) TcpServer.NoSilentClose (TcpServer.start 1 1)
      [.newConnection true true true, .handOver true true,
        .pipeRead 0 ⟨true, true, true, true, true, true, true⟩, .readError 0,
        .notifyDisconnect 0] s ∧ s.calls = [.onConnect 0 true, .onDisconnect 0] :=
    ⟨_, .cons trivial rfl (.cons (fun _ => rfl) rfl (.cons (fun _ => rfl) rfl
      (.cons trivial rfl (.cons trivial rfl (.nil _))))), rfl⟩
  have hpipe : ∃ s, RunsWith (stepOf PipeServer.step) PipeServer.NoSilentClose
      (PipeServer.start 1) [.newPipe ⟨true, true, true, true, true⟩, .readError 0] s ∧
      s.calls = [.onConnect 0 true, .onDisconnect 0] :=
    ⟨_, .cons (fun _ => rfl) rfl (.cons trivial rfl (.nil _)), rfl⟩
  obtain ⟨s, hs, hcalls⟩ := htcp
  obtain ⟨t, ht, hcalls'⟩ := hpipe
  exact ⟨⟨s, hs, hcalls, (notifications_alternate 1).1 1 _ s hs⟩,
    ⟨t, ht, hcalls', (notifications_alternate 1).2 _ t ht⟩⟩

/-- `uv_read_start` fails after the listener has accepted: the slot is free again, the listener is
    not told, and it sees the next connection on the index as a second `onConnect`. -/
theorem read_start_failure_repeats_onConnect :
    (∃ s, RunsWith (stepOf TcpServer.step) (fun _ _ => True) (TcpServer.start 1 1)
        [.newConnection true true true, .handOver true true,
          .pipeRead 0 ⟨true, true, true, true, true, true, false⟩,
          .newConnection true true true, .handOver true true,
          .pipeRead 0 ⟨true, true, true, true, true, true, true⟩] s ∧
      ¬ Notification.Alternate s.calls) ∧
    ∃ s, RunsWith (stepOf PipeServer.step) (fun _ _ => True) (PipeServer.start 1)
        [.newPipe ⟨true, true, true, true, false⟩, .newPipe ⟨true, true, true, true, true⟩] s ∧
      ¬ Notification.Alternate s.calls := by
  constructor
  · refine ⟨_, runsWith_of_runWhere (f := TcpServer.step) (P := fun _ _ => True) rfl, fun h => ?_⟩
    exact absurd (h 0) (by decide)
  · refine ⟨_, runsWith_of_runWhere (f := PipeServer.step) (P := fun _ _ => True) rfl, fun h => ?_⟩
    exact absurd (h 0) (by decide)

end Commutil.Transport
