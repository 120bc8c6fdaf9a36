import Commutil.Framing.ReceivedFrames
import Commutil.Server.FrameHandling
import Commutil.Server.MsgServer
import Mathlib.Data.List.Nodup
import Mathlib.Data.List.Perm.Basic

/-!
# From the Socket to the Frame Listener

The whole way of a message through a server: the bytes of the connections, one assembler stream
for each index, the queues of the multiplexer, and the workers that call `MsgServer::onMsg`.  The
I/O tasks and the workers interleave as in `MsgMultiplexer`; an I/O task that is inside a call of
the multiplexer does not go on with its assembler.

A message is named by the position at which it was assembled, which is its address.  Addresses
that were freed are in the log of the multiplexer, and `message?` finds no message there.
`messages_dispatched_once` is about order and ownership for arbitrary bytes,
`sent_frames_reach_listener` about peers that send frames.
-/

namespace Commutil.Server

open Commutil.Io Commutil.Framing Commutil.Framing.Dispatch Commutil.Library
open Commutil.Transport

/-! ## §1 The system -/

/-- What does not change: the compression library, the byte order, the I/O task of each connection
    index, and which message allocations succeed on it. -/
structure Surroundings where
  z : Zlib
  byteOrder : ByteOrder
  owner : Nat → Nat
  alloc : Nat → Nat → Bool

/-- A message made by the assembler, with the connection it came on and the number of that
    connection among those of its index. -/
structure AssembledMsg where
  m_msg : Msg
  connectionDetails : ConnectionDetails
  connection : Nat
  deriving DecidableEq, Repr

/-- The message belongs to the connection. -/
def AssembledMsg.isOn (m : AssembledMsg) (index connection : Nat) : Bool :=
  m.connectionDetails.m_connIndex = index ∧ m.connection = connection

/-- An event for which `MsgServer::onMsg` was called, the message it read there, and the calls of
    the frame listener. -/
structure Dispatched where
  event : QueuedEvent
  m_msg : Msg
  calls : List (Call ConnectionDetails)

/-- A connection that was announced and not closed, with the bytes received on it. -/
structure OpenConnection where
  connectionDetails : ConnectionDetails
  received : List UInt8
  deriving DecidableEq, Repr

/-- The assembler and the multiplexer of a server.  `assembled` and `dispatched` are logs. -/
structure MessagePath where
  m_msgStreams : Nat → Connection
  m_msgMultiplexer : MsgMultiplexer
  opened : Nat → Option OpenConnection
  assembled : List AssembledMsg
  dispatched : List Dispatched

namespace MessagePath

/-- After `initialize` and `start`. -/
def start (w : Surroundings) (maxConnections concurrency : UInt32) : MessagePath where
  m_msgStreams := fun _ => ⟨Assembly.new w.byteOrder ⟨0, [], [], 0⟩, false⟩
  m_msgMultiplexer := MsgMultiplexer.start maxConnections concurrency
  opened := fun _ => none
  assembled := []
  dispatched := []

/-- The message at an address, as long as it was not freed. -/
def message? (s : MessagePath) (addr : Nat) : Option Msg :=
  if addr ∈ s.m_msgMultiplexer.freed then none
  else s.assembled[addr]?.map AssembledMsg.m_msg

/-- What can happen: a callback of the data server, a pass of an assembly loop, a step of an I/O
    task inside the multiplexer, or a step of a worker with the frame listener that it calls. -/
inductive Event where
  | onConnect (connectionDetails : ConnectionDetails) (status : Int)
  | onDisconnect (index : Nat)
  | onBytesReceived (index : Nat) (buffer : Buffer)
  | pass (index : Nat)
  | io (task : Nat)
  | worker (queueId : Nat) (listener : Listener ConnectionDetails)

/-- A step of the assembler stream of an index. -/
def streamStep (w : Surroundings) (s : MessagePath) (index : Nat) (e : ConnEvent) :
    Option MessagePath :=
  ((s.m_msgStreams index).step (w.alloc index) e).map fun c =>
    { s with m_msgStreams := Function.update s.m_msgStreams index c }

/-- A step of the multiplexer. -/
def muxStep (s : MessagePath) (e : MsgMultiplexer.Event) : Option MessagePath :=
  (s.m_msgMultiplexer.step e).map fun multiplexer => { s with m_msgMultiplexer := multiplexer }

/-- The message that the last pass handed to the listener of the assembler, if it did. -/
def delivered? (old new : Connection) : Option Msg :=
  (new.assembly.delivered.drop old.assembly.delivered.length).head?

/-- The message event for which the next step of a worker calls `handleEvt`. -/
def nextMsgEvent (s : MsgMultiplexer) (queueId : Nat) : Option QueuedEvent :=
  (MsgServer.nextEvent s queueId).filter fun e => e.event.m_eventType = .ET_MSG

/-- One step, if it is possible. -/
def step (w : Surroundings) (s : MessagePath) : Event → Option MessagePath
  | .onConnect connectionDetails status => do
    let index := connectionDetails.m_connIndex
    let s ← s.streamStep w index .onConnect
    let s ← s.muxStep (.onConnect (w.owner index) connectionDetails status)
    if status = 0 then
      some { s with opened := Function.update s.opened index (some ⟨connectionDetails, []⟩) }
    else some s
  | .onDisconnect index => do
    let connection ← s.opened index
    let s ← s.streamStep w index .onDisconnect
    let s ← s.muxStep (.onDisconnect (w.owner index) connection.connectionDetails)
    some { s with opened := Function.update s.opened index none }
  | .onBytesReceived index buffer =>
    if s.m_msgMultiplexer.io (w.owner index) = .idle then do
      let connection ← s.opened index
      let s ← s.streamStep w index (.onBytesReceived buffer)
      let connection := { connection with received := connection.received ++ buffer.m_bytes }
      some { s with opened := Function.update s.opened index (some connection) }
    else none
  | .pass index =>
    if s.m_msgMultiplexer.io (w.owner index) = .idle then do
      let connection ← s.opened index
      let s' ← s.streamStep w index .pass
      match delivered? (s.m_msgStreams index) (s'.m_msgStreams index) with
      | none => some s'
      | some msg => do
        -- the assembler lets the multiplexer keep the message
        let s' ← s'.muxStep (.onMsg (w.owner index) connection.connectionDetails
          s.assembled.length true)
        let number := MsgMultiplexer.connections s.m_msgMultiplexer.pushed index
        some { s' with assembled := s.assembled ++ [⟨msg, connection.connectionDetails, number⟩] }
    else none
  | .io task => s.muxStep (.io task)
  | .worker queueId listener =>
    match nextMsgEvent s.m_msgMultiplexer queueId with
    | none => s.muxStep (.worker queueId .MSG_CAN_DELETE)
    | some e => do
      let msg ← s.message? e.event.m_msg
      -- an exception ends the process
      let (action, calls) ←
        (onMsg w.z w.byteOrder listener e.event.m_connectionDetails msg).toOption
      let s ← s.muxStep (.worker queueId action)
      some { s with dispatched := s.dispatched ++ [⟨e, msg, calls⟩] }

/-- What the data server promises: an index is in range. -/
def Raised (s : MessagePath) : Event → Prop
  | .onConnect connectionDetails _ =>
    connectionDetails.m_connIndex < s.m_msgMultiplexer.m_connectionMap.length
  | _ => True

instance (s : MessagePath) (e : Event) : Decidable (s.Raised e) :=
  match e with
  | .onConnect _ _ => inferInstanceAs (Decidable (_ < _))
  | .onDisconnect _ | .onBytesReceived _ _ | .pass _ | .io _ | .worker _ _ => .isTrue trivial

/-! ## §2 What a step does -/

/-- The steps by what they change. -/
inductive Moves (w : Surroundings) (s : MessagePath) : Event → MessagePath → Prop where
  | onConnect {connectionDetails : ConnectionDetails} {status : Int} {c : Connection}
      {m : MsgMultiplexer} (opened : Nat → Option OpenConnection)
      (hstream : (s.m_msgStreams connectionDetails.m_connIndex).step
        (w.alloc connectionDetails.m_connIndex) .onConnect = some c)
      (hmux : s.m_msgMultiplexer.step
        (.onConnect (w.owner connectionDetails.m_connIndex) connectionDetails status) = some m)
      (hopened : opened = if status = 0 then
          Function.update s.opened connectionDetails.m_connIndex (some ⟨connectionDetails, []⟩)
        else s.opened) :
      Moves w s (.onConnect connectionDetails status)
        ⟨Function.update s.m_msgStreams connectionDetails.m_connIndex c, m, opened, s.assembled,
          s.dispatched⟩
  | onDisconnect {index : Nat} {o : OpenConnection} {c : Connection} {m : MsgMultiplexer}
      (ho : s.opened index = some o)
      (hstream : (s.m_msgStreams index).step (w.alloc index) .onDisconnect = some c)
      (hmux : s.m_msgMultiplexer.step
        (.onDisconnect (w.owner index) o.connectionDetails) = some m) :
      Moves w s (.onDisconnect index)
        ⟨Function.update s.m_msgStreams index c, m, Function.update s.opened index none,
          s.assembled, s.dispatched⟩
  | onBytesReceived {index : Nat} {buffer : Buffer} {o : OpenConnection} {c : Connection}
      (hidle : s.m_msgMultiplexer.io (w.owner index) = .idle) (ho : s.opened index = some o)
      (hstream : (s.m_msgStreams index).step (w.alloc index) (.onBytesReceived buffer) =
        some c) :
      Moves w s (.onBytesReceived index buffer)
        ⟨Function.update s.m_msgStreams index c, s.m_msgMultiplexer,
          Function.update s.opened index (some ⟨o.connectionDetails, o.received ++ buffer.m_bytes⟩),
          s.assembled, s.dispatched⟩
  /-- A pass that delivers nothing. -/
  | pass {index : Nat} {o : OpenConnection} {c : Connection}
      (hidle : s.m_msgMultiplexer.io (w.owner index) = .idle) (ho : s.opened index = some o)
      (hstream : (s.m_msgStreams index).step (w.alloc index) .pass = some c)
      (hnone : delivered? (s.m_msgStreams index) c = none) :
      Moves w s (.pass index)
        ⟨Function.update s.m_msgStreams index c, s.m_msgMultiplexer, s.opened, s.assembled,
          s.dispatched⟩
  | deliver {index : Nat} {o : OpenConnection} {c : Connection} {m : MsgMultiplexer} {msg : Msg}
      (hidle : s.m_msgMultiplexer.io (w.owner index) = .idle) (ho : s.opened index = some o)
      (hstream : (s.m_msgStreams index).step (w.alloc index) .pass = some c)
      (hmsg : delivered? (s.m_msgStreams index) c = some msg)
      (hmux : s.m_msgMultiplexer.step (.onMsg (w.owner index) o.connectionDetails
        s.assembled.length true) = some m) :
      Moves w s (.pass index)
        ⟨Function.update s.m_msgStreams index c, m, s.opened,
          s.assembled ++ [⟨msg, o.connectionDetails,
            MsgMultiplexer.connections s.m_msgMultiplexer.pushed index⟩], s.dispatched⟩
  | io {task : Nat} {m : MsgMultiplexer} (hmux : s.m_msgMultiplexer.step (.io task) = some m) :
      Moves w s (.io task) { s with m_msgMultiplexer := m }
  /-- A worker does not come to a message. -/
  | worker {queueId : Nat} {listener : Listener ConnectionDetails} {m : MsgMultiplexer}
      (hnone : nextMsgEvent s.m_msgMultiplexer queueId = none)
      (hmux : s.m_msgMultiplexer.step (.worker queueId .MSG_CAN_DELETE) = some m) :
      Moves w s (.worker queueId listener) { s with m_msgMultiplexer := m }
  | dispatch {queueId : Nat} {listener : Listener ConnectionDetails} {m : MsgMultiplexer}
      {e : QueuedEvent} {msg : Msg} {calls : List (Call ConnectionDetails)}
      (hnext : nextMsgEvent s.m_msgMultiplexer queueId = some e)
      (hmsg : s.message? e.event.m_msg = some msg)
      (hcalls : onMsg w.z w.byteOrder listener e.event.m_connectionDetails msg =
        .ok (.MSG_CAN_DELETE, calls))
      (hmux : s.m_msgMultiplexer.step (.worker queueId .MSG_CAN_DELETE) = some m) :
      Moves w s (.worker queueId listener)
        { s with m_msgMultiplexer := m, dispatched := s.dispatched ++ [⟨e, msg, calls⟩] }

/-- `MsgServer::onMsg` always lets the caller free the message. -/
theorem onMsg_ok {w : Surroundings} {listener : Listener ConnectionDetails}
    {connectionDetails : ConnectionDetails} {msg : Msg} {action : MsgAction}
    {calls : List (Call ConnectionDetails)}
    (h : (onMsg w.z w.byteOrder listener connectionDetails msg).toOption = some (action, calls)) :
    action = .MSG_CAN_DELETE ∧
      onMsg w.z w.byteOrder listener connectionDetails msg = .ok (.MSG_CAN_DELETE, calls) := by
  have heq : onMsg w.z w.byteOrder listener connectionDetails msg =
      (readMsgFrame listener connectionDetails w.z w.byteOrder msg).map fun r =>
        (.MSG_CAN_DELETE, r.2) := by
    unfold onMsg
    generalize readMsgFrame listener connectionDetails w.z w.byteOrder msg = r
    cases r <;> rfl
  rw [heq] at h ⊢
  generalize readMsgFrame listener connectionDetails w.z w.byteOrder msg = r at h ⊢
  cases r with
  | error fault => cases h
  | ok r =>
    cases h
    exact ⟨rfl, rfl⟩

theorem step_moves {w : Surroundings} {s s' : MessagePath} {e : Event}
    (h : s.step w e = some s') : Moves w s e s' := by
  cases e with
  -- each call of the data server goes to the stream and to the multiplexer
  | onConnect connectionDetails status =>
    simp only [step, streamStep, muxStep, Option.bind_eq_bind, Option.bind_eq_some_iff,
      Option.map_eq_some_iff] at h
    obtain ⟨_, ⟨c, hstream, rfl⟩, _, ⟨m, hmux, rfl⟩, hlast⟩ := h
    split at hlast
    · rename_i hstatus
      cases hlast
      exact .onConnect _ hstream hmux (if_pos hstatus).symm
    · rename_i hstatus
      cases hlast
      exact .onConnect _ hstream hmux (if_neg hstatus).symm
  | onDisconnect index =>
    simp only [step, streamStep, muxStep, Option.bind_eq_bind, Option.bind_eq_some_iff,
      Option.map_eq_some_iff] at h
    obtain ⟨o, ho, _, ⟨c, hstream, rfl⟩, _, ⟨m, hmux, rfl⟩, hlast⟩ := h
    cases hlast
    exact .onDisconnect ho hstream hmux
  | onBytesReceived index buffer =>
    simp only [step] at h
    split at h
    · rename_i hidle
      simp only [streamStep, Option.bind_eq_bind, Option.bind_eq_some_iff,
        Option.map_eq_some_iff] at h
      obtain ⟨o, ho, _, ⟨c, hstream, rfl⟩, hlast⟩ := h
      cases hlast
      exact .onBytesReceived hidle ho hstream
    · cases h
  | pass index =>
    simp only [step] at h
    split at h
    · rename_i hidle
      simp only [streamStep, muxStep, Option.bind_eq_bind, Option.bind_eq_some_iff,
        Option.map_eq_some_iff] at h
      obtain ⟨o, ho, _, ⟨c, hstream, rfl⟩, hlast⟩ := h
      simp only [Function.update_self] at hlast
      split at hlast
      · -- no message was completed in this pass
        rename_i hnone
        cases hlast
        exact .pass hidle ho hstream hnone
      · -- a message was completed and is handed to the multiplexer
        rename_i msg hmsg
        simp only [Option.bind_eq_some_iff, Option.map_eq_some_iff] at hlast
        obtain ⟨_, ⟨m, hmux, rfl⟩, hlast⟩ := hlast
        cases hlast
        exact .deliver hidle ho hstream hmsg hmux
    · cases h
  | io task =>
    simp only [step, muxStep, Option.map_eq_some_iff] at h
    obtain ⟨m, hmux, rfl⟩ := h
    exact .io hmux
  | worker queueId listener =>
    simp only [step] at h
    split at h
    · -- the worker does not come to a message
      rename_i hnone
      simp only [muxStep, Option.map_eq_some_iff] at h
      obtain ⟨m, hmux, rfl⟩ := h
      exact .worker hnone hmux
    · -- the worker comes to a message, which is read and dispatched
      rename_i e hnext
      simp only [muxStep, Option.bind_eq_bind, Option.bind_eq_some_iff,
        Option.map_eq_some_iff] at h
      obtain ⟨msg, hmsg, ⟨action, calls⟩, hsome, _, ⟨m, hmux, rfl⟩, h⟩ := h
      obtain ⟨rfl, hcalls⟩ := onMsg_ok hsome
      cases h
      exact .dispatch hnext hmsg hcalls hmux

end MessagePath

/-! ## §3 Messages in the multiplexer -/

namespace MsgMultiplexer

/-- The message events of a log. -/
def messages (log : List QueuedEvent) : List QueuedEvent :=
  log.filter fun e => e.event.m_eventType = .ET_MSG

/-- What a message event passes on. -/
def MsgEvent.mark (evt : MsgEvent) : Nat × ConnectionDetails :=
  (evt.m_msg, evt.m_connectionDetails)

/-- The messages of a connection in a log. -/
def messagesOn (log : List QueuedEvent) (index connection : Nat) : List (Nat × ConnectionDetails) :=
  (messages (onConnection log index connection)).map fun e => MsgEvent.mark e.event

/-- The mark of an event that is a message of the connection, if that is the latest one of its
    index after the log. -/
def markOn (log : List QueuedEvent) (evt : MsgEvent) (index connection : Nat) :
    List (Nat × ConnectionDetails) :=
  if evt.m_eventType = .ET_MSG ∧ evt.index = index ∧ connections log index = connection
  then [MsgEvent.mark evt] else []

/-- The message of a connection that its I/O task is about to push. -/
def pendingOn (s : MsgMultiplexer) (owner : Nat → Nat) (index connection : Nat) :
    List (Nat × ConnectionDetails) :=
  match (s.io (owner index)).event? with
  | some evt => markOn s.pushed evt index connection
  | none => []

variable {owner : Nat → Nat} {s s' : MsgMultiplexer} {task : Nat}

theorem pendingOn_idle {index : Nat} (h : s.io (owner index) = .idle) (connection : Nat) :
    s.pendingOn owner index connection = [] := by
  simp [pendingOn, h, IoPc.event?]

theorem markOn_ne {log : List QueuedEvent} {evt : MsgEvent} {index : Nat}
    (h : evt.index ≠ index) (connection : Nat) : markOn log evt index connection = [] :=
  if_neg fun hon => h hon.2.1

theorem markOn_other {log : List QueuedEvent} {evt : MsgEvent} (h : evt.m_eventType ≠ .ET_MSG)
    (index connection : Nat) : markOn log evt index connection = [] :=
  if_neg fun hon => h hon.1

/-- An idle task begins with an event. -/
theorem pendingOn_setIo (evt : MsgEvent) (pc : IoPc) (hidle : s.io (owner evt.index) = .idle)
    (hpc : pc.event? = some evt) (index connection : Nat) :
    (s.setIo (owner evt.index) pc).pendingOn owner index connection =
      s.pendingOn owner index connection ++ markOn s.pushed evt index connection := by
  by_cases howner : owner index = owner evt.index
  · have hbefore : s.pendingOn owner index connection = [] :=
      pendingOn_idle (howner ▸ hidle) connection
    rw [hbefore]
    unfold pendingOn
    rw [howner, setIo_io_self, hpc]
    rfl
  · rw [markOn_ne fun hindex => howner (congrArg owner hindex.symm)]
    unfold pendingOn
    rw [setIo_io_ne pc howner, List.append_nil]
    rfl

theorem messagesOn_concat (log : List QueuedEvent) (e : QueuedEvent) (index connection : Nat) :
    messagesOn (log ++ [e]) index connection = messagesOn log index connection ++
      if e.event.m_eventType = .ET_MSG ∧ e.event.index = index ∧ e.connection = connection
      then [MsgEvent.mark e.event] else [] := by
  simp only [messagesOn, messages, onConnection, List.filter_append, List.map_append,
    List.append_cancel_left_eq]
  by_cases hon : e.event.index = index ∧ e.connection = connection
  · by_cases hmsg : e.event.m_eventType = .ET_MSG <;> simp [hon, hmsg]
  · simp [hon]

/-- What an I/O task does inside the multiplexer: it goes on with its event, or pushes it. -/
theorem ioStep_frame (h : s.ioStep task = some s') :
    s'.handled = s.handled ∧ s'.freed = s.freed ∧
      s'.m_connectionMap.length = s.m_connectionMap.length ∧
      (s'.pushed = s.pushed ∧ (∀ t, (s'.io t).event? = (s.io t).event?) ∨
        ∃ evt queueId, s.io task = .enqueue evt queueId ∧
          s'.pushed = s.pushed ++ [⟨evt, queueId, connectionOf s.pushed evt⟩] ∧
          s'.io = Function.update s.io task .idle) := by
  have hgo : ∀ {pc : IoPc}, pc.event? = (s.io task).event? →
      ∀ t, ((Function.update s.io task pc) t).event? = (s.io t).event? := by
    intro pc hpc t
    by_cases ht : t = task
    · rw [ht, Function.update_self, hpc]
    · rw [Function.update_of_ne ht]
  unfold ioStep at h
  split at h
  · cases h
  · rename_i evt hpc
    cases h
    exact ⟨rfl, rfl, rfl, .inl ⟨rfl, hgo (by rw [hpc]; rfl)⟩⟩
  · rename_i evt queueId hpc
    split at h <;> cases h
    exact ⟨rfl, rfl, rfl, .inl ⟨rfl, hgo (by rw [hpc]; rfl)⟩⟩
  · rename_i evt queueId next hpc
    cases h
    exact ⟨rfl, rfl, rfl, .inl ⟨rfl, hgo (by rw [hpc]; rfl)⟩⟩
  · rename_i evt queueId hpc
    split at h <;> cases h
    exact ⟨rfl, rfl, List.length_set .., .inl ⟨rfl, hgo (by rw [hpc]; rfl)⟩⟩
  · rename_i evt hpc
    split at h <;> cases h
    exact ⟨rfl, rfl, rfl, .inl ⟨rfl, hgo (by rw [hpc]; rfl)⟩⟩
  · rename_i evt queueId hpc
    split at h <;> cases h
    exact ⟨rfl, rfl, rfl, .inr ⟨evt, queueId, hpc, rfl, rfl⟩⟩

/-- **The messages of a connection**: a step of an I/O task moves at most one of them, from those
    about to be pushed to those that were pushed. -/
theorem ioStep_messagesOn (hroute : s.Routing owner) (h : s.ioStep task = some s')
    (index connection : Nat) :
    messagesOn s'.pushed index connection ++ s'.pendingOn owner index connection =
      messagesOn s.pushed index connection ++ s.pendingOn owner index connection := by
  obtain ⟨-, -, -, ⟨hpushed, hevents⟩ | ⟨evt, queueId, hpc, hpushed, hio⟩⟩ := ioStep_frame h
  · unfold pendingOn
    rw [hpushed, hevents]
  · have howner : owner evt.index = task := hroute.owner_of_busy (by rw [hpc]; rfl)
    have hevent : (s.io task).event? = some evt := by rw [hpc]; rfl
    have hconn : evt.m_eventType = .ET_MSG →
        connectionOf s.pushed evt = connections s.pushed evt.index := by
      intro hmsg
      rw [connectionOf, if_neg (by simp [hmsg])]
    rw [hpushed, messagesOn_concat, List.append_assoc]
    congr 1
    by_cases hindex : evt.index = index
    · -- the message was the pending one
      subst hindex
      have hnow : s'.pendingOn owner evt.index connection = [] := by
        apply pendingOn_idle
        rw [hio, howner, Function.update_self]
      rw [hnow, List.append_nil]
      unfold pendingOn
      rw [howner, hevent]
      dsimp only
      unfold markOn
      by_cases hmsg : evt.m_eventType = .ET_MSG
      · simp [hmsg, hconn hmsg]
      · simp [hmsg]
    · rw [if_neg (by simp [hindex]), List.nil_append]
      have hcount : connections s'.pushed index = connections s.pushed index := by
        rw [hpushed]
        apply connections_concat_ne
        exact hindex
      unfold pendingOn
      rw [hio]
      by_cases htask : owner index = task
      · -- the task was busy with another index
        rw [htask, Function.update_self, hevent]
        exact (markOn_ne hindex connection).symm
      · rw [Function.update_of_ne htask]
        unfold markOn
        rw [hcount]

/-- What a worker does to the logs of the messages. -/
theorem worker_messages {queueId : Nat}
    (h : s.step (.worker queueId .MSG_CAN_DELETE) = some s') :
    messages s'.handled = messages s.handled ++
        (MessagePath.nextMsgEvent s queueId).toList ∧
      s'.freed = s.freed ++
        (MessagePath.nextMsgEvent s queueId).toList.map fun e => e.event.m_msg := by
  simp only [step] at h
  split at h
  swap
  · cases h
  simp only [workerStep] at h
  split at h
  · rename_i hworker
    split at h <;> cases h
    simp [MessagePath.nextMsgEvent, MsgServer.nextEvent, hworker, setQueue]
  · rename_i done hworker
    split at h
    · rename_i hlast
      cases h
      simp [MessagePath.nextMsgEvent, MsgServer.nextEvent, hworker, hlast, setQueue]
    · rename_i e hlast
      cases h
      by_cases hmsg : e.event.m_eventType = .ET_MSG <;>
        simp [MessagePath.nextMsgEvent, MsgServer.nextEvent, hworker, hlast, handleBack, freedBy,
          messages, Option.filter, hmsg]
  · rename_i done hworker
    cases h
    simp [MessagePath.nextMsgEvent, MsgServer.nextEvent, hworker, setQueue]
  · cases h

/-- The callbacks of the assembler, when they can begin. -/
theorem onConnect_cases {connectionDetails : ConnectionDetails} {status : Int}
    (h : s.step (.onConnect task connectionDetails status) = some s') :
    s.io task = .idle ∧ (status ≠ 0 ∧ s' = s ∨ status = 0 ∧ s' = s.setIo task
      (.loadNext ⟨.ET_CONNECT, connectionDetails, statusToMsg status⟩)) := by
  simp only [step] at h
  split at h
  · rename_i hidle
    split at h
    · rename_i hstatus
      cases h
      exact ⟨hidle, .inr ⟨hstatus, rfl⟩⟩
    · rename_i hstatus
      cases h
      exact ⟨hidle, .inl ⟨hstatus, rfl⟩⟩
  · cases h

theorem onDisconnect_cases {connectionDetails : ConnectionDetails}
    (h : s.step (.onDisconnect task connectionDetails) = some s') :
    s.io task = .idle ∧
      s' = s.setIo task (.loadMap ⟨.ET_DISCONNECT, connectionDetails, 0⟩) := by
  simp only [step] at h
  split at h
  · rename_i hidle
    cases h
    exact ⟨hidle, rfl⟩
  · cases h

theorem onMsg_cases {connectionDetails : ConnectionDetails} {msg : Nat}
    (h : s.step (.onMsg task connectionDetails msg true) = some s') :
    s.io task = .idle ∧ s' = s.setIo task (.loadMap ⟨.ET_MSG, connectionDetails, msg⟩) := by
  simp only [step] at h
  split at h
  · rename_i hidle
    cases h
    exact ⟨hidle, rfl⟩
  · cases h

/-- A connection of the index was pushed, or its I/O task is about to push one. -/
def Announced (s : MsgMultiplexer) (owner : Nat → Nat) (index : Nat) : Prop :=
  0 < connections s.pushed index ∨ ∃ evt, (s.io (owner index)).event? = some evt ∧
    evt.m_eventType = .ET_CONNECT ∧ evt.index = index

theorem Announced.pushed {index : Nat} (h : s.Announced owner index)
    (hidle : s.io (owner index) = .idle) : 0 < connections s.pushed index := by
  rcases h with hcount | ⟨evt, hevt, -⟩
  · exact hcount
  · rw [hidle] at hevt
    cases hevt

theorem Announced.setIo {index : Nat} (h : s.Announced owner index) (hidle : s.io task = .idle)
    (pc : IoPc) : (s.setIo task pc).Announced owner index := by
  rcases h with hcount | ⟨evt, hevt, hconnect⟩
  · exact .inl hcount
  · refine .inr ⟨evt, ?_, hconnect⟩
    have hne : owner index ≠ task := by
      intro heq
      rw [heq, hidle] at hevt
      cases hevt
    rw [setIo_io_ne pc hne]
    exact hevt

theorem Announced.ioStep {index : Nat} (h : s.Announced owner index)
    (hstep : s.ioStep task = some s') : s'.Announced owner index := by
  obtain ⟨-, -, -, ⟨hpushed, hevents⟩ | ⟨evt, queueId, hpc, hpushed, hio⟩⟩ := ioStep_frame hstep
  · unfold Announced
    rw [hpushed, hevents]
    exact h
  · have hmono : connections s.pushed index ≤ connections s'.pushed index := by
      rw [hpushed]
      simp [connections]
    rcases h with hcount | ⟨evt', hevt, hconnect, hindex⟩
    · exact .inl (Nat.lt_of_lt_of_le hcount hmono)
    · by_cases htask : owner index = task
      · -- the event that is pushed is the connect
        rw [htask, hpc] at hevt
        cases hevt
        refine .inl ?_
        have hself := connections_concat_self s.pushed ⟨evt, queueId, connectionOf s.pushed evt⟩
        dsimp only at hself
        rw [hpushed, ← hindex, hself, connectionOf, if_pos hconnect]
        exact Nat.succ_pos _
      · refine .inr ⟨evt', ?_, hconnect, hindex⟩
        rw [hio, Function.update_of_ne htask]
        exact hevt

end MsgMultiplexer

/-! ## §4 The invariant -/

namespace MessagePath

open MsgMultiplexer

/-- The messages assembled on a connection, each with its address. -/
def assembledOn (s : MessagePath) (index connection : Nat) : List (AssembledMsg × Nat) :=
  s.assembled.zipIdx.filter fun m => m.1.isOn index connection

/-- What was passed on of them. -/
def marksOn (s : MessagePath) (index connection : Nat) : List (Nat × ConnectionDetails) :=
  (s.assembledOn index connection).map fun m => (m.2, m.1.connectionDetails)

/-- The calls that a worker made for a message are those of `onMsg` for what was assembled. -/
structure Read (w : Surroundings) (s : MessagePath) (d : Dispatched) : Prop where
  assembled : s.assembled[d.event.event.m_msg]?.map AssembledMsg.m_msg = some d.m_msg
  calls : ∃ listener, onMsg w.z w.byteOrder listener d.event.event.m_connectionDetails d.m_msg =
    .ok (.MSG_CAN_DELETE, d.calls)

/-- **The invariant.**  Every message that was assembled is about to be pushed or was pushed, in
    the order of its connection; the messages that were freed are those that were handled. -/
structure Inv (w : Surroundings) (s : MessagePath) : Prop where
  mux : s.m_msgMultiplexer.Inv w.owner
  opened : ∀ index o, s.opened index = some o → o.connectionDetails.m_connIndex = index ∧
    s.m_msgMultiplexer.Announced w.owner index
  order : ∀ index connection, s.marksOn index connection =
    messagesOn s.m_msgMultiplexer.pushed index connection ++
      s.m_msgMultiplexer.pendingOn w.owner index connection
  dispatched : s.dispatched.map Dispatched.event = messages s.m_msgMultiplexer.handled
  freed : s.m_msgMultiplexer.freed =
    (messages s.m_msgMultiplexer.handled).map fun e => e.event.m_msg
  read : ∀ d ∈ s.dispatched, s.Read w d

theorem start_inv (w : Surroundings) (maxConnections concurrency : UInt32)
    (hpos : 1 ≤ concurrency) : (start w maxConnections concurrency).Inv w where
  mux := ⟨start_routing w.owner maxConnections concurrency hpos,
    start_order maxConnections concurrency⟩
  opened := nofun
  order := fun _ _ => rfl
  dispatched := rfl
  freed := rfl
  read := nofun

section Steps

variable {w : Surroundings} {s s' : MessagePath} {m : MsgMultiplexer}

theorem marksOn_concat {msg : AssembledMsg} (h : s'.assembled = s.assembled ++ [msg])
    (index connection : Nat) :
    s'.marksOn index connection = s.marksOn index connection ++
      if msg.isOn index connection then [(s.assembled.length, msg.connectionDetails)] else [] := by
  simp only [marksOn, assembledOn, h, List.zipIdx_append, List.filter_append, List.map_append,
    List.append_cancel_left_eq]
  cases hon : msg.isOn index connection <;> simp [hon]

/-- A step that leaves the messages and the multiplexer alone. -/
theorem Inv.quiet (h : s.Inv w) (streams : Nat → Connection) (opened : Nat → Option OpenConnection)
    (hopened : ∀ index o, opened index = some o → o.connectionDetails.m_connIndex = index ∧
      s.m_msgMultiplexer.Announced w.owner index) :
    Inv w ⟨streams, s.m_msgMultiplexer, opened, s.assembled, s.dispatched⟩ :=
  ⟨h.mux, hopened, h.order, h.dispatched, h.freed, fun d hd => ⟨(h.read d hd).1, (h.read d hd).2⟩⟩

/-- The I/O task of an index begins with an event that is no message. -/
theorem Inv.begin (h : s.Inv w) (streams : Nat → Connection)
    (opened : Nat → Option OpenConnection) (evt : MsgEvent) (pc : IoPc)
    (hidle : s.m_msgMultiplexer.io (w.owner evt.index) = .idle) (hpc : pc.event? = some evt)
    (hother : evt.m_eventType ≠ .ET_MSG)
    (hmux : (s.m_msgMultiplexer.setIo (w.owner evt.index) pc).Inv w.owner)
    (hopened : ∀ index o, opened index = some o → o.connectionDetails.m_connIndex = index ∧
      (s.m_msgMultiplexer.setIo (w.owner evt.index) pc).Announced w.owner index) :
    Inv w ⟨streams, s.m_msgMultiplexer.setIo (w.owner evt.index) pc, opened, s.assembled,
      s.dispatched⟩ := by
  refine ⟨hmux, hopened, ?_, h.dispatched, h.freed,
    fun d hd => ⟨(h.read d hd).1, (h.read d hd).2⟩⟩
  intro index connection
  rw [pendingOn_setIo evt pc hidle hpc, markOn_other hother, List.append_nil]
  exact h.order index connection

/-- A message is assembled and handed to the multiplexer. -/
theorem Inv.deliver (h : s.Inv w) (streams : Nat → Connection) {index : Nat} {o : OpenConnection}
    {msg : Msg} (ho : s.opened index = some o)
    (hmux : s.m_msgMultiplexer.step (.onMsg (w.owner index) o.connectionDetails
      s.assembled.length true) = some m) :
    Inv w ⟨streams, m, s.opened, s.assembled ++ [⟨msg, o.connectionDetails,
      connections s.m_msgMultiplexer.pushed index⟩], s.dispatched⟩ := by
  obtain ⟨hindex, hann⟩ := h.opened index o ho
  obtain ⟨hidle, hm⟩ := onMsg_cases hmux
  -- the task was idle, so the message is its next event
  have hinv : m.Inv w.owner := by
    apply h.mux.step ?_ hmux
    exact ⟨by rw [hindex], by rw [hindex]; exact hann.pushed hidle⟩
  have hevt : (⟨.ET_MSG, o.connectionDetails, s.assembled.length⟩ : MsgEvent).index = index :=
    hindex
  subst hm
  refine ⟨hinv, ?_, ?_, h.dispatched, h.freed, ?_⟩
  · intro index' o' ho'
    obtain ⟨hindex', hann'⟩ := h.opened index' o' ho'
    exact ⟨hindex', hann'.setIo hidle _⟩
  · -- a message on another connection changes no order; this one joins its end
    intro index' connection
    have hmarks : marksOn ⟨streams, s.m_msgMultiplexer.setIo (w.owner index)
          (.loadMap ⟨.ET_MSG, o.connectionDetails, s.assembled.length⟩), s.opened,
          s.assembled ++ [⟨msg, o.connectionDetails,
            connections s.m_msgMultiplexer.pushed index⟩], s.dispatched⟩ index' connection =
        s.marksOn index' connection ++ markOn s.m_msgMultiplexer.pushed
          ⟨.ET_MSG, o.connectionDetails, s.assembled.length⟩ index' connection := by
      rw [marksOn_concat rfl]
      subst hindex
      unfold markOn AssembledMsg.isOn MsgEvent.index
      by_cases hon : o.connectionDetails.m_connIndex = index'
      · simp [hon, MsgEvent.mark]
      · simp [hon]
    have hpending := @pendingOn_setIo w.owner s.m_msgMultiplexer
      ⟨.ET_MSG, o.connectionDetails, s.assembled.length⟩
      (.loadMap ⟨.ET_MSG, o.connectionDetails, s.assembled.length⟩)
      (by rw [hevt]; exact hidle) rfl index' connection
    rw [hevt] at hpending
    rw [hmarks, h.order, hpending, List.append_assoc]
    rfl
  · intro d hd
    obtain ⟨hmsg, hcalls⟩ := h.read d hd
    refine ⟨?_, hcalls⟩
    obtain ⟨a, ha, -⟩ := Option.map_eq_some_iff.mp hmsg
    have hlt := (List.getElem?_eq_some_iff.mp ha).1
    rw [List.getElem?_append_left hlt]
    exact hmsg

/-- A step of a worker, which may come to a message. -/
theorem Inv.worker (h : s.Inv w) {queueId : Nat}
    (hmux : s.m_msgMultiplexer.step (.worker queueId .MSG_CAN_DELETE) = some m)
    (dispatched : List Dispatched)
    (hlog : dispatched.map Dispatched.event = s.dispatched.map Dispatched.event ++
      (nextMsgEvent s.m_msgMultiplexer queueId).toList)
    (hread : ∀ d ∈ dispatched, s.Read w d) :
    Inv w { s with m_msgMultiplexer := m, dispatched := dispatched } := by
  obtain ⟨hio, hpushed⟩ := worker_frame hmux
  obtain ⟨hhandled, hfreed⟩ := worker_messages hmux
  have hinv := h.mux.step (e := .worker queueId .MSG_CAN_DELETE) trivial hmux
  refine ⟨hinv, ?_, ?_, ?_, ?_, fun d hd => ⟨(hread d hd).1, (hread d hd).2⟩⟩
  · intro index o ho
    unfold Announced
    rw [hio, hpushed]
    exact h.opened index o ho
  · intro index connection
    unfold pendingOn
    rw [hio, hpushed]
    exact h.order index connection
  · rw [hhandled, ← h.dispatched]
    exact hlog
  · rw [hhandled, List.map_append, ← h.freed]
    exact hfreed

/-- A message that is still there was assembled. -/
theorem assembled_of_message? {addr : Nat} {msg : Msg} (h : s.message? addr = some msg) :
    s.assembled[addr]?.map AssembledMsg.m_msg = some msg := by
  unfold message? at h
  split at h
  · cases h
  · exact h

/-- **Every step** keeps the invariant. -/
theorem Inv.step (h : s.Inv w) {e : Event} (he : s.Raised e) (hstep : s.step w e = some s') :
    s'.Inv w := by
  cases step_moves hstep with
  -- a connect with status 0 is announced to the multiplexer; any other one is not
  | @onConnect connectionDetails status c m opened hstream hmux hopened =>
    obtain ⟨hidle, ⟨hstatus, rfl⟩ | ⟨hstatus, rfl⟩⟩ := onConnect_cases hmux
    · rw [if_neg hstatus] at hopened
      subst hopened
      exact h.quiet _ _ h.opened
    · rw [if_pos hstatus] at hopened
      subst hopened
      have hinv := h.mux.step (e := .onConnect _ connectionDetails status) ⟨rfl, he⟩ hmux
      apply h.begin _ _ ⟨.ET_CONNECT, connectionDetails, statusToMsg status⟩ _ hidle rfl (by simp)
        hinv
      intro index o ho
      by_cases hindex : index = connectionDetails.m_connIndex
      · subst hindex
        rw [Function.update_self] at ho
        cases ho
        refine ⟨rfl, .inr ⟨⟨.ET_CONNECT, connectionDetails, statusToMsg status⟩, ?_, rfl, rfl⟩⟩
        rw [show MsgEvent.index ⟨.ET_CONNECT, connectionDetails, statusToMsg status⟩ =
          connectionDetails.m_connIndex from rfl, setIo_io_self]
        rfl
      · rw [Function.update_of_ne hindex] at ho
        obtain ⟨hindex', hann⟩ := h.opened index o ho
        exact ⟨hindex', hann.setIo hidle _⟩
  -- a disconnect is announced after the connection
  | @onDisconnect index o c m ho hstream hmux =>
    obtain ⟨hindex, hann⟩ := h.opened index o ho
    obtain ⟨hidle, rfl⟩ := onDisconnect_cases hmux
    have hinv := h.mux.step (e := .onDisconnect (w.owner index) o.connectionDetails)
      ⟨by rw [hindex], by rw [hindex]; exact hann.pushed hidle⟩ hmux
    have hevt : (⟨.ET_DISCONNECT, o.connectionDetails, 0⟩ : MsgEvent).index = index := hindex
    have hbegin := h.begin (Function.update s.m_msgStreams index c)
      (Function.update s.opened index none) ⟨.ET_DISCONNECT, o.connectionDetails, 0⟩
      (.loadMap ⟨.ET_DISCONNECT, o.connectionDetails, 0⟩)
      (by rw [hevt]; exact hidle) rfl (by simp) (by rw [hevt]; exact hinv)
    rw [hevt] at hbegin
    apply hbegin
    intro index' o' ho'
    -- the other connections stay announced
    by_cases hsame : index' = index
    · subst hsame
      rw [Function.update_self] at ho'
      cases ho'
    · rw [Function.update_of_ne hsame] at ho'
      obtain ⟨hindex', hann'⟩ := h.opened index' o' ho'
      exact ⟨hindex', hann'.setIo hidle _⟩
  -- bytes only change the stream of the connection
  | @onBytesReceived index buffer o c hidle ho hstream =>
    apply h.quiet
    intro index' o' ho'
    by_cases hsame : index' = index
    · subst hsame
      rw [Function.update_self] at ho'
      cases ho'
      exact h.opened index' o ho
    · rw [Function.update_of_ne hsame] at ho'
      exact h.opened index' o' ho'
  | pass hidle ho hstream hnone => exact h.quiet _ _ h.opened
  | deliver hidle ho hstream hmsg hmux => exact h.deliver _ ho hmux
  -- a task goes on inside a call of the multiplexer
  | @io task m hmux =>
    have hstep' : s.m_msgMultiplexer.ioStep task = some m := hmux
    obtain ⟨hhandled, hfreed, -, -⟩ := ioStep_frame hstep'
    have hinv := h.mux.step (e := .io task) trivial hmux
    refine ⟨hinv, ?_, ?_, ?_, ?_, fun d hd => ⟨(h.read d hd).1, (h.read d hd).2⟩⟩
    · intro index o ho
      obtain ⟨hindex, hann⟩ := h.opened index o ho
      exact ⟨hindex, hann.ioStep hstep'⟩
    · -- what is on its way, pushed and waiting is in the order of assembly
      intro index connection
      dsimp only
      rw [ioStep_messagesOn h.mux.routing hstep' index connection]
      exact h.order index connection
    · rw [hhandled]
      exact h.dispatched
    · rw [hfreed, hhandled]
      exact h.freed
  -- a worker does something else than call the listener
  | worker hnone hmux =>
    apply h.worker hmux
    · rw [hnone]
      exact (List.append_nil _).symm
    · exact h.read
  -- the listener is called with the message of the event
  | @dispatch queueId listener m e msg calls hnext hmsg hcalls hmux =>
    apply h.worker hmux
    · rw [hnext, List.map_append]
      rfl
    · intro d hd
      rcases List.mem_append.mp hd with hold | hnew
      · exact h.read d hold
      · obtain rfl := List.mem_singleton.mp hnew
        exact ⟨assembled_of_message? hmsg, listener, hcalls⟩

end Steps

/-! ## §5 Order and ownership -/

/-- The messages assembled on a connection. -/
def framesOn (s : MessagePath) (index connection : Nat) : List Msg :=
  (s.assembled.filter fun m => m.isOn index connection).map AssembledMsg.m_msg

/-- The messages of a connection that `MsgServer::onMsg` has read. -/
def dispatchedOn (s : MessagePath) (index connection : Nat) : List Msg :=
  (s.dispatched.filter fun d => d.event.event.index = index ∧ d.event.connection = connection).map
    Dispatched.m_msg

/-- No I/O task is in the multiplexer, and nothing waits in a queue. -/
def Drained (s : MessagePath) : Prop :=
  (∀ task, s.m_msgMultiplexer.io task = .idle) ∧
    ∀ queueId, (s.m_msgMultiplexer.m_msgQueues queueId).unhandled = []

section Ownership

variable {w : Surroundings} {s : MessagePath} {index connection : Nat}

theorem mem_marksOn {addr : Nat} {connectionDetails : ConnectionDetails} :
    (addr, connectionDetails) ∈ s.marksOn index connection ↔
      ∃ m, s.assembled[addr]? = some m ∧ m.connectionDetails = connectionDetails ∧
        m.isOn index connection = true := by
  simp only [marksOn, assembledOn, List.mem_map, List.mem_filter, Prod.exists, Prod.mk.injEq,
    List.mem_zipIdx_iff_getElem?]
  constructor
  · rintro ⟨m, a, ⟨hm, hon⟩, rfl, rfl⟩
    exact ⟨m, hm, rfl, hon⟩
  · rintro ⟨m, hm, rfl, hon⟩
    exact ⟨m, addr, ⟨hm, hon⟩, rfl, rfl⟩

/-- An address is assembled once. -/
theorem marksOn_nodup (s : MessagePath) (index connection : Nat) :
    ((s.marksOn index connection).map Prod.fst).Nodup := by
  have hall : ((s.assembled.zipIdx).map Prod.snd).Nodup := by
    rw [List.zipIdx_map_snd]
    exact List.nodup_range'
  unfold marksOn assembledOn
  rw [List.map_map]
  exact hall.sublist (List.filter_sublist.map _)

/-- Connections share no address. -/
theorem isOn_unique {m : AssembledMsg} {index' connection' : Nat}
    (h : m.isOn index connection = true) (h' : m.isOn index' connection' = true) :
    index = index' ∧ connection = connection' := by
  simp only [AssembledMsg.isOn, decide_eq_true_eq] at h h'
  exact ⟨h.1.symm.trans h'.1, h.2.symm.trans h'.2⟩

/-- What was taken from the queues of a connection was taken in push order. -/
theorem onConnection_isPrefix {mux : MsgMultiplexer} (hroute : mux.Routing w.owner)
    {taken : List QueuedEvent} {waiting : Nat → List QueuedEvent}
    (hfifo : Fifo QueuedEvent.queueId mux.pushed taken waiting) :
    onConnection taken index connection <+: onConnection mux.pushed index connection := by
  cases hfirst : onConnection mux.pushed index connection with
  | nil =>
    rw [List.prefix_nil]
    apply List.eq_nil_iff_forall_not_mem.mpr
    intro e he
    obtain ⟨htaken, hon⟩ := List.mem_filter.mp he
    have hmem : e ∈ onConnection mux.pushed index connection :=
      List.mem_filter.mpr ⟨hfifo.mem_pushed_of_taken htaken, hon⟩
    rw [hfirst] at hmem
    cases hmem
  | cons first rest =>
    rw [← hfirst]
    have hon : first ∈ onConnection mux.pushed index connection := hfirst ▸ List.mem_cons_self
    obtain ⟨hpushed, hon⟩ := List.mem_filter.mp hon
    apply hfifo.taken_prefix_of_key first.queueId
    intro e he hon'
    simp only [decide_eq_true_eq] at hon hon'
    exact hroute.same e he first hpushed (hon'.1.trans hon.1.symm) (hon'.2.trans hon.2.symm)

theorem Inv.marks_prefix (h : s.Inv w) {taken : List QueuedEvent}
    {waiting : Nat → List QueuedEvent}
    (hfifo : Fifo QueuedEvent.queueId s.m_msgMultiplexer.pushed taken waiting) :
    messagesOn taken index connection <+: s.marksOn index connection := by
  rw [h.order]
  apply List.IsPrefix.trans ?_ (List.prefix_append _ _)
  exact ((onConnection_isPrefix h.mux.routing hfifo).filter _).map _

/-- A message that was pushed was assembled on its connection. -/
theorem Inv.assembled_of_pushed (h : s.Inv w) {e : QueuedEvent}
    (he : e ∈ messages s.m_msgMultiplexer.pushed) :
    ∃ m, s.assembled[e.event.m_msg]? = some m ∧
      m.connectionDetails = e.event.m_connectionDetails ∧
      m.isOn e.event.index e.connection = true := by
  apply mem_marksOn.mp
  rw [h.order]
  apply List.mem_append_left
  obtain ⟨hpushed, hmsg⟩ := List.mem_filter.mp he
  refine List.mem_map.mpr ⟨e, List.mem_filter.mpr ⟨List.mem_filter.mpr ⟨hpushed, ?_⟩, hmsg⟩, rfl⟩
  simp

theorem Inv.pushed_of_handled (h : s.Inv w) {e : QueuedEvent}
    (he : e ∈ messages s.m_msgMultiplexer.handled) :
    e ∈ messages s.m_msgMultiplexer.pushed := by
  obtain ⟨hhandled, hmsg⟩ := List.mem_filter.mp he
  exact List.mem_filter.mpr ⟨h.mux.order.fifo.mem_pushed_of_taken hhandled, hmsg⟩

/-- **Freed once**: no address is twice among the messages that were handled. -/
theorem Inv.freed_nodup (h : s.Inv w) : s.m_msgMultiplexer.freed.Nodup := by
  rw [h.freed, List.nodup_iff_sublist]
  intro addr htwice
  obtain ⟨both, hsub, hboth⟩ := List.sublist_map_iff.mp htwice
  obtain ⟨e, last, rfl, haddr, hlast⟩ := List.map_eq_cons_iff.mp hboth.symm
  obtain ⟨e', none, rfl, haddr', hnone⟩ := List.map_eq_cons_iff.mp hlast
  obtain rfl := List.map_eq_nil_iff.mp hnone
  have hmem := hsub.subset (List.mem_cons_self : e ∈ [e, e'])
  have hmem' := hsub.subset (List.mem_cons_of_mem e (List.mem_singleton_self e'))
  obtain ⟨m, hm, -, hon⟩ := h.assembled_of_pushed (h.pushed_of_handled hmem)
  obtain ⟨m', hm', -, hon'⟩ := h.assembled_of_pushed (h.pushed_of_handled hmem')
  -- both events are of the connection that the message was assembled on
  rw [haddr] at hm
  rw [haddr', hm] at hm'
  cases hm'
  obtain ⟨hindex, hconn⟩ := isOn_unique hon hon'
  have hpair : [e, e'].Sublist
      (messages (onConnection s.m_msgMultiplexer.handled e.event.index e.connection)) := by
    have hfilter := hsub.filter fun q : QueuedEvent =>
      (q.event.index = e.event.index ∧ q.connection = e.connection : Bool)
    simp only [List.filter_cons, ← hindex, ← hconn, and_self, decide_true, if_true,
      List.filter_nil] at hfilter
    unfold messages onConnection
    unfold messages at hfilter
    rw [List.filter_filter] at hfilter ⊢
    simpa [Bool.and_comm] using hfilter
  have hmarks := (hpair.map fun q : QueuedEvent => MsgEvent.mark q.event).trans
    (h.marks_prefix h.mux.order.fifo).sublist
  have hnodup := (s.marksOn_nodup _ _).sublist (hmarks.map Prod.fst)
  simp [MsgEvent.mark, haddr, haddr'] at hnodup

/-- The event that a worker comes to next waits at the front of its queue. -/
theorem nextMsgEvent_front {mux : MsgMultiplexer} {queueId : Nat} {e : QueuedEvent}
    (hnext : nextMsgEvent mux queueId = some e) :
    e.event.m_eventType = .ET_MSG ∧
      ∃ rest, (mux.m_msgQueues queueId).unhandled = e :: rest := by
  obtain ⟨hevent, hmsg⟩ := Option.filter_eq_some_iff.mp hnext
  refine ⟨by simpa using hmsg, ?_⟩
  unfold MsgServer.nextEvent at hevent
  split at hevent
  · rename_i done hworker
    exact ⟨_, unhandled_of_back hworker hevent⟩
  · cases hevent

/-- **No use after free**: the message that a worker comes to is there. -/
theorem Inv.message_there (h : s.Inv w) {queueId : Nat} {e : QueuedEvent}
    (hnext : nextMsgEvent s.m_msgMultiplexer queueId = some e) :
    ∃ msg, s.message? e.event.m_msg = some msg := by
  obtain ⟨hmsg, rest, hfront⟩ := nextMsgEvent_front hnext
  have hfifo := h.mux.order.fifo
  have hpushed : e ∈ messages s.m_msgMultiplexer.pushed := by
    refine List.mem_filter.mpr ⟨?_, by simpa using hmsg⟩
    exact (hfifo.mem_pushed_of_waiting (q := queueId) (hfront ▸ List.mem_cons_self)).1
  obtain ⟨m, hm, -, hon⟩ := h.assembled_of_pushed hpushed
  refine ⟨m.m_msg, ?_⟩
  unfold message?
  rw [if_neg ?_, hm]
  · rfl
  intro hfreed
  rw [h.freed] at hfreed
  obtain ⟨e', he', haddr⟩ := List.mem_map.mp hfreed
  obtain ⟨m', hm', -, hon'⟩ := h.assembled_of_pushed (h.pushed_of_handled he')
  rw [haddr, hm] at hm'
  cases hm'
  obtain ⟨hindex, hconn⟩ := isOn_unique hon hon'
  -- with the event taken as well its address would be twice among those assembled
  have hfirst : messagesOn (s.m_msgMultiplexer.handled ++ [e]) e.event.index e.connection <+:
      s.marksOn e.event.index e.connection := h.marks_prefix (hfifo.take hfront)
  rw [messagesOn_concat, if_pos ⟨hmsg, rfl, rfl⟩] at hfirst
  have hnodup := (s.marksOn_nodup _ _).sublist (hfirst.sublist.map Prod.fst)
  rw [List.map_append] at hnodup
  apply (List.nodup_append.mp hnodup).2.2 e'.event.m_msg ?_ e.event.m_msg (by simp [MsgEvent.mark])
    haddr
  apply List.mem_map.mpr
  refine ⟨MsgEvent.mark e'.event, List.mem_map.mpr ⟨e', ?_, rfl⟩, rfl⟩
  obtain ⟨hhandled, hmsg'⟩ := List.mem_filter.mp he'
  refine List.mem_filter.mpr ⟨List.mem_filter.mpr ⟨hhandled, ?_⟩, hmsg'⟩
  simp [hindex, hconn]

/-- Of some marks, the messages assembled at their addresses. -/
def lookUp (s : MessagePath) (marks : List (Nat × ConnectionDetails)) : List (Option Msg) :=
  marks.map fun mark => s.assembled[mark.1]?.map AssembledMsg.m_msg

theorem lookUp_marksOn (s : MessagePath) (index connection : Nat) :
    s.lookUp (s.marksOn index connection) = (s.framesOn index connection).map some := by
  have hmsgs : s.framesOn index connection =
      (s.assembledOn index connection).map fun m => m.1.m_msg := by
    unfold framesOn assembledOn
    have hfst := List.zipIdx_map_fst 0 s.assembled
    conv_lhs => rw [← hfst, List.filter_map, List.map_map]
    rfl
  rw [hmsgs]
  simp only [lookUp, marksOn, List.map_map]
  apply List.map_congr_left
  intro m hm
  have hget := List.mem_zipIdx_iff_getElem?.mp (List.mem_filter.mp hm).1
  simp [hget]

theorem Inv.lookUp_handled (h : s.Inv w) (index connection : Nat) :
    s.lookUp (messagesOn s.m_msgMultiplexer.handled index connection) =
      (s.dispatchedOn index connection).map some := by
  have hevents : messages (onConnection s.m_msgMultiplexer.handled index connection) =
      (s.dispatched.filter fun d =>
        d.event.event.index = index ∧ d.event.connection = connection).map Dispatched.event := by
    have hswap : messages (onConnection s.m_msgMultiplexer.handled index connection) =
        (messages s.m_msgMultiplexer.handled).filter fun e =>
          e.event.index = index ∧ e.connection = connection := by
      unfold messages onConnection
      rw [List.filter_filter, List.filter_filter]
      simp only [Bool.and_comm]
    rw [hswap, ← h.dispatched, List.filter_map]
    rfl
  unfold lookUp messagesOn dispatchedOn
  rw [hevents]
  simp only [List.map_map]
  apply List.map_congr_left
  intro d hd
  exact (h.read d (List.mem_filter.mp hd).1).assembled

/-- What was read on a connection is the beginning of what was assembled on it. -/
theorem Inv.dispatched_prefix (h : s.Inv w) (index connection : Nat) :
    s.dispatchedOn index connection <+: s.framesOn index connection := by
  have hfirst : s.lookUp (messagesOn s.m_msgMultiplexer.handled index connection) <+:
      s.lookUp (s.marksOn index connection) := (h.marks_prefix h.mux.order.fifo).map _
  rw [h.lookUp_handled, lookUp_marksOn] at hfirst
  have hunmap := hfirst.filterMap id
  simpa [List.filterMap_map] using hunmap

/-- When nothing waits, everything that was assembled has been handled. -/
theorem Inv.marks_of_drained (h : s.Inv w) (hdrained : s.Drained) (index connection : Nat) :
    messagesOn s.m_msgMultiplexer.handled index connection = s.marksOn index connection := by
  have hfifo := h.mux.order.fifo
  have hall : onConnection s.m_msgMultiplexer.handled index connection =
      onConnection s.m_msgMultiplexer.pushed index connection := by
    apply hfifo.taken_eq_pushed (onConnection_isPrefix h.mux.routing hfifo)
    intro queueId e he
    rw [hdrained.2 queueId] at he
    cases he
  rw [h.order, pendingOn_idle (hdrained.1 _), List.append_nil]
  unfold messagesOn
  rw [hall]

theorem Inv.dispatched_of_drained (h : s.Inv w) (hdrained : s.Drained) (index connection : Nat) :
    s.dispatchedOn index connection = s.framesOn index connection := by
  have hlook := congrArg s.lookUp (h.marks_of_drained hdrained index connection)
  rw [h.lookUp_handled, lookUp_marksOn] at hlook
  exact List.map_injective_iff.mpr (Option.some_injective _) hlook

theorem Inv.freed_of_drained (h : s.Inv w) (hdrained : s.Drained) :
    s.m_msgMultiplexer.freed.Perm (List.range s.assembled.length) := by
  rw [List.perm_ext_iff_of_nodup h.freed_nodup List.nodup_range]
  intro addr
  rw [List.mem_range, h.freed]
  constructor
  · intro hfreed
    obtain ⟨e, he, rfl⟩ := List.mem_map.mp hfreed
    obtain ⟨m, hm, -⟩ := h.assembled_of_pushed (h.pushed_of_handled he)
    exact (List.getElem?_eq_some_iff.mp hm).1
  · intro hlt
    have hmark : (addr, s.assembled[addr].connectionDetails) ∈
        s.marksOn s.assembled[addr].connectionDetails.m_connIndex s.assembled[addr].connection :=
      mem_marksOn.mpr ⟨s.assembled[addr], List.getElem?_eq_getElem hlt, rfl,
        by simp [AssembledMsg.isOn]⟩
    rw [← h.marks_of_drained hdrained] at hmark
    obtain ⟨e, he, heq⟩ := List.mem_map.mp hmark
    obtain ⟨hon, hmsg⟩ := List.mem_filter.mp he
    exact List.mem_map.mpr ⟨e, List.mem_filter.mpr ⟨(List.mem_filter.mp hon).1, hmsg⟩,
      congrArg Prod.fst heq⟩

end Ownership

/-- **Each message is read once and in order.**  Whatever bytes arrive and however the I/O tasks
    and the workers interleave: the messages that `MsgServer::onMsg` reads on a connection are the
    first of those assembled on it, in that order; each is read with the details of its connection
    and freed afterwards; no message is freed twice, and none that a worker comes to was freed.
    When nothing waits, all messages have been read and freed. -/
theorem messages_dispatched_once (w : Surroundings) (maxConnections concurrency : UInt32)
    (hpos : 1 ≤ concurrency) (events : List Event) (s : MessagePath)
    (hrun : RunsWith (stepOf (step w)) Raised (start w maxConnections concurrency) events s) :
    (∀ index connection, s.dispatchedOn index connection <+: s.framesOn index connection) ∧
    (∀ d ∈ s.dispatched, ∃ m, s.assembled[d.event.event.m_msg]? = some m ∧ m.m_msg = d.m_msg ∧
      m.connectionDetails = d.event.event.m_connectionDetails ∧
      ∃ listener, onMsg w.z w.byteOrder listener m.connectionDetails m.m_msg =
        .ok (.MSG_CAN_DELETE, d.calls)) ∧
    (∀ queueId e, nextMsgEvent s.m_msgMultiplexer queueId = some e →
      ∃ msg, s.message? e.event.m_msg = some msg) ∧
    s.m_msgMultiplexer.freed = s.dispatched.map (fun d => d.event.event.m_msg) ∧
    s.m_msgMultiplexer.freed.Nodup ∧
    (s.Drained →
      (∀ index connection, s.dispatchedOn index connection = s.framesOn index connection) ∧
      s.m_msgMultiplexer.freed.Perm (List.range s.assembled.length)) := by
  have hinv : s.Inv w := by
    apply hrun.invariant (Inv w)
    · exact fun t e t' ht he hstep => ht.step he hstep
    · exact start_inv w maxConnections concurrency hpos
  refine ⟨hinv.dispatched_prefix, ?_, fun _ _ => hinv.message_there, ?_, hinv.freed_nodup,
    fun hdrained => ⟨hinv.dispatched_of_drained hdrained, hinv.freed_of_drained hdrained⟩⟩
  · intro d hd
    have hevent : d.event ∈ messages s.m_msgMultiplexer.handled := by
      rw [← hinv.dispatched]
      exact List.mem_map_of_mem hd
    obtain ⟨m, hm, hdetails, -⟩ := hinv.assembled_of_pushed (hinv.pushed_of_handled hevent)
    obtain ⟨hmsg, listener, hcalls⟩ := hinv.read d hd
    rw [hm] at hmsg
    have heq : m.m_msg = d.m_msg := Option.some.inj hmsg
    exact ⟨m, hm, heq, hdetails, listener, by rw [hdetails, heq]; exact hcalls⟩
  · rw [hinv.freed, ← hinv.dispatched, List.map_map]
    rfl

/-- Two connections, each with an I/O task and a worker of its own, whose frames arrive in turn. -/
def twoConnections : List Event :=
  .onConnect ⟨7, 0⟩ 0 :: List.replicate 6 (.io 0) ++
    .onConnect ⟨8, 1⟩ 0 :: List.replicate 6 (.io 1) ++
    [.onBytesReceived 0 ⟨1, serialized .hostOrder ⟨.mk' 41 7 0 5 3, [9]⟩, by decide⟩,
      .onBytesReceived 1 ⟨1, serialized .hostOrder ⟨.mk' 41 7 0 6 3, [8]⟩, by decide⟩,
      .pass 1, .pass 0, .pass 0, .pass 1, .pass 1, .pass 0, .io 1, .io 0, .io 1, .io 0, .pass 1,
      .pass 0] ++
    List.replicate 3 (.worker 0 fun _ _ => .ok) ++ List.replicate 6 (.worker 1 fun _ _ => .ok) ++
    List.replicate 3 (.worker 0 fun _ _ => .ok)

/-- Their frames, from the sockets to the frame listener. -/
theorem messages_dispatched_once_two_connections :
    ∃ s : MessagePath, s.dispatchedOn 0 1 = [⟨.mk' 41 7 0 5 3, [9]⟩] ∧
      s.dispatchedOn 1 1 = [⟨.mk' 41 7 0 6 3, [8]⟩] ∧
      (∀ index connection, s.dispatchedOn index connection <+: s.framesOn index connection) ∧
      s.m_msgMultiplexer.freed = [0, 1] ∧ s.m_msgMultiplexer.freed.Nodup := by
  have hcomputed : (runWhere (step ⟨gzipOfTwo, .hostOrder, id, fun _ _ => true⟩) Raised
      (start ⟨gzipOfTwo, .hostOrder, id, fun _ _ => true⟩ 2 2) twoConnections).map
      (fun s => (s.dispatchedOn 0 1, s.dispatchedOn 1 1, s.m_msgMultiplexer.freed)) =
        some ([⟨.mk' 41 7 0 5 3, [9]⟩], [⟨.mk' 41 7 0 6 3, [8]⟩], [0, 1]) := by
    decide +kernel
  obtain ⟨s, hwhere, hs⟩ := Option.map_eq_some_iff.mp hcomputed
  simp only [Prod.mk.injEq] at hs
  obtain ⟨hfirst, hsecond, hfreed⟩ := hs
  obtain ⟨horder, -, -, -, hnodup, -⟩ :=
    messages_dispatched_once _ _ _ (by decide) _ _ (runsWith_of_runWhere hwhere)
  exact ⟨s, hfirst, hsecond, horder, hfreed, hnodup⟩

end MessagePath

end Commutil.Server
