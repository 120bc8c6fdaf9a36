import Commutil.Transport.DataServer
import Commutil.Library.FifoQueues

/-!
# The Message Multiplexer

`msg_multiplexer.cpp`: I/O tasks push events to queues, and one worker thread for each
queue hands them to the wrapped listener.

The threads interleave.  An I/O task loads and stores `m_nextQueue` and
`m_connectionMap` without a lock, so every such access is a step of its own; a queue is
changed under its lock, which a worker holds while it drains the queue.  A queued event
carries two stamps that the code does not read: its queue, and the number of the
connection it belongs to among the connections of its index.
-/

namespace Commutil.Server

open Commutil.Library
open Commutil.Transport

/-! ## §1 Events -/

/-- `enum class EventType`. -/
inductive EventType where
  | ET_CONNECT
  | ET_DISCONNECT
  | ET_MSG
  | ET_STOP
  deriving DecidableEq, Repr

/-- `struct MsgEvent`; a message is named by its address. -/
structure MsgEvent where
  m_eventType : EventType
  m_connectionDetails : ConnectionDetails
  m_msg : Nat
  deriving DecidableEq, Repr

/-- The connection index of an event. -/
def MsgEvent.index (evt : MsgEvent) : Nat := evt.m_connectionDetails.m_connIndex

/-- `enum class MsgAction`: what a listener says about a message it has seen. -/
inductive MsgAction where
  | MSG_CAN_DELETE
  | MSG_CANNOT_DELETE
  deriving DecidableEq, Repr

/-- A call of the `MsgListener` interface. -/
inductive ListenerCall where
  | onConnect (connectionDetails : ConnectionDetails) (status : Int)
  | onDisconnect (connectionDetails : ConnectionDetails)
  | onMsg (connectionDetails : ConnectionDetails) (msg : Nat) (canSaveMsg : Bool)
  deriving DecidableEq, Repr

/-- `(Msg*)(int64_t)status`. -/
def statusToMsg (status : Int) : Nat := (status % 2 ^ 64).toNat

/-- `(int)(int64_t)msg`. -/
def msgToStatus (msg : Nat) : Int := Int.bmod msg (2 ^ 32)

/-- `MsgMultiplexer::handleEvt`: the call that is made, and whether the worker is to stop. -/
def handleEvt (evt : MsgEvent) : Option ListenerCall × Bool :=
  match evt.m_eventType with
  | .ET_CONNECT => (some (.onConnect evt.m_connectionDetails (msgToStatus evt.m_msg)), false)
  | .ET_DISCONNECT => (some (.onDisconnect evt.m_connectionDetails), false)
  | .ET_MSG => (some (.onMsg evt.m_connectionDetails evt.m_msg true), false)
  | .ET_STOP => (none, true)

/-- The messages that `handleEvt` frees, by what the listener answers. -/
def freedBy (evt : MsgEvent) (action : MsgAction) : List Nat :=
  if evt.m_eventType = .ET_MSG ∧ action = .MSG_CAN_DELETE then [evt.m_msg] else []

/-- An event in a queue, with the queue and the connection it belongs to. -/
structure QueuedEvent where
  event : MsgEvent
  queueId : Nat
  connection : Nat
  deriving DecidableEq, Repr

/-! ## §2 The threads -/

/-- Where an I/O task is: before every access of `m_nextQueue` and `m_connectionMap` that
    `assignQueueId` and `pushEvent` make, and before the lock of a queue. -/
inductive IoPc where
  | idle
  | loadNext (evt : MsgEvent)
  | loadNextAgain (evt : MsgEvent) (queueId : Nat)
  | storeNext (evt : MsgEvent) (queueId next : Nat)
  | storeMap (evt : MsgEvent) (queueId : Nat)
  | loadMap (evt : MsgEvent)
  | enqueue (evt : MsgEvent) (queueId : Nat)
  deriving DecidableEq, Repr

/-- Where a worker is in `msgTask`; it holds the lock of its queue while it drains and handles.
    `done` is the variable of the source. -/
inductive WorkerPc where
  | waiting
  | draining (done : Bool)
  /-- `handleEvt` runs for the event at the back of the queue, which is popped afterwards. -/
  | handling (done : Bool)
  | ended
  deriving DecidableEq, Repr

/-- `struct MsgQueue` and its worker; the newest event comes first. -/
structure MsgQueue where
  m_eventQueue : List QueuedEvent
  worker : WorkerPc
  deriving DecidableEq, Repr

/-- Whether `m_lock` is free. -/
def MsgQueue.unlocked (queue : MsgQueue) : Bool :=
  match queue.worker with
  | .waiting => true
  | .draining _ => false
  | .handling _ => false
  | .ended => true

/-- The events of a queue for which `handleEvt` has not been called, oldest first. -/
def MsgQueue.unhandled (queue : MsgQueue) : List QueuedEvent :=
  match queue.worker with
  | .handling _ => queue.m_eventQueue.dropLast.reverse
  | _ => queue.m_eventQueue.reverse

/-- `class MsgMultiplexer` with its threads.  `m_msgQueues` has `m_concurrency` elements.  `pushed`
    and `handled` record every event that entered a queue and every event for which `handleEvt` was
    called, `calls` what the wrapped listener saw, and `freed` the messages given back. -/
structure MsgMultiplexer where
  m_concurrency : Nat
  m_nextQueue : Nat
  m_connectionMap : List Nat
  m_msgQueues : Nat → MsgQueue
  io : Nat → IoPc
  pushed : List QueuedEvent
  handled : List QueuedEvent
  calls : List ListenerCall
  freed : List Nat

namespace MsgMultiplexer

/-- `MsgMultiplexer::initialize` and `start`. -/
def start (maxConnections concurrency : UInt32) : MsgMultiplexer where
  m_concurrency := concurrency.toNat
  m_nextQueue := 0
  m_connectionMap := List.replicate maxConnections.toNat (2 ^ 32 - 1)
  m_msgQueues := fun _ => ⟨[], .waiting⟩
  io := fun _ => .idle
  pushed := []
  handled := []
  calls := []
  freed := []

/-- The number of connections of an index that have been pushed so far. -/
def connections (pushed : List QueuedEvent) (index : Nat) : Nat :=
  pushed.countP fun e => e.event.m_eventType = .ET_CONNECT ∧ e.event.index = index

/-- The connection an event belongs to when it is pushed: an `onConnect` begins the next one. -/
def connectionOf (pushed : List QueuedEvent) (evt : MsgEvent) : Nat :=
  if evt.m_eventType = .ET_CONNECT then connections pushed evt.index + 1
  else connections pushed evt.index

/-- An I/O task goes on. -/
def setIo (s : MsgMultiplexer) (task : Nat) (pc : IoPc) : MsgMultiplexer :=
  { s with io := Function.update s.io task pc }

/-- A queue written. -/
def setQueue (s : MsgMultiplexer) (queueId : Nat) (queue : MsgQueue) : MsgMultiplexer :=
  { s with m_msgQueues := Function.update s.m_msgQueues queueId queue }

/-- `push_front` on a queue. -/
def pushFront (s : MsgMultiplexer) (queueId : Nat) (evt : MsgEvent) : MsgMultiplexer :=
  let queue := s.m_msgQueues queueId
  let e : QueuedEvent := ⟨evt, queueId, connectionOf s.pushed evt⟩
  { s.setQueue queueId { queue with m_eventQueue := e :: queue.m_eventQueue } with
    pushed := s.pushed ++ [e] }

/-- The next step of an I/O task inside `assignQueueId` or `pushEvent`, if it is not blocked. -/
def ioStep (s : MsgMultiplexer) (task : Nat) : Option MsgMultiplexer :=
  match s.io task with
  | .idle => none
  | .loadNext evt => some (s.setIo task (.loadNextAgain evt s.m_nextQueue))
  | .loadNextAgain evt queueId =>
    if s.m_concurrency = 0 then none
    else
      let next := (s.m_nextQueue + 1) % 2 ^ 32 % s.m_concurrency
      some (s.setIo task (.storeNext evt queueId next))
  | .storeNext evt queueId next =>
    some { s.setIo task (.storeMap evt queueId) with m_nextQueue := next }
  | .storeMap evt queueId =>
    -- the cast to 32 bits is in `onConnect`
    if evt.index % 2 ^ 32 < s.m_connectionMap.length then
      some { s.setIo task (.loadMap evt) with
        m_connectionMap := s.m_connectionMap.set (evt.index % 2 ^ 32) queueId }
    else none
  | .loadMap evt =>
    match s.m_connectionMap[evt.index]? with
    | none => none
    | some queueId => some (s.setIo task (.enqueue evt queueId))
  | .enqueue evt queueId =>
    if queueId < s.m_concurrency ∧ (s.m_msgQueues queueId).unlocked then
      some ((s.setIo task .idle).pushFront queueId evt)
    else none

/-- `handleEvt` is called for the event at the back of a queue. -/
def handleBack (s : MsgMultiplexer) (queueId : Nat) (e : QueuedEvent) (action : MsgAction) :
    MsgMultiplexer :=
  { s.setQueue queueId { s.m_msgQueues queueId with worker := .handling (handleEvt e.event).2 } with
    handled := s.handled ++ [e]
    calls := s.calls ++ (handleEvt e.event).1.toList
    freed := s.freed ++ freedBy e.event action }

/-- The next step of a worker; `action` is what the listener answers if it is called. -/
def workerStep (s : MsgMultiplexer) (queueId : Nat) (action : MsgAction) :
    Option MsgMultiplexer :=
  let queue := s.m_msgQueues queueId
  match queue.worker with
  | .waiting =>
    if queue.m_eventQueue.isEmpty then none
    else some (s.setQueue queueId { queue with worker := .draining false })
  | .draining done =>
    match queue.m_eventQueue.getLast? with
    | none => some (s.setQueue queueId { queue with worker := if done then .ended else .waiting })
    | some e => some (s.handleBack queueId e action)
  | .handling done =>
    some (s.setQueue queueId ⟨queue.m_eventQueue.dropLast, .draining done⟩)
  | .ended => none

/-- What can happen: a call of the listener interface by an I/O task, a step inside such a call, a
    step of a worker, or `stop` reaching a queue. -/
inductive Event where
  | onConnect (task : Nat) (connectionDetails : ConnectionDetails) (status : Int)
  | onDisconnect (task : Nat) (connectionDetails : ConnectionDetails)
  | onMsg (task : Nat) (connectionDetails : ConnectionDetails) (msg : Nat) (canSaveMsg : Bool)
  | io (task : Nat)
  | worker (queueId : Nat) (action : MsgAction)
  | stop (queueId : Nat)
  deriving DecidableEq, Repr

/-- One step, if it is possible. -/
def step (s : MsgMultiplexer) : Event → Option MsgMultiplexer
  | .onConnect task connectionDetails status =>
    if s.io task = .idle then
      if status = 0 then
        some (s.setIo task (.loadNext ⟨.ET_CONNECT, connectionDetails, statusToMsg status⟩))
      else some s
    else none
  | .onDisconnect task connectionDetails =>
    if s.io task = .idle then
      some (s.setIo task (.loadMap ⟨.ET_DISCONNECT, connectionDetails, 0⟩))
    else none
  | .onMsg task connectionDetails msg canSaveMsg =>
    if s.io task = .idle then
      -- a message that cannot be kept is dropped
      if canSaveMsg then some (s.setIo task (.loadMap ⟨.ET_MSG, connectionDetails, msg⟩))
      else some s
    else none
  | .io task => s.ioStep task
  | .worker queueId action =>
    if queueId < s.m_concurrency then s.workerStep queueId action else none
  | .stop queueId =>
    if queueId < s.m_concurrency ∧ (s.m_msgQueues queueId).unlocked then
      some (s.pushFront queueId ⟨.ET_STOP, ⟨0, queueId⟩, 0⟩)
    else none

/-- The number of queues does not change. -/
theorem concurrency_step {s s' : MsgMultiplexer} {e : Event} (hstep : s.step e = some s') :
    s'.m_concurrency = s.m_concurrency := by
  cases e with
  | io task =>
    simp only [step, ioStep] at hstep
    repeat' split at hstep
    all_goals cases hstep
    all_goals rfl
  | worker queueId action =>
    simp only [step, workerStep] at hstep
    repeat' split at hstep
    all_goals cases hstep
    all_goals rfl
  | _ =>
    simp only [step] at hstep
    repeat' split at hstep
    all_goals cases hstep
    all_goals rfl

/-- What the data server promises: an index is in range and belongs to one I/O task, and a message or
    a disconnect comes after a connect on its index.  `stop` is not called. -/
def Raised (owner : Nat → Nat) (s : MsgMultiplexer) : Event → Prop
  | .onConnect task connectionDetails _ =>
    owner connectionDetails.m_connIndex = task ∧
      connectionDetails.m_connIndex < s.m_connectionMap.length
  | .onDisconnect task connectionDetails =>
    owner connectionDetails.m_connIndex = task ∧
      0 < connections s.pushed connectionDetails.m_connIndex
  | .onMsg task connectionDetails _ _ =>
    owner connectionDetails.m_connIndex = task ∧
      0 < connections s.pushed connectionDetails.m_connIndex
  | .stop _ => False
  | _ => True

/-! ## §3 Where events are routed -/

/-- An event that an I/O task may be busy with: the index is one of its own and in range. -/
def Owns (owner : Nat → Nat) (s : MsgMultiplexer) (task : Nat) (evt : MsgEvent) : Prop :=
  owner evt.index = task ∧ evt.index < s.m_connectionMap.length ∧ evt.m_eventType ≠ .ET_STOP

/-- The queue of an index. -/
def QueueOf (s : MsgMultiplexer) (index queueId : Nat) : Prop :=
  s.m_connectionMap[index]? = some queueId ∧ queueId < s.m_concurrency

/-- What an I/O task knows inside a call: the queue it has chosen exists, and once it goes to push
    the event, the index has a queue. -/
def PcOk (owner : Nat → Nat) (s : MsgMultiplexer) (task : Nat) : IoPc → Prop
  | .idle => True
  | .loadNext evt => s.Owns owner task evt ∧ evt.m_eventType = .ET_CONNECT
  | .loadNextAgain evt queueId | .storeMap evt queueId =>
    s.Owns owner task evt ∧ evt.m_eventType = .ET_CONNECT ∧ queueId < s.m_concurrency
  | .storeNext evt queueId next =>
    s.Owns owner task evt ∧ evt.m_eventType = .ET_CONNECT ∧ queueId < s.m_concurrency ∧
      next < s.m_concurrency
  | .loadMap evt => s.Owns owner task evt ∧ ∃ queueId, s.QueueOf evt.index queueId
  | .enqueue evt queueId => s.Owns owner task evt ∧ s.QueueOf evt.index queueId

/-- The index has been given its next queue, and the `onConnect` is still to be pushed. -/
def Announcing : IoPc → Nat → Prop
  | .loadMap evt, index | .enqueue evt _, index =>
    evt.m_eventType = .ET_CONNECT ∧ evt.index = index
  | _, _ => False

/-- **Routing.**  All events of one connection go to one queue, which is the queue of the index for
    as long as the connection is the latest one. -/
structure Routing (owner : Nat → Nat) (s : MsgMultiplexer) : Prop where
  concurrency : 0 < s.m_concurrency
  next : s.m_nextQueue < s.m_concurrency
  capacity : s.m_connectionMap.length < 2 ^ 32
  task : ∀ task, s.PcOk owner task (s.io task)
  queue : ∀ index, 0 < connections s.pushed index → ∃ queueId, s.QueueOf index queueId
  range : ∀ e ∈ s.pushed, e.queueId < s.m_concurrency ∧ e.event.m_eventType ≠ .ET_STOP
  latest : ∀ e ∈ s.pushed, e.connection ≤ connections s.pushed e.event.index
  current : ∀ index, ¬ Announcing (s.io (owner index)) index →
    ∀ e ∈ s.pushed, e.event.index = index → e.connection = connections s.pushed index →
      s.m_connectionMap[index]? = some e.queueId
  same : ∀ e ∈ s.pushed, ∀ e' ∈ s.pushed, e.event.index = e'.event.index →
    e.connection = e'.connection → e.queueId = e'.queueId
  sorted : s.pushed.Pairwise fun e e' => e.event.index = e'.event.index →
    e.connection ≤ e'.connection

theorem start_routing (owner : Nat → Nat) (maxConnections concurrency : UInt32)
    (hpos : 1 ≤ concurrency) : Routing owner (start maxConnections concurrency) where
  concurrency := by
    have h : (1 : UInt32).toNat ≤ concurrency.toNat := UInt32.le_iff_toNat_le.mp hpos
    exact h
  next := by
    have h : (1 : UInt32).toNat ≤ concurrency.toNat := UInt32.le_iff_toNat_le.mp hpos
    exact h
  capacity := by
    simpa [start] using maxConnections.toNat_lt
  task := fun _ => trivial
  queue := fun _ h => absurd h (Nat.lt_irrefl 0)
  range := nofun
  latest := nofun
  current := fun _ _ => nofun
  same := nofun
  sorted := .nil

section Steps

variable {owner : Nat → Nat} {s : MsgMultiplexer} {task : Nat}

@[simp] theorem setIo_io_self (pc : IoPc) : (s.setIo task pc).io task = pc :=
  Function.update_self ..

theorem setIo_io_ne (pc : IoPc) {other : Nat} (h : other ≠ task) :
    (s.setIo task pc).io other = s.io other :=
  Function.update_of_ne h ..

/-- A step of an I/O task that only reads. -/
theorem Routing.setIo (h : s.Routing owner) {pc : IoPc} (hok : s.PcOk owner task pc)
    (hkeep : ∀ index, Announcing (s.io task) index → Announcing pc index) :
    Routing owner (s.setIo task pc) := by
  refine ⟨h.concurrency, h.next, h.capacity, ?_, h.queue, h.range, h.latest, ?_, h.same,
    h.sorted⟩
  · intro other
    by_cases hne : other = task
    · subst hne
      rw [setIo_io_self]
      cases pc <;> exact hok
    · rw [setIo_io_ne pc hne]
      have hother := h.task other
      revert hother
      cases s.io other <;> exact id
  · intro index hann
    apply h.current index
    intro hold
    apply hann
    by_cases hne : owner index = task
    · rw [hne] at hold ⊢
      rw [setIo_io_self]
      exact hkeep index hold
    · rw [setIo_io_ne pc hne]
      exact hold

/-- What an I/O task knows rests on the map and the number of queues. -/
theorem PcOk.of_eq {t : MsgMultiplexer} {pc : IoPc} (hok : s.PcOk owner task pc)
    (hmap : t.m_connectionMap = s.m_connectionMap) (hconc : t.m_concurrency = s.m_concurrency) :
    t.PcOk owner task pc := by
  revert hok
  cases pc <;> simp only [PcOk, Owns, QueueOf, hmap, hconc] <;> exact id

/-- Another task is busy with another index. -/
theorem PcOk.storeMap {t : MsgMultiplexer} {pc : IoPc} (hok : s.PcOk owner task pc)
    {index queueId : Nat} (hne : owner index ≠ task)
    (hmap : t.m_connectionMap = s.m_connectionMap.set index queueId)
    (hconc : t.m_concurrency = s.m_concurrency) : t.PcOk owner task pc := by
  have howns : ∀ {evt : MsgEvent}, s.Owns owner task evt → t.Owns owner task evt := by
    intro evt ho
    refine ⟨ho.1, ?_, ho.2.2⟩
    rw [hmap, List.length_set]
    exact ho.2.1
  have hqueue : ∀ {evt : MsgEvent} {q : Nat}, s.Owns owner task evt → s.QueueOf evt.index q →
      t.QueueOf evt.index q := by
    intro evt q ho hq
    have hother : index ≠ evt.index := fun heq => hne (heq ▸ ho.1)
    refine ⟨?_, hconc ▸ hq.2⟩
    rw [hmap, List.getElem?_set_ne hother]
    exact hq.1
  cases pc with
  | idle => trivial
  | loadNext evt => exact ⟨howns hok.1, hok.2⟩
  | loadNextAgain evt q => exact ⟨howns hok.1, hok.2.1, hconc ▸ hok.2.2⟩
  | storeNext evt q next => exact ⟨howns hok.1, hok.2.1, hconc ▸ hok.2.2.1, hconc ▸ hok.2.2.2⟩
  | storeMap evt q => exact ⟨howns hok.1, hok.2.1, hconc ▸ hok.2.2⟩
  | loadMap evt =>
    obtain ⟨q, hq⟩ := hok.2
    exact ⟨howns hok.1, q, hqueue hok.1 hq⟩
  | enqueue evt q => exact ⟨howns hok.1, hqueue hok.1 hok.2⟩

/-- `assignQueueId` stores the queue of an index. -/
theorem Routing.storeMap (h : s.Routing owner) {evt : MsgEvent} {queueId : Nat}
    (hpc : s.io task = .storeMap evt queueId) :
    Routing owner { s.setIo task (.loadMap evt) with
      m_connectionMap := s.m_connectionMap.set evt.index queueId } := by
  have hok := h.task task
  rw [hpc] at hok
  obtain ⟨⟨howner, hrange, hstop⟩, hconnect, hlt⟩ := hok
  have hself : (s.m_connectionMap.set evt.index queueId)[evt.index]? = some queueId :=
    List.getElem?_set_self hrange
  refine ⟨h.concurrency, h.next, ?_, ?_, ?_, h.range, h.latest, ?_, h.same, h.sorted⟩
  · rw [List.length_set]
    exact h.capacity
  · intro other
    by_cases hne : other = task
    · subst hne
      simp only [setIo_io_self]
      refine ⟨⟨howner, ?_, hstop⟩, queueId, hself, hlt⟩
      rw [List.length_set]
      exact hrange
    · simp only [setIo_io_ne _ hne]
      exact (h.task other).storeMap (fun heq => hne (heq.symm.trans howner)) rfl rfl
  · intro index hcount
    by_cases hindex : evt.index = index
    · subst hindex
      exact ⟨queueId, hself, hlt⟩
    · obtain ⟨q, hq, hqlt⟩ := h.queue index hcount
      refine ⟨q, ?_, hqlt⟩
      simp only [List.getElem?_set_ne hindex]
      exact hq
  · intro index hann e he heq hcur
    -- the index itself is being announced from now on
    have hindex : evt.index ≠ index := by
      intro heq'
      subst heq'
      apply hann
      simp only [howner, setIo_io_self]
      exact ⟨hconnect, rfl⟩
    simp only [List.getElem?_set_ne hindex]
    refine h.current index (fun hold => hann ?_) e he heq hcur
    by_cases hne : owner index = task
    · rw [hne, hpc] at hold
      exact hold.elim
    · simp only [setIo_io_ne _ hne]
      exact hold

theorem connections_concat_ne (pushed : List QueuedEvent) {e : QueuedEvent} {index : Nat}
    (h : e.event.index ≠ index) :
    connections (pushed ++ [e]) index = connections pushed index := by
  simp [connections, h]

theorem connections_concat_self (pushed : List QueuedEvent) (e : QueuedEvent) :
    connections (pushed ++ [e]) e.event.index = connectionOf pushed e.event := by
  unfold connections connectionOf
  by_cases hconnect : e.event.m_eventType = .ET_CONNECT
  · simp [connections, hconnect]
  · simp [connections, hconnect]

theorem connections_le_connectionOf (pushed : List QueuedEvent) (evt : MsgEvent) :
    connections pushed evt.index ≤ connectionOf pushed evt := by
  unfold connectionOf
  split
  · exact Nat.le_succ _
  · exact Nat.le_refl _

/-- The event that is pushed shares its connection with events of its own queue only. -/
theorem Routing.pushed_same (h : s.Routing owner) {evt : MsgEvent} {queueId : Nat}
    (hpc : s.io task = .enqueue evt queueId) {e : QueuedEvent} (he : e ∈ s.pushed)
    (hindex : e.event.index = evt.index) (hconn : e.connection = connectionOf s.pushed evt) :
    e.queueId = queueId := by
  have hok := h.task task
  rw [hpc] at hok
  obtain ⟨⟨howner, -, -⟩, hqueue, -⟩ := hok
  have hle := h.latest e he
  unfold connectionOf at hconn
  split at hconn
  · -- an `onConnect` begins a connection of its own
    rw [hindex] at hle
    omega
  · rename_i hconnect
    have hcur : s.m_connectionMap[evt.index]? = some e.queueId := by
      apply h.current evt.index ?_ e he hindex hconn
      rw [howner, hpc]
      exact fun hann => hconnect hann.1
    rw [hqueue] at hcur
    exact (Option.some.inj hcur).symm

/-- `pushEvent` pushes the event. -/
theorem Routing.enqueue (h : s.Routing owner) {evt : MsgEvent} {queueId : Nat}
    (hpc : s.io task = .enqueue evt queueId) :
    Routing owner ((s.setIo task .idle).pushFront queueId evt) := by
  have hsame := fun e => h.pushed_same hpc (e := e)
  have hok := h.task task
  rw [hpc] at hok
  obtain ⟨⟨howner, hrange, hstop⟩, hqueue, hlt⟩ := hok
  have hself := connections_concat_self s.pushed ⟨evt, queueId, connectionOf s.pushed evt⟩
  refine ⟨h.concurrency, h.next, h.capacity, ?_, ?_, ?_, ?_, ?_, ?_, ?_⟩
  · -- task, queue, range, latest, current, same, sorted
    intro other
    by_cases hne : other = task
    · subst hne
      have hidle : ((s.setIo other .idle).pushFront queueId evt).io other = .idle :=
        setIo_io_self _
      rw [hidle]
      trivial
    · have hother : ((s.setIo task .idle).pushFront queueId evt).io other = s.io other :=
        setIo_io_ne _ hne
      rw [hother]
      exact (h.task other).of_eq rfl rfl
  · -- an index with a connection has its queue in the map
    intro index hcount
    by_cases hindex : evt.index = index
    · subst hindex
      exact ⟨queueId, hqueue, hlt⟩
    · apply h.queue index
      rw [← connections_concat_ne s.pushed (e := ⟨evt, queueId, connectionOf s.pushed evt⟩) hindex]
      exact hcount
  · intro e he
    rcases List.mem_append.mp he with hold | hnew
    · exact h.range e hold
    · obtain rfl := List.mem_singleton.mp hnew
      exact ⟨hlt, hstop⟩
  · -- the connection of the event is the latest of its index
    intro e he
    rcases List.mem_append.mp he with hold | hnew
    · by_cases hindex : evt.index = e.event.index
      · have hle := h.latest e hold
        have hgrow := connections_le_connectionOf s.pushed evt
        rw [← hindex] at hle ⊢
        exact Nat.le_trans (Nat.le_trans hle hgrow) (Nat.le_of_eq hself.symm)
      · have heq := connections_concat_ne s.pushed
          (e := ⟨evt, queueId, connectionOf s.pushed evt⟩) hindex
        exact Nat.le_trans (h.latest e hold) (Nat.le_of_eq heq.symm)
    · obtain rfl := List.mem_singleton.mp hnew
      exact Nat.le_of_eq hself.symm
  · -- what belongs to the current connection is in the queue of the map
    intro index hann e he hindex hcur
    by_cases hevt : evt.index = index
    · subst hevt
      rw [show connections ((s.setIo task .idle).pushFront queueId evt).pushed evt.index =
        connectionOf s.pushed evt from hself] at hcur
      rcases List.mem_append.mp he with hold | hnew
      · rw [hsame e hold hindex hcur]
        exact hqueue
      · obtain rfl := List.mem_singleton.mp hnew
        exact hqueue
    · have hcount : connections ((s.setIo task .idle).pushFront queueId evt).pushed index =
          connections s.pushed index := connections_concat_ne s.pushed hevt
      rw [hcount] at hcur
      -- another index: nothing has changed for it
      rcases List.mem_append.mp he with hold | hnew
      · refine h.current index (fun hbusy => hann ?_) e hold hindex hcur
        by_cases hne : owner index = task
        · rw [hne, hpc] at hbusy
          exact absurd hbusy.2 hevt
        · have hother : ((s.setIo task .idle).pushFront queueId evt).io (owner index) =
              s.io (owner index) := setIo_io_ne _ hne
          rw [hother]
          exact hbusy
      · obtain rfl := List.mem_singleton.mp hnew
        exact absurd hindex hevt
  · -- two events of one connection are in one queue
    intro e he e' he' hindex hconn
    rcases List.mem_append.mp he with hold | hnew
    · rcases List.mem_append.mp he' with hold' | hnew'
      · exact h.same e hold e' hold' hindex hconn
      · obtain rfl := List.mem_singleton.mp hnew'
        exact hsame e hold hindex hconn
    · obtain rfl := List.mem_singleton.mp hnew
      rcases List.mem_append.mp he' with hold' | hnew'
      · exact (hsame e' hold' hindex.symm hconn.symm).symm
      · obtain rfl := List.mem_singleton.mp hnew'
        rfl
  · -- events of an index come in the order of its connections
    refine List.pairwise_append.mpr ⟨h.sorted, List.pairwise_singleton _ _, ?_⟩
    intro e he e' he' hindex
    obtain rfl := List.mem_singleton.mp he'
    have hle := h.latest e he
    rw [hindex] at hle
    exact Nat.le_trans hle (connections_le_connectionOf s.pushed evt)

end Steps

/-! ## §4 In which order events are handled -/

/-- **Order.**  Every queue is first-in-first-out, and every event that is handled is one call of the
    wrapped listener. -/
structure Order (s : MsgMultiplexer) : Prop where
  fifo : Fifo QueuedEvent.queueId s.pushed s.handled fun q => (s.m_msgQueues q).unhandled
  calls : s.calls.map some = s.handled.map fun e => (handleEvt e.event).1

theorem start_order (maxConnections concurrency : UInt32) :
    Order (start maxConnections concurrency) :=
  ⟨Fifo.nil _, rfl⟩

section Queues

variable {s : MsgMultiplexer} {queueId : Nat}

/-- What waits after a queue was written. -/
theorem unhandled_setQueue (queue : MsgQueue) :
    (fun q => ((s.setQueue queueId queue).m_msgQueues q).unhandled) =
      Function.update (fun q => (s.m_msgQueues q).unhandled) queueId queue.unhandled := by
  funext q
  by_cases hq : q = queueId
  · subst hq
    simp [setQueue]
  · simp [setQueue, hq]

/-- A step of a worker that handles nothing. -/
theorem Order.setQueue (h : s.Order) {queue : MsgQueue}
    (hsame : queue.unhandled = (s.m_msgQueues queueId).unhandled) :
    Order (s.setQueue queueId queue) := by
  refine ⟨?_, h.calls⟩
  rw [unhandled_setQueue, hsame, Function.update_eq_self queueId]
  exact h.fifo

/-- An event is pushed to a queue that is not locked. -/
theorem Order.pushFront (h : s.Order) (hunlocked : (s.m_msgQueues queueId).unlocked)
    (evt : MsgEvent) : Order (s.pushFront queueId evt) := by
  refine ⟨?_, h.calls⟩
  have hpush := h.fifo.push ⟨evt, queueId, connectionOf s.pushed evt⟩
  have hqueue : ∀ e : QueuedEvent, MsgQueue.unhandled
      { s.m_msgQueues queueId with m_eventQueue := e :: (s.m_msgQueues queueId).m_eventQueue } =
      (s.m_msgQueues queueId).unhandled ++ [e] := by
    intro e
    revert hunlocked
    obtain ⟨queue, worker⟩ := s.m_msgQueues queueId
    intro hunlocked
    cases worker with
    | handling done => cases hunlocked
    | _ => simp [MsgQueue.unhandled]
  have hwait : (fun q => ((s.pushFront queueId evt).m_msgQueues q).unhandled) =
      Function.update (fun q => (s.m_msgQueues q).unhandled) queueId
        ((s.m_msgQueues queueId).unhandled ++ [⟨evt, queueId, connectionOf s.pushed evt⟩]) := by
    rw [← hqueue]
    exact unhandled_setQueue _
  rw [hwait]
  exact hpush

/-- The oldest event is the first that waits. -/
theorem unhandled_of_back {queue : MsgQueue} {done : Bool} {e : QueuedEvent}
    (hworker : queue.worker = .draining done) (hback : queue.m_eventQueue.getLast? = some e) :
    queue.unhandled = e :: queue.m_eventQueue.dropLast.reverse := by
  obtain ⟨rest, hrest⟩ := List.getLast?_eq_some_iff.mp hback
  simp [MsgQueue.unhandled, hworker, hrest]

/-- `handleEvt` is called for the oldest event. -/
theorem Order.handleBack (h : s.Order) {done : Bool} {e : QueuedEvent} (action : MsgAction)
    (hworker : (s.m_msgQueues queueId).worker = .draining done)
    (hback : (s.m_msgQueues queueId).m_eventQueue.getLast? = some e)
    (hstop : e.event.m_eventType ≠ .ET_STOP) : Order (s.handleBack queueId e action) := by
  have htake := h.fifo.take (unhandled_of_back hworker hback)
  refine ⟨?_, ?_⟩
  · have hwait : (fun q => ((s.handleBack queueId e action).m_msgQueues q).unhandled) =
        Function.update (fun q => (s.m_msgQueues q).unhandled) queueId
          (s.m_msgQueues queueId).m_eventQueue.dropLast.reverse :=
      unhandled_setQueue _
    rw [hwait]
    exact htake
  · obtain ⟨call, hcall⟩ : ∃ call, (handleEvt e.event).1 = some call := by
      unfold handleEvt
      split
      · exact ⟨_, rfl⟩
      · exact ⟨_, rfl⟩
      · exact ⟨_, rfl⟩
      · rename_i hevt
        exact absurd hevt hstop
    simp only [MsgMultiplexer.handleBack, List.map_append, h.calls, hcall, Option.toList_some,
      List.map_cons, List.map_nil]

end Queues

/-- The invariant of the multiplexer. -/
structure Inv (owner : Nat → Nat) (s : MsgMultiplexer) : Prop where
  routing : s.Routing owner
  order : s.Order

section Inversion

variable {owner : Nat → Nat} {s s' : MsgMultiplexer}

/-- A change of the queues and the logs of the workers does not touch the routing. -/
theorem Routing.of_worker {t : MsgMultiplexer} (h : s.Routing owner)
    (hconc : t.m_concurrency = s.m_concurrency) (hnext : t.m_nextQueue = s.m_nextQueue)
    (hmap : t.m_connectionMap = s.m_connectionMap) (hio : t.io = s.io)
    (hpushed : t.pushed = s.pushed) : t.Routing owner := by
  refine ⟨?_, ?_, ?_, ?_, ?_, ?_, ?_, ?_, ?_, ?_⟩
  · exact hconc ▸ h.concurrency
  · rw [hconc, hnext]
    exact h.next
  · rw [hmap]
    exact h.capacity
  · intro task
    rw [hio]
    exact (h.task task).of_eq hmap hconc
  · simp only [QueueOf, hpushed, hmap, hconc]
    exact h.queue
  · rw [hpushed, hconc]
    exact h.range
  · rw [hpushed]
    exact h.latest
  · rw [hpushed, hmap, hio]
    exact h.current
  · rw [hpushed]
    exact h.same
  · rw [hpushed]
    exact h.sorted

/-- A step of an I/O task keeps the invariant. -/
theorem Inv.ioStep (h : s.Inv owner) {task : Nat} (hstep : s.ioStep task = some s') :
    s'.Inv owner := by
  have hok := h.routing.task task
  unfold MsgMultiplexer.ioStep at hstep
  split at hstep
  · cases hstep
  · -- `m_nextQueue` is read for the queue of the connection
    rename_i evt hpc
    cases hstep
    rw [hpc] at hok
    refine ⟨h.routing.setIo ⟨hok.1, hok.2, h.routing.next⟩ ?_, ⟨h.order.fifo, h.order.calls⟩⟩
    rw [hpc]
    exact fun _ hann => hann.elim
  · -- it is read once more for the next one
    rename_i evt queueId hpc
    rw [hpc] at hok
    split at hstep
    · cases hstep
    · cases hstep
      refine ⟨h.routing.setIo ⟨hok.1, hok.2.1, hok.2.2, ?_⟩ ?_, ⟨h.order.fifo, h.order.calls⟩⟩
      · exact Nat.mod_lt _ h.routing.concurrency
      · rw [hpc]
        exact fun _ hann => hann.elim
  · -- the next one is stored
    rename_i evt queueId next hpc
    cases hstep
    rw [hpc] at hok
    have hpc' : s.PcOk owner task (.storeMap evt queueId) := ⟨hok.1, hok.2.1, hok.2.2.1⟩
    have hset : Routing owner (s.setIo task (.storeMap evt queueId)) := by
      apply h.routing.setIo hpc'
      rw [hpc]
      exact fun _ hann => hann.elim
    refine ⟨⟨hset.concurrency, hok.2.2.2, hset.capacity, ?_, hset.queue, hset.range, hset.latest,
      hset.current, hset.same, hset.sorted⟩, ⟨h.order.fifo, h.order.calls⟩⟩
    exact fun other => (hset.task other).of_eq rfl rfl
  · rename_i evt queueId hpc
    rw [hpc] at hok
    -- an index below the capacity survives the cast
    have hcast : evt.index % 2 ^ 32 = evt.index :=
      Nat.mod_eq_of_lt (Nat.lt_trans hok.1.2.1 h.routing.capacity)
    rw [hcast] at hstep
    split at hstep
    · cases hstep
      exact ⟨h.routing.storeMap hpc, ⟨h.order.fifo, h.order.calls⟩⟩
    · cases hstep
  · -- the queue of the index is read from the map
    rename_i evt hpc
    rw [hpc] at hok
    split at hstep
    · cases hstep
    · rename_i queueId hmap
      cases hstep
      obtain ⟨q, hq⟩ := hok.2
      obtain rfl : queueId = q := Option.some.inj (hmap.symm.trans hq.1)
      refine ⟨h.routing.setIo ⟨hok.1, hq⟩ ?_, ⟨h.order.fifo, h.order.calls⟩⟩
      rw [hpc]
      exact fun _ hann => hann
  · -- the event is pushed while the queue is not locked
    rename_i evt queueId hpc
    split at hstep
    · rename_i hcan
      cases hstep
      have hquiet : Order (s.setIo task .idle) := ⟨h.order.fifo, h.order.calls⟩
      exact ⟨h.routing.enqueue hpc, hquiet.pushFront hcan.2 evt⟩
    · cases hstep

/-- A step of a worker keeps the invariant. -/
theorem Inv.workerStep (h : s.Inv owner) {queueId : Nat} {action : MsgAction}
    (hstep : s.workerStep queueId action = some s') : s'.Inv owner := by
  simp only [MsgMultiplexer.workerStep] at hstep
  split at hstep
  · rename_i hworker
    split at hstep
    · cases hstep
    · cases hstep
      refine ⟨h.routing.of_worker rfl rfl rfl rfl rfl, h.order.setQueue ?_⟩
      simp [MsgQueue.unhandled, hworker]
  · rename_i done hworker
    split at hstep
    · cases hstep
      refine ⟨h.routing.of_worker rfl rfl rfl rfl rfl, h.order.setQueue ?_⟩
      cases done <;> simp [MsgQueue.unhandled, hworker]
    · rename_i e hback
      cases hstep
      have hpushed : e ∈ s.pushed := by
        apply (h.order.fifo.mem_pushed_of_waiting (q := queueId) ?_).1
        rw [unhandled_of_back hworker hback]
        exact List.mem_cons_self
      exact ⟨h.routing.of_worker rfl rfl rfl rfl rfl,
        h.order.handleBack action hworker hback (h.routing.range e hpushed).2⟩
  · rename_i done hworker
    cases hstep
    refine ⟨h.routing.of_worker rfl rfl rfl rfl rfl, h.order.setQueue ?_⟩
    simp [MsgQueue.unhandled, hworker]
  · cases hstep

/-- A call that the data server may make keeps the invariant, as does every step of a thread. -/
theorem Inv.step (h : s.Inv owner) {e : Event} (he : s.Raised owner e)
    (hstep : s.step e = some s') : s'.Inv owner := by
  -- a task that begins a call was idle, so it announced nothing
  have hbegin : ∀ {task : Nat} {pc : IoPc}, s.io task = .idle → s.PcOk owner task pc →
      (s.setIo task pc).Inv owner := by
    intro task pc hidle hok
    refine ⟨h.routing.setIo hok ?_, ⟨h.order.fifo, h.order.calls⟩⟩
    rw [hidle]
    exact fun _ hann => hann.elim
  -- an index with a connection has a queue
  have hmapped : ∀ {index : Nat}, 0 < connections s.pushed index →
      index < s.m_connectionMap.length ∧ ∃ queueId, s.QueueOf index queueId := by
    intro index hpos
    obtain ⟨queueId, hqueue⟩ := h.routing.queue index hpos
    exact ⟨(List.getElem?_eq_some_iff.mp hqueue.1).1, queueId, hqueue⟩
  cases e with
  -- the first call for a connection
  | onConnect task connectionDetails status =>
    simp only [MsgMultiplexer.step] at hstep
    split at hstep
    · rename_i hidle
      split at hstep
      · cases hstep
        exact hbegin hidle ⟨⟨he.1, he.2, nofun⟩, rfl⟩
      · cases hstep
        exact h
    · cases hstep
  -- the later calls find its queue in the map
  | onDisconnect task connectionDetails =>
    simp only [MsgMultiplexer.step] at hstep
    split at hstep
    · rename_i hidle
      cases hstep
      have hmap := hmapped he.2
      exact hbegin hidle ⟨⟨he.1, hmap.1, nofun⟩, hmap.2⟩
    · cases hstep
  | onMsg task connectionDetails msg canSaveMsg =>
    simp only [MsgMultiplexer.step] at hstep
    split at hstep
    · rename_i hidle
      split at hstep
      · cases hstep
        have hmap := hmapped he.2
        exact hbegin hidle ⟨⟨he.1, hmap.1, nofun⟩, hmap.2⟩
      · cases hstep
        exact h
    · cases hstep
  | io task => exact h.ioStep hstep
  | worker queueId action =>
    simp only [MsgMultiplexer.step] at hstep
    split at hstep
    · exact h.workerStep hstep
    · cases hstep
  | stop queueId => exact he.elim

end Inversion

/-- The events of a log that belong to one connection of an index. -/
def onConnection (log : List QueuedEvent) (index connection : Nat) : List QueuedEvent :=
  log.filter fun e => e.event.index = index ∧ e.connection = connection

/-- The events of one connection are handled in push order, by the worker of their queue. -/
theorem Inv.handled_onConnection {owner : Nat → Nat} {s : MsgMultiplexer} (h : s.Inv owner)
    (index connection : Nat) :
    onConnection s.handled index connection <+: onConnection s.pushed index connection := by
  cases hfirst : onConnection s.pushed index connection with
  | nil =>
    -- what was handled has been pushed
    rw [List.prefix_nil]
    apply List.eq_nil_iff_forall_not_mem.mpr
    intro e he
    have hmem : e ∈ onConnection s.pushed index connection := by
      obtain ⟨hhandled, hon⟩ := List.mem_filter.mp he
      exact List.mem_filter.mpr ⟨h.order.fifo.mem_pushed_of_taken hhandled, hon⟩
    rw [hfirst] at hmem
    cases hmem
  | cons first rest =>
    rw [← hfirst]
    have hon : first ∈ onConnection s.pushed index connection := hfirst ▸ List.mem_cons_self
    obtain ⟨hpushed, hfirst_on⟩ := List.mem_filter.mp hon
    apply h.order.fifo.taken_prefix_of_key first.queueId
    intro e he hon_e
    simp only [decide_eq_true_eq] at hfirst_on hon_e
    exact h.routing.same e he first hpushed (hon_e.1.trans hfirst_on.1.symm)
      (hon_e.2.trans hfirst_on.2.symm)

/-- **Per-connection order.**  Whatever the threads do, the events of a connection are handed to the
    wrapped listener in the order in which they were pushed, each of them once and all by the same
    worker, and no I/O task uses a queue that does not exist.

    The two logs are compared with their stamps, so that a prefix of the pushed events was also
    handled by the workers of the queues they were pushed to. -/
theorem events_handled_in_push_order (maxConnections concurrency : UInt32)
    (hpos : 1 ≤ concurrency) (owner : Nat → Nat) (events : List Event) (s : MsgMultiplexer)
    (hrun : RunsWith (stepOf step) (Raised owner) (start maxConnections concurrency) events s) :
    (∀ index connection,
      onConnection s.handled index connection <+: onConnection s.pushed index connection ∧
      ∃ worker < concurrency.toNat, ∀ e ∈ onConnection s.handled index connection,
        e.queueId = worker) ∧
    s.calls.map some = s.handled.map (fun e => (handleEvt e.event).1) ∧
    (∀ e ∈ s.pushed, e.queueId < concurrency.toNat) ∧
    ∀ task evt queueId, s.io task = .enqueue evt queueId → queueId < concurrency.toNat := by
  -- the invariant of the run, and a concurrency that no step changes
  have hinv : s.Inv owner ∧ s.m_concurrency = concurrency.toNat := by
    apply hrun.invariant fun t => t.Inv owner ∧ t.m_concurrency = concurrency.toNat
    · intro t e t' ht he hstep
      exact ⟨ht.1.step he hstep, (concurrency_step hstep).trans ht.2⟩
    · exact ⟨⟨start_routing owner maxConnections concurrency hpos,
        start_order maxConnections concurrency⟩, rfl⟩
  obtain ⟨hinv, hconc⟩ := hinv
  rw [← hconc]
  refine ⟨?_, hinv.order.calls, fun e he => (hinv.routing.range e he).1, ?_⟩
  · intro index connection
    refine ⟨hinv.handled_onConnection index connection, ?_⟩
    cases hhandled : onConnection s.handled index connection with
    | nil => exact ⟨0, hinv.routing.concurrency, nofun⟩
    | cons first rest =>
      -- all events of one connection have the queue of the first
      rw [← hhandled]
      have hpushed : ∀ {e : QueuedEvent}, e ∈ onConnection s.handled index connection →
          e ∈ s.pushed ∧ e.event.index = index ∧ e.connection = connection := by
        intro e he
        obtain ⟨hmem, hon⟩ := List.mem_filter.mp he
        exact ⟨hinv.order.fifo.mem_pushed_of_taken hmem, by simpa using hon⟩
      obtain ⟨hmem, hindex, hconn⟩ := hpushed (hhandled ▸ List.mem_cons_self)
      refine ⟨first.queueId, (hinv.routing.range first hmem).1, ?_⟩
      intro e he
      obtain ⟨hmem', hindex', hconn'⟩ := hpushed he
      exact hinv.routing.same e hmem' first hmem (hindex'.trans hindex.symm)
        (hconn'.trans hconn.symm)
  · -- an event that is about to be pushed has its queue already
    intro task evt queueId hpc
    have hok := hinv.routing.task task
    rw [hpc] at hok
    exact hok.2.2

/-- A connection and a message of it pass through the first of two queues. -/
theorem events_handled_in_push_order_one_connection :
    ∃ s, RunsWith (stepOf step) (Raised fun _ => 0) (start 1 2)
        [.onConnect 0 ⟨7, 0⟩ 0, .io 0, .io 0, .io 0, .io 0, .io 0, .io 0,
          .onMsg 0 ⟨7, 0⟩ 1000 true, .io 0, .io 0,
          .worker 0 .MSG_CAN_DELETE, .worker 0 .MSG_CAN_DELETE, .worker 0 .MSG_CAN_DELETE,
          .worker 0 .MSG_CAN_DELETE] s ∧
      s.calls = [.onConnect ⟨7, 0⟩ 0, .onMsg ⟨7, 0⟩ 1000 true] ∧
      onConnection s.handled 0 1 <+: onConnection s.pushed 0 1 := by
  have hrun : ∃ s, RunsWith (stepOf step) (Raised fun _ => 0) (start 1 2)
      [.onConnect 0 ⟨7, 0⟩ 0, .io 0, .io 0, .io 0, .io 0, .io 0, .io 0,
        .onMsg 0 ⟨7, 0⟩ 1000 true, .io 0, .io 0,
        .worker 0 .MSG_CAN_DELETE, .worker 0 .MSG_CAN_DELETE, .worker 0 .MSG_CAN_DELETE,
        .worker 0 .MSG_CAN_DELETE] s ∧
      s.calls = [.onConnect ⟨7, 0⟩ 0, .onMsg ⟨7, 0⟩ 1000 true] :=
    ⟨_, .cons ⟨rfl, by decide⟩ rfl (.cons trivial rfl (.cons trivial rfl (.cons trivial rfl
      (.cons trivial rfl (.cons trivial rfl (.cons trivial rfl (.cons ⟨rfl, by decide⟩ rfl
      (.cons trivial rfl (.cons trivial rfl (.cons trivial rfl (.cons trivial rfl
      (.cons trivial rfl (.cons trivial rfl (.nil _)))))))))))))), by decide +kernel⟩
  obtain ⟨s, hs, hcalls⟩ := hrun
  exact ⟨s, hs, hcalls,
    ((events_handled_in_push_order 1 2 (by decide) (fun _ => 0) _ s hs).1 0 1).1⟩

end MsgMultiplexer

end Commutil.Server
