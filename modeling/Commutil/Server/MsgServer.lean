import Commutil.Server.MsgMultiplexer

/-!
# Sessions of the Message Server

`MsgServer::onConnect` and `onDisconnect` of `msg_server.cpp`, called by the workers of
the multiplexer.  The session table has no lock: a handler loads the slot of its
connection index and stores to it later, and the handlers of different workers
interleave between the two.

A slot follows the connections of its index as long as the workers do not overtake each
other, that is, as long as no worker begins an event of an index while an event of an
earlier connection of the index is still in another queue.
-/

namespace Commutil.Server

open Commutil.Library
open Commutil.Transport

/-! ## §1 The handlers -/

/-- `class MsgSession`. -/
structure MsgSession where
  m_sessionId : UInt64
  m_connectionId : UInt64
  m_connectionIndex : Nat
  deriving DecidableEq, Repr

namespace MsgSession

/-- `MsgSessionFactory::createMsgSession`, when the allocation succeeds. -/
def create (sessionId : UInt64) (connectionDetails : ConnectionDetails) : MsgSession where
  m_sessionId := sessionId
  m_connectionId := connectionDetails.m_connId
  m_connectionIndex := connectionDetails.m_connIndex

/-- The connection a session was created for. -/
def details (session : MsgSession) : ConnectionDetails :=
  ⟨session.m_connectionId, session.m_connectionIndex⟩

end MsgSession

/-- Where a worker is inside a listener call: before every access of `m_sessions`, and before the
    session is created. -/
inductive ListenerPc where
  | returned
  /-- `onConnect` is about to load the slot. -/
  | onConnect (connectionDetails : ConnectionDetails)
  /-- The slot was empty. -/
  | create (connectionDetails : ConnectionDetails)
  | store (connectionDetails : ConnectionDetails) (session : MsgSession)
  /-- `onDisconnect` is about to load the slot. -/
  | onDisconnect (connectionDetails : ConnectionDetails)
  /-- The session was found, shown to the session listener and deleted. -/
  | clear (connectionDetails : ConnectionDetails)
  deriving DecidableEq, Repr

/-- A listener call begins.  A failed connection is refused at once, and `onMsg` does not use the
    session table. -/
def ListenerPc.call : Option ListenerCall → ListenerPc
  | some (.onConnect connectionDetails status) =>
    if status ≠ 0 then .returned else .onConnect connectionDetails
  | some (.onDisconnect connectionDetails) => .onDisconnect connectionDetails
  | some (.onMsg _ _ _) => .returned
  | none => .returned

/-- The connection a handler works for. -/
def ListenerPc.details? : ListenerPc → Option ConnectionDetails
  | .returned => none
  | .onConnect connectionDetails => some connectionDetails
  | .create connectionDetails => some connectionDetails
  | .store connectionDetails _ => some connectionDetails
  | .onDisconnect connectionDetails => some connectionDetails
  | .clear connectionDetails => some connectionDetails

/-- Whether a session is created next. -/
def ListenerPc.creates : ListenerPc → Bool
  | .create _ => true
  | _ => false

theorem ListenerPc.returned_of_details {pc : ListenerPc} (h : pc.details? = none) :
    pc = .returned := by
  cases pc with
  | returned => rfl
  | _ => cases h

/-- `class MsgServer` with its multiplexer and what its workers do. -/
structure MsgServer where
  m_msgMultiplexer : MsgMultiplexer
  m_sessions : List (Option MsgSession)
  m_nextSessionId : UInt64
  workers : Nat → ListenerPc

namespace MsgServer

/-- `MsgServer::initialize` and `start`. -/
def start (maxConnections concurrency : UInt32) : MsgServer where
  m_msgMultiplexer := MsgMultiplexer.start maxConnections concurrency
  m_sessions := List.replicate maxConnections.toNat none
  m_nextSessionId := 0
  workers := fun _ => .returned

/-- A worker goes on inside its listener call. -/
def setWorker (s : MsgServer) (worker : Nat) (pc : ListenerPc) : MsgServer :=
  { s with workers := Function.update s.workers worker pc }

theorem setWorker_self {s : MsgServer} {worker : Nat} (pc : ListenerPc) :
    (s.setWorker worker pc).workers worker = pc :=
  Function.update_self ..

theorem setWorker_ne {s : MsgServer} {worker other : Nat} (h : other ≠ worker) (pc : ListenerPc) :
    (s.setWorker worker pc).workers other = s.workers other :=
  Function.update_of_ne h ..

/-- The next step of a listener call; `allocated` says whether a session can be allocated. -/
def listenerStep (s : MsgServer) (worker : Nat) (allocated : Bool) : Option MsgServer :=
  match s.workers worker with
  | .returned => none
  | .onConnect connectionDetails =>
    match s.m_sessions[connectionDetails.m_connIndex]? with
    | none => none
    | some (some _) => some (s.setWorker worker .returned)
    | some none => some (s.setWorker worker (.create connectionDetails))
  | .create connectionDetails =>
    let s' := { s with m_nextSessionId := s.m_nextSessionId + 1 }
    if allocated then
      some (s'.setWorker worker
        (.store connectionDetails (.create s.m_nextSessionId connectionDetails)))
    else some (s'.setWorker worker .returned)
  | .store connectionDetails session =>
    some { s.setWorker worker .returned with
      m_sessions := s.m_sessions.set connectionDetails.m_connIndex (some session) }
  | .onDisconnect connectionDetails =>
    match s.m_sessions[connectionDetails.m_connIndex]? with
    | none => none
    | some none => some (s.setWorker worker .returned)
    | some (some _) => some (s.setWorker worker (.clear connectionDetails))
  | .clear connectionDetails =>
    some { s.setWorker worker .returned with
      m_sessions := s.m_sessions.set connectionDetails.m_connIndex none }

/-- The event for which the next step of a worker calls `handleEvt`. -/
def nextEvent (s : MsgMultiplexer) (queueId : Nat) : Option QueuedEvent :=
  match (s.m_msgQueues queueId).worker with
  | .draining _ => (s.m_msgQueues queueId).m_eventQueue.getLast?
  | _ => none

/-- A step of the multiplexer, or of a worker inside a listener call. -/
inductive Event where
  | multiplexer (event : MsgMultiplexer.Event)
  | listener (worker : Nat) (allocated : Bool)
  deriving DecidableEq, Repr

/-- One step, if it is possible: a worker leaves `handleEvt` when the listener has returned. -/
def step (s : MsgServer) : Event → Option MsgServer
  | .multiplexer (.worker queueId action) =>
    if s.workers queueId = .returned then
      match s.m_msgMultiplexer.step (.worker queueId action) with
      | none => none
      | some multiplexer =>
        let call := (nextEvent s.m_msgMultiplexer queueId).bind fun e => (handleEvt e.event).1
        some { s.setWorker queueId (.call call) with m_msgMultiplexer := multiplexer }
    else none
  | .multiplexer event =>
    match s.m_msgMultiplexer.step event with
    | none => none
    | some multiplexer => some { s with m_msgMultiplexer := multiplexer }
  | .listener worker allocated => s.listenerStep worker allocated

end MsgServer

/-! ## §2 The connection that is live on an index -/

/-- The connection that is live after an event of the index. -/
def liveAfter (live : Option ConnectionDetails) (e : QueuedEvent) : Option ConnectionDetails :=
  match e.event.m_eventType with
  | .ET_CONNECT => some e.event.m_connectionDetails
  | .ET_DISCONNECT => none
  | _ => live

/-- The events of an index. -/
def onIndex (log : List QueuedEvent) (index : Nat) : List QueuedEvent :=
  log.filter fun e => e.event.index = index

/-- The connection that is live on an index after some events. -/
def live (log : List QueuedEvent) (index : Nat) : Option ConnectionDetails :=
  (onIndex log index).foldl liveAfter none

/-- A successful connect comes while nothing is live, a disconnect while something is. -/
def InTurn (live : Option ConnectionDetails) (evt : MsgEvent) : Prop :=
  (evt.m_eventType = .ET_CONNECT → live = none ∧ msgToStatus evt.m_msg = 0) ∧
    (evt.m_eventType = .ET_DISCONNECT → live ≠ none)

/-- Connects and disconnects alternate in the events of an index. -/
def Alternating (events : List QueuedEvent) : Prop :=
  ∀ before e, before ++ [e] <+: events → InTurn (before.foldl liveAfter none) e.event

theorem Alternating.concat {events : List QueuedEvent} (h : Alternating events) {e : QueuedEvent}
    (he : InTurn (events.foldl liveAfter none) e.event) : Alternating (events ++ [e]) := by
  intro before e' hpre
  cases List.prefix_concat_iff.mp hpre with
  | inl heq =>
    obtain ⟨hbefore, hlast⟩ := List.append_inj' heq rfl
    obtain rfl : e' = e := by simpa using hlast
    rw [hbefore]
    exact he
  | inr hbefore => exact h before e' hbefore

theorem onIndex_concat_self (log : List QueuedEvent) (e : QueuedEvent) :
    onIndex (log ++ [e]) e.event.index = onIndex log e.event.index ++ [e] := by
  simp [onIndex, List.filter_append]

theorem onIndex_concat_ne (log : List QueuedEvent) {e : QueuedEvent} {index : Nat}
    (h : e.event.index ≠ index) : onIndex (log ++ [e]) index = onIndex log index := by
  simp [onIndex, List.filter_append, h]

theorem live_concat_self (log : List QueuedEvent) (e : QueuedEvent) :
    live (log ++ [e]) e.event.index = liveAfter (live log e.event.index) e := by
  simp [live, onIndex_concat_self, List.foldl_append]

theorem live_concat_ne (log : List QueuedEvent) {e : QueuedEvent} {index : Nat}
    (h : e.event.index ≠ index) : live (log ++ [e]) index = live log index := by
  simp [live, onIndex_concat_ne log h]

/-- The event an I/O task is busy with. -/
def IoPc.event? : IoPc → Option MsgEvent
  | .idle => none
  | .loadNext evt => some evt
  | .loadNextAgain evt _ => some evt
  | .storeNext evt _ _ => some evt
  | .storeMap evt _ => some evt
  | .loadMap evt => some evt
  | .enqueue evt _ => some evt

namespace MsgMultiplexer

/-- Connects and disconnects alternate in what was pushed, and in what is about to be. -/
structure Alternates (s : MsgMultiplexer) : Prop where
  task : ∀ task evt, (s.io task).event? = some evt → InTurn (live s.pushed evt.index) evt
  pushed : ∀ index, Alternating (onIndex s.pushed index)

/-- The data server raises a connect only for an index that is not connected, and a disconnect only
    for one that is. -/
def RaisedInTurn (s : MsgMultiplexer) : Event → Prop
  | .onConnect _ connectionDetails status =>
    status = 0 → live s.pushed connectionDetails.m_connIndex = none
  | .onDisconnect _ connectionDetails => live s.pushed connectionDetails.m_connIndex ≠ none
  | .stop _ => False
  | _ => True

theorem start_alternates (maxConnections concurrency : UInt32) :
    Alternates (start maxConnections concurrency) := by
  refine ⟨fun _ _ => nofun, fun index before e hpre => ?_⟩
  have hnil : before ++ [e] = [] := List.prefix_nil.mp hpre
  simp at hnil

section Steps

variable {owner : Nat → Nat} {s s' : MsgMultiplexer} {task : Nat}

/-- An I/O task is busy with an index of its own. -/
theorem Routing.owner_of_busy (h : s.Routing owner) {evt : MsgEvent}
    (hevt : (s.io task).event? = some evt) : owner evt.index = task := by
  have hok := h.task task
  revert hevt hok
  cases s.io task with
  | idle => exact nofun
  | loadNext evt' | loadNextAgain evt' _ | storeNext evt' _ _ | storeMap evt' _ | loadMap evt'
  | enqueue evt' _ =>
    intro hevt hok
    cases hevt
    exact hok.1.1

/-- An I/O task goes on with an event that is in turn. -/
theorem Alternates.setIo (h : s.Alternates) {pc : IoPc}
    (hpc : ∀ evt, pc.event? = some evt → InTurn (live s.pushed evt.index) evt) :
    Alternates (s.setIo task pc) := by
  refine ⟨fun other evt hevt => ?_, h.pushed⟩
  by_cases hne : other = task
  · subst hne
    rw [setIo_io_self] at hevt
    exact hpc evt hevt
  · rw [setIo_io_ne pc hne] at hevt
    exact h.task other evt hevt

/-- The event that is pushed was in turn, and the other tasks are busy with other indices. -/
theorem Alternates.enqueue (h : s.Alternates) (hroute : s.Routing owner) {evt : MsgEvent}
    {queueId : Nat} (hpc : s.io task = .enqueue evt queueId) :
    Alternates ((s.setIo task .idle).pushFront queueId evt) := by
  have hturn : InTurn (live s.pushed evt.index) evt := h.task task evt (by rw [hpc]; rfl)
  refine ⟨fun other evt' hevt => ?_, fun index => ?_⟩
  · by_cases hne : other = task
    · subst hne
      have hidle : ((s.setIo other .idle).pushFront queueId evt).io other = .idle :=
        setIo_io_self _
      rw [hidle] at hevt
      cases hevt
    · have hother : ((s.setIo task .idle).pushFront queueId evt).io other = s.io other :=
        setIo_io_ne _ hne
      rw [hother] at hevt
      have hindex : evt.index ≠ evt'.index := by
        intro heq
        apply hne
        rw [← hroute.owner_of_busy hevt, ← heq]
        exact hroute.owner_of_busy (by rw [hpc]; rfl)
      have hlive := live_concat_ne s.pushed
        (e := ⟨evt, queueId, connectionOf s.pushed evt⟩) hindex
      have hold := h.task other evt' hevt
      rw [← hlive] at hold
      exact hold
  · by_cases hindex : evt.index = index
    · subst hindex
      have hself := onIndex_concat_self s.pushed ⟨evt, queueId, connectionOf s.pushed evt⟩
      have halt := (h.pushed evt.index).concat
        (e := ⟨evt, queueId, connectionOf s.pushed evt⟩) hturn
      rw [← hself] at halt
      exact halt
    · have hother := onIndex_concat_ne s.pushed
        (e := ⟨evt, queueId, connectionOf s.pushed evt⟩) hindex
      have halt := h.pushed index
      rw [← hother] at halt
      exact halt

/-- A worker leaves the I/O tasks and what they pushed alone. -/
theorem worker_frame {queueId : Nat} {action : MsgAction}
    (hstep : s.step (.worker queueId action) = some s') : s'.io = s.io ∧ s'.pushed = s.pushed := by
  simp only [MsgMultiplexer.step, workerStep] at hstep
  repeat' split at hstep
  all_goals cases hstep
  all_goals exact ⟨rfl, rfl⟩

/-- A step that the data server may make keeps the alternation. -/
theorem Alternates.step (h : s.Alternates) (hroute : s.Routing owner) {e : Event}
    (he : s.RaisedInTurn e) (hstep : s.step e = some s') : s'.Alternates := by
  -- inside a call a task stays with the event it began with
  have hstay : ∀ {task : Nat} {pc : IoPc}, pc.event? = (s.io task).event? →
      Alternates (s.setIo task pc) := by
    intro task pc hpc
    apply h.setIo
    intro evt hevt
    exact h.task task evt (hpc ▸ hevt)
  -- a task begins with an event only in the turn of its index
  cases e with
  | onConnect task connectionDetails status =>
    simp only [MsgMultiplexer.step] at hstep
    split at hstep
    · split at hstep
      · rename_i hstatus
        cases hstep
        apply h.setIo
        intro evt hevt
        cases hevt
        have hcast : msgToStatus (statusToMsg status) = 0 := by
          -- the status survives the cast into the event
          rw [hstatus]
          decide
        exact ⟨fun _ => ⟨he hstatus, hcast⟩, by rintro ⟨⟩⟩
      · cases hstep
        exact h
    · cases hstep
  | onDisconnect task connectionDetails =>
    simp only [MsgMultiplexer.step] at hstep
    split at hstep
    · cases hstep
      apply h.setIo
      intro evt hevt
      cases hevt
      exact ⟨by rintro ⟨⟩, fun _ => he⟩
    · cases hstep
  | onMsg task connectionDetails msg canSaveMsg =>
    simp only [MsgMultiplexer.step] at hstep
    split at hstep
    · split at hstep
      · cases hstep
        apply h.setIo
        intro evt hevt
        cases hevt
        exact ⟨by rintro ⟨⟩, by rintro ⟨⟩⟩
      · cases hstep
        exact h
    · cases hstep
  -- the steps inside a call
  | io task =>
    simp only [MsgMultiplexer.step, MsgMultiplexer.ioStep] at hstep
    split at hstep
    · cases hstep
    · rename_i evt hpc
      cases hstep
      exact hstay (by rw [hpc]; rfl)
    · rename_i evt queueId hpc
      split at hstep
      · cases hstep
      · cases hstep
        exact hstay (by rw [hpc]; rfl)
    · rename_i evt queueId next hpc
      cases hstep
      have hset : Alternates (s.setIo task (.storeMap evt queueId)) := hstay (by rw [hpc]; rfl)
      exact ⟨hset.task, hset.pushed⟩
    · rename_i evt queueId hpc
      split at hstep
      · cases hstep
        have hset : Alternates (s.setIo task (.loadMap evt)) := hstay (by rw [hpc]; rfl)
        exact ⟨hset.task, hset.pushed⟩
      · cases hstep
    · rename_i evt hpc
      split at hstep
      · cases hstep
      · cases hstep
        exact hstay (by rw [hpc]; rfl)
    · -- the event is pushed, in the turn that it was raised in
      rename_i evt queueId hpc
      split at hstep
      · cases hstep
        exact h.enqueue hroute hpc
      · cases hstep
  | worker queueId action =>
    obtain ⟨hio, hpushed⟩ := worker_frame hstep
    refine ⟨?_, ?_⟩
    · rw [hio, hpushed]
      exact h.task
    · rw [hpushed]
      exact h.pushed
  | stop queueId => exact he.elim

end Steps

end MsgMultiplexer

/-! ## §3 The session table follows the connections -/

namespace MsgMultiplexer

variable {s s' : MsgMultiplexer}

/-- An I/O task handles nothing and does not touch a queue that is locked. -/
theorem locked_frame {e : Event} (hstep : s.step e = some s')
    (he : ∀ queueId action, e ≠ .worker queueId action) :
    s'.handled = s.handled ∧
      ∀ q, (s.m_msgQueues q).unlocked = false → s'.m_msgQueues q = s.m_msgQueues q := by
  have hpush : ∀ {t : MsgMultiplexer} {queueId : Nat} {evt : MsgEvent}, t.handled = s.handled →
      t.m_msgQueues = s.m_msgQueues → (t.m_msgQueues queueId).unlocked = true →
      (t.pushFront queueId evt).handled = s.handled ∧ ∀ q, (s.m_msgQueues q).unlocked = false →
        (t.pushFront queueId evt).m_msgQueues q = s.m_msgQueues q := by
    intro t queueId evt hhandled hqueues hunlocked
    refine ⟨hhandled, fun q hlocked => ?_⟩
    have hne : q ≠ queueId := by
      intro heq
      rw [hqueues, ← heq, hlocked] at hunlocked
      cases hunlocked
    rw [← hqueues]
    exact Function.update_of_ne hne ..
  cases e with
  | worker queueId action => exact absurd rfl (he queueId action)
  | io task =>
    simp only [step, ioStep] at hstep
    split at hstep
    case h_7 evt queueId hpc =>
      split at hstep
      · rename_i hcan
        cases hstep
        exact hpush rfl rfl hcan.2
      · cases hstep
    all_goals
      repeat' split at hstep
      all_goals cases hstep
      all_goals exact ⟨rfl, fun _ _ => rfl⟩
  | stop queueId =>
    simp only [step] at hstep
    split at hstep
    · rename_i hcan
      cases hstep
      exact hpush rfl rfl hcan.2
    · cases hstep
  | _ =>
    simp only [step] at hstep
    repeat' split at hstep
    all_goals cases hstep
    all_goals exact ⟨rfl, fun _ _ => rfl⟩

/-- What was pushed stays. -/
theorem pushed_mono {e : Event} (hstep : s.step e = some s') : s.pushed <+: s'.pushed := by
  cases e with
  | io task =>
    simp only [step, ioStep] at hstep
    repeat' split at hstep
    all_goals cases hstep
    all_goals first | exact List.prefix_refl _ | exact List.prefix_append _ _
  | worker queueId action =>
    simp [(worker_frame hstep).2]
  | _ =>
    simp only [step] at hstep
    repeat' split at hstep
    all_goals cases hstep
    all_goals first | exact List.prefix_refl _ | exact List.prefix_append _ _

/-- In the events of an index the connections come one after the other. -/
theorem Routing.sorted_onIndex {owner : Nat → Nat} (h : s.Routing owner) (index : Nat) :
    (onIndex s.pushed index).Pairwise fun e e' => e.connection ≤ e'.connection := by
  have hsorted := h.sorted.filter (fun e => e.event.index = index)
  apply hsorted.imp_of_mem
  intro e e' he he' hle
  apply hle
  have hindex : e.event.index = index := by simpa using (List.mem_filter.mp he).2
  have hindex' : e'.event.index = index := by simpa using (List.mem_filter.mp he').2
  exact hindex.trans hindex'.symm

theorem mem_of_unhandled {queue : MsgQueue} {e : QueuedEvent} (he : e ∈ queue.unhandled) :
    e ∈ queue.m_eventQueue := by
  unfold MsgQueue.unhandled at he
  split at he
  · exact (List.dropLast_sublist _).subset (List.mem_reverse.mp he)
  · exact List.mem_reverse.mp he

/-- A step of a worker leaves the other queues alone. -/
theorem worker_frame_ne {queueId q : Nat} {action : MsgAction}
    (hstep : s.step (.worker queueId action) = some s') (hne : q ≠ queueId) :
    s'.m_msgQueues q = s.m_msgQueues q := by
  simp only [step, workerStep] at hstep
  repeat' split at hstep
  all_goals cases hstep
  all_goals exact Function.update_of_ne hne ..

end MsgMultiplexer

namespace MsgServer

/-- What a step of a worker hands to `handleEvt`. -/
theorem worker_cases {s s' : MsgMultiplexer} {queueId : Nat} {action : MsgAction}
    (hstep : s.step (.worker queueId action) = some s') :
    (nextEvent s queueId = none ∧ s'.handled = s.handled) ∨
    ∃ done e, nextEvent s queueId = some e ∧ (s.m_msgQueues queueId).worker = .draining done ∧
      (s.m_msgQueues queueId).m_eventQueue.getLast? = some e ∧
      s' = s.handleBack queueId e action := by
  simp only [MsgMultiplexer.step, MsgMultiplexer.workerStep] at hstep
  split at hstep
  · split at hstep
    · rename_i hworker
      split at hstep
      · cases hstep
      · cases hstep
        exact .inl ⟨by simp [nextEvent, hworker], rfl⟩
    · rename_i done hworker
      split at hstep
      · rename_i hback
        cases hstep
        exact .inl ⟨by simp [nextEvent, hworker, hback], rfl⟩
      · rename_i e hback
        cases hstep
        exact .inr ⟨done, e, by simp [nextEvent, hworker, hback], hworker, hback, rfl⟩
    · rename_i done hworker
      cases hstep
      exact .inl ⟨by simp [nextEvent, hworker], rfl⟩
    · cases hstep
  · cases hstep

/-- What the data server promises to the multiplexer. -/
def Raised (owner : Nat → Nat) (s : MsgServer) : Event → Prop
  | .multiplexer event =>
    s.m_msgMultiplexer.Raised owner event ∧ s.m_msgMultiplexer.RaisedInTurn event
  | .listener _ _ => True

/-- Nothing of an earlier connection of the index is in a queue. -/
def Oldest (s : MsgMultiplexer) (e : QueuedEvent) : Prop :=
  ∀ q < s.m_concurrency, ∀ e' ∈ (s.m_msgQueues q).m_eventQueue,
    e'.event.index = e.event.index → e.connection ≤ e'.connection

/-- No worker begins an event while an event of an earlier connection of the index is in a queue, and
    a session can be allocated. -/
def NoOvertaking (s : MsgServer) : Event → Prop
  | .multiplexer (.worker queueId _) =>
    ∀ e ∈ nextEvent s.m_msgMultiplexer queueId, Oldest s.m_msgMultiplexer e
  | .listener worker allocated => (s.workers worker).creates = true → allocated = true
  | _ => True

/-- The event that a worker handles is at the back of its queue until the listener returns. -/
def InHandler (s : MsgServer) (worker index : Nat) : Prop :=
  ∃ done e, (s.m_msgMultiplexer.m_msgQueues worker).worker = .handling done ∧
    (s.m_msgMultiplexer.m_msgQueues worker).m_eventQueue.getLast? = some e ∧
    e.queueId = worker ∧ e ∈ s.m_msgMultiplexer.handled ∧ e.event.index = index

/-- The slot of an index is empty. -/
def EmptySlot (s : MsgServer) (index : Nat) : Prop :=
  ∀ slot, s.m_sessions[index]? = some slot → slot = none

/-- The connection that is live on an index after the events that were handed to the listener. -/
def liveHandled (s : MsgServer) (index : Nat) : Option ConnectionDetails :=
  live s.m_msgMultiplexer.handled index

/-- How far a handler has come: a connection that is being added is live and its slot is empty; after
    a disconnect nothing is live. -/
def Progress (s : MsgServer) : ListenerPc → Prop
  | .returned => True
  | .onConnect d | .create d => s.EmptySlot d.m_connIndex ∧ s.liveHandled d.m_connIndex = some d
  | .store d session => s.liveHandled d.m_connIndex = some d ∧ session.details = d
  | .onDisconnect d | .clear d => s.liveHandled d.m_connIndex = none

/-- **The session table.**  One handler at a time works for an index, and a slot for which no handler
    works holds the session of the connection that is live. -/
structure Inv (owner : Nat → Nat) (s : MsgServer) : Prop where
  multiplexer : s.m_msgMultiplexer.Inv owner
  alternates : s.m_msgMultiplexer.Alternates
  order : ∀ index, onIndex s.m_msgMultiplexer.handled index <+:
    onIndex s.m_msgMultiplexer.pushed index
  busy : ∀ worker d, (s.workers worker).details? = some d → s.InHandler worker d.m_connIndex
  exclusive : ∀ worker worker' d d', (s.workers worker).details? = some d →
    (s.workers worker').details? = some d' → d.m_connIndex = d'.m_connIndex → worker = worker'
  progress : ∀ worker, s.Progress (s.workers worker)
  settled : ∀ index, (∀ worker d, (s.workers worker).details? = some d → d.m_connIndex ≠ index) →
    ∀ slot, s.m_sessions[index]? = some slot → slot.map MsgSession.details = s.liveHandled index

theorem start_inv (owner : Nat → Nat) (maxConnections concurrency : UInt32)
    (hpos : 1 ≤ concurrency) : Inv owner (start maxConnections concurrency) where
  multiplexer := ⟨MsgMultiplexer.start_routing owner maxConnections concurrency hpos,
    MsgMultiplexer.start_order maxConnections concurrency⟩
  alternates := MsgMultiplexer.start_alternates maxConnections concurrency
  order := fun _ => List.prefix_refl _
  busy := fun _ _ => nofun
  exclusive := fun _ _ _ _ => nofun
  progress := fun _ => trivial
  settled := by
    intro index _ slot hslot
    have hnone : slot = none := by
      obtain ⟨_, hget⟩ := List.getElem?_eq_some_iff.mp hslot
      rw [← hget]
      simp [start]
    rw [hnone]
    rfl

section Steps

variable {owner : Nat → Nat} {s s' : MsgServer}

/-- A handler that is not touched is as far as before. -/
theorem Progress.of_eq {t : MsgServer} {pc : ListenerPc} (h : s.Progress pc)
    (hsessions : ∀ d, pc.details? = some d → t.m_sessions[d.m_connIndex]? =
      s.m_sessions[d.m_connIndex]?)
    (hlive : ∀ d, pc.details? = some d → t.liveHandled d.m_connIndex =
      s.liveHandled d.m_connIndex) : t.Progress pc := by
  cases pc with
  | returned => trivial
  | onConnect d | create d =>
    refine ⟨fun slot hslot => h.1 slot ?_, ?_⟩
    · rw [← hsessions d rfl]
      exact hslot
    · rw [hlive d rfl]
      exact h.2
  | store d session =>
    refine ⟨?_, h.2⟩
    rw [hlive d rfl]
    exact h.1
  | onDisconnect d | clear d =>
    exact (hlive d rfl).trans h

/-- An I/O task goes on. -/
theorem Inv.ioStep (h : s.Inv owner) {e : MsgMultiplexer.Event} {m : MsgMultiplexer}
    (he : ∀ queueId action, e ≠ .worker queueId action)
    (hraised : s.m_msgMultiplexer.Raised owner e) (hturn : s.m_msgMultiplexer.RaisedInTurn e)
    (hstep : s.m_msgMultiplexer.step e = some m) : Inv owner { s with m_msgMultiplexer := m } := by
  obtain ⟨hhandled, hlocked⟩ := MsgMultiplexer.locked_frame hstep he
  have hlive : ∀ index, liveHandled { s with m_msgMultiplexer := m } index =
      s.liveHandled index := by
    intro index
    simp only [liveHandled, hhandled]
  refine ⟨h.multiplexer.step hraised hstep,
    h.alternates.step h.multiplexer.routing hturn hstep, ?_, ?_, h.exclusive, ?_, ?_⟩
  · intro index
    have hmore := (MsgMultiplexer.pushed_mono hstep).filter fun e => e.event.index = index
    simp only [hhandled]
    exact (h.order index).trans hmore
  · intro worker d hd
    obtain ⟨done, e', hworker, hrest⟩ := h.busy worker d hd
    refine ⟨done, e', ?_⟩
    simp only [hlocked worker (by simp [MsgQueue.unlocked, hworker]), hhandled]
    exact ⟨hworker, hrest⟩
  · intro worker
    exact (h.progress worker).of_eq (fun _ _ => rfl) (fun d _ => hlive d.m_connIndex)
  · intro index hfree slot hslot
    rw [hlive]
    exact h.settled index hfree slot hslot

/-- Who works for an index while a worker begins an event of it: nobody. -/
theorem Inv.no_handler (h : s.Inv owner) {queueId : Nat} {done : Bool} {e : QueuedEvent}
    (hworker : (s.m_msgMultiplexer.m_msgQueues queueId).worker = .draining done)
    (hback : (s.m_msgMultiplexer.m_msgQueues queueId).m_eventQueue.getLast? = some e)
    (hfirst : Oldest s.m_msgMultiplexer e) :
    ∀ worker d, (s.workers worker).details? = some d → d.m_connIndex ≠ e.event.index := by
  intro worker d hd hindex
  obtain ⟨done', e', hworker', hback', hqueue', hhandled', hindex'⟩ := h.busy worker d hd
  have hwaits : e ∈ (s.m_msgMultiplexer.m_msgQueues queueId).unhandled := by
    rw [MsgMultiplexer.unhandled_of_back hworker hback]
    exact List.mem_cons_self
  obtain ⟨hpushed, hqueue⟩ := h.multiplexer.order.fifo.mem_pushed_of_waiting hwaits
  have hpushed' := h.multiplexer.order.fifo.mem_pushed_of_taken hhandled'
  have hsame : e'.event.index = e.event.index := hindex'.trans hindex
  -- the handler's event is not earlier, because nothing is overtaken, and not later either
  have hle : e.connection ≤ e'.connection :=
    hfirst worker (hqueue' ▸ (h.multiplexer.routing.range e' hpushed').1) e'
      (List.mem_of_getLast? hback') hsame
  have hge : e'.connection ≤ e.connection := by
    apply h.multiplexer.order.fifo.rank_le_of_taken (h.order e.event.index)
      QueuedEvent.connection ?_ hhandled' (by simpa using hsame) hwaits (by simp)
    exact h.multiplexer.routing.sorted_onIndex e.event.index
  have hqueues := h.multiplexer.routing.same e' hpushed' e hpushed hsame
    (Nat.le_antisymm hge hle)
  have hself : worker = queueId := by rw [← hqueue', hqueues, hqueue]
  rw [hself, hworker] at hworker'
  cases hworker'

/-- A worker goes on outside the listener. -/
theorem Inv.workerStep_quiet (h : s.Inv owner) {queueId : Nat} {action : MsgAction}
    {m : MsgMultiplexer} (hreturned : s.workers queueId = .returned)
    (hstep : s.m_msgMultiplexer.step (.worker queueId action) = some m)
    (hhandled : m.handled = s.m_msgMultiplexer.handled) :
    Inv owner { s with m_msgMultiplexer := m } := by
  have hlive : ∀ index, liveHandled { s with m_msgMultiplexer := m } index =
      s.liveHandled index := by
    intro index
    simp only [liveHandled, hhandled]
  refine ⟨h.multiplexer.step (e := .worker queueId action) trivial hstep,
    h.alternates.step h.multiplexer.routing (e := .worker queueId action) trivial hstep, ?_, ?_,
    h.exclusive, ?_, ?_⟩
  · intro index
    simp only [hhandled, (MsgMultiplexer.worker_frame hstep).2]
    exact h.order index
  · intro worker d hd
    have hne : worker ≠ queueId := by
      intro heq
      rw [heq, hreturned] at hd
      cases hd
    obtain ⟨done, e', hrest⟩ := h.busy worker d hd
    refine ⟨done, e', ?_⟩
    simp only [MsgMultiplexer.worker_frame_ne hstep hne, hhandled]
    exact hrest
  · intro worker
    exact (h.progress worker).of_eq (fun _ _ => rfl) (fun d _ => hlive d.m_connIndex)
  · intro index hfree slot hslot
    rw [hlive]
    exact h.settled index hfree slot hslot

/-- What a handler works for when it is called. -/
theorem details_call {evt : MsgEvent} {d : ConnectionDetails}
    (hd : (ListenerPc.call (handleEvt evt).1).details? = some d) : d = evt.m_connectionDetails := by
  revert hd
  unfold handleEvt
  split
  · simp only [ListenerPc.call]
    split
    · exact nofun
    · intro hd
      exact (Option.some.inj hd).symm
  · intro hd
    exact (Option.some.inj hd).symm
  · exact nofun
  · exact nofun

/-- A handler that is called finds the slot as the earlier events of the index left it. -/
theorem progress_call {t : MsgServer} {before : Option ConnectionDetails} {e : QueuedEvent}
    (hslot : ∀ slot, t.m_sessions[e.event.index]? = some slot →
      slot.map MsgSession.details = before)
    (hturn : InTurn before e.event)
    (hlive : t.liveHandled e.event.index = liveAfter before e) :
    t.Progress (.call (handleEvt e.event).1) := by
  unfold liveAfter at hlive
  unfold handleEvt
  split
  · rename_i htype
    have hnone := (hturn.1 htype).1
    simp only [ListenerPc.call, (hturn.1 htype).2, ne_eq, not_true_eq_false, if_false]
    simp only [htype] at hlive
    refine ⟨fun slot hs => ?_, hlive⟩
    have hmap := hslot slot hs
    rw [hnone] at hmap
    exact Option.map_eq_none_iff.mp hmap
  · rename_i htype
    simp only [htype] at hlive
    exact hlive
  · trivial
  · trivial

/-- An event that is no business of the session table does not change what is live. -/
theorem liveAfter_of_returned {before : Option ConnectionDetails} {e : QueuedEvent}
    (hturn : InTurn before e.event)
    (hreturns : (ListenerPc.call (handleEvt e.event).1).details? = none) :
    liveAfter before e = before := by
  unfold liveAfter
  unfold handleEvt at hreturns
  split
  · rename_i htype
    simp only [htype, ListenerPc.call, (hturn.1 htype).2, ne_eq, not_true_eq_false, if_false]
      at hreturns
    cases hreturns
  · rename_i htype
    simp only [htype] at hreturns
    cases hreturns
  · rfl

/-- With the oldest event of a queue the events of every index are still handled in the order in
    which they were pushed. -/
theorem Inv.handled_in_order (h : s.Inv owner) {queueId : Nat} {done : Bool} {e : QueuedEvent}
    (hworker : (s.m_msgMultiplexer.m_msgQueues queueId).worker = .draining done)
    (hback : (s.m_msgMultiplexer.m_msgQueues queueId).m_eventQueue.getLast? = some e)
    (hfirst : Oldest s.m_msgMultiplexer e) (index : Nat) :
    onIndex (s.m_msgMultiplexer.handled ++ [e]) index <+:
      onIndex s.m_msgMultiplexer.pushed index := by
  have hwaits := MsgMultiplexer.unhandled_of_back hworker hback
  have hfifo := h.multiplexer.order.fifo
  apply hfifo.taken_prefix_of_rank (h.order index) QueuedEvent.connection
    (h.multiplexer.routing.sorted_onIndex index) ?_ hwaits ?_
  · -- one connection has one queue
    intro a ha b hb hpa hpb hrank
    simp only [decide_eq_true_eq] at hpa hpb
    exact h.multiplexer.routing.same a ha b hb (hpa.trans hpb.symm) hrank
  · -- and the oldest of each queue is not of an earlier connection
    intro hpe q b hb hpb
    simp only [decide_eq_true_eq] at hpe hpb
    obtain ⟨hpushed, hkey⟩ := hfifo.mem_pushed_of_waiting hb
    exact hfirst q (hkey ▸ (h.multiplexer.routing.range b hpushed).1) b
      (MsgMultiplexer.mem_of_unhandled hb) (hpb.trans hpe.symm)

/-- A worker that begins to work for an index for which nobody works is the only one. -/
theorem Inv.exclusive_setWorker (h : s.Inv owner) {queueId index : Nat} {pc : ListenerPc}
    (hpc : ∀ d, pc.details? = some d → d.m_connIndex = index)
    (hfree : ∀ worker d, (s.workers worker).details? = some d → d.m_connIndex ≠ index)
    (worker worker' : Nat) (d d' : ConnectionDetails)
    (hd : ((s.setWorker queueId pc).workers worker).details? = some d)
    (hd' : ((s.setWorker queueId pc).workers worker').details? = some d')
    (hindex : d.m_connIndex = d'.m_connIndex) : worker = worker' := by
  by_cases hne : worker = queueId
  · by_cases hne' : worker' = queueId
    · exact hne.trans hne'.symm
    · subst hne
      rw [setWorker_self] at hd
      rw [setWorker_ne hne'] at hd'
      exact absurd (hindex.symm.trans (hpc d hd)) (hfree worker' d' hd')
  · by_cases hne' : worker' = queueId
    · subst hne'
      rw [setWorker_self] at hd'
      rw [setWorker_ne hne] at hd
      exact absurd (hindex.trans (hpc d' hd')) (hfree worker d hd)
    · rw [setWorker_ne hne] at hd
      rw [setWorker_ne hne'] at hd'
      exact h.exclusive worker worker' d d' hd hd' hindex

/-- After the call nobody works for the index only if nobody did before, and then the event is no
    business of the session table. -/
theorem Inv.settled_handleBack (h : s.Inv owner) {queueId : Nat} {action : MsgAction}
    {e : QueuedEvent} (hreturned : s.workers queueId = .returned)
    (hturn : InTurn (s.liveHandled e.event.index) e.event) (index : Nat)
    (hquiet : ∀ worker d,
      ((s.setWorker queueId (.call (handleEvt e.event).1)).workers worker).details? = some d →
        d.m_connIndex ≠ index)
    (slot : Option MsgSession) (hslot : s.m_sessions[index]? = some slot) :
    slot.map MsgSession.details =
      live (s.m_msgMultiplexer.handleBack queueId e action).handled index := by
  have hquiet' : ∀ worker d, (s.workers worker).details? = some d → d.m_connIndex ≠ index := by
    intro worker d hd
    by_cases hne : worker = queueId
    · rw [hne, hreturned] at hd
      cases hd
    · apply hquiet worker d
      rw [setWorker_ne hne]
      exact hd
  rw [h.settled index hquiet' slot hslot]
  by_cases hindex : e.event.index = index
  · subst hindex
    have hreturns : (ListenerPc.call (handleEvt e.event).1).details? = none := by
      cases hcall : (ListenerPc.call (handleEvt e.event).1).details? with
      | none => rfl
      | some d =>
        have hd := details_call hcall
        refine absurd ?_ (hquiet queueId d (by rw [setWorker_self]; exact hcall))
        rw [hd]
        rfl
    exact (liveAfter_of_returned hturn hreturns).symm.trans (live_concat_self _ e).symm
  · exact (live_concat_ne _ hindex).symm

/-- A worker calls the listener with the oldest event of its queue. -/
theorem Inv.handleBack (h : s.Inv owner) {queueId : Nat} {action : MsgAction} {done : Bool}
    {e : QueuedEvent} (hreturned : s.workers queueId = .returned)
    (hstep : s.m_msgMultiplexer.step (.worker queueId action) =
      some (s.m_msgMultiplexer.handleBack queueId e action))
    (hworker : (s.m_msgMultiplexer.m_msgQueues queueId).worker = .draining done)
    (hback : (s.m_msgMultiplexer.m_msgQueues queueId).m_eventQueue.getLast? = some e)
    (hfirst : Oldest s.m_msgMultiplexer e) :
    Inv owner { s.setWorker queueId (.call (handleEvt e.event).1) with
      m_msgMultiplexer := s.m_msgMultiplexer.handleBack queueId e action } := by
  have hfree := h.no_handler hworker hback hfirst
  have horder := h.handled_in_order hworker hback hfirst
  have hqueue : e.queueId = queueId := by
    apply (h.multiplexer.order.fifo.mem_pushed_of_waiting (q := queueId) ?_).2
    rw [MsgMultiplexer.unhandled_of_back hworker hback]
    exact List.mem_cons_self
  have hturn : InTurn (s.liveHandled e.event.index) e.event := by
    apply h.alternates.pushed e.event.index (onIndex s.m_msgMultiplexer.handled e.event.index) e
    rw [← onIndex_concat_self]
    exact horder e.event.index
  have hother : ∀ {worker : Nat}, worker ≠ queueId →
      (s.setWorker queueId (.call (handleEvt e.event).1)).workers worker = s.workers worker :=
    fun hne => setWorker_ne hne _
  have hself : (s.setWorker queueId (.call (handleEvt e.event).1)).workers queueId =
      .call (handleEvt e.event).1 := setWorker_self _
  refine ⟨h.multiplexer.step (e := .worker queueId action) trivial hstep,
    h.alternates.step h.multiplexer.routing (e := .worker queueId action) trivial hstep, horder,
    ?_, h.exclusive_setWorker (fun d hd => congrArg _ (details_call hd)) hfree, ?_,
    h.settled_handleBack hreturned hturn⟩
  · intro worker d hd
    by_cases hne : worker = queueId
    · -- the event stays at the back of its queue until the handler returns
      subst hne
      simp only [hself] at hd
      obtain rfl := details_call hd
      refine ⟨(handleEvt e.event).2, e, ?_, ?_, hqueue, by simp [MsgMultiplexer.handleBack], rfl⟩
      · simp [MsgMultiplexer.handleBack, MsgMultiplexer.setQueue]
      · simpa [MsgMultiplexer.handleBack, MsgMultiplexer.setQueue] using hback
    · simp only [hother hne] at hd
      obtain ⟨done', e', hworker', hback', hqueue', hhandled', hindex'⟩ := h.busy worker d hd
      refine ⟨done', e', ?_, ?_, hqueue', List.mem_append_left _ hhandled', hindex'⟩
      · simp only [MsgMultiplexer.worker_frame_ne hstep hne]
        exact hworker'
      · simp only [MsgMultiplexer.worker_frame_ne hstep hne]
        exact hback'
  · intro worker
    by_cases hne : worker = queueId
    · subst hne
      simp only [hself]
      exact progress_call (fun slot hslot => h.settled e.event.index hfree slot hslot) hturn
        (live_concat_self _ e)
    · -- the other handlers work for other indices
      simp only [hother hne]
      refine Progress.of_eq (h.progress worker) (fun _ _ => rfl) ?_
      intro d hd
      exact live_concat_ne _ (Ne.symm (hfree worker d hd))

section Listener

variable {worker : Nat}

/-- The handler of an index goes on; `t` is the state afterwards, in which nothing else has
    changed. -/
theorem Inv.advance (h : s.Inv owner) {t : MsgServer} {d : ConnectionDetails} (pc : ListenerPc)
    (hd : (s.workers worker).details? = some d)
    (hmux : t.m_msgMultiplexer = s.m_msgMultiplexer)
    (hworkers : t.workers = (s.setWorker worker pc).workers)
    (hsessions : ∀ index, index ≠ d.m_connIndex → t.m_sessions[index]? = s.m_sessions[index]?)
    (hpc : ∀ d', pc.details? = some d' → d' = d) (hprogress : t.Progress pc)
    (hdone : pc = .returned → ∀ slot, t.m_sessions[d.m_connIndex]? = some slot →
      slot.map MsgSession.details = s.liveHandled d.m_connIndex) : t.Inv owner := by
  have hself : t.workers worker = pc := by rw [hworkers, setWorker_self]
  have hother : ∀ {w : Nat}, w ≠ worker → t.workers w = s.workers w := by
    intro w hne
    rw [hworkers, setWorker_ne hne]
  -- every handler worked for the same index before
  have hbefore : ∀ {w : Nat} {d' : ConnectionDetails}, (t.workers w).details? = some d' →
      (s.workers w).details? = some d' := by
    intro w d' hd'
    by_cases hne : w = worker
    · subst hne
      rw [hself] at hd'
      rw [hpc d' hd', hd]
    · rwa [hother hne] at hd'
  have hlive : ∀ index, t.liveHandled index = s.liveHandled index := by
    intro index
    simp only [liveHandled, hmux]
  -- busy, exclusive, progress, settled
  refine ⟨hmux ▸ h.multiplexer, hmux ▸ h.alternates, hmux ▸ h.order, ?_, ?_, ?_, ?_⟩
  · intro w d' hd'
    simp only [InHandler, hmux]
    exact h.busy w d' (hbefore hd')
  · intro w w' d₁ d₂ hd₁ hd₂ hindex
    exact h.exclusive w w' d₁ d₂ (hbefore hd₁) (hbefore hd₂) hindex
  · intro w
    by_cases hne : w = worker
    · subst hne
      rw [hself]
      exact hprogress
    · -- the handlers of other indices do not see the change
      rw [hother hne]
      refine (h.progress w).of_eq ?_ (fun d' _ => hlive d'.m_connIndex)
      intro d' hd'
      apply hsessions
      intro hindex
      exact hne (h.exclusive w worker d' d hd' hd hindex)
  · intro index hquiet slot hslot
    rw [hlive]
    by_cases hindex : index = d.m_connIndex
    · subst hindex
      apply hdone ?_ slot hslot
      cases hpc' : pc.details? with
      -- the handler has returned, or it still works for its index
      | none => exact ListenerPc.returned_of_details hpc'
      | some d' =>
        refine absurd ?_ (hquiet worker d' (by rw [hself]; exact hpc'))
        rw [hpc d' hpc']
    · rw [hsessions index hindex] at hslot
      refine h.settled index ?_ slot hslot
      intro w d' hd'
      by_cases hne : w = worker
      · subst hne
        rw [hd] at hd'
        cases hd'
        exact Ne.symm hindex
      · apply hquiet w d'
        rw [hother hne]
        exact hd'

/-- A step of a listener call keeps the invariant, if a session can be allocated. -/
theorem Inv.listenerStep (h : s.Inv owner) {allocated : Bool}
    (hno : s.NoOvertaking (.listener worker allocated))
    (hstep : s.listenerStep worker allocated = some s') : s'.Inv owner := by
  have hprogress := h.progress worker
  unfold MsgServer.listenerStep at hstep
  split at hstep
  · cases hstep
  · rename_i d hpc
    rw [hpc] at hprogress
    split at hstep
    · cases hstep
    · -- the slot is empty, so the connection is not refused
      rename_i session hslot
      cases hprogress.1 _ hslot
    · cases hstep
      exact h.advance (.create d) (by rw [hpc]; rfl) rfl rfl (fun _ _ => rfl)
        (fun d' hd' => (Option.some.inj hd').symm) hprogress nofun
  · rename_i d hpc
    rw [hpc] at hprogress
    have hallocated : allocated = true := hno (by rw [hpc]; rfl)
    rw [hallocated] at hstep
    cases hstep
    exact h.advance (.store d (.create s.m_nextSessionId d)) (by rw [hpc]; rfl) rfl rfl
      (fun _ _ => rfl) (fun d' hd' => (Option.some.inj hd').symm) ⟨hprogress.2, rfl⟩ nofun
  · rename_i d session hpc
    rw [hpc] at hprogress
    cases hstep
    refine h.advance (d := d) .returned (by rw [hpc]; rfl) rfl rfl ?_ nofun trivial ?_
    · intro index hne
      exact List.getElem?_set_ne (Ne.symm hne)
    · intro _ slot hslot
      obtain rfl : some session = slot := by
        simp only [List.getElem?_set, ite_true] at hslot
        split at hslot
        · exact Option.some.inj hslot
        · cases hslot
      rw [hprogress.1]
      exact congrArg some hprogress.2
  · rename_i d hpc
    rw [hpc] at hprogress
    split at hstep
    · cases hstep
    · -- the session was never created, or is gone: the slot is empty already
      rename_i hslot
      cases hstep
      refine h.advance (d := d) .returned (by rw [hpc]; rfl) rfl rfl (fun _ _ => rfl) nofun
        trivial ?_
      intro _ slot hslot'
      obtain rfl : none = slot := Option.some.inj (hslot.symm.trans hslot')
      exact hprogress.symm
    · cases hstep
      exact h.advance (.clear d) (by rw [hpc]; rfl) rfl rfl (fun _ _ => rfl)
        (fun d' hd' => (Option.some.inj hd').symm) hprogress nofun
  · rename_i d hpc
    rw [hpc] at hprogress
    cases hstep
    refine h.advance (d := d) .returned (by rw [hpc]; rfl) rfl rfl ?_ nofun trivial ?_
    · intro index hne
      exact List.getElem?_set_ne (Ne.symm hne)
    · intro _ slot hslot
      obtain rfl : none = slot := by
        simp only [List.getElem?_set, ite_true] at hslot
        split at hslot
        · exact Option.some.inj hslot
        · cases hslot
      exact hprogress.symm

end Listener

/-- **One step keeps the invariant**, unless a worker overtakes or a session cannot be allocated. -/
theorem Inv.step (h : s.Inv owner) {e : Event} (hraised : s.Raised owner e)
    (hno : s.NoOvertaking e) (hstep : s.step e = some s') : s'.Inv owner := by
  cases e with
  | listener worker allocated => exact h.listenerStep hno hstep
  | multiplexer event =>
    cases event with
    | worker queueId action =>
      simp only [MsgServer.step] at hstep
      split at hstep
      · rename_i hreturned
        split at hstep
        · cases hstep
        · rename_i m hm
          cases hstep
          rcases worker_cases hm with ⟨hnone, hhandled⟩ | ⟨done, e, hnext, hworker, hback, rfl⟩
          · have hquiet := h.workerStep_quiet hreturned hm hhandled
            have hset : s.setWorker queueId .returned = s := by
              simp only [setWorker, ← hreturned, Function.update_eq_self]
            simp only [hnone, Option.bind_none, ListenerPc.call, hset]
            exact hquiet
          · simp only [hnext, Option.bind_some]
            exact h.handleBack hreturned hm hworker hback (hno e hnext)
      · cases hstep
    | _ =>
      simp only [MsgServer.step] at hstep
      split at hstep
      · cases hstep
      · rename_i m hm
        cases hstep
        exact h.ioStep (fun _ _ heq => by cases heq) hraised.1 hraised.2 hm

end Steps

/-- The session table keeps its size. -/
theorem length_step {s s' : MsgServer} {e : Event} (hstep : s.step e = some s') :
    s'.m_sessions.length = s.m_sessions.length := by
  cases e with
  | listener worker allocated =>
    simp only [step, listenerStep] at hstep
    repeat' split at hstep
    all_goals cases hstep
    all_goals simp [setWorker]
  | multiplexer event =>
    cases event with
    | worker queueId action =>
      simp only [step] at hstep
      repeat' split at hstep
      all_goals cases hstep
      rfl
    | _ =>
      simp only [step] at hstep
      split at hstep
      · cases hstep
      · cases hstep
        rfl

/-- Everything that was pushed for an index has been handled: no queue holds an event of it. -/
def AllHandled (s : MsgServer) (index : Nat) : Prop :=
  ∀ q < s.m_msgMultiplexer.m_concurrency, ∀ e ∈ (s.m_msgMultiplexer.m_msgQueues q).m_eventQueue,
    e.event.index ≠ index

/-- When all events of an index are handled, the slot holds the session of the connection that is
    live. -/
theorem Inv.slot_of_allHandled {owner : Nat → Nat} {s : MsgServer} (h : s.Inv owner) {index : Nat}
    (hall : s.AllHandled index) {slot : Option MsgSession}
    (hslot : s.m_sessions[index]? = some slot) :
    slot.map MsgSession.details = live s.m_msgMultiplexer.pushed index := by
  have hfifo := h.multiplexer.order.fifo
  have hrange := h.multiplexer.routing.range
  have hquiet : ∀ worker d, (s.workers worker).details? = some d → d.m_connIndex ≠ index := by
    intro worker d hd hindex
    obtain ⟨done, e, -, hback, hqueue, hhandled, he⟩ := h.busy worker d hd
    have hlt := (hrange e (hfifo.mem_pushed_of_taken hhandled)).1
    exact hall worker (hqueue ▸ hlt) e (List.mem_of_getLast? hback) (he.trans hindex)
  have hsame : onIndex s.m_msgMultiplexer.handled index =
      onIndex s.m_msgMultiplexer.pushed index := by
    apply hfifo.taken_eq_pushed (h.order index)
    intro q e he
    obtain ⟨hpushed, hqueue⟩ := hfifo.mem_pushed_of_waiting he
    have hne := hall q (hqueue ▸ (hrange e hpushed).1) e (MsgMultiplexer.mem_of_unhandled he)
    simpa using hne
  rw [h.settled index hquiet slot hslot]
  simp only [liveHandled, live, hsame]

/-- **The session table follows the connections**, in every run in which no worker begins an event
    while an event of an earlier connection of its index is in another queue, and every session can
    be allocated. -/
theorem sessions_follow_connections (maxConnections concurrency : UInt32)
    (hpos : 1 ≤ concurrency) (owner : Nat → Nat) (events : List Event) (s : MsgServer)
    (hrun : RunsWith (stepOf step) (fun s e => s.Raised owner e ∧ s.NoOvertaking e)
      (start maxConnections concurrency) events s) :
    ∀ index < maxConnections.toNat, s.AllHandled index →
      ∃ slot, s.m_sessions[index]? = some slot ∧
        slot.map MsgSession.details = live s.m_msgMultiplexer.pushed index := by
  have hinv : s.Inv owner ∧ s.m_sessions.length = maxConnections.toNat := by
    apply hrun.invariant fun t => t.Inv owner ∧ t.m_sessions.length = maxConnections.toNat
    · intro t e t' ht he hstep
      exact ⟨ht.1.step he.1 he.2 hstep, (length_step hstep).trans ht.2⟩
    · exact ⟨start_inv owner maxConnections concurrency hpos, List.length_replicate⟩
  intro index hindex hall
  have hlt : index < s.m_sessions.length := hinv.2 ▸ hindex
  exact ⟨s.m_sessions[index], List.getElem?_eq_getElem hlt,
    hinv.1.slot_of_allHandled hall (List.getElem?_eq_getElem hlt)⟩

instance (owner : Nat → Nat) (s : MsgMultiplexer) :
    (e : MsgMultiplexer.Event) → Decidable (s.Raised owner e)
  | .onConnect _ _ _ => inferInstanceAs (Decidable (_ ∧ _))
  | .onDisconnect _ _ => inferInstanceAs (Decidable (_ ∧ _))
  | .onMsg _ _ _ _ => inferInstanceAs (Decidable (_ ∧ _))
  | .io _ => isTrue trivial
  | .worker _ _ => isTrue trivial
  | .stop _ => isFalse id

instance (s : MsgMultiplexer) : (e : MsgMultiplexer.Event) → Decidable (s.RaisedInTurn e)
  | .onConnect _ _ status => inferInstanceAs (Decidable (status = 0 → _ = _))
  | .onDisconnect _ _ => inferInstanceAs (Decidable (_ ≠ _))
  | .onMsg _ _ _ _ => isTrue trivial
  | .io _ => isTrue trivial
  | .worker _ _ => isTrue trivial
  | .stop _ => isFalse id

instance (owner : Nat → Nat) (s : MsgServer) : (e : Event) → Decidable (s.Raised owner e)
  | .multiplexer _ => inferInstanceAs (Decidable (_ ∧ _))
  | .listener _ _ => isTrue trivial

instance (s : MsgMultiplexer) (e : QueuedEvent) : Decidable (Oldest s e) :=
  inferInstanceAs (Decidable (∀ q < s.m_concurrency, ∀ e' ∈ (s.m_msgQueues q).m_eventQueue, _))

instance (s : MsgServer) : (e : Event) → Decidable (s.NoOvertaking e)
  | .multiplexer (.worker _ _) => inferInstanceAs (Decidable (∀ e ∈ (_ : Option _), _))
  | .multiplexer (.onConnect _ _ _) => isTrue trivial
  | .multiplexer (.onDisconnect _ _) => isTrue trivial
  | .multiplexer (.onMsg _ _ _ _) => isTrue trivial
  | .multiplexer (.io _) => isTrue trivial
  | .multiplexer (.stop _) => isTrue trivial
  | .listener _ _ => inferInstanceAs (Decidable (_ = _ → _ = _))

instance (s : MsgServer) (index : Nat) : Decidable (s.AllHandled index) :=
  inferInstanceAs (Decidable (∀ q < s.m_msgMultiplexer.m_concurrency,
    ∀ e ∈ (s.m_msgMultiplexer.m_msgQueues q).m_eventQueue, _))

/-- An I/O task that is busy goes on for some steps. -/
def ioSteps (task count : Nat) : List Event :=
  List.replicate count (.multiplexer (.io task))

/-- A worker goes on outside the listener. -/
def workerStep (queueId : Nat) : Event :=
  .multiplexer (.worker queueId .MSG_CAN_DELETE)

/-- A connection comes and is added, it goes, and another one takes its index and the other queue.
    The second worker does not begin before the first has deleted the session. -/
def reconnection : List Event :=
  .multiplexer (.onConnect 0 ⟨0, 0⟩ 0) :: ioSteps 0 6 ++
    [workerStep 0, workerStep 0, .listener 0 true, .listener 0 true, .listener 0 true,
      workerStep 0, workerStep 0] ++
    .multiplexer (.onDisconnect 0 ⟨0, 0⟩) :: ioSteps 0 2 ++
    .multiplexer (.onConnect 0 ⟨1, 0⟩ 0) :: ioSteps 0 6 ++
    -- the old session is deleted
    [workerStep 0, workerStep 0, .listener 0 true, .listener 0 true, workerStep 0] ++
    -- the new connection is added
    [workerStep 1, workerStep 1, .listener 1 true, .listener 1 true, .listener 1 true,
      workerStep 1]

/-- The session of a connection that took the index of an earlier one. -/
theorem sessions_follow_connections_reconnected :
    ∃ s, RunsWith (stepOf step) (fun s e => s.Raised (fun _ => 0) e ∧ s.NoOvertaking e) (start 1 2)
        reconnection s ∧
      s.AllHandled 0 ∧ s.m_sessions = [some ⟨1, 1, 0⟩] ∧
      live s.m_msgMultiplexer.pushed 0 = some ⟨1, 0⟩ ∧
      ∃ slot, s.m_sessions[0]? = some slot ∧
        slot.map MsgSession.details = live s.m_msgMultiplexer.pushed 0 := by
  have hrun : (runWhere step (fun s e => s.Raised (fun _ => 0) e ∧ s.NoOvertaking e) (start 1 2)
      reconnection).map
      (fun s => (decide (s.AllHandled 0), s.m_sessions, live s.m_msgMultiplexer.pushed 0)) =
      some (true, [some ⟨1, 1, 0⟩], some ⟨1, 0⟩) := by
    decide +kernel
  obtain ⟨s, hs, hend⟩ := Option.map_eq_some_iff.mp hrun
  obtain ⟨hall, hrest⟩ := Prod.mk.inj hend
  obtain ⟨hsessions, hlive⟩ := Prod.mk.inj hrest
  have hs' := runsWith_of_runWhere hs
  exact ⟨s, hs', of_decide_eq_true hall, hsessions, hlive,
    sessions_follow_connections 1 2 (by decide) (fun _ => 0) _ s hs' 0 (by decide)
      (of_decide_eq_true hall)⟩

/-- A connection comes and goes and another one takes its index; the second worker is faster. -/
def overtaking : List Event :=
  .multiplexer (.onConnect 0 ⟨0, 0⟩ 0) :: ioSteps 0 6 ++
    .multiplexer (.onDisconnect 0 ⟨0, 0⟩) :: ioSteps 0 2 ++
    .multiplexer (.onConnect 0 ⟨1, 0⟩ 0) :: ioSteps 0 6 ++
    -- the new connection is added
    [workerStep 1, workerStep 1, .listener 1 true, .listener 1 true, .listener 1 true,
      workerStep 1] ++
    -- the old one is refused, and then disconnected
    [workerStep 0, workerStep 0, .listener 0 true, workerStep 0,
      workerStep 0, .listener 0 true, .listener 0 true, workerStep 0]

/-- With two queues the second connection of an index goes to the second worker, which may be first:
    the old connection's `onDisconnect` then deletes the session of the new one. -/
theorem overtaking_deletes_new_session :
    ∃ s, RunsWith (stepOf step) (Raised fun _ => 0) (start 1 2) overtaking s ∧
      s.AllHandled 0 ∧ live s.m_msgMultiplexer.pushed 0 = some ⟨1, 0⟩ ∧ s.m_sessions = [none] ∧
      ¬ ∃ slot, s.m_sessions[0]? = some slot ∧
        slot.map MsgSession.details = live s.m_msgMultiplexer.pushed 0 := by
  have hrun : (runWhere step (Raised fun _ => 0) (start 1 2) overtaking).map
      (fun s => (decide (s.AllHandled 0), live s.m_msgMultiplexer.pushed 0, s.m_sessions)) =
      some (true, some ⟨1, 0⟩, [none]) := by
    decide +kernel
  obtain ⟨s, hs, hend⟩ := Option.map_eq_some_iff.mp hrun
  obtain ⟨hall, hrest⟩ := Prod.mk.inj hend
  obtain ⟨hlive, hsessions⟩ := Prod.mk.inj hrest
  refine ⟨s, runsWith_of_runWhere hs, of_decide_eq_true hall, hlive, hsessions, ?_⟩
  simp [hlive, hsessions]

end MsgServer

end Commutil.Server
