import Commutil.Server.MsgMultiplexer

/-!
# The Stop Event of a Multiplexer Queue

`MsgMultiplexer::stop` pushes a stop event to every queue and joins the workers.  A
worker keeps what `handleEvt` returns in its exit flag, and while it drains the queue
every event overwrites the flag of the event before.

One queue with its worker is a `QueueView`, with five kinds of steps (`QueueStep`); every
step of the multiplexer is such a step of each queue, or leaves it alone (`step_view`).
`stop_event_ends_worker` says that a stop event ends its worker if nothing is pushed
behind it while it waits, and `late_event_keeps_worker` that otherwise the worker never
ends.
-/

namespace Commutil.Server

open Commutil.Library
open Commutil.Transport

/-! ## §1 One queue -/

/-- The event is a stop event. -/
def QueuedEvent.isStop (e : QueuedEvent) : Bool := e.event.m_eventType = .ET_STOP

/-- `handleEvt` ends the loop for a stop event only. -/
theorem handleEvt_done (e : QueuedEvent) : (handleEvt e.event).2 = e.isStop := by
  unfold handleEvt QueuedEvent.isStop
  cases h : e.event.m_eventType <;> rfl

/-- A queue with its worker: the events that wait, oldest first, and what was pushed to it and
    handled by its worker so far. -/
structure QueueView where
  worker : WorkerPc
  unhandled : List QueuedEvent
  pushed : List QueuedEvent
  handled : List QueuedEvent
  deriving DecidableEq, Repr

/-- What happens to a queue. -/
inductive QueueAction where
  | push (e : QueuedEvent)
  /-- The worker wakes up and takes the lock. -/
  | lock
  | handle
  | pop
  /-- The drain is over. -/
  | leave
  deriving DecidableEq, Repr

/-- A step of one queue. -/
inductive QueueStep : QueueAction → QueueView → QueueView → Prop where
  | push {v : QueueView} (e : QueuedEvent) (h : v.worker = .waiting ∨ v.worker = .ended) :
      QueueStep (.push e) v
        { v with unhandled := v.unhandled ++ [e], pushed := v.pushed ++ [e] }
  | lock {v : QueueView} (hworker : v.worker = .waiting) (h : v.unhandled ≠ []) :
      QueueStep .lock v { v with worker := .draining false }
  | handle {v : QueueView} {done : Bool} {e : QueuedEvent} {rest : List QueuedEvent}
      (hworker : v.worker = .draining done) (h : v.unhandled = e :: rest) :
      QueueStep .handle v ⟨.handling e.isStop, rest, v.pushed, v.handled ++ [e]⟩
  | pop {v : QueueView} {done : Bool} (hworker : v.worker = .handling done) :
      QueueStep .pop v { v with worker := .draining done }
  | leave {v : QueueView} {done : Bool} (hworker : v.worker = .draining done)
      (h : v.unhandled = []) :
      QueueStep .leave v { v with worker := if done then .ended else .waiting }

/-- **What is asked of a stop event**: the events pushed before it are handled, each once and in
    order, before the worker ends; and once it is handled, the worker does not wait again, so that
    it leaves its loop when the queue is drained. -/
def QueueView.StopEnds (v : QueueView) : Prop :=
  v.handled <+: v.pushed ∧
    (∀ before stop after, v.pushed = before ++ stop :: after → stop.isStop = true →
      v.worker = .ended → before <+: v.handled) ∧
    ((∃ e ∈ v.handled, e.isStop = true) → v.worker ≠ .waiting ∧
      ∀ done, v.worker = .draining done → v.unhandled = [] → done = true)

namespace QueueView

/-- What holds of a queue that is given at most one stop event. -/
structure Inv (v : QueueView) : Prop where
  fifo : v.handled ++ v.unhandled = v.pushed
  single : v.pushed.countP QueuedEvent.isStop ≤ 1
  /-- The exit flag is set by a stop event only. -/
  stopped : v.worker = .ended ∨ v.worker = .handling true ∨ v.worker = .draining true →
    ∃ e ∈ v.handled, e.isStop = true

/-- A queue behind whose stop event nothing was pushed while it waited. -/
structure Orderly (v : QueueView) : Prop where
  inv : v.Inv
  last : ∀ e ∈ v.unhandled.dropLast, e.isStop = false
  leaving : (∃ e ∈ v.handled, e.isStop = true) → v.worker = .ended ∨
    v.unhandled = [] ∧ (v.worker = .handling true ∨ v.worker = .draining true)

variable {v v' : QueueView} {act : QueueAction}

/-- At most one stop event is ever in the queue. -/
def Once (v : QueueView) (act : QueueAction) : Prop :=
  ∀ e, act = .push e → e.isStop = true → ∀ e' ∈ v.pushed, e'.isStop = false

/-- Nothing is pushed behind a stop event that waits. -/
def NotBehind (v : QueueView) (act : QueueAction) : Prop :=
  ∀ e, act = .push e → ∀ e' ∈ v.unhandled, e'.isStop = false

/-- A stop event that was handled does not wait, and there is no other one. -/
theorem Inv.not_waiting (h : v.Inv) {e e' : QueuedEvent} (he : e ∈ v.handled)
    (hstop : e.isStop = true) (he' : e' ∈ v.unhandled) : e'.isStop = false := by
  have hsingle := h.single
  rw [← h.fifo, List.countP_append] at hsingle
  have hpos : 0 < v.handled.countP QueuedEvent.isStop := List.countP_pos_iff.mpr ⟨e, he, hstop⟩
  have hnone : v.unhandled.countP QueuedEvent.isStop = 0 := by omega
  simpa using List.countP_eq_zero.mp hnone e' he'

theorem Inv.step (h : v.Inv) (hstep : QueueStep act v v') (honce : v.Once act) : v'.Inv := by
  cases hstep with
  | push e hfree =>
    refine ⟨?_, ?_, h.stopped⟩
    · dsimp only
      rw [← List.append_assoc, h.fifo]
    · dsimp only
      rw [List.countP_append]
      cases hstop : e.isStop with
      | false =>
        have hone : [e].countP QueuedEvent.isStop = 0 := by simp [hstop]
        rw [hone]
        exact h.single
      | true =>
        -- the first stop event of the queue
        have hnone : v.pushed.countP QueuedEvent.isStop = 0 := by
          apply List.countP_eq_zero.mpr
          intro e' he'
          rw [honce e rfl hstop e' he']
          exact Bool.false_ne_true
        rw [hnone, Nat.zero_add]
        exact List.countP_le_length
  | lock hworker hne =>
    refine ⟨h.fifo, h.single, fun hdone => ?_⟩
    rcases hdone with hdone | hdone | hdone <;> cases hdone
  | @handle _ done e rest hworker hunhandled =>
    refine ⟨?_, h.single, fun hdone => ?_⟩
    · dsimp only
      rw [List.append_assoc, List.singleton_append, ← hunhandled, h.fifo]
    · rcases hdone with hdone | hdone | hdone
      · cases hdone
      · exact ⟨e, List.mem_append_right _ List.mem_cons_self, by simpa using hdone⟩
      · cases hdone
  | @pop _ done hworker =>
    refine ⟨h.fifo, h.single, fun hdone => h.stopped ?_⟩
    rcases hdone with hdone | hdone | hdone
    · cases hdone
    · cases hdone
    · obtain rfl : done = true := by simpa using hdone
      exact .inr (.inl hworker)
  | @leave _ done hworker hnil =>
    refine ⟨h.fifo, h.single, fun hdone => h.stopped ?_⟩
    cases done with
    | true => exact .inr (.inr hworker)
    | false => rcases hdone with hdone | hdone | hdone <;> cases hdone

/-- **One step keeps a queue orderly**, unless it pushes behind a stop event. -/
theorem Orderly.step (h : v.Orderly) (hstep : QueueStep act v v') (honce : v.Once act)
    (hbehind : v.NotBehind act) : v'.Orderly := by
  have hinv := h.inv.step hstep honce
  cases hstep with
  | push e hfree =>
    refine ⟨hinv, ?_, fun hstop => ?_⟩
    · dsimp only
      rw [List.dropLast_concat]
      exact hbehind e rfl
    · -- the worker does not hold the lock, so it has ended
      rcases h.leaving hstop with hended | ⟨-, hbusy⟩
      · exact .inl hended
      · rcases hfree with hw | hw <;> rw [hw] at hbusy <;> rcases hbusy with hb | hb <;> cases hb
  | lock hworker hne =>
    refine ⟨hinv, h.last, fun hstop => ?_⟩
    rcases h.leaving hstop with hended | ⟨hnil, -⟩
    · rw [hworker] at hended
      cases hended
    · exact absurd hnil hne
  | @handle _ done e rest hworker hunhandled =>
    have hlast := h.last
    rw [hunhandled] at hlast
    refine ⟨hinv, fun e' he' => ?_, fun hstop => ?_⟩
    · cases rest with
      | nil => cases he'
      | cons next rest => exact hlast e' (List.mem_cons_of_mem _ he')
    · obtain ⟨x, hx, hxstop⟩ := hstop
      rcases List.mem_append.mp hx with hold | hnew
      · -- a stop event was handled before, so nothing waited
        rcases h.leaving ⟨x, hold, hxstop⟩ with hended | ⟨hnil, -⟩
        · rw [hworker] at hended
          cases hended
        · rw [hunhandled] at hnil
          cases hnil
      · obtain rfl := List.mem_singleton.mp hnew
        cases rest with
        | nil => exact .inr ⟨rfl, .inl (by rw [hxstop])⟩
        | cons next rest =>
          have hfalse := hlast x List.mem_cons_self
          rw [hxstop] at hfalse
          cases hfalse
  | @pop _ done hworker =>
    refine ⟨hinv, h.last, fun hstop => ?_⟩
    rcases h.leaving hstop with hended | ⟨hnil, hbusy⟩
    · rw [hworker] at hended
      cases hended
    · rw [hworker] at hbusy
      rcases hbusy with hb | hb
      · obtain rfl : done = true := by simpa using hb
        exact .inr ⟨hnil, .inr rfl⟩
      · cases hb
  | @leave _ done hworker hnil =>
    refine ⟨hinv, h.last, fun hstop => ?_⟩
    rcases h.leaving hstop with hended | ⟨-, hbusy⟩
    · rw [hworker] at hended
      cases hended
    · rw [hworker] at hbusy
      rcases hbusy with hb | hb
      · cases hb
      · obtain rfl : done = true := by simpa using hb
        exact .inl rfl

/-- Where the only stop event is, is where the list is cut. -/
theorem eq_takeWhile_of_single {l before after : List QueuedEvent} {stop : QueuedEvent}
    (hl : l = before ++ stop :: after) (hstop : stop.isStop = true)
    (hsingle : l.countP QueuedEvent.isStop ≤ 1) :
    before = l.takeWhile fun e => !e.isStop := by
  subst hl
  have hnone : before.countP QueuedEvent.isStop = 0 := by
    rw [List.countP_append, List.countP_cons_of_pos hstop] at hsingle
    omega
  have hall : ∀ e ∈ before, (!e.isStop) = true := by
    intro e he
    simpa using List.countP_eq_zero.mp hnone e he
  rw [List.takeWhile_append_of_pos hall, List.takeWhile_cons_of_neg (by simp [hstop]),
    List.append_nil]

theorem Orderly.stopEnds (h : v.Orderly) : v.StopEnds := by
  refine ⟨⟨v.unhandled, h.inv.fifo⟩, fun before stop after hpushed hstop hended => ?_,
    fun hhandled => ?_⟩
  · -- the worker has handled the only stop event
    obtain ⟨e, he, hes⟩ := h.inv.stopped (.inl hended)
    obtain ⟨done, later, hcut⟩ := List.append_of_mem he
    have hsplit : v.pushed = done ++ e :: (later ++ v.unhandled) := by
      rw [← h.inv.fifo, hcut, List.append_assoc, List.cons_append]
    have hbefore := eq_takeWhile_of_single hpushed hstop h.inv.single
    have hdone := eq_takeWhile_of_single hsplit hes h.inv.single
    rw [hbefore, ← hdone, hcut]
    exact List.prefix_append _ _
  · rcases h.leaving hhandled with hended | ⟨hnil, hbusy⟩
    · rw [hended]
      exact ⟨nofun, fun _ hw => (nomatch hw)⟩
    · rcases hbusy with hw | hw
      · rw [hw]
        exact ⟨nofun, fun _ hw' => (nomatch hw')⟩
      · rw [hw]
        exact ⟨nofun, fun _ hw' _ => by simpa using hw'.symm⟩

/-! ## §2 After an event behind the stop event -/

/-- The stop event is lost: another event is handled after it in the same drain, or was. -/
def Lost (v : QueueView) : Prop :=
  v.worker ≠ .ended ∧
    ((∃ before stop after, v.unhandled = before ++ stop :: after ∧ stop.isStop = true ∧
        after ≠ []) ∨
      (∃ e ∈ v.handled, e.isStop = true) ∧ (v.unhandled = [] →
        v.worker = .waiting ∨ v.worker = .draining false ∨ v.worker = .handling false))

/-- An event pushed behind a stop event that waits makes it lost. -/
theorem Inv.lost_of_push (h : v.Inv) {e : QueuedEvent} (hstep : QueueStep (.push e) v v')
    (hwaits : ∃ stop ∈ v.unhandled, stop.isStop = true) : v'.Lost := by
  cases hstep with
  | push e hfree =>
    obtain ⟨stop, hmem, hstop⟩ := hwaits
    refine ⟨fun hended => ?_, .inl ?_⟩
    · obtain ⟨e', he', hstop'⟩ := h.stopped (.inl hended)
      rw [h.not_waiting he' hstop' hmem] at hstop
      cases hstop
    · obtain ⟨before, after, hcut⟩ := List.append_of_mem hmem
      refine ⟨before, stop, after ++ [e], ?_, hstop, by simp⟩
      dsimp only
      rw [hcut, List.append_assoc, List.cons_append]

/-- **A lost stop event stays lost.** -/
theorem Lost.step (h : v.Lost) (hinv : v.Inv) (hstep : QueueStep act v v') : v'.Lost := by
  obtain ⟨hnot, hlost⟩ := h
  cases hstep with
  -- an event comes behind the stop event
  | push e hfree =>
    refine ⟨hnot, ?_⟩
    rcases hlost with ⟨before, stop, after, hcut, hstop, -⟩ | ⟨hstop, -⟩
    · refine .inl ⟨before, stop, after ++ [e], ?_, hstop, by simp⟩
      dsimp only
      rw [hcut, List.append_assoc, List.cons_append]
    · exact .inr ⟨hstop, fun hnil => absurd hnil (by simp)⟩
  -- the worker locks the queue, with the exit flag false again
  | lock hworker hne =>
    refine ⟨nofun, ?_⟩
    rcases hlost with hcut | ⟨hstop, -⟩
    · exact .inl hcut
    · exact .inr ⟨hstop, fun _ => .inr (.inl rfl)⟩
  -- the stop event is handled with events behind it, or an event after it
  | @handle _ done e rest hworker hunhandled =>
    refine ⟨nofun, ?_⟩
    rcases hlost with ⟨before, stop, after, hcut, hstop, hafter⟩ | ⟨⟨x, hx, hxstop⟩, -⟩
    · rw [hunhandled] at hcut
      cases before with
      | nil =>
        obtain ⟨rfl, rfl⟩ := List.cons.inj hcut
        exact .inr ⟨⟨e, List.mem_append_right _ List.mem_cons_self, hstop⟩,
          fun hnil => absurd hnil hafter⟩
      | cons first before =>
        exact .inl ⟨before, stop, after, (List.cons.inj hcut).2, hstop, hafter⟩
    · have hplain : e.isStop = false :=
        hinv.not_waiting hx hxstop (by rw [hunhandled]; exact List.mem_cons_self)
      exact .inr ⟨⟨x, List.mem_append_left _ hx, hxstop⟩, fun _ => .inr (.inr (by rw [hplain]))⟩
  -- the flag is that of the event popped last
  | @pop _ done hworker =>
    refine ⟨nofun, ?_⟩
    rcases hlost with hcut | ⟨hstop, hflag⟩
    · exact .inl hcut
    · refine .inr ⟨hstop, fun hnil => ?_⟩
      rcases hflag hnil with hw | hw | hw
      · rw [hworker] at hw
        cases hw
      · rw [hworker] at hw
        cases hw
      · obtain rfl : done = false := by simpa [hworker] using hw
        exact .inr (.inl rfl)
  | @leave _ done hworker hnil =>
    rcases hlost with ⟨before, stop, after, hcut, -⟩ | ⟨hstop, hflag⟩
    · rw [hnil] at hcut
      exact absurd hcut.symm (by simp)
    · -- the exit flag was overwritten
      obtain rfl : done = false := by simpa [hworker] using hflag hnil
      exact ⟨nofun, .inr ⟨hstop, fun _ => .inl rfl⟩⟩

end QueueView

/-! ## §3 The queues of a multiplexer -/

namespace MsgMultiplexer

/-- The log entries of one queue. -/
def ofQueue (log : List QueuedEvent) (queueId : Nat) : List QueuedEvent :=
  log.filter (·.queueId = queueId)

/-- One queue of a multiplexer. -/
def view (s : MsgMultiplexer) (queueId : Nat) : QueueView :=
  ⟨(s.m_msgQueues queueId).worker, (s.m_msgQueues queueId).unhandled,
    ofQueue s.pushed queueId, ofQueue s.handled queueId⟩

/-- The event that an I/O task is busy with. -/
def busyWith : IoPc → Option MsgEvent
  | .idle => none
  | .loadNext evt | .loadNextAgain evt _ | .storeNext evt _ _ | .storeMap evt _ | .loadMap evt
  | .enqueue evt _ => some evt

/-- I/O tasks push no stop events. -/
def TasksPlain (s : MsgMultiplexer) : Prop :=
  ∀ task, ∀ evt ∈ busyWith (s.io task), evt.m_eventType ≠ .ET_STOP

/-- The queue that the step pushes an event to. -/
def pushTarget (s : MsgMultiplexer) : Event → Option Nat
  | .io task =>
    match s.io task with
    | .enqueue _ queueId => some queueId
    | _ => none
  | .stop queueId => some queueId
  | _ => none

/-- `stop` is called once: no queue is given a second stop event. -/
def StopOnce (s : MsgMultiplexer) : Event → Prop
  | .stop queueId => ∀ e ∈ s.pushed, e.queueId = queueId → e.isStop = false
  | _ => True

/-- Nothing is pushed to a queue in which a stop event waits. -/
def NotBehindStop (s : MsgMultiplexer) (ev : Event) : Prop :=
  ∀ queueId ∈ s.pushTarget ev, ∀ e ∈ (s.m_msgQueues queueId).unhandled, e.isStop = false

instance (s : MsgMultiplexer) (ev : Event) : Decidable (s.StopOnce ev) :=
  match ev with
  | .stop _ => inferInstanceAs (Decidable (∀ e ∈ s.pushed, _))
  | .onConnect .. | .onDisconnect .. | .onMsg .. | .io _ | .worker .. => .isTrue trivial

instance (s : MsgMultiplexer) (ev : Event) : Decidable (s.NotBehindStop ev) :=
  inferInstanceAs (Decidable (∀ queueId ∈ s.pushTarget ev, _))

/-- The step pushes this event to the queue. -/
def Pushes (s : MsgMultiplexer) (ev : Event) (queueId : Nat) (e : QueuedEvent) : Prop :=
  (∃ task, ev = .io task ∧ s.io task = .enqueue e.event queueId) ∨
    ev = .stop queueId ∧ e.isStop = true

section Views

variable {s s' : MsgMultiplexer} {ev : Event} {queueId : Nat}

theorem ofQueue_concat_self (log : List QueuedEvent) (e : QueuedEvent) :
    ofQueue (log ++ [e]) e.queueId = ofQueue log e.queueId ++ [e] := by
  simp [ofQueue]

theorem ofQueue_concat_ne (log : List QueuedEvent) {e : QueuedEvent} (h : e.queueId ≠ queueId) :
    ofQueue (log ++ [e]) queueId = ofQueue log queueId := by
  simp [ofQueue, h]

theorem view_setQueue_ne (queue : MsgQueue) {q : Nat} (h : q ≠ queueId) :
    (s.setQueue queueId queue).view q = s.view q := by
  simp [view, setQueue, h]

theorem view_setQueue_self (queue : MsgQueue) :
    (s.setQueue queueId queue).view queueId =
      ⟨queue.worker, queue.unhandled, ofQueue s.pushed queueId, ofQueue s.handled queueId⟩ := by
  simp [view, setQueue]

/-- A push is a step of its queue. -/
theorem view_pushFront_self (hfree : (s.m_msgQueues queueId).unlocked = true) (evt : MsgEvent) :
    QueueStep (.push ⟨evt, queueId, connectionOf s.pushed evt⟩) (s.view queueId)
      ((s.pushFront queueId evt).view queueId) := by
  have hworker : (s.view queueId).worker = .waiting ∨ (s.view queueId).worker = .ended := by
    show (s.m_msgQueues queueId).worker = .waiting ∨ (s.m_msgQueues queueId).worker = .ended
    unfold MsgQueue.unlocked at hfree
    cases hw : (s.m_msgQueues queueId).worker with
    | waiting => exact .inl rfl
    | ended => exact .inr rfl
    | draining done => rw [hw] at hfree; cases hfree
    | handling done => rw [hw] at hfree; cases hfree
  have hstep := QueueStep.push ⟨evt, queueId, connectionOf s.pushed evt⟩ hworker
  have hun : MsgQueue.unhandled { s.m_msgQueues queueId with
      m_eventQueue := ⟨evt, queueId, connectionOf s.pushed evt⟩ ::
        (s.m_msgQueues queueId).m_eventQueue } =
      (s.m_msgQueues queueId).unhandled ++ [⟨evt, queueId, connectionOf s.pushed evt⟩] := by
    unfold MsgQueue.unhandled
    rcases hworker with hw | hw <;>
      (change (s.m_msgQueues queueId).worker = _ at hw; simp [hw])
  have hlog := ofQueue_concat_self s.pushed ⟨evt, queueId, connectionOf s.pushed evt⟩
  have hview : (s.pushFront queueId evt).view queueId =
      { s.view queueId with
        unhandled := (s.view queueId).unhandled ++ [⟨evt, queueId, connectionOf s.pushed evt⟩]
        pushed := (s.view queueId).pushed ++ [⟨evt, queueId, connectionOf s.pushed evt⟩] } := by
    simp only [view, pushFront, setQueue, Function.update_self, hun]
    exact congrArg (fun log => QueueView.mk _ _ log _) hlog
  rw [hview]
  exact hstep

/-- It leaves the other queues alone. -/
theorem view_pushFront_ne (evt : MsgEvent) {q : Nat} (hq : q ≠ queueId) :
    (s.pushFront queueId evt).view q = s.view q := by
  have hlog : ofQueue (s.pushed ++ [⟨evt, queueId, connectionOf s.pushed evt⟩]) q =
      ofQueue s.pushed q := ofQueue_concat_ne s.pushed (Ne.symm hq)
  simp [view, pushFront, setQueue, hq, hlog]

/-- A step of a worker is a step of its queue and leaves the others alone; it handles the events
    of its own queue. -/
theorem view_workerStep {action : MsgAction}
    (hkeys : ∀ q, ∀ e ∈ (s.m_msgQueues q).unhandled, e.queueId = q)
    (hstep : s.workerStep queueId action = some s') (q : Nat) :
    s'.view q = s.view q ∨ ∃ act, (∀ e, act ≠ .push e) ∧ QueueStep act (s.view q) (s'.view q) := by
  simp only [MsgMultiplexer.workerStep] at hstep
  cases hworker : (s.m_msgQueues queueId).worker with
  -- the worker locks the queue when an event is there
  | waiting =>
    simp only [hworker] at hstep
    split at hstep
    · cases hstep
    · rename_i hne
      cases hstep
      by_cases hq : q = queueId
      · subst hq
        refine .inr ⟨.lock, by rintro _ ⟨⟩, ?_⟩
        have hun : (s.view q).unhandled ≠ [] := by
          simpa [view, MsgQueue.unhandled, hworker] using hne
        have hlock := QueueStep.lock (v := s.view q) hworker hun
        rw [view_setQueue_self]
        simpa [view, MsgQueue.unhandled, hworker] using hlock
      · exact .inl (view_setQueue_ne _ hq)
  -- the lock is held: the queue is empty, or its oldest event is handled
  | draining done =>
    simp only [hworker] at hstep
    split at hstep
    · rename_i hnil
      cases hstep
      by_cases hq : q = queueId
      · subst hq
        refine .inr ⟨.leave, by rintro _ ⟨⟩, ?_⟩
        have hempty : (s.m_msgQueues q).m_eventQueue = [] := List.getLast?_eq_none_iff.mp hnil
        have hun : (s.view q).unhandled = [] := by
          simp [view, MsgQueue.unhandled, hworker, hempty]
        have hleave := QueueStep.leave (v := s.view q) hworker hun
        rw [view_setQueue_self]
        cases done <;> simpa [view, MsgQueue.unhandled, hworker, hempty] using hleave
      · exact .inl (view_setQueue_ne _ hq)
    · rename_i e hback
      cases hstep
      have hun := unhandled_of_back hworker hback
      have hkey : e.queueId = queueId := hkeys queueId e (by rw [hun]; exact List.mem_cons_self)
      by_cases hq : q = queueId
      · subst hq
        refine .inr ⟨.handle, by rintro _ ⟨⟩, ?_⟩
        have hhandle := QueueStep.handle (v := s.view q) hworker hun
        have hlog : ofQueue (s.handled ++ [e]) q = ofQueue s.handled q ++ [e] := by
          rw [← hkey]
          exact ofQueue_concat_self s.handled e
        have hview : (s.handleBack q e action).view q =
            ⟨.handling e.isStop, (s.m_msgQueues q).m_eventQueue.dropLast.reverse,
              (s.view q).pushed, (s.view q).handled ++ [e]⟩ := by
          simp only [view, handleBack, setQueue, Function.update_self, handleEvt_done, hlog,
            MsgQueue.unhandled]
        rw [hview]
        exact hhandle
      · refine .inl ?_
        have hlog : ofQueue (s.handled ++ [e]) q = ofQueue s.handled q := by
          apply ofQueue_concat_ne
          rw [hkey]
          exact Ne.symm hq
        simp [view, handleBack, setQueue, hq, hlog]
  -- the handler has returned, and the event is popped
  | handling done =>
    simp only [hworker] at hstep
    cases hstep
    by_cases hq : q = queueId
    · subst hq
      refine .inr ⟨.pop, by rintro _ ⟨⟩, ?_⟩
      have hpop := QueueStep.pop (v := s.view q) hworker
      rw [view_setQueue_self]
      simpa [view, MsgQueue.unhandled, hworker] using hpop
    · exact .inl (view_setQueue_ne _ hq)
  | ended =>
    simp only [hworker] at hstep
    cases hstep

/-- **Every step is a step of each queue**, or leaves it alone. -/
theorem step_view (hkeys : ∀ q, ∀ e ∈ (s.m_msgQueues q).unhandled, e.queueId = q)
    (hstep : s.step ev = some s') (q : Nat) :
    s'.view q = s.view q ∨ ∃ act, QueueStep act (s.view q) (s'.view q) ∧
      ∀ e, act = .push e → s.Pushes ev q e := by
  cases ev with
  -- the callbacks only begin an event
  | onConnect task connectionDetails status =>
    simp only [step] at hstep
    repeat' split at hstep
    all_goals cases hstep
    all_goals exact .inl rfl
  | onDisconnect task connectionDetails =>
    simp only [step] at hstep
    split at hstep
    · cases hstep
      exact .inl rfl
    · cases hstep
  | onMsg task connectionDetails msg canSaveMsg =>
    simp only [step] at hstep
    repeat' split at hstep
    all_goals cases hstep
    all_goals exact .inl rfl
  | io task =>
    simp only [step, ioStep] at hstep
    cases hpc : s.io task with
    | enqueue evt queueId =>
      simp only [hpc] at hstep
      -- the event is pushed while the queue is not locked
      split at hstep
      · rename_i hcan
        cases hstep
        have hfree : ((s.setIo task .idle).m_msgQueues queueId).unlocked = true := hcan.2
        by_cases hq : q = queueId
        · subst hq
          refine .inr ⟨_, view_pushFront_self hfree evt, fun e he => .inl ⟨task, rfl, ?_⟩⟩
          cases he
          exact hpc
        · exact .inl (view_pushFront_ne evt hq)
      · cases hstep
    | _ =>
      simp only [hpc] at hstep
      repeat' split at hstep
      all_goals cases hstep
      all_goals exact .inl rfl
  -- the steps of a worker
  | worker queueId action =>
    simp only [step] at hstep
    split at hstep
    · rcases view_workerStep hkeys hstep q with hsame | ⟨act, hplain, hact⟩
      · exact .inl hsame
      · exact .inr ⟨act, hact, fun e he => absurd he (hplain e)⟩
    · cases hstep
  -- `stopMsgMultiplexer` pushes the stop event
  | stop queueId =>
    simp only [step] at hstep
    split at hstep
    · rename_i hcan
      cases hstep
      by_cases hq : q = queueId
      · subst hq
        refine .inr ⟨_, view_pushFront_self hcan.2 _, fun e he => .inr ⟨rfl, ?_⟩⟩
        cases he
        rfl
      · exact .inl (view_pushFront_ne _ hq)
    · cases hstep

/-- A step that is to push an event pushes one. -/
theorem step_push (htarget : s.pushTarget ev = some queueId) (hstep : s.step ev = some s') :
    ∃ e, QueueStep (.push e) (s.view queueId) (s'.view queueId) := by
  cases ev with
  | io task =>
    simp only [pushTarget] at htarget
    split at htarget
    · rename_i evt q hpc
      obtain rfl : q = queueId := Option.some.inj htarget
      simp only [step, ioStep, hpc] at hstep
      split at hstep
      · rename_i hcan
        cases hstep
        have hfree : ((s.setIo task .idle).m_msgQueues q).unlocked = true := hcan.2
        exact ⟨_, view_pushFront_self hfree evt⟩
      · cases hstep
    · cases htarget
  | stop q =>
    obtain rfl : q = queueId := Option.some.inj htarget
    simp only [step] at hstep
    split at hstep
    · rename_i hcan
      cases hstep
      exact ⟨_, view_pushFront_self hcan.2 _⟩
    · cases hstep
  | _ => cases htarget

/-- The event that a task is busy with stays the same until it is pushed. -/
theorem TasksPlain.step (h : s.TasksPlain) (hstep : s.step ev = some s') : s'.TasksPlain := by
  have hset : ∀ {t : MsgMultiplexer} {task : Nat} {pc : IoPc},
      t.io = Function.update s.io task pc →
      (∀ evt ∈ busyWith pc, evt.m_eventType ≠ .ET_STOP) → t.TasksPlain := by
    intro t task pc hio hpc other
    rw [hio]
    by_cases hne : other = task
    · subst hne
      rw [Function.update_self]
      exact hpc
    · rw [Function.update_of_ne hne]
      exact h other
  -- no callback of the data server begins with a stop event
  have hbegin : ∀ {t : MsgMultiplexer} {task : Nat} {pc : IoPc} {evt : MsgEvent},
      t.io = Function.update s.io task pc → busyWith pc = some evt →
      evt.m_eventType ≠ .ET_STOP → t.TasksPlain := by
    intro t task pc evt hio hbusy hplain
    refine hset hio fun evt' hevt => ?_
    obtain rfl := Option.some.inj (hbusy.symm.trans hevt)
    exact hplain
  cases ev with
  | onConnect task connectionDetails status =>
    simp only [MsgMultiplexer.step] at hstep
    repeat' split at hstep
    · cases hstep
      apply hbegin rfl rfl
      rintro ⟨⟩
    · cases hstep
      -- a failed connection is not announced
      exact h
    · cases hstep
  | onDisconnect task connectionDetails =>
    simp only [MsgMultiplexer.step] at hstep
    split at hstep
    · cases hstep
      apply hbegin rfl rfl
      rintro ⟨⟩
    · cases hstep
  | onMsg task connectionDetails msg canSaveMsg =>
    simp only [MsgMultiplexer.step] at hstep
    repeat' split at hstep
    · cases hstep
      apply hbegin rfl rfl
      rintro ⟨⟩
    · cases hstep
      exact h
    · cases hstep
  | io task =>
    have htask := h task
    simp only [MsgMultiplexer.step, ioStep] at hstep
    cases hpc : s.io task with
    | idle =>
      simp only [hpc] at hstep
      cases hstep
    -- the event is pushed, and the task is idle again
    | enqueue evt queueId =>
      simp only [hpc] at hstep
      split at hstep
      · cases hstep
        refine hset rfl ?_
        rintro evt ⟨⟩
      · cases hstep
    -- inside the call the event stays the same
    | _ =>
      rw [hpc] at htask
      simp only [hpc] at hstep
      repeat' split at hstep
      all_goals cases hstep
      all_goals exact hset rfl htask
  | worker queueId action =>
    simp only [MsgMultiplexer.step, workerStep] at hstep
    repeat' split at hstep
    all_goals cases hstep
    all_goals exact h
  -- the stop event comes from `stopMsgMultiplexer`, not from a task
  | stop queueId =>
    simp only [MsgMultiplexer.step] at hstep
    split at hstep
    · cases hstep
      exact h
    · cases hstep

theorem Pushes.target {e : QueuedEvent} (h : s.Pushes ev queueId e) :
    s.pushTarget ev = some queueId := by
  rcases h with ⟨task, rfl, hpc⟩ | ⟨rfl, -⟩
  · simp only [pushTarget, hpc]
  · rfl

/-- What holds of all queues in the runs in which `stop` is called once. -/
structure QueuesInv (s : MsgMultiplexer) : Prop where
  plain : s.TasksPlain
  inv : ∀ q, (s.view q).Inv

theorem QueuesInv.keys (h : s.QueuesInv) (q : Nat) :
    ∀ e ∈ (s.m_msgQueues q).unhandled, e.queueId = q := by
  intro e he
  have hmem : e ∈ ofQueue s.pushed q := by
    have hfifo : (s.view q).handled ++ (s.view q).unhandled = ofQueue s.pushed q := (h.inv q).fifo
    rw [← hfifo]
    exact List.mem_append_right _ he
  simpa using (List.mem_filter.mp hmem).2

/-- A queue is pushed at most one stop event, since `stop` is called once. -/
theorem QueuesInv.once (h : s.QueuesInv) (hOnce : s.StopOnce ev) {q : Nat} {act : QueueAction}
    (hact : ∀ e, act = .push e → s.Pushes ev q e) : (s.view q).Once act := by
  intro e hpush hstop e' he'
  rcases hact e hpush with ⟨task, rfl, hpc⟩ | ⟨rfl, -⟩
  · -- the event of an I/O task is no stop event
    have hplain := h.plain task e.event (by rw [hpc]; rfl)
    exact absurd (of_decide_eq_true hstop) hplain
  · obtain ⟨hmem, hq⟩ := List.mem_filter.mp he'
    exact hOnce e' hmem (by simpa using hq)

theorem QueuesInv.step (h : s.QueuesInv) (hOnce : s.StopOnce ev) (hstep : s.step ev = some s') :
    s'.QueuesInv := by
  refine ⟨h.plain.step hstep, fun q => ?_⟩
  rcases step_view h.keys hstep q with hsame | ⟨act, hact, hpush⟩
  · rw [hsame]
    exact h.inv q
  · exact (h.inv q).step hact (h.once hOnce hpush)

/-- All queues are orderly. -/
structure AllOrderly (s : MsgMultiplexer) : Prop where
  plain : s.TasksPlain
  orderly : ∀ q, (s.view q).Orderly

theorem AllOrderly.step (h : s.AllOrderly) (hOnce : s.StopOnce ev) (hbehind : s.NotBehindStop ev)
    (hstep : s.step ev = some s') : s'.AllOrderly := by
  have hinv : s.QueuesInv := ⟨h.plain, fun q => (h.orderly q).inv⟩
  refine ⟨h.plain.step hstep, fun q => ?_⟩
  rcases step_view hinv.keys hstep q with hsame | ⟨act, hact, hpush⟩
  · rw [hsame]
    exact h.orderly q
  · refine (h.orderly q).step hact (hinv.once hOnce hpush) fun e he => ?_
    exact hbehind q (hpush e he).target

theorem start_orderly (maxConnections concurrency : UInt32) :
    (start maxConnections concurrency).AllOrderly := by
  refine ⟨fun task => nofun, fun q => ⟨⟨rfl, Nat.zero_le _, fun hdone => ?_⟩, nofun, ?_⟩⟩
  · rcases hdone with hdone | hdone | hdone <;> cases hdone
  · rintro ⟨e, he, -⟩
    cases he

theorem start_queuesInv (maxConnections concurrency : UInt32) :
    (start maxConnections concurrency).QueuesInv :=
  ⟨(start_orderly maxConnections concurrency).plain,
    fun q => ((start_orderly maxConnections concurrency).orderly q).inv⟩

end Views

/-! ## §4 Stopping -/

/-- **The stop event ends the worker**: in every run in which `stop` is called once and nothing is
    pushed to a queue while a stop event waits in it, what is asked of the stop event holds of
    every queue. -/
theorem stop_event_ends_worker (maxConnections concurrency : UInt32) (events : List Event)
    (s : MsgMultiplexer)
    (hrun : RunsWith (stepOf step) (fun t ev => t.StopOnce ev ∧ t.NotBehindStop ev)
      (start maxConnections concurrency) events s) (queueId : Nat) :
    (s.view queueId).StopEnds := by
  have horderly : s.AllOrderly := by
    refine hrun.invariant AllOrderly (fun a ev b ha hP hstep => ?_)
      (start_orderly maxConnections concurrency)
    exact ha.step hP.1 hP.2 hstep
  exact (horderly.orderly queueId).stopEnds

/-- A connect event and then the stop event, and the worker ends. -/
theorem stop_event_ends_worker_one_connection :
    ∃ s, RunsWith (stepOf step) (fun t ev => t.StopOnce ev ∧ t.NotBehindStop ev) (start 1 1)
        ([.onConnect 0 ⟨7, 0⟩ 0] ++ List.replicate 6 (.io 0) ++ [.stop 0] ++
          List.replicate 6 (.worker 0 .MSG_CAN_DELETE)) s ∧
      (s.view 0).worker = .ended ∧ (s.view 0).handled.length = 2 ∧ (s.view 0).StopEnds := by
  have hrun : (runWhere step (fun t ev => t.StopOnce ev ∧ t.NotBehindStop ev) (start 1 1)
      ([.onConnect 0 ⟨7, 0⟩ 0] ++ List.replicate 6 (.io 0) ++ [.stop 0] ++
        List.replicate 6 (.worker 0 .MSG_CAN_DELETE))).map
      (fun s => ((s.view 0).worker, (s.view 0).handled.length)) = some (.ended, 2) := by
    decide +kernel
  obtain ⟨s, hs, hend⟩ := Option.map_eq_some_iff.mp hrun
  simp only [Prod.mk.injEq] at hend
  have hruns := runsWith_of_runWhere hs
  exact ⟨s, hruns, hend.1, hend.2, stop_event_ends_worker 1 1 _ s hruns 0⟩

/-- A message is pushed between the stop event and the drain: the worker handles both and waits
    again, so that the join in `stop` does not return. -/
theorem stop_event_overwritten :
    ∃ s, RunsWith (stepOf step) StopOnce (start 1 1)
        ([.onConnect 0 ⟨7, 0⟩ 0] ++ List.replicate 6 (.io 0) ++
          [.stop 0, .onMsg 0 ⟨7, 0⟩ 1000 true, .io 0, .io 0] ++
          List.replicate 8 (.worker 0 .MSG_CAN_DELETE)) s ∧
      ¬ (s.view 0).StopEnds := by
  have hrun : (runWhere step StopOnce (start 1 1)
      ([.onConnect 0 ⟨7, 0⟩ 0] ++ List.replicate 6 (.io 0) ++
        [.stop 0, .onMsg 0 ⟨7, 0⟩ 1000 true, .io 0, .io 0] ++
        List.replicate 8 (.worker 0 .MSG_CAN_DELETE))).map
      (fun s => ((s.view 0).worker, (s.view 0).handled.any QueuedEvent.isStop)) =
        some (.waiting, true) := by
    decide +kernel
  obtain ⟨s, hs, hend⟩ := Option.map_eq_some_iff.mp hrun
  simp only [Prod.mk.injEq] at hend
  refine ⟨s, runsWith_of_runWhere hs, fun h => ?_⟩
  have hhandled : ∃ e ∈ (s.view 0).handled, e.isStop = true := List.any_eq_true.mp hend.2
  exact (h.2.2 hhandled).1 hend.1

/-- **A late event keeps the worker**: after an event was pushed behind a stop event that waits,
    the worker of the queue never ends. -/
theorem late_event_keeps_worker (maxConnections concurrency : UInt32) (events later : List Event)
    (s t u : MsgMultiplexer) (ev : Event) (queueId : Nat)
    (hrun : RunsWith (stepOf step) StopOnce (start maxConnections concurrency) events s)
    (hOnce : s.StopOnce ev) (hpush : s.pushTarget ev = some queueId)
    (hwaits : ∃ e ∈ (s.m_msgQueues queueId).unhandled, e.isStop = true)
    (hstep : s.step ev = some t) (hlater : RunsWith (stepOf step) StopOnce t later u) :
    (u.m_msgQueues queueId).worker ≠ .ended := by
  have hinv : s.QueuesInv := by
    refine hrun.invariant QueuesInv (fun a e b ha hP hab => ?_)
      (start_queuesInv maxConnections concurrency)
    exact ha.step hP hab
  have hlost : (t.view queueId).Lost := by
    obtain ⟨e, he⟩ := step_push hpush hstep
    exact (hinv.inv queueId).lost_of_push he hwaits
  have hend : u.QueuesInv ∧ (u.view queueId).Lost := by
    refine hlater.invariant (fun x => x.QueuesInv ∧ (x.view queueId).Lost)
      (fun a e b ha hP hab => ?_) ⟨hinv.step hOnce hstep, hlost⟩
    refine ⟨ha.1.step hP hab, ?_⟩
    rcases step_view ha.1.keys hab queueId with hsame | ⟨act, hact, -⟩
    · rw [hsame]
      exact ha.2
    · exact ha.2.step (ha.1.inv queueId) hact
  exact hend.2.1

end MsgMultiplexer

end Commutil.Server
