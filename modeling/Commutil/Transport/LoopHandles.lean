import Commutil.Library.EventLoop
import Commutil.Library.Transitions
import Commutil.Transport.DataLoopListener
import Mathlib.Data.List.Nodup

/-!
# The Handles That a Client Gives Its Loop

The loop of a client works on the timers of `data_loop_listener.cpp`, which lie in the
timer map, and on the asynchronous requests of `interruptLoop` and of `sendWriteRequest`
(`data_client.cpp`), which are allocated for it.  Addresses are not used twice.

A timer that is stopped is erased from the map while the loop still closes its handle,
and a request that cannot be sent is freed while the loop knows its handle:
`handles_allocated_iff` says in which runs every handle of the loop lies in allocated
memory.  `requests_taken_up_once` is about the requests themselves, in all runs.
-/

namespace Commutil.Transport

open Commutil.Library

/-! ## §1 The client and its loop -/

/-- Where a handle lies: in the entry of a timer or in a request. -/
inductive HandlePlace where
  | timer (timerId : UInt64)
  | async (address : Nat)
  deriving DecidableEq, Repr

theorem HandlePlace.async_ne_timer {address : Nat} {timerId : UInt64} :
    HandlePlace.async address ≠ .timer timerId := nofun

/-- Whether `onInterruptStatic` or `onAsyncWriteStatic` is called. -/
inductive RequestPurpose where
  | interrupt
  | write
  deriving DecidableEq, Repr

/-- An asynchronous request, with what its `data` leads to. -/
structure LoopRequest (υ : Type) where
  address : Nat
  purpose : RequestPurpose
  userData : υ
  deriving DecidableEq, Repr

/-- What an asynchronous request is answered. -/
structure AsyncEnv where
  asyncRequest : Bool
  /-- The pair of listener and user data is allocated. -/
  listenerPair : Bool
  asyncInit : Bool
  asyncSend : Bool
  deriving DecidableEq, Repr

/-- A client with its loop. -/
structure LoopClient (υ : Type) where
  listener : DataLoopListener
  /-- The requests that are allocated. -/
  requests : List (LoopRequest υ)
  nextAddress : Nat
  loop : EventLoop HandlePlace
  /-- The requests that were sent. -/
  accepted : List (LoopRequest υ)
  /-- The requests whose callback was called. -/
  takenUp : List (LoopRequest υ)

namespace LoopClient

variable {υ : Type}

def new : LoopClient υ := ⟨⟨[], 1⟩, [], 0, .empty, [], []⟩

/-- `startLoopTimer`. -/
def startLoopTimer (s : LoopClient υ) (wakeUpMillis periodMillis : UInt64)
    (uv_timer_init uv_timer_start : Int) : LoopClient υ :=
  let known := (s.listener.find s.listener.m_nextTimerId).isSome
  let (_, timerId, listener) :=
    s.listener.startLoopTimer wakeUpMillis periodMillis uv_timer_init uv_timer_start
  let s := { s with listener }
  if known then s
  else if uv_timer_init < 0 then s
  else
    let s := { s with loop := s.loop.register (.timer timerId) }
    -- closed without a callback, and erased from the map at once
    if uv_timer_start < 0 then { s with loop := s.loop.close (.timer timerId) false } else s

/-- `setNextLoopTimer`. -/
def setNextLoopTimer (s : LoopClient υ) (timerId wakeUpMillis : UInt64) (uv_timer_start : Int) :
    LoopClient υ :=
  { s with listener := (s.listener.setNextLoopTimer timerId wakeUpMillis uv_timer_start).2 }

/-- `stopLoopTimer`. -/
def stopLoopTimer (s : LoopClient υ) (timerId : UInt64) (uv_timer_stop : Int) : LoopClient υ :=
  let (rc, listener) := s.listener.stopLoopTimer timerId uv_timer_stop
  let s := { s with listener }
  if rc ≠ .ok then s else { s with loop := s.loop.close (.timer timerId) false }

/-- `onTimerStatic`. -/
def onTimer (s : LoopClient υ) (timerId : UInt64) : LoopClient υ :=
  match s.listener.fire timerId with
  | none => s
  | some listener => { s with listener }

/-- What `interruptLoop` and `sendWriteRequest` have in common. -/
def sendAsync (s : LoopClient υ) (purpose : RequestPurpose) (failure : ErrorCode) (userData : υ)
    (env : AsyncEnv) : ErrorCode × LoopClient υ :=
  if !env.asyncRequest || !env.listenerPair then (.nomem, s)
  else
    let request := ⟨s.nextAddress, purpose, userData⟩
    let s := { s with nextAddress := s.nextAddress + 1 }
    if !env.asyncInit then (failure, s)
    else
      let s := { s with loop := s.loop.register (.async request.address) }
      -- the request is freed, and its handle is not closed
      if !env.asyncSend then (failure, s)
      else
        (.ok, { s with
          requests := s.requests ++ [request]
          loop := s.loop.send (.async request.address)
          accepted := s.accepted ++ [request] })

/-- `interruptLoop`. -/
def interruptLoop (s : LoopClient υ) (userData : υ) (env : AsyncEnv) : ErrorCode × LoopClient υ :=
  s.sendAsync .interrupt .systemFailure userData env

/-- `sendWriteRequest`, which has no listener to keep. -/
def sendWriteRequest (s : LoopClient υ) (userData : υ) (env : AsyncEnv) :
    ErrorCode × LoopClient υ :=
  s.sendAsync .write .transportError userData { env with listenerPair := true }

/-- `onInterruptStatic` and `onAsyncWriteStatic`, which close the request; the callback of that frees
    it. -/
def onAsync (s : LoopClient υ) (address : Nat) : LoopClient υ :=
  if s.loop (.async address) = some .due then
    match s.requests.find? fun request => request.address = address with
    | none => s
    | some request =>
      { s with
        loop := s.loop.close (.async address) true
        takenUp := s.takenUp ++ [request] }
  else s

/-- The loop calls the callbacks of closed handles. -/
def turn (s : LoopClient υ) : LoopClient υ :=
  { s with
    requests := s.requests.filter fun request =>
      s.loop (.async request.address) ≠ some (.closing true)
    loop := s.loop.turn }

/-- The end of `stopTransportLoop`, where the I/O thread is gone: `walk_and_close`, and a last
    turn. -/
def closeAndTurn (s : LoopClient υ) : LoopClient υ := { s with loop := s.loop.closeAll }.turn

/-- The requests whose callback is to be called. -/
def waiting (s : LoopClient υ) : List (LoopRequest υ) :=
  s.requests.filter fun request => s.loop (.async request.address) = some .due

/-- A place is allocated. -/
def Allocated (s : LoopClient υ) : HandlePlace → Prop
  | .timer timerId => (s.listener.find timerId).isSome
  | .async address => ∃ request ∈ s.requests, request.address = address

end LoopClient

/-- A call on a client, or a callback of its loop. -/
inductive LoopEvent (υ : Type) where
  | startLoopTimer (wakeUpMillis periodMillis : UInt64) (uv_timer_init uv_timer_start : Int)
  | setNextLoopTimer (timerId wakeUpMillis : UInt64) (uv_timer_start : Int)
  | stopLoopTimer (timerId : UInt64) (uv_timer_stop : Int)
  | interruptLoop (userData : υ) (env : AsyncEnv)
  | sendWriteRequest (userData : υ) (env : AsyncEnv)
  | onTimer (timerId : UInt64)
  | onAsync (address : Nat)
  | turn
  deriving DecidableEq, Repr

namespace LoopClient

variable {υ : Type}

/-- One event. -/
def advance (s : LoopClient υ) : LoopEvent υ → LoopClient υ
  | .startLoopTimer wakeUpMillis periodMillis uv_timer_init uv_timer_start =>
    s.startLoopTimer wakeUpMillis periodMillis uv_timer_init uv_timer_start
  | .setNextLoopTimer timerId wakeUpMillis uv_timer_start =>
    s.setNextLoopTimer timerId wakeUpMillis uv_timer_start
  | .stopLoopTimer timerId uv_timer_stop => s.stopLoopTimer timerId uv_timer_stop
  | .interruptLoop userData env => (s.interruptLoop userData env).2
  | .sendWriteRequest userData env => (s.sendWriteRequest userData env).2
  | .onTimer timerId => s.onTimer timerId
  | .onAsync address => s.onAsync address
  | .turn => s.turn

end LoopClient

/-! ## §2 The timer map -/

namespace DataLoopListener

variable {d : DataLoopListener} {timerId k : UInt64}

theorem find_append (timers : List TimerData) (nextTimerId : UInt64) (timer : TimerData) :
    (find ⟨timers ++ [timer], nextTimerId⟩ k).isSome ↔
      (find ⟨timers, nextTimerId⟩ k).isSome ∨ k = timer.m_timerId := by
  simp only [find, List.find?_append, Option.isSome_or, Bool.or_eq_true, List.find?_singleton]
  by_cases hk : timer.m_timerId = k
  · simp [hk]
  · simp [hk, Ne.symm hk]

theorem find_erase : ((d.erase timerId).find k).isSome ↔ (d.find k).isSome ∧ k ≠ timerId := by
  simp only [find, erase, List.find?_isSome, List.mem_filter, decide_eq_true_eq, ne_eq]
  constructor
  · rintro ⟨timer, ⟨hmem, hne⟩, rfl⟩
    exact ⟨⟨timer, hmem, rfl⟩, hne⟩
  · rintro ⟨⟨timer, hmem, rfl⟩, hne⟩
    exact ⟨timer, ⟨hmem, hne⟩, rfl⟩

/-- A changed entry keeps its id. -/
theorem find_update {f : TimerData → TimerData} (hf : ∀ timer, (f timer).m_timerId = timer.m_timerId) :
    ((d.update timerId f).find k).isSome ↔ (d.find k).isSome := by
  have hid : ∀ timer : TimerData,
      (if timer.m_timerId = timerId then f timer else timer).m_timerId = timer.m_timerId := by
    intro timer
    split
    · exact hf timer
    · rfl
  simp [find, update, hid]

/-- Neither `setNextLoopTimer` nor a timer that fires adds or removes an entry. -/
theorem find_setNextLoopTimer (wakeUpMillis : UInt64) (uv_timer_start : Int) :
    ((d.setNextLoopTimer timerId wakeUpMillis uv_timer_start).2.find k).isSome ↔
      (d.find k).isSome := by
  unfold setNextLoopTimer
  split
  · rfl
  · split
    · rfl
    · split
      · rfl
      · exact find_update fun _ => rfl

theorem find_fire {d' : DataLoopListener} (h : d.fire timerId = some d') :
    (d'.find k).isSome ↔ (d.find k).isSome := by
  unfold fire at h
  split at h
  · cases h
  · split at h
    · cases h
    · obtain rfl := Option.some.inj h
      exact find_update fun _ => rfl

end DataLoopListener

namespace LoopClient

variable {υ : Type}

/-! ## §3 What holds in every run -/

/-- The loop knows the timers of the map and the requests that are allocated, and every request that
    was sent is taken up or waits. -/
structure Accounted (s : LoopClient υ) : Prop where
  timers : ∀ timerId, (s.listener.find timerId).isSome → s.loop (.timer timerId) = some .quiet
  fresh : ∀ address, s.nextAddress ≤ address → s.loop (.async address) = none
  distinct : (s.requests.map LoopRequest.address).Nodup
  known : ∀ request ∈ s.requests, s.loop (.async request.address) = some .due ∨
    s.loop (.async request.address) = some (.closing true)
  due : ∀ address, s.loop (.async address) = some .due →
    ∃ request ∈ s.requests, request.address = address
  acceptedBelow : ∀ request ∈ s.accepted, request.address < s.nextAddress
  acceptedOnce : (s.accepted.map LoopRequest.address).Nodup
  perm : s.accepted.Perm (s.takenUp ++ s.waiting)

theorem new_accounted : (new : LoopClient υ).Accounted where
  timers _ h := by cases h
  fresh _ _ := rfl
  distinct := List.nodup_nil
  known _ h := by cases h
  due _ h := by cases h
  acceptedBelow _ h := by cases h
  acceptedOnce := List.nodup_nil
  perm := .refl _

namespace Accounted

variable {s : LoopClient υ}

/-- The requests lie below the addresses not used yet. -/
theorem address_lt (h : s.Accounted) {request : LoopRequest υ} (hmem : request ∈ s.requests) :
    request.address < s.nextAddress := by
  by_contra hle
  have hnone := h.fresh _ (Nat.not_lt.mp hle)
  obtain hdue | hclosing := h.known request hmem
  · rw [hnone] at hdue
    cases hdue
  · rw [hnone] at hclosing
    cases hclosing

/-- What is done to timers does not concern the requests. -/
theorem changeTimers (h : s.Accounted) {listener : DataLoopListener}
    {loop : EventLoop HandlePlace}
    (hasync : ∀ address, loop (.async address) = s.loop (.async address))
    (htimers : ∀ timerId, (listener.find timerId).isSome → loop (.timer timerId) = some .quiet) :
    ({ s with listener, loop } : LoopClient υ).Accounted where
  timers := htimers
  fresh address hle := (hasync address).trans (h.fresh address hle)
  distinct := h.distinct
  known request hmem := by
    simp only [hasync]
    exact h.known request hmem
  due address hdue := h.due address ((hasync address).symm.trans hdue)
  acceptedBelow := h.acceptedBelow
  acceptedOnce := h.acceptedOnce
  perm := by
    simp only [waiting, hasync]
    exact h.perm

/-- A change of the timer map that keeps its ids. -/
theorem changeListener (h : s.Accounted) {listener : DataLoopListener}
    (hfind : ∀ timerId, (listener.find timerId).isSome ↔ (s.listener.find timerId).isSome) :
    ({ s with listener } : LoopClient υ).Accounted :=
  @changeTimers υ s h listener s.loop (fun _ => rfl) fun timerId hsome =>
    h.timers timerId ((hfind timerId).mp hsome)

end Accounted

/-! ### Timers -/

/-- What `startLoopTimer` does: nothing to the loop, a handle that is closed at once, or a timer. -/
theorem startLoopTimer_cases (s : LoopClient υ) (wakeUpMillis periodMillis : UInt64)
    (uv_timer_init uv_timer_start : Int) :
    let place := HandlePlace.timer s.listener.m_nextTimerId
    let absent := s.listener.find s.listener.m_nextTimerId = none
    ∃ listener : DataLoopListener,
      (¬ (absent ∧ 0 ≤ uv_timer_init) ∧
        (∀ k, (listener.find k).isSome ↔ (s.listener.find k).isSome) ∧
        s.startLoopTimer wakeUpMillis periodMillis uv_timer_init uv_timer_start =
          { s with listener }) ∨
      (absent ∧ 0 ≤ uv_timer_init ∧ uv_timer_start < 0 ∧
        (∀ k, (listener.find k).isSome ↔ (s.listener.find k).isSome) ∧
        s.startLoopTimer wakeUpMillis periodMillis uv_timer_init uv_timer_start =
          { s with listener, loop := (s.loop.register place).close place false }) ∨
      (absent ∧ 0 ≤ uv_timer_init ∧ 0 ≤ uv_timer_start ∧
        (∀ k, (listener.find k).isSome ↔
          (s.listener.find k).isSome ∨ k = s.listener.m_nextTimerId) ∧
        s.startLoopTimer wakeUpMillis periodMillis uv_timer_init uv_timer_start =
          { s with listener, loop := s.loop.register place }) := by
  intro place absent
  let counted : DataLoopListener :=
    { s.listener with m_nextTimerId := s.listener.m_nextTimerId + 1 }
  have hcounted : ∀ k, counted.find k = s.listener.find k := fun _ => rfl
  unfold startLoopTimer DataLoopListener.startLoopTimer
  cases hfind : s.listener.find s.listener.m_nextTimerId with
  | some timer =>
    -- the timer number is in use; only the counter moves
    refine ⟨counted, .inl ⟨fun hno => ?_, fun k => Iff.rfl, ?_⟩⟩
    · cases hfind.symm.trans hno.1
    · simp [hcounted, hfind, counted]
  | none =>
    by_cases hinit : uv_timer_init < 0
    · -- the handle was never registered
      refine ⟨counted, .inl ⟨fun hno => Int.not_le.mpr hinit hno.2, fun k => Iff.rfl, ?_⟩⟩
      simp [hcounted, hfind, hinit, counted]
    have hinit' : 0 ≤ uv_timer_init := Int.not_lt.mp hinit
    by_cases hstart : uv_timer_start < 0
    · -- the handle is registered, and closed at once
      refine ⟨counted, .inr (.inl ⟨hfind, hinit', hstart, fun k => Iff.rfl, ?_⟩)⟩
      simp [hcounted, hfind, hinit, hstart, counted, place]
    · -- the timer runs and is listed
      let timer : TimerData := ⟨s.listener.m_nextTimerId,
        if periodMillis = 0 then .oneShot else .periodic, some wakeUpMillis⟩
      refine ⟨{ counted with m_timerMap := s.listener.m_timerMap ++ [timer] },
        .inr (.inr ⟨hfind, hinit', Int.not_lt.mp hstart, fun k => ?_, ?_⟩)⟩
      · exact DataLoopListener.find_append s.listener.m_timerMap _ timer
      · simp [hcounted, hfind, hinit, hstart, counted, place, timer]

/-- A timer that `stopLoopTimer` stops. -/
def StopsTimer (s : LoopClient υ) (timerId : UInt64) (uv_timer_stop : Int) : Prop :=
  (s.listener.find timerId).map TimerData.m_timerType = some .periodic ∧ 0 ≤ uv_timer_stop

instance (s : LoopClient υ) (timerId : UInt64) (uv_timer_stop : Int) :
    Decidable (s.StopsTimer timerId uv_timer_stop) :=
  inferInstanceAs (Decidable (_ ∧ _))

/-- What `stopLoopTimer` does: nothing, or the entry goes and the handle is closed. -/
theorem stopLoopTimer_cases (s : LoopClient υ) (timerId : UInt64) (uv_timer_stop : Int) :
    (¬ s.StopsTimer timerId uv_timer_stop ∧ s.stopLoopTimer timerId uv_timer_stop = s) ∨
      (s.StopsTimer timerId uv_timer_stop ∧ s.stopLoopTimer timerId uv_timer_stop =
        { s with
          listener := s.listener.erase timerId
          loop := s.loop.close (.timer timerId) false }) := by
  unfold stopLoopTimer DataLoopListener.stopLoopTimer StopsTimer
  cases hfind : s.listener.find timerId with
  | none => exact .inl ⟨fun hno => (nomatch hno.1), rfl⟩
  | some timer =>
    by_cases htype : timer.m_timerType = .periodic
    · by_cases hstop : uv_timer_stop < 0
      · exact .inl ⟨fun hno => Int.not_le.mpr hstop hno.2, by simp [htype, hstop]⟩
      · exact .inr ⟨⟨congrArg some htype, Int.not_lt.mp hstop⟩, by simp [htype, hstop]⟩
    · exact .inl ⟨fun hno => htype (Option.some.inj hno.1), by simp [htype]⟩

variable {s : LoopClient υ}

theorem Accounted.startLoopTimer (h : s.Accounted) (wakeUpMillis periodMillis : UInt64)
    (uv_timer_init uv_timer_start : Int) :
    (s.startLoopTimer wakeUpMillis periodMillis uv_timer_init uv_timer_start).Accounted := by
  obtain ⟨listener, ⟨-, hfind, hstep⟩ | ⟨habsent, -, -, hfind, hstep⟩ |
    ⟨-, -, -, hfind, hstep⟩⟩ :=
    s.startLoopTimer_cases wakeUpMillis periodMillis uv_timer_init uv_timer_start
  all_goals rw [hstep]
  · exact h.changeListener hfind
  · -- the entry is not in the map
    refine h.changeTimers (fun address => ?_) fun timerId hsome => ?_
    · rw [EventLoop.close_of_ne _ _ HandlePlace.async_ne_timer,
        EventLoop.register_of_ne _ HandlePlace.async_ne_timer]
    · rw [hfind] at hsome
      have hne : HandlePlace.timer timerId ≠ .timer s.listener.m_nextTimerId := by
        rintro heq
        rw [HandlePlace.timer.inj heq, habsent] at hsome
        cases hsome
      rw [EventLoop.close_of_ne _ _ hne, EventLoop.register_of_ne _ hne]
      exact h.timers timerId hsome
  · refine h.changeTimers
      (fun address => EventLoop.register_of_ne _ HandlePlace.async_ne_timer)
      fun timerId hsome => ?_
    by_cases hnext : timerId = s.listener.m_nextTimerId
    · rw [hnext]
      simp
    · rw [EventLoop.register_of_ne _ fun heq => hnext (HandlePlace.timer.inj heq)]
      exact h.timers timerId (((hfind timerId).mp hsome).resolve_right hnext)

theorem Accounted.stopLoopTimer (h : s.Accounted) (timerId : UInt64) (uv_timer_stop : Int) :
    (s.stopLoopTimer timerId uv_timer_stop).Accounted := by
  obtain ⟨-, hstep⟩ | ⟨-, hstep⟩ := s.stopLoopTimer_cases timerId uv_timer_stop
  · rw [hstep]
    exact h
  · rw [hstep]
    refine h.changeTimers
      (fun address => EventLoop.close_of_ne _ _ HandlePlace.async_ne_timer)
      fun k hsome => ?_
    obtain ⟨hsome, hne⟩ := DataLoopListener.find_erase.mp hsome
    rw [EventLoop.close_of_ne _ _ fun heq => hne (HandlePlace.timer.inj heq)]
    exact h.timers k hsome

theorem Accounted.onTimer (h : s.Accounted) (timerId : UInt64) : (s.onTimer timerId).Accounted := by
  unfold LoopClient.onTimer
  cases hfire : s.listener.fire timerId with
  | none => exact h
  | some listener => exact h.changeListener fun _ => DataLoopListener.find_fire hfire

/-! ### Requests -/

/-- What a send does: nothing but that an address may be used up, a handle that stays behind, or a
    request. -/
theorem sendAsync_cases (s : LoopClient υ) (purpose : RequestPurpose) (failure : ErrorCode)
    (userData : υ) (env : AsyncEnv) :
    let place := HandlePlace.async s.nextAddress
    let initialized := env.asyncRequest = true ∧ env.listenerPair = true ∧ env.asyncInit = true
    let t := (s.sendAsync purpose failure userData env).2
    (¬ initialized ∧ (t = s ∨ t = { s with nextAddress := s.nextAddress + 1 })) ∨
      (initialized ∧ env.asyncSend = false ∧
        t = { s with nextAddress := s.nextAddress + 1, loop := s.loop.register place }) ∨
      (initialized ∧ env.asyncSend = true ∧ t =
        { s with
          nextAddress := s.nextAddress + 1
          requests := s.requests ++ [⟨s.nextAddress, purpose, userData⟩]
          loop := (s.loop.register place).send place
          accepted := s.accepted ++ [⟨s.nextAddress, purpose, userData⟩] }) := by
  obtain ⟨asyncRequest, listenerPair, asyncInit, asyncSend⟩ := env
  cases asyncRequest <;> cases listenerPair <;> cases asyncInit <;> cases asyncSend <;>
    simp [sendAsync]

/-- A request does not lie where the next one will. -/
theorem Accounted.place_ne_next (h : s.Accounted) {request : LoopRequest υ}
    (hmem : request ∈ s.requests) :
    HandlePlace.async request.address ≠ .async s.nextAddress :=
  fun heq => Nat.ne_of_lt (h.address_lt hmem) (HandlePlace.async.inj heq)

/-- The handle of the next address is initialized and the request freed. -/
theorem Accounted.leaveHandle (h : s.Accounted) :
    ({ s with
      nextAddress := s.nextAddress + 1
      loop := s.loop.register (.async s.nextAddress) } : LoopClient υ).Accounted := by
  have hsame : ∀ request ∈ s.requests,
      s.loop.register (.async s.nextAddress) (.async request.address) =
        s.loop (.async request.address) :=
    fun request hmem => EventLoop.register_of_ne _ (h.place_ne_next hmem)
  constructor
  case timers =>
    intro timerId hsome
    dsimp only
    rw [EventLoop.register_of_ne _ HandlePlace.async_ne_timer.symm]
    exact h.timers timerId hsome
  case fresh =>
    intro address hle
    dsimp only at hle ⊢
    rw [EventLoop.register_of_ne _ fun heq => by cases heq; omega]
    exact h.fresh address (by omega)
  case distinct => exact h.distinct
  case known =>
    intro request hmem
    dsimp only
    rw [hsame request hmem]
    exact h.known request hmem
  case due =>
    intro address hdue
    dsimp only at hdue
    by_cases hnext : address = s.nextAddress
    · -- nobody asked for its callback
      rw [hnext, EventLoop.register_self] at hdue
      cases hdue
    · rw [EventLoop.register_of_ne _ fun heq => hnext (HandlePlace.async.inj heq)] at hdue
      exact h.due address hdue
  case acceptedBelow => exact fun request hmem => Nat.lt_succ_of_lt (h.acceptedBelow request hmem)
  case acceptedOnce => exact h.acceptedOnce
  case perm =>
    have hwaiting : s.requests.filter (fun request =>
        s.loop.register (.async s.nextAddress) (.async request.address) = some .due) = s.waiting :=
      List.filter_congr fun request hmem => by rw [hsame request hmem]
    rw [waiting, hwaiting]
    exact h.perm

/-- A request is sent. -/
theorem Accounted.addRequest (h : s.Accounted) {request : LoopRequest υ}
    (haddress : request.address = s.nextAddress) :
    ({ s with
      nextAddress := s.nextAddress + 1
      requests := s.requests ++ [request]
      loop := (s.loop.register (.async s.nextAddress)).send (.async s.nextAddress)
      accepted := s.accepted ++ [request] } : LoopClient υ).Accounted := by
  -- the new handle is due, and the others are as before
  generalize hloop : (s.loop.register (.async s.nextAddress)).send (.async s.nextAddress) = loop
  have hself : loop (.async s.nextAddress) = some .due := by
    rw [← hloop, EventLoop.send_self, EventLoop.register_self]
    rfl
  have hother : ∀ place, place ≠ .async s.nextAddress → loop place = s.loop place := by
    intro place hne
    rw [← hloop, EventLoop.send_of_ne _ hne, EventLoop.register_of_ne _ hne]
  constructor
  case timers =>
    intro timerId hsome
    exact (hother _ HandlePlace.async_ne_timer.symm).trans (h.timers timerId hsome)
  case fresh =>
    -- addresses are not used again
    intro address hle
    dsimp only at hle ⊢
    rw [hother _ fun heq => by cases heq; omega]
    exact h.fresh address (by omega)
  case distinct =>
    rw [List.map_append, List.nodup_append]
    refine ⟨h.distinct, List.nodup_singleton _, fun a ha b hb => ?_⟩
    obtain ⟨other, hmem, rfl⟩ := List.mem_map.mp ha
    rw [List.mem_singleton.mp hb, haddress]
    exact Nat.ne_of_lt (h.address_lt hmem)
  case known =>
    intro other hmem
    dsimp only
    obtain hmem | hmem := List.mem_append.mp hmem
    · rw [hother _ (h.place_ne_next hmem)]
      exact h.known other hmem
    · rw [List.mem_singleton.mp hmem, haddress]
      exact .inl hself
  case due =>
    intro address hdue
    by_cases hnext : address = s.nextAddress
    · exact ⟨request, by simp, haddress.trans hnext.symm⟩
    · dsimp only at hdue
      rw [hother _ fun heq => hnext (HandlePlace.async.inj heq)] at hdue
      obtain ⟨other, hmem, heq⟩ := h.due address hdue
      exact ⟨other, List.mem_append_left _ hmem, heq⟩
  case acceptedBelow =>
    intro other hmem
    obtain hmem | hmem := List.mem_append.mp hmem
    · exact Nat.lt_succ_of_lt (h.acceptedBelow other hmem)
    · rw [List.mem_singleton.mp hmem, haddress]
      exact Nat.lt_succ_self _
  case acceptedOnce =>
    rw [List.map_append, List.nodup_append]
    refine ⟨h.acceptedOnce, List.nodup_singleton _, fun a ha b hb => ?_⟩
    obtain ⟨other, hmem, rfl⟩ := List.mem_map.mp ha
    rw [List.mem_singleton.mp hb, haddress]
    exact Nat.ne_of_lt (h.acceptedBelow other hmem)
  -- the new request waits, and the others wait as before
  case perm =>
    have hwaiting : (s.requests ++ [request]).filter
        (fun other => loop (.async other.address) = some .due) = s.waiting ++ [request] := by
      rw [List.filter_append]
      congr 1
      · exact List.filter_congr fun other hmem => by rw [hother _ (h.place_ne_next hmem)]
      · simp [haddress, hself]
    rw [waiting, hwaiting, ← List.append_assoc]
    exact h.perm.append_right _

theorem Accounted.sendAsync (h : s.Accounted) (purpose : RequestPurpose) (failure : ErrorCode)
    (userData : υ) (env : AsyncEnv) :
    (s.sendAsync purpose failure userData env).2.Accounted := by
  obtain ⟨-, hstep | hstep⟩ | ⟨-, -, hstep⟩ | ⟨-, -, hstep⟩ :=
    s.sendAsync_cases purpose failure userData env
  · rw [hstep]
    exact h
  · rw [hstep]
    exact { h with
      fresh := fun address hle => h.fresh address (Nat.le_of_succ_le hle)
      acceptedBelow := fun request hmem => Nat.lt_succ_of_lt (h.acceptedBelow request hmem) }
  · rw [hstep]
    exact h.leaveHandle
  · rw [hstep]
    exact h.addRequest rfl

/-- What a callback of a request does: nothing, or it takes up a request that waits. -/
theorem onAsync_cases (h : s.Accounted) (address : Nat) :
    (s.loop (.async address) ≠ some .due ∧ s.onAsync address = s) ∨
      ∃ request ∈ s.requests, request.address = address ∧
        s.loop (.async address) = some .due ∧
        s.onAsync address =
          { s with
            loop := s.loop.close (.async address) true
            takenUp := s.takenUp ++ [request] } := by
  unfold onAsync
  by_cases hdue : s.loop (.async address) = some .due
  · rw [if_pos hdue]
    obtain ⟨request, hmem, haddress⟩ := h.due address hdue
    cases hfind : s.requests.find? fun request => request.address = address with
    | none => exact absurd haddress (by simpa using List.find?_eq_none.mp hfind request hmem)
    | some found =>
      have hfound := List.find?_some hfind
      exact .inr ⟨found, List.mem_of_find?_eq_some hfind, by simpa using hfound, hdue, rfl⟩
  · rw [if_neg hdue]
    exact .inl ⟨hdue, rfl⟩

/-- Requests are told apart by their addresses. -/
theorem Accounted.eq_of_address (h : s.Accounted) {request other : LoopRequest υ}
    (hmem : request ∈ s.requests) (hmem' : other ∈ s.requests)
    (haddress : request.address = other.address) : request = other :=
  List.inj_on_of_nodup_map h.distinct hmem hmem' haddress

/-- A request is taken up, and its handle closed. -/
theorem Accounted.takeUp (h : s.Accounted) {request : LoopRequest υ} (hmem : request ∈ s.requests)
    (hdue : s.loop (.async request.address) = some .due) :
    ({ s with
      loop := s.loop.close (.async request.address) true
      takenUp := s.takenUp ++ [request] } : LoopClient υ).Accounted := by
  -- the handle of the request is closing, and the others are as before
  generalize hloop : s.loop.close (.async request.address) true = loop
  have hself : loop (.async request.address) = some (.closing true) := by
    rw [← hloop, EventLoop.close_self, hdue]
    rfl
  have hother : ∀ place, place ≠ .async request.address → loop place = s.loop place := by
    intro place hne
    rw [← hloop, EventLoop.close_of_ne _ _ hne]
  constructor
  case timers =>
    intro timerId hsome
    exact (hother _ HandlePlace.async_ne_timer.symm).trans (h.timers timerId hsome)
  case fresh =>
    intro address hle
    dsimp only at hle
    have hlt := h.address_lt hmem
    exact (hother _ fun heq => by cases heq; omega).trans (h.fresh address hle)
  case distinct => exact h.distinct
  case known =>
    intro other hmem'
    dsimp only
    by_cases heq : other.address = request.address
    · rw [heq]
      exact .inr hself
    · rw [hother _ fun hplace => heq (HandlePlace.async.inj hplace)]
      exact h.known other hmem'
  -- only the handle of the request is no longer due
  case due =>
    intro address hdue'
    dsimp only at hdue'
    by_cases heq : address = request.address
    · rw [heq, hself] at hdue'
      cases hdue'
    · rw [hother _ fun hplace => heq (HandlePlace.async.inj hplace)] at hdue'
      exact h.due address hdue'
  case acceptedBelow => exact h.acceptedBelow
  case acceptedOnce => exact h.acceptedOnce
  case perm =>
    have hnodup : s.requests.Nodup := h.distinct.of_map _
    -- the others wait as before
    have hwaiting : s.waiting.Perm
        (request :: s.requests.filter fun other => loop (.async other.address) = some .due) := by
      have hnew : request ∉ s.requests.filter fun other =>
          loop (.async other.address) = some .due := by
        simp [hself]
      refine (List.perm_ext_iff_of_nodup (hnodup.filter _)
        (List.nodup_cons.mpr ⟨hnew, hnodup.filter _⟩)).mpr fun other => ?_
      simp only [List.mem_cons, List.mem_filter, decide_eq_true_eq]
      by_cases heq : other = request
      · simp [heq, hmem, hdue]
      · simp only [heq, false_or]
        refine and_congr_right fun hmem' => ?_
        rw [hother _ fun hplace => heq (h.eq_of_address hmem' hmem (HandlePlace.async.inj hplace))]
    refine h.perm.trans ?_
    dsimp only [waiting]
    rw [List.append_assoc]
    exact hwaiting.append_left _

theorem Accounted.onAsync (h : s.Accounted) (address : Nat) : (s.onAsync address).Accounted := by
  obtain ⟨-, hstep⟩ | ⟨request, hmem, rfl, hdue, hstep⟩ := onAsync_cases h address
  · rw [hstep]
    exact h
  · rw [hstep]
    exact h.takeUp hmem hdue

/-- The requests that wait are not being closed. -/
theorem Accounted.turn_requests (h : s.Accounted) : s.turn.requests = s.waiting := by
  refine List.filter_congr fun request hmem => ?_
  obtain hdue | hclosing := h.known request hmem
  · simp [hdue]
  · simp [hclosing]

theorem Accounted.turn (h : s.Accounted) : s.turn.Accounted := by
  have hkept : ∀ place, s.loop.turn place = some .due ↔ s.loop place = some .due := by
    intro place
    simp [EventLoop.turn, Option.filter_eq_some_iff, HandleState.isClosing]
  constructor
  case timers =>
    intro timerId hsome
    simp [LoopClient.turn, EventLoop.turn, h.timers timerId hsome, HandleState.isClosing]
  case fresh =>
    intro address hle
    simp [LoopClient.turn, EventLoop.turn, h.fresh address hle]
  case distinct => exact h.distinct.sublist (List.filter_sublist.map _)
  case known =>
    intro request hmem
    rw [h.turn_requests] at hmem
    obtain ⟨-, hdue⟩ := List.mem_filter.mp hmem
    exact .inl ((hkept _).mpr (of_decide_eq_true hdue))
  case due =>
    intro address hdue
    have hdue' := (hkept _).mp hdue
    obtain ⟨request, hmem, rfl⟩ := h.due address hdue'
    refine ⟨request, ?_, rfl⟩
    rw [h.turn_requests]
    exact List.mem_filter.mpr ⟨hmem, decide_eq_true hdue'⟩
  case acceptedBelow => exact h.acceptedBelow
  case acceptedOnce => exact h.acceptedOnce
  case perm =>
    have hwaiting : s.turn.waiting = s.waiting := by
      rw [waiting, h.turn_requests, waiting, List.filter_filter]
      exact List.filter_congr fun request _ => by simp [LoopClient.turn, hkept]
    rw [hwaiting]
    exact h.perm

theorem Accounted.advance (h : s.Accounted) (event : LoopEvent υ) : (s.advance event).Accounted := by
  cases event with
  | startLoopTimer => exact h.startLoopTimer ..
  | setNextLoopTimer =>
    exact h.changeListener fun _ => DataLoopListener.find_setNextLoopTimer ..
  | stopLoopTimer => exact h.stopLoopTimer ..
  | interruptLoop | sendWriteRequest => exact h.sendAsync ..
  | onTimer => exact h.onTimer ..
  | onAsync => exact h.onAsync ..
  | turn => exact h.turn

theorem Accounted.foldl (h : s.Accounted) (events : List (LoopEvent υ)) :
    (events.foldl LoopClient.advance s).Accounted := by
  induction events generalizing s with
  | nil => exact h
  | cons event events ih => exact ih (h.advance event)

theorem Accounted.due_iff (h : s.Accounted) (address : Nat) :
    s.loop (.async address) = some .due ↔ ∃ request ∈ s.waiting, request.address = address := by
  constructor
  · intro hdue
    obtain ⟨request, hmem, rfl⟩ := h.due address hdue
    exact ⟨request, List.mem_filter.mpr ⟨hmem, decide_eq_true hdue⟩, rfl⟩
  · rintro ⟨request, hmem, rfl⟩
    exact of_decide_eq_true (List.mem_filter.mp hmem).2

/-- `walk_and_close` gives the handles no callback that frees a request. -/
theorem Accounted.closeAndTurn_requests (h : s.Accounted) :
    s.closeAndTurn.requests = s.waiting := by
  refine List.filter_congr fun request hmem => ?_
  obtain hdue | hclosing := h.known request hmem
  · simp [EventLoop.closeAll, hdue, HandleState.isClosing]
  · simp [EventLoop.closeAll, hclosing, HandleState.isClosing]

/-- **Requests are taken up once.**  In every run, whatever libuv answers, the requests that were sent
    are those whose callback was called, each once, and those that wait; the loop is asked to call
    back exactly the latter, and they are all that is left allocated after it was stopped. -/
theorem requests_taken_up_once (events : List (LoopEvent υ)) :
    let s := events.foldl advance new
    s.accepted.Perm (s.takenUp ++ s.waiting) ∧ (s.accepted.map LoopRequest.address).Nodup ∧
      (∀ address, s.loop (.async address) = some .due ↔
        ∃ request ∈ s.waiting, request.address = address) ∧
      s.closeAndTurn.loop = .empty ∧ s.closeAndTurn.requests = s.waiting := by
  intro s
  have h : s.Accounted := new_accounted.foldl events
  exact ⟨h.perm, h.acceptedOnce, h.due_iff, s.loop.turn_closeAll, h.closeAndTurn_requests⟩

/-! ## §4 Handles in allocated memory -/

/-- Every handle of the loop lies in memory that is allocated. -/
def HandlesAllocated (s : LoopClient υ) : Prop := s.loop.Within s.Allocated

theorem new_handlesAllocated : (new : LoopClient υ).HandlesAllocated :=
  EventLoop.within_empty _

/-- The request is initialized and cannot be sent. -/
def CannotSend (env : AsyncEnv) : Prop :=
  env.asyncRequest = true ∧ env.listenerPair = true ∧ env.asyncInit = true ∧ env.asyncSend = false
  deriving Decidable

/-- The events that free no memory that the loop still uses. -/
def KeepsHandles (s : LoopClient υ) : LoopEvent υ → Prop
  | .startLoopTimer _ _ uv_timer_init uv_timer_start =>
    s.listener.find s.listener.m_nextTimerId = none → 0 ≤ uv_timer_init → 0 ≤ uv_timer_start
  | .stopLoopTimer timerId uv_timer_stop => ¬ s.StopsTimer timerId uv_timer_stop
  | .interruptLoop _ env => ¬ CannotSend env
  | .sendWriteRequest _ env => ¬ CannotSend { env with listenerPair := true }
  | .setNextLoopTimer .. | .onTimer _ | .onAsync _ | .turn => True

instance (s : LoopClient υ) : ∀ event : LoopEvent υ, Decidable (s.KeepsHandles event)
  | .startLoopTimer .. => inferInstanceAs (Decidable (_ → _))
  | .stopLoopTimer timerId uv_timer_stop =>
    inferInstanceAs (Decidable (¬ s.StopsTimer timerId uv_timer_stop))
  | .interruptLoop _ env => inferInstanceAs (Decidable (¬ CannotSend env))
  | .sendWriteRequest _ env =>
    inferInstanceAs (Decidable (¬ CannotSend { env with listenerPair := true }))
  | .setNextLoopTimer .. | .onTimer _ | .onAsync _ | .turn => .isTrue trivial

/-- A change of the timer map that keeps its ids. -/
theorem HandlesAllocated.changeListener (h : s.HandlesAllocated) {listener : DataLoopListener}
    (hfind : ∀ timerId, (listener.find timerId).isSome ↔ (s.listener.find timerId).isSome) :
    ({ s with listener } : LoopClient υ).HandlesAllocated := by
  refine h.mono fun place hplace => ?_
  cases place with
  | timer timerId => exact (hfind timerId).mpr hplace
  | async address => exact hplace

theorem startLoopTimer_handlesAllocated_iff (h : s.HandlesAllocated)
    (wakeUpMillis periodMillis : UInt64) (uv_timer_init uv_timer_start : Int) :
    (s.startLoopTimer wakeUpMillis periodMillis uv_timer_init uv_timer_start).HandlesAllocated ↔
      (s.listener.find s.listener.m_nextTimerId = none → 0 ≤ uv_timer_init →
        0 ≤ uv_timer_start) := by
  obtain ⟨listener, ⟨hno, hfind, hstep⟩ | ⟨habsent, hinit, hstart, hfind, hstep⟩ |
    ⟨-, -, hstart, hfind, hstep⟩⟩ :=
    s.startLoopTimer_cases wakeUpMillis periodMillis uv_timer_init uv_timer_start
  all_goals rw [hstep]
  · exact iff_of_true (h.changeListener hfind) fun habsent hinit => absurd ⟨habsent, hinit⟩ hno
  · -- a handle that is being closed, and no entry
    refine iff_of_false (fun hafter => ?_) fun hno => ?_
    · have hplace := hafter (.timer s.listener.m_nextTimerId) (by simp [EventLoop.close_self])
      have hsome := (hfind _).mp hplace
      rw [habsent] at hsome
      cases hsome
    · exact Int.not_le.mpr hstart (hno habsent hinit)
  · refine iff_of_true ?_ fun _ _ => hstart
    refine (EventLoop.within_register_iff (h.mono fun place hplace => ?_)).mpr ?_
    · cases place with
      | timer timerId => exact (hfind timerId).mpr (.inl hplace)
      | async address => exact hplace
    · exact (hfind _).mpr (.inr rfl)

theorem stopLoopTimer_handlesAllocated_iff (hacc : s.Accounted) (h : s.HandlesAllocated)
    (timerId : UInt64) (uv_timer_stop : Int) :
    (s.stopLoopTimer timerId uv_timer_stop).HandlesAllocated ↔
      ¬ s.StopsTimer timerId uv_timer_stop := by
  obtain ⟨hno, hstep⟩ | ⟨hstops, hstep⟩ := s.stopLoopTimer_cases timerId uv_timer_stop
  · rw [hstep]
    exact iff_of_true h hno
  · rw [hstep]
    refine iff_of_false (fun hafter => ?_) (not_not.mpr hstops)
    -- the loop knows the handle, whose entry is gone
    have hsome : (s.listener.find timerId).isSome := by
      obtain ⟨timer, hfind, -⟩ := Option.map_eq_some_iff.mp hstops.1
      rw [hfind]
      rfl
    have hplace := hafter (.timer timerId)
      (by simp [EventLoop.close_self, hacc.timers timerId hsome])
    exact (DataLoopListener.find_erase.mp hplace).2 rfl

theorem sendAsync_handlesAllocated_iff (hacc : s.Accounted) (h : s.HandlesAllocated)
    (purpose : RequestPurpose) (failure : ErrorCode) (userData : υ) (env : AsyncEnv) :
    (s.sendAsync purpose failure userData env).2.HandlesAllocated ↔ ¬ CannotSend env := by
  obtain ⟨hno, hstep⟩ | ⟨hinit, hsend, hstep⟩ | ⟨-, hsend, hstep⟩ :=
    s.sendAsync_cases purpose failure userData env
  · have hcannot : ¬ CannotSend env := fun hfails => hno ⟨hfails.1, hfails.2.1, hfails.2.2.1⟩
    obtain hstep | hstep := hstep
    · rw [hstep]
      exact iff_of_true h hcannot
    · rw [hstep]
      exact iff_of_true h hcannot
  · -- the request was freed
    rw [hstep]
    refine iff_of_false (fun hafter => ?_) (not_not.mpr ⟨hinit.1, hinit.2.1, hinit.2.2, hsend⟩)
    obtain ⟨request, hmem, haddress⟩ := hafter (.async s.nextAddress) (by simp)
    exact absurd haddress (Nat.ne_of_lt (hacc.address_lt hmem))
  · rw [hstep]
    refine iff_of_true (EventLoop.within_send_iff.mpr ?_) fun hfails => ?_
    · refine (EventLoop.within_register_iff (h.mono fun place hplace => ?_)).mpr ?_
      · cases place with
        | timer timerId => exact hplace
        | async address =>
          obtain ⟨request, hmem, haddress⟩ := hplace
          exact ⟨request, List.mem_append_left _ hmem, haddress⟩
      · exact ⟨_, List.mem_append_right _ (List.mem_singleton_self _), rfl⟩
    · rw [hfails.2.2.2] at hsend
      cases hsend

theorem HandlesAllocated.onTimer (h : s.HandlesAllocated) (timerId : UInt64) :
    (s.onTimer timerId).HandlesAllocated := by
  unfold LoopClient.onTimer
  cases hfire : s.listener.fire timerId with
  | none => exact h
  | some listener => exact h.changeListener fun _ => DataLoopListener.find_fire hfire

theorem HandlesAllocated.onAsync (hacc : s.Accounted) (h : s.HandlesAllocated) (address : Nat) :
    (s.onAsync address).HandlesAllocated := by
  obtain ⟨-, hstep⟩ | ⟨request, -, -, -, hstep⟩ := onAsync_cases hacc address
  · rw [hstep]
    exact h
  · rw [hstep]
    exact (EventLoop.within_close_iff true).mpr h

theorem HandlesAllocated.turn (h : s.HandlesAllocated) : s.turn.HandlesAllocated := by
  refine (EventLoop.Within.turn h).mono fun place hplace => ?_
  cases place with
  | timer timerId => exact hplace.1
  | async address =>
    obtain ⟨⟨request, hmem, rfl⟩, hopen⟩ := hplace
    exact ⟨request, List.mem_filter.mpr ⟨hmem, decide_eq_true hopen⟩, rfl⟩

/-- An event keeps the handles in allocated memory if and only if it frees none that is used. -/
theorem advance_handlesAllocated_iff (hacc : s.Accounted) (h : s.HandlesAllocated)
    (event : LoopEvent υ) : (s.advance event).HandlesAllocated ↔ s.KeepsHandles event := by
  cases event with
  | startLoopTimer => exact startLoopTimer_handlesAllocated_iff h ..
  | stopLoopTimer => exact stopLoopTimer_handlesAllocated_iff hacc h ..
  | interruptLoop | sendWriteRequest => exact sendAsync_handlesAllocated_iff hacc h ..
  | setNextLoopTimer =>
    exact iff_of_true
      (h.changeListener fun _ => DataLoopListener.find_setNextLoopTimer ..) trivial
  | onTimer timerId => exact iff_of_true (h.onTimer timerId) trivial
  | onAsync address => exact iff_of_true (h.onAsync hacc address) trivial
  | turn => exact iff_of_true h.turn trivial

/-- **Handles in allocated memory.**  In a run, every handle of the loop lies in allocated memory at
    any time if and only if no timer that was initialized fails to start, no periodic timer is
    stopped, and no request that was initialized cannot be sent. -/
theorem handles_allocated_iff (events : List (LoopEvent υ)) :
    Throughout advance HandlesAllocated new events ↔ EachStep advance KeepsHandles new events :=
  throughout_iff_eachStep (fun _ event hacc (_ : True) => Accounted.advance hacc event)
    (fun _ event hacc h (_ : True) => advance_handlesAllocated_iff hacc h event)
    new_accounted new_handlesAllocated (eachStep_true advance new events)

-- a periodic timer is started and stopped
example : ¬ EachStep advance KeepsHandles (new : LoopClient Nat)
    [.startLoopTimer 10 10 0 0, .onTimer 1, .stopLoopTimer 1 0] := by
  decide

end LoopClient

end Commutil.Transport
