import Commutil.Library.Transitions
import Commutil.Transport.DataLoopListener

/-!
# The Timers of a Sender at Shutdown

`MsgSender::stop` in the caller's thread and `onLoopTimer` and `onLoopInterrupt` in the
I/O thread, one load or store at a time and in any order.

A callback of the resend timer may have read `m_stopResend` before it is set and read it
again afterwards, and the deadline of the shutdown is written only by the interrupt.
`shutdown_timers_die_out` says what holds all the same: a callback that starts with the
stop flag set re-arms the shutdown timer only, under its conditions, and after
`m_resendDone` is set nothing is re-armed any more.

What the resend maintenance does to the backlog is left open: it comes with the step.
-/

namespace Commutil.Client

open Commutil.Library Commutil.Transport

/-! ## §1 States -/

/-- What the timers read of `struct MsgConfig`. -/
structure TimerConfig where
  m_resendPeriodMillis : UInt64
  m_shutdownTimeoutMillis : UInt64
  m_shutdownPollingTimeoutMillis : UInt64
  deriving DecidableEq, Repr

/-- `COMMUTIL_MSG_DEFAULT_SHUTDOWN_POLLING_TIMEOUT_MILLIS`. -/
def COMMUTIL_MSG_DEFAULT_SHUTDOWN_POLLING_TIMEOUT_MILLIS : UInt64 := 50

/-- `COMMUTIL_MSG_INFINITE_TIMEOUT`. -/
def COMMUTIL_MSG_INFINITE_TIMEOUT : UInt64 := 0xFFFFFFFFFFFFFFFF

/-- Where the thread that calls `stop` is. -/
inductive CallerPc where
  | running
  /-- It has stored `false` in `m_resendDone`. -/
  | doneCleared
  /-- It has stored `true` in `m_stopResend`. -/
  | stopRaised
  /-- It polls `m_resendDone` in `waitBacklogEmpty`. -/
  | waiting (iterCount : UInt64)
  /-- It is about to stop the message client. -/
  | stopping
  | stopped
  deriving DecidableEq, Repr

/-- A call of `onLoopTimer`, and whether the stop flag was set when it started. -/
structure TimerCall where
  timerId : UInt64
  stopAtStart : Bool
  deriving DecidableEq, Repr

/-- Where the I/O thread is. -/
inductive LoopPc where
  | off
  /-- Between callbacks. -/
  | ready
  /-- In `onLoopTimer`, about to compare the timer id and to load `m_stopResend`. -/
  | checkStop (call : TimerCall)
  /-- About to load `m_resendDone`. -/
  | checkDone (call : TimerCall)
  /-- About to do the resend maintenance. -/
  | maintain (call : TimerCall)
  /-- About to compute the next timeout, with a clock reading. -/
  | nextTimeout (call : TimerCall) (minRequestTimeoutMillis : UInt64)
  /-- About to load `m_stopResend` again. -/
  | checkShutdown (call : TimerCall) (nextResendTimeMillis : UInt64)
  /-- About to test the backlog and the deadline, with a clock reading. -/
  | checkEnd (call : TimerCall) (nextResendTimeMillis : UInt64)
  /-- About to store `true` in `m_resendDone`. -/
  | setDone (call : TimerCall)
  /-- About to set the next timer; with the clock reading of the test, if there was one. -/
  | rearm (call : TimerCall) (nextResendTimeMillis : UInt64) (tested : Option UInt64)
  | ended
  deriving DecidableEq, Repr

/-- A timer that was set again by its callback, and what held at that step. -/
structure Rearming where
  call : TimerCall
  /-- It is the resend timer. -/
  resend : Bool
  resendDone : Bool
  backlogCount : Nat
  tested : Option UInt64
  stopResendTimeMillis : UInt64
  deriving DecidableEq, Repr

/-- What the timers read and write of a `MsgSender`, the two threads, and the clock. -/
structure ShutdownState where
  m_config : TimerConfig
  m_stopResend : Bool
  m_resendDone : Bool
  m_stopResendTimeMillis : UInt64
  m_resendTimerId : UInt64
  m_shutdownTimerId : UInt64
  /-- `m_backlog.getEntryCount()`. -/
  backlogCount : Nat
  listener : DataLoopListener
  /-- An asynchronous request of `interruptLoop` has not been handled yet. -/
  interrupted : Bool
  caller : CallerPc
  loop : LoopPc
  currentTimeMillis : UInt64
  /-- The timers that were set again. -/
  rearmed : List Rearming
  deriving DecidableEq, Repr

/-- What a step of the I/O thread meets: the backlog and the minimum that the maintenance leaves,
    and the result of `uv_timer_start`. -/
structure CallbackEnv where
  backlogCount : Nat
  minRequestTimeoutMillis : UInt64
  uv_timer_start : Int
  deriving DecidableEq, Repr

/-- The next step of the system. -/
inductive ShutdownEvent where
  /-- The clock goes on. -/
  | tick (currentTimeMillis : UInt64)
  /-- Another callback (`onLoopSend`, `onLoopRecv`) changes the backlog. -/
  | backlog (backlogCount : Nat)
  | onLoopStart (uv_timer_init uv_timer_start : Int)
  /-- A timer fires, and its callback starts. -/
  | fire (timerId : UInt64)
  | onLoopInterrupt (uv_timer_init uv_timer_start uv_timer_stop : Int)
  /-- The next step of the callback of a timer. -/
  | callback (env : CallbackEnv)
  /-- The next step of `stop`; whether the asynchronous request can be sent. -/
  | stop (interruptLoop : Bool)
  deriving DecidableEq, Repr

namespace ShutdownState

/-! ## §2 Steps -/

/-- The stores of `MsgSender::start`. -/
def start (s : ShutdownState) : ShutdownState :=
  { s with m_resendDone := false, m_stopResend := false }

/-- `MsgSender::onLoopStart`. -/
def onLoopStart (s : ShutdownState) (uv_timer_init uv_timer_start : Int) : ShutdownState :=
  let (_, timerId, d) :=
    s.listener.startLoopTimer s.m_config.m_resendPeriodMillis 0 uv_timer_init uv_timer_start
  { s with listener := d, m_resendTimerId := timerId }

/-- `MsgSender::onLoopInterrupt`. -/
def onLoopInterrupt (s : ShutdownState) (uv_timer_init uv_timer_start uv_timer_stop : Int) :
    ShutdownState :=
  if 0 < s.m_config.m_shutdownTimeoutMillis then
    let (_, timerId, d) := s.listener.startLoopTimer
      s.m_config.m_shutdownPollingTimeoutMillis 0 uv_timer_init uv_timer_start
    { s with
      listener := d
      m_shutdownTimerId := timerId
      m_stopResendTimeMillis := s.currentTimeMillis + s.m_config.m_shutdownTimeoutMillis }
  else { s with listener := (s.listener.stopLoopTimer s.m_resendTimerId uv_timer_stop).2 }

/-- The number of polls of `waitBacklogEmpty`. -/
def waitCount (s : ShutdownState) : UInt64 :=
  s.m_config.m_shutdownTimeoutMillis /
    (if s.m_config.m_shutdownPollingTimeoutMillis = 0 then
      COMMUTIL_MSG_DEFAULT_SHUTDOWN_POLLING_TIMEOUT_MILLIS
    else s.m_config.m_shutdownPollingTimeoutMillis)

/-- The next step of `MsgSender::stop`, if it has one. -/
def callerStep (s : ShutdownState) (interruptLoop : Bool) : Option ShutdownState :=
  match s.caller with
  | .running => some { s with m_resendDone := false, caller := .doneCleared }
  | .doneCleared => some { s with m_stopResend := true, caller := .stopRaised }
  | .stopRaised =>
    some { s with
      interrupted := interruptLoop
      caller := if 0 < s.m_config.m_shutdownTimeoutMillis then .waiting 0 else .stopping }
  | .waiting iterCount =>
    if !s.m_resendDone && iterCount < s.waitCount then
      some { s with caller := .waiting (iterCount + 1) }
    else some { s with caller := .stopping }
  | .stopping =>
    -- the loop ends between two callbacks, and the thread is joined
    if s.loop = .ready ∨ s.loop = .off then some { s with loop := .ended, caller := .stopped }
    else none
  | .stopped => none

/-- The next step of the callback of a timer, if there is one. -/
def callbackStep (s : ShutdownState) (env : CallbackEnv) : Option ShutdownState :=
  match s.loop with
  | .off | .ready | .ended => none
  | .checkStop call =>
    if call.timerId = s.m_resendTimerId ∧ s.m_stopResend = true then
      some { s with loop := .ready }
    else some { s with loop := .checkDone call }
  | .checkDone call =>
    if s.m_resendDone then some { s with loop := .ready }
    else some { s with loop := .maintain call }
  | .maintain call =>
    some { s with
      backlogCount := env.backlogCount
      loop := .nextTimeout call env.minRequestTimeoutMillis }
  | .nextTimeout call minRequestTimeoutMillis =>
    if minRequestTimeoutMillis = COMMUTIL_MSG_INFINITE_TIMEOUT then
      some { s with loop := .checkShutdown call s.m_config.m_resendPeriodMillis }
    else
      some { s with
        loop := .checkShutdown call (s.currentTimeMillis - minRequestTimeoutMillis) }
  | .checkShutdown call nextResendTimeMillis =>
    if s.m_stopResend then
      some { s with
        loop := .checkEnd call
          (min nextResendTimeMillis s.m_config.m_shutdownPollingTimeoutMillis) }
    else some { s with loop := .rearm call nextResendTimeMillis none }
  | .checkEnd call nextResendTimeMillis =>
    if s.backlogCount = 0 ∨ s.m_stopResendTimeMillis < s.currentTimeMillis then
      some { s with loop := .setDone call }
    else some { s with loop := .rearm call nextResendTimeMillis (some s.currentTimeMillis) }
  | .setDone _ => some { s with m_resendDone := true, loop := .ready }
  | .rearm call nextResendTimeMillis tested =>
    match s.listener.setNextLoopTimer call.timerId nextResendTimeMillis env.uv_timer_start with
    | (.ok, d) =>
      some { s with
        listener := d
        loop := .ready
        rearmed := s.rearmed ++ [⟨call, call.timerId = s.m_resendTimerId, s.m_resendDone,
          s.backlogCount, tested, s.m_stopResendTimeMillis⟩] }
    | (_, d) => some { s with listener := d, loop := .ready }

/-- One step of the system. -/
def step (s : ShutdownState) : ShutdownEvent → Option ShutdownState
  | .tick now =>
    if s.currentTimeMillis ≤ now then some { s with currentTimeMillis := now } else none
  | .backlog count => if s.loop = .ready then some { s with backlogCount := count } else none
  | .onLoopStart uv_timer_init uv_timer_start =>
    if s.loop = .off then
      some { s.onLoopStart uv_timer_init uv_timer_start with loop := .ready }
    else none
  | .fire timerId =>
    if s.loop = .ready then
      match s.listener.fire timerId with
      | none => none
      | some d => some { s with listener := d, loop := .checkStop ⟨timerId, s.m_stopResend⟩ }
    else none
  | .onLoopInterrupt uv_timer_init uv_timer_start uv_timer_stop =>
    if s.loop = .ready ∧ s.interrupted = true then
      some { s.onLoopInterrupt uv_timer_init uv_timer_start uv_timer_stop with
        interrupted := false }
    else none
  | .callback env => s.callbackStep env
  | .stop interruptLoop => s.callerStep interruptLoop

/-- The sender has not been stopped since it was started, and its loop does not run yet. -/
structure NotRunning (s : ShutdownState) : Prop where
  caller_eq : s.caller = .running
  loop_eq : s.loop = .off
  rearmed_eq : s.rearmed = []

/-! ## §3 The invariant -/

end ShutdownState

/-- What is asked of a re-arming by a callback that started with the stop flag set. -/
def Rearming.InOrder (r : Rearming) : Prop :=
  r.resend = false ∧ r.resendDone = false ∧ r.backlogCount ≠ 0 ∧
    ∃ t, r.tested = some t ∧ t ≤ r.stopResendTimeMillis

namespace ShutdownState

/-- A callback that started with the stop flag set finds it set, and is not the one of the resend
    timer. -/
def Guarded (s : ShutdownState) (call : TimerCall) : Prop :=
  call.stopAtStart = true → s.m_stopResend = true ∧ call.timerId ≠ s.m_resendTimerId

/-- What a callback has found out so far. -/
def Knows (s : ShutdownState) : Prop :=
  match s.loop with
  | .off | .ready | .ended => True
  | .checkStop call => call.stopAtStart = true → s.m_stopResend = true
  | .checkDone call => s.Guarded call
  | .maintain call | .nextTimeout call _ | .checkShutdown call _ =>
    s.Guarded call ∧ s.m_resendDone = false
  | .checkEnd call _ => s.Guarded call ∧ s.m_resendDone = false ∧ s.m_stopResend = true
  | .setDone _ => s.m_stopResend = true
  | .rearm call _ tested =>
    s.Guarded call ∧ s.m_resendDone = false ∧
      (call.stopAtStart = true → s.backlogCount ≠ 0 ∧
        ∃ t, tested = some t ∧ t ≤ s.m_stopResendTimeMillis)

/-- The invariant of the runs of a sender that is stopped once. -/
structure Inv (s : ShutdownState) : Prop where
  /-- `stop` clears `m_resendDone` before it sets the stop flag. -/
  raised : s.m_stopResend = true → s.caller ≠ .running ∧ s.caller ≠ .doneCleared
  done_stop : s.m_resendDone = true → s.m_stopResend = true
  knows : s.Knows
  inOrder : ∀ r ∈ s.rearmed, r.call.stopAtStart = true → r.InOrder

variable {s t : ShutdownState}

/-- Outside callbacks nothing has to be known. -/
theorem knows_of_ready (h : s.loop = .ready) : s.Knows := by
  unfold Knows
  rw [h]
  trivial

/-- What a callback knows survives what the other thread does. -/
theorem Knows.mono (h : s.Knows) (hloop : t.loop = s.loop)
    (hstop : s.m_stopResend = true → t.m_stopResend = true)
    (hdone : s.m_resendDone = false → t.m_resendDone = false)
    (hresend : t.m_resendTimerId = s.m_resendTimerId)
    (hbacklog : t.backlogCount = s.backlogCount)
    (htime : t.m_stopResendTimeMillis = s.m_stopResendTimeMillis) : t.Knows := by
  have hguarded : ∀ call, s.Guarded call → t.Guarded call := by
    intro call hcall hstart
    obtain ⟨h₁, h₂⟩ := hcall hstart
    exact ⟨hstop h₁, by rw [hresend]; exact h₂⟩
  unfold Knows at h ⊢
  rw [hloop]
  -- by the program counter of the loop; each reads some of what is kept
  cases hs : s.loop with
  | off => trivial
  | ready => trivial
  | ended => trivial
  | checkStop call =>
    rw [hs] at h
    exact fun hstart => hstop (h hstart)
  | checkDone call =>
    rw [hs] at h
    exact hguarded call h
  | maintain call =>
    rw [hs] at h
    exact ⟨hguarded call h.1, hdone h.2⟩
  | nextTimeout call _ =>
    rw [hs] at h
    exact ⟨hguarded call h.1, hdone h.2⟩
  | checkShutdown call _ =>
    rw [hs] at h
    exact ⟨hguarded call h.1, hdone h.2⟩
  | checkEnd call _ =>
    rw [hs] at h
    exact ⟨hguarded call h.1, hdone h.2.1, hstop h.2.2⟩
  | setDone call =>
    rw [hs] at h
    exact hstop h
  | rearm call _ tested =>
    rw [hs] at h
    -- the loop armed the timer after a test, which has to hold of the new state too
    refine ⟨hguarded call h.1, hdone h.2.1, fun hstart => ?_⟩
    rw [hbacklog, htime]
    exact h.2.2 hstart

/-- What the steps of `stop` can do. -/
theorem callerStep_cases {interruptLoop : Bool} (h : s.callerStep interruptLoop = some t) :
    (s.caller = .running ∧ t = { s with m_resendDone := false, caller := .doneCleared }) ∨
    (s.caller = .doneCleared ∧ t = { s with m_stopResend := true, caller := .stopRaised }) ∨
    (∃ pc interrupted, s.caller ≠ .running ∧ s.caller ≠ .doneCleared ∧ pc ≠ .running ∧
      pc ≠ .doneCleared ∧ t = { s with interrupted := interrupted, caller := pc }) ∨
    ((s.loop = .ready ∨ s.loop = .off) ∧ t = { s with loop := .ended, caller := .stopped }) := by
  unfold callerStep at h
  cases hpc : s.caller with
  | running =>
    simp only [hpc, Option.some.injEq] at h
    exact .inl ⟨rfl, h.symm⟩
  | doneCleared =>
    simp only [hpc, Option.some.injEq] at h
    exact .inr (.inl ⟨rfl, h.symm⟩)
  | stopRaised =>
    simp only [hpc, Option.some.injEq] at h
    refine .inr (.inr (.inl ⟨_, _, by decide, by decide, ?_, ?_, h.symm⟩)) <;> split <;> decide
  | waiting iterCount =>
    simp only [hpc] at h
    refine .inr (.inr (.inl ?_))
    split at h
    · exact ⟨.waiting (iterCount + 1), s.interrupted, by simp, by simp, by simp, by simp,
        (Option.some.inj h).symm⟩
    · exact ⟨.stopping, s.interrupted, by simp, by simp, by decide, by decide,
        (Option.some.inj h).symm⟩
  | stopping =>
    simp only [hpc] at h
    split at h
    · rename_i hidle
      exact .inr (.inr (.inr ⟨hidle, (Option.some.inj h).symm⟩))
    · cases h
  | stopped =>
    simp only [hpc] at h
    cases h

theorem Inv.callerStep {interruptLoop : Bool} (hinv : s.Inv)
    (h : s.callerStep interruptLoop = some t) : t.Inv := by
  obtain ⟨hpc, rfl⟩ | ⟨hpc, rfl⟩ | ⟨pc, interrupted, -, -, hpc₁, hpc₂, rfl⟩ | ⟨hloop, rfl⟩ :=
    callerStep_cases h
  · -- the stop flag is not set yet
    have hstop : s.m_stopResend ≠ true := fun hset => (hinv.raised hset).1 hpc
    exact ⟨fun hset => absurd hset hstop, fun hset => absurd hset Bool.false_ne_true,
      hinv.knows.mono rfl id (fun _ => rfl) rfl rfl rfl, hinv.inOrder⟩
  · exact ⟨fun _ => ⟨by simp, by simp⟩, fun _ => rfl,
      hinv.knows.mono rfl (fun _ => rfl) id rfl rfl rfl, hinv.inOrder⟩
  · exact ⟨fun _ => ⟨hpc₁, hpc₂⟩, hinv.done_stop, hinv.knows.mono rfl id id rfl rfl rfl,
      hinv.inOrder⟩
  · exact ⟨fun _ => ⟨by simp, by simp⟩, hinv.done_stop, trivial, hinv.inOrder⟩

/-- A callback that goes on without touching the flags. -/
theorem Inv.goto (hinv : s.Inv) (hstop : t.m_stopResend = s.m_stopResend)
    (hdone : t.m_resendDone = s.m_resendDone) (hcaller : t.caller = s.caller)
    (hlog : t.rearmed = s.rearmed) (hknows : t.Knows) : t.Inv :=
  ⟨by rw [hstop, hcaller]; exact hinv.raised, by rw [hstop, hdone]; exact hinv.done_stop, hknows,
    by rw [hlog]; exact hinv.inOrder⟩

theorem Inv.callbackStep {env : CallbackEnv} (hinv : s.Inv) (h : s.callbackStep env = some t) :
    t.Inv := by
  have hknows := hinv.knows
  unfold ShutdownState.callbackStep at h
  unfold Knows at hknows
  cases hpc : s.loop with
  | off => simp only [hpc, reduceCtorEq] at h
  | ready => simp only [hpc, reduceCtorEq] at h
  | ended => simp only [hpc, reduceCtorEq] at h
  -- the test of the stop flag and of the timer
  | checkStop call =>
    simp only [hpc] at h hknows
    split at h
    · cases h
      exact hinv.goto rfl rfl rfl rfl trivial
    · rename_i hgo
      cases h
      refine hinv.goto rfl rfl rfl rfl fun hstart => ⟨hknows hstart, fun hid => ?_⟩
      exact hgo ⟨hid, hknows hstart⟩
  -- the test of `m_resendDone`
  | checkDone call =>
    simp only [hpc] at h hknows
    split at h
    · cases h
      exact hinv.goto rfl rfl rfl rfl trivial
    · rename_i hdone
      cases h
      exact hinv.goto rfl rfl rfl rfl ⟨hknows, by simpa using hdone⟩
  | maintain call =>
    simp only [hpc] at h hknows
    cases h
    exact hinv.goto rfl rfl rfl rfl hknows
  | nextTimeout call minRequestTimeoutMillis =>
    simp only [hpc] at h hknows
    split at h <;> cases h <;> exact hinv.goto rfl rfl rfl rfl hknows
  -- the test of the stop flag for the shutdown timeout
  | checkShutdown call nextResendTimeMillis =>
    simp only [hpc] at h hknows
    split at h
    · rename_i hstop
      cases h
      exact hinv.goto rfl rfl rfl rfl ⟨hknows.1, hknows.2, hstop⟩
    · -- the stop flag was not set when the callback started
      rename_i hstop
      cases h
      exact hinv.goto rfl rfl rfl rfl
        ⟨hknows.1, hknows.2, fun hstart => absurd (hknows.1 hstart).1 hstop⟩
  | checkEnd call nextResendTimeMillis =>
    simp only [hpc] at h hknows
    split at h
    · -- the callback goes on to set `m_resendDone`
      cases h
      exact hinv.goto rfl rfl rfl rfl hknows.2.2
    · -- there are requests left and time left
      rename_i hgo
      obtain ⟨hbacklog, htime⟩ := not_or.mp hgo
      cases h
      exact hinv.goto rfl rfl rfl rfl ⟨hknows.1, hknows.2.1, fun _ =>
        ⟨hbacklog, _, rfl, UInt64.not_lt.mp htime⟩⟩
  | setDone call =>
    simp only [hpc] at h hknows
    cases h
    exact ⟨hinv.raised, fun _ => hknows, trivial, hinv.inOrder⟩
  -- the timer is armed again, if the start of the timer succeeds
  | rearm call nextResendTimeMillis tested =>
    simp only [hpc] at h hknows
    obtain ⟨hguarded, hdone, htested⟩ := hknows
    split at h
    · cases h
      refine ⟨hinv.raised, hinv.done_stop, trivial, fun r hr hstart => ?_⟩
      rcases List.mem_append.mp hr with hold | hnew
      · exact hinv.inOrder r hold hstart
      · obtain rfl := List.mem_singleton.mp hnew
        obtain ⟨hbacklog, htime⟩ := htested hstart
        exact ⟨by simpa using (hguarded hstart).2, hdone, hbacklog, htime⟩
    · cases h
      exact hinv.goto rfl rfl rfl rfl trivial

/-- **One step keeps the invariant**, whichever thread makes it. -/
theorem Inv.step {ev : ShutdownEvent} (hinv : s.Inv) (h : s.step ev = some t) : t.Inv := by
  cases ev with
  | tick now =>
    simp only [ShutdownState.step] at h
    split at h
    · cases h
      exact hinv.goto rfl rfl rfl rfl (hinv.knows.mono rfl id id rfl rfl rfl)
    · cases h
  | backlog count =>
    simp only [ShutdownState.step] at h
    split at h
    · rename_i hready
      cases h
      exact hinv.goto rfl rfl rfl rfl (knows_of_ready hready)
    · cases h
  | onLoopStart uv_timer_init uv_timer_start =>
    simp only [ShutdownState.step] at h
    split at h
    · cases h
      exact hinv.goto rfl rfl rfl rfl trivial
    · cases h
  | fire timerId =>
    simp only [ShutdownState.step] at h
    split at h
    · split at h
      · cases h
      · cases h
        exact hinv.goto rfl rfl rfl rfl id
    · cases h
  | onLoopInterrupt uv_timer_init uv_timer_start uv_timer_stop =>
    simp only [ShutdownState.step] at h
    split at h
    · rename_i hready
      cases h
      unfold ShutdownState.onLoopInterrupt
      split <;> exact hinv.goto rfl rfl rfl rfl (knows_of_ready hready.1)
    · cases h
  | callback env => exact hinv.callbackStep h
  | stop interruptLoop => exact hinv.callerStep h

theorem NotRunning.inv_start (h : s.NotRunning) : s.start.Inv := by
  refine ⟨fun hset => absurd hset Bool.false_ne_true,
    fun hset => absurd hset Bool.false_ne_true, ?_, ?_⟩
  · have hoff : s.start.loop = .off := h.loop_eq
    unfold Knows
    rw [hoff]
    trivial
  · intro r hr
    rw [show s.start.rearmed = [] from h.rearmed_eq] at hr
    cases hr

/-! ## §4 After the end of the resends -/

/-- Where nothing can be re-armed any more: the flags are set, and no callback is past its test
    of `m_resendDone`. -/
structure Quiet (s : ShutdownState) (rearmed : List Rearming) : Prop where
  inv : s.Inv
  stop_eq : s.m_stopResend = true
  done_eq : s.m_resendDone = true
  rearmed_eq : s.rearmed = rearmed

theorem Quiet.goto {rearmed : List Rearming} (h : s.Quiet rearmed) (hinv : t.Inv)
    (hstop : t.m_stopResend = s.m_stopResend) (hdone : t.m_resendDone = s.m_resendDone)
    (hlog : t.rearmed = s.rearmed) : t.Quiet rearmed :=
  ⟨hinv, hstop.trans h.stop_eq, hdone.trans h.done_eq, hlog.trans h.rearmed_eq⟩

/-- **Nothing is re-armed** by a step, and `m_resendDone` stays set. -/
theorem Quiet.step {rearmed : List Rearming} {ev : ShutdownEvent} (h : s.Quiet rearmed)
    (hstep : s.step ev = some t) : t.Quiet rearmed := by
  have hinv := h.inv.step hstep
  cases ev with
  -- time, the size of the backlog and the timers are no concern of the invariant
  | tick now =>
    simp only [ShutdownState.step] at hstep
    split at hstep
    · cases hstep
      exact h.goto hinv rfl rfl rfl
    · cases hstep
  | backlog count =>
    simp only [ShutdownState.step] at hstep
    split at hstep
    · cases hstep
      exact h.goto hinv rfl rfl rfl
    · cases hstep
  | onLoopStart uv_timer_init uv_timer_start =>
    simp only [ShutdownState.step] at hstep
    split at hstep
    · cases hstep
      exact h.goto hinv rfl rfl rfl
    · cases hstep
  | fire timerId =>
    simp only [ShutdownState.step] at hstep
    split at hstep
    · split at hstep
      · cases hstep
      · cases hstep
        exact h.goto hinv rfl rfl rfl
    · cases hstep
  | onLoopInterrupt uv_timer_init uv_timer_start uv_timer_stop =>
    simp only [ShutdownState.step] at hstep
    split at hstep
    · cases hstep
      refine h.goto hinv ?_ ?_ ?_ <;> (unfold onLoopInterrupt; split <;> rfl)
    · cases hstep
  | stop interruptLoop =>
    -- the stores of `stop` come before the flags are set
    obtain ⟨hrunning, hcleared⟩ := h.inv.raised h.stop_eq
    obtain ⟨hpc, rfl⟩ | ⟨hpc, rfl⟩ | ⟨pc, interrupted, -, -, -, -, rfl⟩ | ⟨-, rfl⟩ :=
      callerStep_cases hstep
    · exact absurd hpc hrunning
    · exact absurd hpc hcleared
    · exact h.goto hinv rfl rfl rfl
    · exact h.goto hinv rfl rfl rfl
  | callback env =>
    have hknows := h.inv.knows
    have hdone := h.done_eq
    simp only [ShutdownState.step] at hstep
    unfold ShutdownState.callbackStep at hstep
    unfold Knows at hknows
    -- a callback past its test has found `m_resendDone` not set
    cases hpc : s.loop with
    | off => simp only [hpc, reduceCtorEq] at hstep
    | ready => simp only [hpc, reduceCtorEq] at hstep
    | ended => simp only [hpc, reduceCtorEq] at hstep
    | checkStop call =>
      simp only [hpc] at hstep
      split at hstep <;> cases hstep <;> exact h.goto hinv rfl rfl rfl
    -- the test that ends every later callback
    | checkDone call =>
      simp only [hpc, hdone, if_true] at hstep
      cases hstep
      exact ⟨hinv, h.stop_eq, rfl, h.rearmed_eq⟩
    | maintain call =>
      simp only [hpc, hdone] at hknows
      exact absurd hknows.2 (by decide)
    | nextTimeout call _ =>
      simp only [hpc, hdone] at hknows
      exact absurd hknows.2 (by decide)
    | checkShutdown call _ =>
      simp only [hpc, hdone] at hknows
      exact absurd hknows.2 (by decide)
    | checkEnd call _ =>
      simp only [hpc, hdone] at hknows
      exact absurd hknows.2.1 (by decide)
    -- the flag is set already
    | setDone call =>
      simp only [hpc] at hstep
      cases hstep
      exact ⟨hinv, h.stop_eq, rfl, h.rearmed_eq⟩
    | rearm call _ tested =>
      simp only [hpc, hdone] at hknows
      exact absurd hknows.2.1 (by decide)

/-- **Shutdown timers die out**: in every run of a sender that is started and stopped once, a
    callback that starts with the stop flag set does not re-arm the resend timer, and re-arms the
    shutdown timer only while `m_resendDone` is not set, the backlog is not empty and the
    deadline has not passed; and once `m_resendDone` is set after the stop request it stays set
    and no timer is re-armed. -/
theorem shutdown_timers_die_out (s₀ s : ShutdownState) (h₀ : s₀.NotRunning)
    (es : List ShutdownEvent)
    (hrun : RunsWith (stepOf step) (fun _ _ => True) s₀.start es s) :
    (∀ r ∈ s.rearmed, r.call.stopAtStart = true → r.resend = false ∧ r.resendDone = false ∧
        r.backlogCount ≠ 0 ∧ ∃ t, r.tested = some t ∧ t ≤ r.stopResendTimeMillis) ∧
      (s.m_stopResend = true → s.m_resendDone = true → ∀ es' t,
        RunsWith (stepOf step) (fun _ _ => True) s es' t →
          t.m_resendDone = true ∧ t.rearmed = s.rearmed) := by
  have hinv : s.Inv := by
    refine hrun.invariant Inv (fun a e b ha _ hstep => ?_) h₀.inv_start
    exact ha.step hstep
  refine ⟨hinv.inOrder, fun hstop hdone es' t hrest => ?_⟩
  have hquiet : t.Quiet s.rearmed := by
    refine hrest.invariant (fun x => x.Quiet s.rearmed) (fun a e b ha _ hstep => ?_)
      ⟨hinv, hstop, hdone, rfl⟩
    exact ha.step hstep
  exact ⟨hquiet.done_eq, hquiet.rearmed_eq⟩

/-- A new sender with a resend period of a second and a grace period of 100 ms. -/
def newSender : ShutdownState where
  m_config := ⟨1000, 100, 50⟩
  m_stopResend := false
  m_resendDone := false
  m_stopResendTimeMillis := 0
  m_resendTimerId := 0
  m_shutdownTimerId := 0
  backlogCount := 0
  listener := ⟨[], 1⟩
  interrupted := false
  caller := .running
  loop := .off
  currentTimeMillis := 0
  rearmed := []

/-- One request is pending when the sender is stopped, and answered while the shutdown timer
    runs. -/
def gracefulStop : List ShutdownEvent :=
  [.onLoopStart 0 0, .backlog 1, .stop true, .stop true, .fire 1, .callback ⟨1, 0, 0⟩, .stop true,
    .onLoopInterrupt 0 0 0, .fire 2] ++
    List.replicate 7 (.callback ⟨1, COMMUTIL_MSG_INFINITE_TIMEOUT, 0⟩) ++ [.fire 2] ++
    List.replicate 7 (.callback ⟨0, COMMUTIL_MSG_INFINITE_TIMEOUT, 0⟩)

/-- The shutdown timer is re-armed once, and then the resends are done. -/
theorem shutdown_timers_die_out_graceful :
    ∃ s, RunsWith (stepOf step) (fun _ _ => True) newSender.start gracefulStop s ∧
      s.m_resendDone = true ∧ s.rearmed.length = 1 ∧
      (∀ r ∈ s.rearmed, r.call.stopAtStart = true → r.resend = false ∧ r.resendDone = false ∧
        r.backlogCount ≠ 0 ∧ ∃ t, r.tested = some t ∧ t ≤ r.stopResendTimeMillis) ∧
      ∀ es' t, RunsWith (stepOf step) (fun _ _ => True) s es' t →
        t.m_resendDone = true ∧ t.rearmed = s.rearmed := by
  have hrun : (runWhere step (fun _ _ => True) newSender.start gracefulStop).map
      (fun s => (s.m_stopResend, s.m_resendDone, s.rearmed.length)) = some (true, true, 1) := by
    decide +kernel
  obtain ⟨s, hs, hend⟩ := Option.map_eq_some_iff.mp hrun
  simp only [Prod.mk.injEq] at hend
  obtain ⟨hstop, hdone, hlength⟩ := hend
  have hruns := runsWith_of_runWhere hs
  obtain ⟨hinOrder, hafter⟩ :=
    shutdown_timers_die_out newSender s ⟨rfl, rfl, rfl⟩ gracefulStop hruns
  exact ⟨s, hruns, hdone, hlength, hinOrder, hafter hstop hdone⟩

end ShutdownState

end Commutil.Client
