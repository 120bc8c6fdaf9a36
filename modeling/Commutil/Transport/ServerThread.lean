import Commutil.Transport.DataServer

/-!
# The Run State of a Data Server and Its Thread

`initialize`, `terminate`, `start` and `stop` of `data_server.cpp`, and
`stopTransportLoop` of `transport.cpp`.

The outcomes of the transport (libuv calls, the virtual functions of the derived
server) and of the allocations come with the calls.  `m_serverThread` is whether the
thread object is joinable: joining one that is not throws, and assigning to one that is
ends the process.

`run_state_describes_thread_iff` says in which runs the run state is `RS_RUNNING`
exactly while there is a thread; `run_state_in_lifecycles` says what the run state does
describe in runs that initialize the server before they start it.
-/

namespace Commutil.Transport

open Commutil.Library

/-! ## §1 The calls -/

/-- A data server with its thread. -/
structure HostedServer (ε : Type) where
  server : DataServer ε
  /-- `m_serverThread.joinable()`: the thread was created and not joined yet. -/
  m_serverThread : Bool
  deriving DecidableEq, Repr

/-- What `initialize` gets from its surroundings. -/
structure InitOutcome where
  /-- The connection array and its slots are allocated. -/
  connDataArray : Bool
  uv_loop_init : Int
  initializeTransport : ErrorCode
  deriving DecidableEq, Repr

/-- What `stop` gets from its surroundings. -/
structure StopOutcome where
  /-- The callback data is allocated. -/
  terminateData : Bool
  uv_async_init : Int
  uv_async_send : Int
  uv_loop_close : Int
  stopTransport : ErrorCode
  deriving DecidableEq, Repr

/-- Nothing fails in `initialize`. -/
def InitOutcome.Succeeds (outcome : InitOutcome) : Prop :=
  outcome.connDataArray = true ∧ 0 ≤ outcome.uv_loop_init ∧ outcome.initializeTransport = .ok
  deriving Decidable

/-- Nothing fails in `stop`. -/
def StopOutcome.Succeeds (outcome : StopOutcome) : Prop :=
  outcome.terminateData = true ∧ outcome.uv_async_init = 0 ∧ outcome.uv_async_send = 0 ∧
    0 ≤ outcome.uv_loop_close ∧ outcome.stopTransport = .ok
  deriving Decidable

namespace HostedServer

variable {ε : Type}

/-- The constructor. -/
def new : HostedServer ε := ⟨⟨[], 0, .idle⟩, false⟩

/-- `setRunState`. -/
def setRunState (s : HostedServer ε) (runState : RunState) : HostedServer ε :=
  { s with server := { s.server with m_runState := runState } }

/-- `changeRunState`: `none` if the run state is not the expected one. -/
def changeRunState (s : HostedServer ε) (before after : RunState) : Option (HostedServer ε) :=
  if s.server.m_runState ≠ before then none else some (s.setRunState after)

/-- `initConnDataArray` that succeeds; the running connection id goes on. -/
def setConnDataArray (s : HostedServer ε) (maxConnections : Nat) (extension : ε) :
    HostedServer ε :=
  { s with server := { s.server with
      m_connDataArray := (DataServer.initConnDataArray maxConnections extension).m_connDataArray } }

/-- `termConnDataArray`. -/
def termConnDataArray (s : HostedServer ε) : HostedServer ε :=
  { s with server := { s.server with m_connDataArray := [] } }

/-- `DataServer::initialize`. -/
def initServer (s : HostedServer ε) (maxConnections : Nat) (extension : ε)
    (outcome : InitOutcome) : ErrorCode × HostedServer ε :=
  match s.changeRunState .idle .startingUp with
  | none => (.invalidState, s)
  | some s =>
    if outcome.connDataArray = false then
      (.nomem, s.termConnDataArray.setRunState .idle)
    else
      let s := s.setConnDataArray maxConnections extension
      if outcome.uv_loop_init < 0 then
        (.transportError, s.termConnDataArray.setRunState .idle)
      else if outcome.initializeTransport ≠ .ok then
        (outcome.initializeTransport, s.termConnDataArray.setRunState .idle)
      else
        (.ok, s.setRunState .running)

/-- `DataServer::terminate`, with the result of `terminateTransport`. -/
def terminate (s : HostedServer ε) (terminateTransport : ErrorCode) :
    ErrorCode × HostedServer ε :=
  if terminateTransport ≠ .ok then (terminateTransport, s)
  else (.ok, s.termConnDataArray)

/-- `DataServer::start`, with the result of `startTransport`. -/
def start (s : HostedServer ε) (startTransport : ErrorCode) :
    Except Fault (ErrorCode × HostedServer ε) :=
  -- update run state early, so that io thread will not terminate
  let s := s.setRunState .running
  if startTransport ≠ .ok then .ok (startTransport, s)
  else if s.m_serverThread then .error .uncaughtException
  else .ok (.ok, { s with m_serverThread := true })

/-- `stopTransportLoop`, which joins the thread. -/
def stopTransportLoop (s : HostedServer ε) (outcome : StopOutcome) :
    Except Fault (ErrorCode × HostedServer ε) :=
  if outcome.terminateData = false then .ok (.nomem, s)
  else if outcome.uv_async_init ≠ 0 then .ok (.transportError, s)
  else if outcome.uv_async_send ≠ 0 then .ok (.transportError, s)
  else if s.m_serverThread = false then .error .uncaughtException
  else
    let s := { s with m_serverThread := false }
    if outcome.uv_loop_close < 0 then .ok (.transportError, s)
    else .ok (.ok, s)

/-- `DataServer::stop`. -/
def stop (s : HostedServer ε) (outcome : StopOutcome) :
    Except Fault (ErrorCode × HostedServer ε) :=
  match s.changeRunState .running .shuttingDown with
  | none => .ok (.invalidState, s)
  | some s =>
    match s.stopTransportLoop outcome with
    | .error fault => .error fault
    | .ok (rc, s) =>
      if rc ≠ .ok then .ok (rc, s)
      else if outcome.stopTransport ≠ .ok then .ok (outcome.stopTransport, s)
      else .ok (.ok, s.setRunState .idle)

/-! ## §2 What each call does -/

@[simp] theorem setRunState_runState (s : HostedServer ε) (runState : RunState) :
    (s.setRunState runState).server.m_runState = runState := rfl

@[simp] theorem setRunState_thread (s : HostedServer ε) (runState : RunState) :
    (s.setRunState runState).m_serverThread = s.m_serverThread := rfl

@[simp] theorem termConnDataArray_runState (s : HostedServer ε) :
    s.termConnDataArray.server.m_runState = s.server.m_runState := rfl

@[simp] theorem termConnDataArray_thread (s : HostedServer ε) :
    s.termConnDataArray.m_serverThread = s.m_serverThread := rfl

variable {s : HostedServer ε}

/-- `initialize` leaves the thread alone.  It is refused unless the server is idle, and then the
    run state says whether it succeeded. -/
theorem initServer_spec (s : HostedServer ε) (maxConnections : Nat) (extension : ε)
    (outcome : InitOutcome) :
    (s.initServer maxConnections extension outcome).2.m_serverThread = s.m_serverThread ∧
      (s.server.m_runState ≠ .idle →
        s.initServer maxConnections extension outcome = (.invalidState, s)) ∧
      (s.server.m_runState = .idle → outcome.Succeeds →
        (s.initServer maxConnections extension outcome).1 = .ok ∧
          (s.initServer maxConnections extension outcome).2.server.m_runState = .running) ∧
      (s.server.m_runState = .idle → ¬ outcome.Succeeds →
        (s.initServer maxConnections extension outcome).1 ≠ .ok ∧
          (s.initServer maxConnections extension outcome).2.server.m_runState = .idle) := by
  unfold initServer changeRunState InitOutcome.Succeeds
  by_cases hidle : s.server.m_runState = .idle
  · rw [if_neg (not_not.mpr hidle)]
    dsimp only
    by_cases harray : outcome.connDataArray = false
    · rw [if_pos harray]
      simp [hidle, harray]
    by_cases hloop : outcome.uv_loop_init < 0
    · rw [if_neg harray, if_pos hloop]
      refine ⟨rfl, fun hne => absurd hidle hne, fun _ hok => ?_, fun _ _ => ⟨by simp, rfl⟩⟩
      exact absurd hok.2.1 (Int.not_le.mpr hloop)
    by_cases hrc : outcome.initializeTransport = .ok
    · rw [if_neg harray, if_neg hloop, if_neg (not_not.mpr hrc)]
      refine ⟨rfl, fun hne => absurd hidle hne, fun _ _ => ⟨rfl, rfl⟩, fun _ hno => ?_⟩
      exact absurd ⟨by simpa using harray, Int.not_lt.mp hloop, hrc⟩ hno
    · rw [if_neg harray, if_neg hloop, if_pos hrc]
      exact ⟨rfl, fun hne => absurd hidle hne, fun _ hok => absurd hok.2.2 hrc,
        fun _ _ => ⟨hrc, rfl⟩⟩
  · rw [if_pos hidle]
    exact ⟨rfl, fun _ => rfl, fun h => absurd h hidle, fun h => absurd h hidle⟩

/-- `stop` is refused unless the run state is `RS_RUNNING`. -/
theorem stop_of_not_running (h : s.server.m_runState ≠ .running) (outcome : StopOutcome) :
    s.stop outcome = .ok (.invalidState, s) := by
  unfold stop changeRunState
  rw [if_pos h]

/-- How `stop` ends with a thread to join: without a failure the server is idle, and with one it
    stays in `RS_SHUTTING_DOWN`. -/
theorem stop_of_thread (hrun : s.server.m_runState = .running) (hthread : s.m_serverThread = true)
    (outcome : StopOutcome) :
    ∃ rc s', s.stop outcome = .ok (rc, s') ∧ (rc = .ok ↔ outcome.Succeeds) ∧
      (outcome.Succeeds → s'.server.m_runState = .idle ∧ s'.m_serverThread = false) ∧
      (¬ outcome.Succeeds → s'.server.m_runState = .shuttingDown) := by
  unfold stop changeRunState stopTransportLoop StopOutcome.Succeeds
  rw [if_neg (not_not.mpr hrun)]
  dsimp only
  by_cases hdata : outcome.terminateData = false
  · simp [hdata]
  rw [if_neg hdata]
  by_cases hinit : outcome.uv_async_init = 0
  swap
  · simp [hinit]
  by_cases hsend : outcome.uv_async_send = 0
  swap
  · simp [hinit, hsend]
  rw [if_neg (not_not.mpr hinit), if_neg (not_not.mpr hsend), setRunState_thread, hthread]
  by_cases hclose : outcome.uv_loop_close < 0
  · have hnot : ¬ 0 ≤ outcome.uv_loop_close := Int.not_le.mpr hclose
    simp [hclose, hnot]
  have hclosed : 0 ≤ outcome.uv_loop_close := Int.not_lt.mp hclose
  by_cases hrc : outcome.stopTransport = .ok
  · simp [hclose, hdata, hinit, hsend, hclosed, hrc]
  · simp [hclose, hrc]

/-- Without a thread to join, a `stop` that does not fail before it throws. -/
theorem stop_without_thread (hrun : s.server.m_runState = .running)
    (hthread : s.m_serverThread = false) {outcome : StopOutcome} (hok : outcome.Succeeds) :
    s.stop outcome = .error .uncaughtException := by
  obtain ⟨hdata, hinit, hsend, -⟩ := hok
  unfold stop changeRunState stopTransportLoop
  simp [hrun, hthread, hdata, hinit, hsend]

end HostedServer

/-! ## §3 Runs -/

/-- A call on the server, with its outcomes. -/
inductive ServerCall (ε : Type) where
  | initServer (maxConnections : Nat) (extension : ε) (outcome : InitOutcome)
  | start (startTransport : ErrorCode)
  | stop (outcome : StopOutcome)
  | terminate (terminateTransport : ErrorCode)
  deriving DecidableEq, Repr

/-- The calls that can leave the server in need of another call. -/
inductive FailedCall where
  | initServer
  | start
  | stop
  deriving DecidableEq, Repr

/-- A server, and what is known of the calls made so far. -/
structure ServerLife (ε : Type) where
  host : HostedServer ε
  /-- A start succeeded, and no stop was called since. -/
  started : Bool
  /-- An initialize succeeded, and no start and no successful stop came since. -/
  prepared : Bool
  /-- The last call, if the server accepted it and it failed. -/
  failed : Option FailedCall
  /-- A call ended the process. -/
  fault : Option Fault
  deriving DecidableEq, Repr

namespace ServerLife

variable {ε : Type}

def new : ServerLife ε := ⟨.new, false, false, none, none⟩

/-- One call. -/
def advance (s : ServerLife ε) (call : ServerCall ε) : ServerLife ε :=
  if s.fault.isSome then s
  else match call with
  | .initServer maxConnections extension outcome =>
    let (rc, host) := s.host.initServer maxConnections extension outcome
    { s with
      host := host
      prepared := if rc = .ok then true else s.prepared
      failed := if s.host.server.m_runState = .idle ∧ rc ≠ .ok then some .initServer else none }
  | .start startTransport =>
    match s.host.start startTransport with
    | .error fault => { s with fault := some fault }
    | .ok (rc, host) =>
      { s with
        host := host
        started := if rc = .ok then true else s.started
        prepared := false
        failed := if rc ≠ .ok then some .start else none }
  | .stop outcome =>
    match s.host.stop outcome with
    | .error fault => { s with fault := some fault }
    | .ok (rc, host) =>
      { s with
        host := host
        started := false
        prepared := if rc = .ok then false else s.prepared
        failed := if s.host.server.m_runState = .running ∧ rc ≠ .ok then some .stop else none }
  | .terminate terminateTransport =>
    { s with host := (s.host.terminate terminateTransport).2, failed := none }

/-- The call that should follow a failed one is possible: a thread can be stopped; without one, the
    server can be started after a failed start, and is not refused an initialize after the other
    calls. -/
def NextCallPossible (host : HostedServer ε) (failed : FailedCall) : Prop :=
  if host.m_serverThread then
    ∀ outcome : StopOutcome, outcome.Succeeds → ∃ host', host.stop outcome = .ok (.ok, host')
  else
    match failed with
    | .start => ∃ host', host.start .ok = .ok (.ok, host')
    | .initServer | .stop => (host.changeRunState .idle .startingUp).isSome

/-- The run state describes the thread. -/
structure DescribesThread (s : ServerLife ε) : Prop where
  alive : s.fault = none
  running_iff : s.host.server.m_runState = .running ↔ s.host.m_serverThread = true
  stop_refused : s.started = false →
    ∀ outcome, s.host.stop outcome = .ok (.invalidState, s.host)
  next_call : ∀ failed ∈ s.failed, NextCallPossible s.host failed

/-- The calls after which the run state describes the thread, if it did before: an initialize that
    does not succeed, a start that succeeds exactly if there is no thread yet, a stop that is
    refused or does not fail. -/
def CallIsHarmless (s : ServerLife ε) : ServerCall ε → Prop
  | .initServer _ _ outcome => ¬ (s.host.server.m_runState = .idle ∧ outcome.Succeeds)
  | .start startTransport => startTransport = .ok ↔ s.host.m_serverThread = false
  | .stop outcome => s.host.server.m_runState = .running → outcome.Succeeds
  | .terminate _ => True

instance (s : ServerLife ε) : ∀ call : ServerCall ε, Decidable (s.CallIsHarmless call)
  | .initServer _ _ outcome =>
    inferInstanceAs (Decidable (¬ (s.host.server.m_runState = .idle ∧ outcome.Succeeds)))
  | .start startTransport =>
    inferInstanceAs (Decidable (startTransport = .ok ↔ s.host.m_serverThread = false))
  | .stop outcome =>
    inferInstanceAs (Decidable (s.host.server.m_runState = .running → outcome.Succeeds))
  | .terminate _ => .isTrue trivial

variable {s : ServerLife ε}

theorem nextCallPossible_of_thread {host : HostedServer ε}
    (hrun : host.server.m_runState = .running) (hthread : host.m_serverThread = true)
    (failed : FailedCall) : NextCallPossible host failed := by
  unfold NextCallPossible
  rw [if_pos hthread]
  intro outcome hsucc
  obtain ⟨rc, s', hstop, hrc, -⟩ := HostedServer.stop_of_thread hrun hthread outcome
  rw [hrc.mpr hsucc] at hstop
  exact ⟨s', hstop⟩

/-- With neither a thread nor a failed start, the next call is possible if the server is idle. -/
theorem nextCallPossible_iff_idle {host : HostedServer ε} (hthread : host.m_serverThread = false)
    {failed : FailedCall} (hstart : failed ≠ .start) :
    NextCallPossible host failed ↔ host.server.m_runState = .idle := by
  have hchange : (host.changeRunState .idle .startingUp).isSome ↔
      host.server.m_runState = .idle := by
    unfold HostedServer.changeRunState
    split <;> simp_all
  unfold NextCallPossible
  rw [hthread, if_neg (by decide), ← hchange]
  cases failed with
  | start => exact absurd rfl hstart
  | initServer => rfl
  | stop => rfl

theorem DescribesThread.started_of_running (h : s.DescribesThread)
    (hrun : s.host.server.m_runState = .running) : s.started = true := by
  cases hstarted : s.started with
  | true => rfl
  | false =>
    have hthread := h.running_iff.mp hrun
    obtain ⟨rc, s', hstop, hrc, -⟩ := HostedServer.stop_of_thread hrun hthread
      ⟨true, 0, 0, 0, .ok⟩
    rw [h.stop_refused hstarted] at hstop
    cases hstop
    exact absurd (hrc.mpr (by decide)) (by decide)

/-- A run state other than `RS_RUNNING` with no thread describes the thread. -/
private theorem describesThread_of_not_running (halive : s.fault = none)
    (hstate : s.host.server.m_runState ≠ .running) (hthread : s.host.m_serverThread = false)
    (hnext : ∀ failed ∈ s.failed, NextCallPossible s.host failed) : s.DescribesThread := by
  refine ⟨halive, ⟨fun h => absurd h hstate, fun h => ?_⟩,
    fun _ outcome => HostedServer.stop_of_not_running hstate outcome, hnext⟩
  rw [hthread] at h
  cases h

private theorem advance_initServer_iff (h : s.DescribesThread) (maxConnections : Nat)
    (extension : ε) (outcome : InitOutcome) :
    (s.advance (.initServer maxConnections extension outcome)).DescribesThread ↔
      ¬ (s.host.server.m_runState = .idle ∧ outcome.Succeeds) := by
  obtain ⟨hthread, hrefused, hok, hfail⟩ :=
    HostedServer.initServer_spec s.host maxConnections extension outcome
  have halive : s.fault.isSome = false := by rw [h.alive]; rfl
  simp only [advance, halive, Bool.false_eq_true, if_false]
  by_cases hidle : s.host.server.m_runState = .idle
  · have hnone : s.host.m_serverThread = false := by
      cases hsome : s.host.m_serverThread with
      | false => rfl
      | true =>
        rw [h.running_iff.mpr hsome] at hidle
        cases hidle
    by_cases hsucc : outcome.Succeeds
    · -- `RS_RUNNING`, and no thread
      refine ⟨fun hafter => ?_, fun hno => absurd ⟨hidle, hsucc⟩ hno⟩
      have hrun := hafter.running_iff.mp (hok hidle hsucc).2
      rw [hthread, hnone] at hrun
      cases hrun
    · refine ⟨fun _ hboth => hsucc hboth.2, fun _ => ?_⟩
      obtain ⟨-, hstate⟩ := hfail hidle hsucc
      refine describesThread_of_not_running h.alive ?_ ?_ ?_
      · rw [hstate]
        decide
      · rw [hthread, hnone]
      · intro failed hfailed
        obtain ⟨-, rfl⟩ : _ ∧ FailedCall.initServer = failed := by
          simpa [Option.ite_none_right_eq_some] using hfailed
        exact (nextCallPossible_iff_idle (hthread.trans hnone) (by decide)).mpr hstate
  · refine ⟨fun _ hboth => hidle hboth.1, fun _ => ?_⟩
    rw [hrefused hidle]
    refine ⟨h.alive, h.running_iff, h.stop_refused, fun failed hfailed => ?_⟩
    simp [hidle] at hfailed

private theorem advance_start_iff (h : s.DescribesThread) (startTransport : ErrorCode) :
    (s.advance (.start startTransport)).DescribesThread ↔
      (startTransport = .ok ↔ s.host.m_serverThread = false) := by
  have halive : s.fault.isSome = false := by rw [h.alive]; rfl
  simp only [advance, halive, Bool.false_eq_true, if_false, HostedServer.start]
  by_cases hok : startTransport = .ok
  · cases hthread : s.host.m_serverThread with
    | true =>
      -- the thread object is assigned to while it is joinable
      simp only [hok, ne_eq, not_true_eq_false, if_false, HostedServer.setRunState_thread, hthread,
        if_true]
      exact ⟨fun hafter => (nomatch hafter.alive), fun hiff => absurd (hiff.mp trivial) (by decide)⟩
    | false =>
      simp only [hok, ne_eq, not_true_eq_false, if_false, HostedServer.setRunState_thread, hthread,
        Bool.false_eq_true, if_true]
      refine ⟨fun _ => trivial, fun _ => ?_⟩
      exact ⟨h.alive, ⟨fun _ => rfl, fun _ => rfl⟩, fun hno => (nomatch hno),
        fun _ hno => (nomatch hno)⟩
  · cases hthread : s.host.m_serverThread with
    | true =>
      have hrun := h.running_iff.mpr hthread
      simp only [ne_eq, hok, not_false_eq_true, if_true, if_false, Bool.true_eq_false]
      refine ⟨fun _ => trivial, fun _ => ?_⟩
      refine ⟨h.alive, ⟨fun _ => hthread, fun _ => rfl⟩, ?_, ?_⟩
      · intro hno
        rw [h.started_of_running hrun] at hno
        cases hno
      · exact fun failed _ =>
          @nextCallPossible_of_thread ε (s.host.setRunState .running) rfl hthread failed
    | false =>
      -- `RS_RUNNING`, and no thread
      simp only [ne_eq, hok, not_false_eq_true, if_true, if_false, false_iff, not_true_eq_false,
        iff_false]
      intro hafter
      have hrun := hafter.running_iff.mp rfl
      rw [HostedServer.setRunState_thread, hthread] at hrun
      cases hrun

private theorem advance_stop_iff (h : s.DescribesThread) (outcome : StopOutcome) :
    (s.advance (.stop outcome)).DescribesThread ↔
      (s.host.server.m_runState = .running → outcome.Succeeds) := by
  have halive : s.fault.isSome = false := by rw [h.alive]; rfl
  simp only [advance, halive, Bool.false_eq_true, if_false]
  by_cases hrun : s.host.server.m_runState = .running
  · have hthread := h.running_iff.mp hrun
    obtain ⟨rc, s', hstop, hrc, hsucc, hfail⟩ :=
      HostedServer.stop_of_thread hrun hthread outcome
    simp only [hstop, hrun, true_and, true_imp_iff]
    by_cases hok : outcome.Succeeds
    · obtain ⟨hidle, hnone⟩ := hsucc hok
      refine ⟨fun _ => hok, fun _ => ?_⟩
      refine describesThread_of_not_running h.alive ?_ hnone ?_
      · rw [hidle]
        decide
      · intro failed hfailed
        simp [hrc.mpr hok] at hfailed
    · -- `RS_SHUTTING_DOWN`: with the thread, or without it and not to be initialized again
      have hstate := hfail hok
      refine ⟨fun hafter => ?_, fun hno => absurd hno hok⟩
      have hnone : s'.m_serverThread = false := by
        cases hsome : s'.m_serverThread with
        | false => rfl
        | true =>
          have hrun' := hafter.running_iff.mpr hsome
          rw [hstate] at hrun'
          cases hrun'
      have hnot : rc ≠ .ok := fun heq => hok (hrc.mp heq)
      have hnext := hafter.next_call .stop (by simp [hnot])
      rw [nextCallPossible_iff_idle hnone (by decide), hstate] at hnext
      cases hnext
  · rw [HostedServer.stop_of_not_running hrun]
    refine ⟨fun _ hno => absurd hno hrun, fun _ => ?_⟩
    refine ⟨h.alive, h.running_iff, fun _ o => HostedServer.stop_of_not_running hrun o, ?_⟩
    intro failed hfailed
    simp [hrun] at hfailed

/-- One call keeps the run state right exactly if it is harmless. -/
theorem advance_describesThread_iff (h : s.DescribesThread) (call : ServerCall ε) :
    (s.advance call).DescribesThread ↔ s.CallIsHarmless call := by
  cases call with
  | initServer maxConnections extension outcome =>
    exact advance_initServer_iff h maxConnections extension outcome
  | start startTransport => exact advance_start_iff h startTransport
  | stop outcome => exact advance_stop_iff h outcome
  | terminate terminateTransport =>
    refine ⟨fun _ => trivial, fun _ => ?_⟩
    have halive : s.fault.isSome = false := by rw [h.alive]; rfl
    have hhost : (s.host.terminate terminateTransport).2.server.m_runState =
          s.host.server.m_runState ∧
        (s.host.terminate terminateTransport).2.m_serverThread = s.host.m_serverThread := by
      unfold HostedServer.terminate
      split <;> exact ⟨rfl, rfl⟩
    simp only [advance, halive, Bool.false_eq_true, if_false]
    refine ⟨h.alive, ?_, fun hno outcome => HostedServer.stop_of_not_running ?_ outcome,
      fun _ hno => (nomatch hno)⟩
    · rw [hhost.1, hhost.2]
      exact h.running_iff
    · rw [hhost.1]
      intro hrun
      rw [h.started_of_running hrun] at hno
      cases hno

theorem new_describesThread : (new : ServerLife ε).DescribesThread :=
  describesThread_of_not_running rfl (fun hrun => (nomatch hrun)) rfl (fun _ hno => (nomatch hno))

/-- **The run state and the thread**: in a run of calls, with any outcomes, the run state describes
    the thread in every state exactly if every call is harmless. -/
theorem run_state_describes_thread_iff (calls : List (ServerCall ε)) :
    Throughout advance DescribesThread new calls ↔ EachStep advance CallIsHarmless new calls :=
  @throughout_iff_eachStep _ _ advance _ _ DescribesThread (fun _ => True) (fun _ _ => True) _
    (fun _ _ _ _ => trivial) (fun _ call _ h _ => advance_describesThread_iff h call)
    trivial new_describesThread (eachStep_true _ _ _)

/-- An initialize is enough: the run state is `RS_RUNNING` without a thread, and a stop throws. -/
theorem stop_after_initServer_throws :
    let s := (new : ServerLife Unit).advance (.initServer 10 () ⟨true, 0, .ok⟩)
    s.host.server.m_runState = .running ∧ s.host.m_serverThread = false ∧ s.started = false ∧
      s.host.stop ⟨true, 0, 0, 0, .ok⟩ = .error .uncaughtException :=
  ⟨rfl, rfl, rfl, rfl⟩

/-- A stop that fails before it joins the thread leaves a thread that no stop can reach. -/
example :
    let s := [ServerCall.start .ok, .stop ⟨true, 0, -1, 0, .ok⟩].foldl advance
      (new : ServerLife Unit)
    s.host.m_serverThread = true ∧ s.host.server.m_runState = .shuttingDown ∧
      s.host.stop ⟨true, 0, 0, 0, .ok⟩ = .ok (.invalidState, s.host) :=
  ⟨rfl, rfl, rfl⟩

/-! ## §4 Initialized servers -/

/-- The calls of an orderly user whose transport does not fail while the server runs: a start
    without a thread, a stop of a thread or one that is refused. -/
def CallIsOrderly (s : ServerLife ε) : ServerCall ε → Prop
  | .initServer _ _ _ | .terminate _ => True
  | .start startTransport => startTransport = .ok ∧ s.host.m_serverThread = false
  | .stop outcome =>
    s.host.server.m_runState = .running → s.host.m_serverThread = true ∧ outcome.Succeeds

/-- The run state describes the thread or a server that was initialized and not started. -/
structure DescribesLife (s : ServerLife ε) : Prop where
  alive : s.fault = none
  running_iff : s.host.server.m_runState = .running ↔
    s.host.m_serverThread = true ∨ s.prepared = true

private theorem DescribesLife.advance (h : s.DescribesLife) {call : ServerCall ε}
    (hcall : s.CallIsOrderly call) : (s.advance call).DescribesLife := by
  have halive : s.fault.isSome = false := by rw [h.alive]; rfl
  cases call with
  | initServer maxConnections extension outcome =>
    obtain ⟨hthread, hrefused, hok, hfail⟩ :=
      HostedServer.initServer_spec s.host maxConnections extension outcome
    simp only [ServerLife.advance, halive, Bool.false_eq_true, if_false]
    by_cases hidle : s.host.server.m_runState = .idle
    · have hnone : ¬ (s.host.m_serverThread = true ∨ s.prepared = true) := by
        rw [← h.running_iff, hidle]
        decide
      by_cases hsucc : outcome.Succeeds
      · obtain ⟨hrc, hstate⟩ := hok hidle hsucc
        exact ⟨h.alive, by simp [hrc, hstate]⟩
      · obtain ⟨hrc, hstate⟩ := hfail hidle hsucc
        exact ⟨h.alive, by simpa [hrc, hstate, hthread] using hnone⟩
    · rw [hrefused hidle]
      exact ⟨h.alive, by simpa using h.running_iff⟩
  | start startTransport =>
    obtain ⟨rfl, hthread⟩ := hcall
    simp only [ServerLife.advance, halive, Bool.false_eq_true, if_false, HostedServer.start,
      ne_eq, not_true_eq_false, HostedServer.setRunState_thread, hthread]
    exact ⟨h.alive, by simp⟩
  | stop outcome =>
    simp only [ServerLife.advance, halive, Bool.false_eq_true, if_false]
    by_cases hrun : s.host.server.m_runState = .running
    · obtain ⟨hthread, hsucc⟩ := hcall hrun
      obtain ⟨rc, s', hstop, hrc, hend, -⟩ :=
        HostedServer.stop_of_thread hrun hthread outcome
      obtain ⟨hidle, hnone⟩ := hend hsucc
      simp only [hstop, hrc.mpr hsucc]
      exact ⟨h.alive, by simp [hidle, hnone]⟩
    · rw [HostedServer.stop_of_not_running hrun]
      exact ⟨h.alive, by simpa using h.running_iff⟩
  | terminate terminateTransport =>
    simp only [ServerLife.advance, halive, Bool.false_eq_true, if_false, HostedServer.terminate]
    refine ⟨h.alive, ?_⟩
    split <;> exact h.running_iff

/-- **Orderly lifecycles**: the run state is `RS_RUNNING` exactly while there is a thread or the
    server is initialized and waits to be started. -/
theorem run_state_in_lifecycles {calls : List (ServerCall ε)}
    (h : EachStep advance CallIsOrderly new calls) : Throughout advance DescribesLife new calls :=
  throughout_of_eachStep (fun _ _ hs hcall => hs.advance hcall)
    ⟨rfl, ⟨fun hrun => (nomatch hrun), fun hor => hor.elim (nomatch ·) (nomatch ·)⟩⟩ h

end ServerLife

end Commutil.Transport
