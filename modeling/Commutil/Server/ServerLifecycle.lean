import Commutil.Transport.ServerThread

/-!
# The Lifecycle of a Message Server

`initialize`, `start`, `stop` and `terminate` of `msg_server.cpp`, with those of the
multiplexer and the assembler under it: what each call allocates, starts, joins and
frees.  The outcomes of allocations and of the transport come with the calls.

A user calls them in turn.  `lifecycle_iff` says in which runs each call does all of
its work or none of it, so that a call that failed can be made again, and a server that
was terminated holds nothing and can be initialized again.
-/

namespace Commutil.Server

open Commutil.Library Commutil.Transport

/-! ## §1 The calls -/

/-- `class MsgServer` with its parts, as far as they are created and destroyed. -/
structure MsgServerParts where
  dataServer : HostedServer Unit
  /-- `m_dataServer` is not a null pointer. -/
  m_dataServer : Bool
  m_concurrency : Nat
  /-- The length of `m_msgQueues`; each entry points to a queue. -/
  m_msgQueues : Nat
  /-- The threads of `m_msgThreads`, all of them joinable. -/
  m_msgThreads : Nat
  /-- `m_streamCount`, if `m_msgStreams` is not a null pointer. -/
  m_msgStreams : Option Nat
  /-- The entries of `m_sessions`, and whether they point to a session. -/
  m_sessions : List Bool
  /-- Queues and streams that nothing points to any more. -/
  lost : Nat
  deriving DecidableEq, Repr

/-- The arguments of `initialize`, and what it gets from its surroundings. -/
structure MsgServerOutcome where
  maxConnections : Nat
  concurrency : Nat
  /-- The number of queues that can be allocated. -/
  queues : Nat
  dataServer : InitOutcome
  /-- The array of streams is allocated. -/
  streamArray : Bool
  /-- The number of streams that can be allocated. -/
  streams : Nat
  deriving DecidableEq, Repr

namespace MsgServerParts

/-- The constructor. -/
def new : MsgServerParts := ⟨.new, false, 0, 0, 0, none, [], 0⟩

/-- `MsgMultiplexer::initialize`.  The queues of an earlier call are overwritten. -/
def initMultiplexer (s : MsgServerParts) (concurrency queues : Nat) : ErrorCode × MsgServerParts :=
  let s := { s with m_concurrency := concurrency, lost := s.lost + s.m_msgQueues }
  if queues < concurrency then (.nomem, { s with m_msgQueues := 0 })
  else (.ok, { s with m_msgQueues := concurrency })

/-- `MsgMultiplexer::terminate`.  The number of queues stays what it was. -/
def termMultiplexer (s : MsgServerParts) : Except Fault MsgServerParts :=
  if s.m_msgQueues < s.m_concurrency then .error .outOfBounds
  else .ok { s with m_msgQueues := 0 }

/-- `MsgMultiplexer::start`, whose threads use the queues at once. -/
def startMultiplexer (s : MsgServerParts) : Except Fault MsgServerParts :=
  if s.m_msgQueues < s.m_concurrency then .error .outOfBounds
  else .ok { s with m_msgThreads := s.m_msgThreads + s.m_concurrency }

/-- `MsgMultiplexer::stop`.  Threads beyond the number of queues are not joined. -/
def stopMultiplexer (s : MsgServerParts) : Except Fault MsgServerParts :=
  if s.m_msgQueues < s.m_concurrency ∨ s.m_msgThreads < s.m_concurrency then .error .outOfBounds
  else if s.m_concurrency < s.m_msgThreads then .error .uncaughtException
  else .ok { s with m_msgThreads := 0 }

/-- `MsgAssembler::initialize`. -/
def initAssembler (s : MsgServerParts) (maxConnections : Nat) (streamArray : Bool)
    (streams : Nat) : ErrorCode × MsgServerParts :=
  let s := { s with lost := s.lost + s.m_msgStreams.getD 0 }
  if streamArray = false ∨ streams < maxConnections then (.nomem, { s with m_msgStreams := none })
  else (.ok, { s with m_msgStreams := some maxConnections })

/-- `MsgAssembler::terminate`. -/
def termAssembler (s : MsgServerParts) : MsgServerParts := { s with m_msgStreams := none }

/-- `std::vector::resize` of the sessions. -/
def resizeSessions (s : MsgServerParts) (maxConnections : Nat) : MsgServerParts :=
  { s with m_sessions := s.m_sessions.take maxConnections ++
      List.replicate (maxConnections - s.m_sessions.length) false }

/-- `MsgServer::initialize`. -/
def initMsgServer (s : MsgServerParts) (outcome : MsgServerOutcome) :
    Except Fault (ErrorCode × MsgServerParts) :=
  let (rc, s) := s.initMultiplexer outcome.concurrency outcome.queues
  if rc ≠ .ok then .ok (rc, s)
  else
    let (rc, dataServer) :=
      s.dataServer.initServer outcome.maxConnections () outcome.dataServer
    let s := { s with dataServer }
    if rc ≠ .ok then s.termAssembler.termMultiplexer.map fun s => (rc, s)
    else
      let (rc, s) := s.initAssembler outcome.maxConnections outcome.streamArray outcome.streams
      -- the data server is not terminated
      if rc ≠ .ok then s.termMultiplexer.map fun s => (rc, s)
      else .ok (.ok, { s with m_dataServer := true }.resizeSessions outcome.maxConnections)

/-- `MsgServer::terminate`, with the result of `terminateTransport`. -/
def terminate (s : MsgServerParts) (terminateTransport : ErrorCode) :
    Except Fault (ErrorCode × MsgServerParts) :=
  if s.m_dataServer = false then .error .nullDereference
  else
    let (rc, dataServer) := s.dataServer.terminate terminateTransport
    let s := { s with dataServer }
    if rc ≠ .ok then .ok (rc, s)
    else s.termAssembler.termMultiplexer.map fun s => (.ok, { s with m_sessions := [] })

/-- `MsgServer::start`, with the result of `startTransport`. -/
def start (s : MsgServerParts) (startTransport : ErrorCode) :
    Except Fault (ErrorCode × MsgServerParts) := do
  let s ← s.startMultiplexer
  if s.m_dataServer = false then .error .nullDereference
  else
    let (rc, dataServer) ← s.dataServer.start startTransport
    let s := { s with dataServer }
    if rc ≠ .ok then s.stopMultiplexer.map fun s => (rc, s) else .ok (.ok, s)

/-- `MsgServer::stop`. -/
def stop (s : MsgServerParts) (outcome : StopOutcome) :
    Except Fault (ErrorCode × MsgServerParts) := do
  if s.m_dataServer = false then .error .nullDereference
  else
    let (rc, dataServer) ← s.dataServer.stop outcome
    let s := { s with dataServer }
    if rc ≠ .ok then .ok (rc, s) else s.stopMultiplexer.map fun s => (.ok, s)

/-! ## §2 Phases -/

end MsgServerParts

/-- How far the calls have come that succeeded. -/
inductive Phase where
  | terminated
  | prepared
  | running
  | stopped
  deriving DecidableEq, Repr

namespace MsgServerParts

/-- Nothing is held, and nothing was lost. -/
structure Clean (s : MsgServerParts) : Prop where
  state : s.dataServer.server.m_runState = .idle
  thread : s.dataServer.m_serverThread = false
  slots : s.dataServer.server.m_connDataArray = []
  queues : s.m_msgQueues = 0
  threads : s.m_msgThreads = 0
  streams : s.m_msgStreams = none
  sessions : s.m_sessions = []
  lost : s.lost = 0

/-- Everything is allocated, with a stream and a session entry for each slot; the run state and the
    threads are given. -/
structure Holds (s : MsgServerParts) (state : RunState) (thread : Bool) (threads : Nat) : Prop where
  state : s.dataServer.server.m_runState = state
  thread : s.dataServer.m_serverThread = thread
  queues : s.m_msgQueues = s.m_concurrency
  threads : s.m_msgThreads = threads
  streams : s.m_msgStreams = some s.dataServer.server.m_connDataArray.length
  sessions : s.m_sessions.length = s.dataServer.server.m_connDataArray.length
  attached : s.m_dataServer = true
  lost : s.lost = 0

/-- What a server holds in a phase. -/
def InPhase (s : MsgServerParts) : Phase → Prop
  | .terminated => s.Clean
  | .prepared => s.Holds .running false 0
  | .running => s.Holds .running true s.m_concurrency
  | .stopped => s.Holds .idle false 0

theorem new_inPhase : new.InPhase .terminated := ⟨rfl, rfl, rfl, rfl, rfl, rfl, rfl, rfl⟩

/-! ## §3 What each call does -/

end MsgServerParts

namespace MsgServerOutcome

/-- The multiplexer and the data server are initialized, and the streams of the assembler cannot be
    allocated. -/
def OnlyStreamsFail (outcome : MsgServerOutcome) : Prop :=
  outcome.concurrency ≤ outcome.queues ∧ outcome.dataServer.Succeeds ∧
    (outcome.streamArray = false ∨ outcome.streams < outcome.maxConnections)

instance (outcome : MsgServerOutcome) : Decidable outcome.OnlyStreamsFail :=
  inferInstanceAs (Decidable (_ ∧ _ ∧ _))

end MsgServerOutcome

/-- The connection array after `DataServer::initialize` of an idle server. -/
theorem initServer_slots {host : HostedServer Unit} (hidle : host.server.m_runState = .idle)
    (maxConnections : Nat) (outcome : InitOutcome) :
    let result := host.initServer maxConnections () outcome
    (result.1 = .ok → result.2.server.m_connDataArray.length = maxConnections) ∧
      (result.1 ≠ .ok → result.2.server.m_connDataArray = []) := by
  unfold HostedServer.initServer HostedServer.changeRunState
  rw [if_neg (not_not.mpr hidle)]
  dsimp only
  split
  · exact ⟨nofun, fun _ => rfl⟩
  split
  · exact ⟨nofun, fun _ => rfl⟩
  split
  · rename_i hfails
    exact ⟨fun hok => absurd hok hfails, fun _ => rfl⟩
  · refine ⟨fun _ => ?_, fun hne => absurd rfl hne⟩
    simp [HostedServer.setConnDataArray, HostedServer.setRunState, DataServer.initConnDataArray]

namespace MsgServerParts

variable {s : MsgServerParts}

theorem termMultiplexer_eq (h : s.m_concurrency ≤ s.m_msgQueues) :
    s.termMultiplexer = .ok { s with m_msgQueues := 0 } :=
  if_neg (Nat.not_lt.mpr h)

/-- **`initialize`** prepares the server or leaves it terminated, unless the streams of the assembler
    are all that fails: then the data server is left behind. -/
theorem Clean.initMsgServer (h : s.Clean) (outcome : MsgServerOutcome) :
    ∃ rc t, s.initMsgServer outcome = .ok (rc, t) ∧
      (t.InPhase (if rc = .ok then .prepared else .terminated) ↔ ¬ outcome.OnlyStreamsFail) := by
  unfold MsgServerParts.initMsgServer initMultiplexer
  by_cases hqueues : outcome.queues < outcome.concurrency
  · -- the multiplexer fails
    simp only [if_pos hqueues]
    refine ⟨.nomem, _, rfl, iff_of_true ?_ fun hfail => ?_⟩
    · exact ⟨h.state, h.thread, h.slots, rfl, h.threads, h.streams, h.sessions,
        by simp [h.lost, h.queues]⟩
    · exact absurd hfail.1 (Nat.not_le.mpr hqueues)
  simp only [if_neg hqueues, ne_eq, not_true_eq_false, if_false]
  obtain ⟨hthread, -, hok, hfail⟩ :=
    HostedServer.initServer_spec s.dataServer outcome.maxConnections () outcome.dataServer
  obtain ⟨hslots, hnone⟩ := initServer_slots h.state outcome.maxConnections outcome.dataServer
  generalize s.dataServer.initServer outcome.maxConnections () outcome.dataServer = result at *
  obtain ⟨rc, dataServer⟩ := result
  by_cases hsucc : outcome.dataServer.Succeeds
  · obtain ⟨hrc, hstate⟩ := hok h.state hsucc
    dsimp only at hrc
    subst hrc
    simp only [not_true_eq_false, if_false, initAssembler]
    by_cases hstreams : outcome.streamArray = false ∨ outcome.streams < outcome.maxConnections
    · -- only the assembler fails
      simp only [if_pos hstreams]
      rw [if_pos (by simp), termMultiplexer_eq (Nat.le_refl _)]
      refine ⟨.nomem, _, rfl, iff_of_false (fun hclean => ?_) fun hno => hno ?_⟩
      · have hidle := MsgServerParts.Clean.state hclean
        rw [show dataServer.server.m_runState = .running from hstate] at hidle
        cases hidle
      · exact ⟨Nat.not_lt.mp hqueues, hsucc, hstreams⟩
    · simp only [if_neg hstreams, not_true_eq_false, if_false]
      refine ⟨.ok, _, rfl, iff_of_true ?_ fun hfail => hstreams hfail.2.2⟩
      have hlength : dataServer.server.m_connDataArray.length = outcome.maxConnections := hslots rfl
      refine ⟨hstate, hthread.trans h.thread, rfl, h.threads, ?_, ?_, rfl, ?_⟩
      · exact congrArg some hlength.symm
      · simp [resizeSessions, h.sessions, hlength]
      · simp [resizeSessions, h.lost, h.queues, h.streams]
  · obtain ⟨hrc, hstate⟩ := hfail h.state hsucc
    simp only [if_pos hrc, termAssembler]
    rw [termMultiplexer_eq (Nat.le_refl _)]
    refine ⟨rc, _, rfl, iff_of_true ?_ fun hfail => hsucc hfail.2.1⟩
    rw [if_neg hrc]
    exact ⟨hstate, hthread.trans h.thread, hnone hrc, rfl, h.threads, rfl, h.sessions,
      by simp [h.lost, h.queues]⟩

/-- **`start`** runs the server, or leaves it prepared. -/
theorem Holds.start (h : s.Holds .running false 0) (startTransport : ErrorCode) :
    ∃ t, s.start startTransport = .ok (startTransport, t) ∧
      t.InPhase (if startTransport = .ok then .running else .prepared) := by
  have hthreads : s.startMultiplexer = .ok { s with m_msgThreads := s.m_concurrency } := by
    rw [startMultiplexer, if_neg (Nat.not_lt.mpr (Nat.le_of_eq h.queues.symm)), h.threads,
      Nat.zero_add]
  unfold MsgServerParts.start
  rw [hthreads, bind_of_ok rfl]
  simp only [h.attached, Bool.true_eq_false, if_false]
  by_cases hok : startTransport = .ok
  · subst hok
    have hstarted : s.dataServer.start .ok =
        .ok (.ok, { s.dataServer.setRunState .running with m_serverThread := true }) := by
      simp [HostedServer.start, h.thread]
    rw [hstarted, bind_of_ok rfl]
    exact ⟨_, rfl, rfl, rfl, h.queues, rfl, h.streams, h.sessions, rfl, h.lost⟩
  · have hfailed : s.dataServer.start startTransport =
        .ok (startTransport, s.dataServer.setRunState .running) := by
      simp [HostedServer.start, hok]
    rw [hfailed, bind_of_ok rfl, if_neg hok]
    -- the threads of the multiplexer are joined again
    simp only [ne_eq, hok, not_false_eq_true, if_true]
    rw [stopMultiplexer, if_neg (by simp [h.queues]), if_neg (Nat.lt_irrefl _)]
    exact ⟨_, rfl, rfl, h.thread, h.queues, rfl, h.streams, h.sessions, rfl, h.lost⟩

/-- Neither `stop` nor the loop under it changes the connection array. -/
theorem stopTransportLoop_slots {host host' : HostedServer Unit} {outcome : StopOutcome}
    {rc : ErrorCode} (h : host.stopTransportLoop outcome = .ok (rc, host')) :
    host'.server.m_connDataArray = host.server.m_connDataArray := by
  unfold HostedServer.stopTransportLoop at h
  repeat' split at h
  all_goals cases h
  all_goals rfl

theorem stop_slots {host host' : HostedServer Unit} {outcome : StopOutcome} {rc : ErrorCode}
    (h : host.stop outcome = .ok (rc, host')) :
    host'.server.m_connDataArray = host.server.m_connDataArray := by
  unfold HostedServer.stop HostedServer.changeRunState at h
  split at h
  · cases h
    rfl
  rename_i hchange
  split at hchange
  · cases hchange
  cases hchange
  split at h
  · cases h
  rename_i hloop
  have hslots := stopTransportLoop_slots hloop
  repeat' split at h
  all_goals cases h
  all_goals exact hslots

/-- **`stop`** stops a running server if nothing fails, and does not leave it running otherwise. -/
theorem Holds.stop (h : s.Holds .running true s.m_concurrency) (outcome : StopOutcome) :
    ∃ rc t, s.stop outcome = .ok (rc, t) ∧
      (t.InPhase (if rc = .ok then .stopped else .running) ↔ outcome.Succeeds) := by
  obtain ⟨rc, dataServer, hstop, hrc, hsucc, hfail⟩ :=
    HostedServer.stop_of_thread h.state h.thread outcome
  have hslots := stop_slots hstop
  unfold MsgServerParts.stop
  rw [if_neg (by simp [h.attached]), hstop, bind_of_ok rfl]
  by_cases hok : rc = .ok
  · subst hok
    obtain ⟨hstate, hthread⟩ := hsucc (hrc.mp rfl)
    simp only [ne_eq, not_true_eq_false, if_false]
    rw [stopMultiplexer, if_neg (by simp [h.queues, h.threads]), if_neg (by simp [h.threads])]
    refine ⟨.ok, _, rfl,
      iff_of_true ⟨hstate, hthread, h.queues, rfl, ?_, ?_, h.attached, h.lost⟩ (hrc.mp rfl)⟩
    · rw [hslots]
      exact h.streams
    · rw [hslots]
      exact h.sessions
  · simp only [ne_eq, hok, not_false_eq_true, if_true]
    have hfails : ¬ outcome.Succeeds := fun h => hok (hrc.mpr h)
    refine ⟨rc, _, rfl, iff_of_false (fun hrunning => ?_) hfails⟩
    rw [if_neg hok] at hrunning
    have hstate := MsgServerParts.Holds.state hrunning
    rw [show dataServer.server.m_runState = .shuttingDown from hfail hfails] at hstate
    cases hstate

/-- **`terminate`** frees everything or changes nothing; only a server that was stopped is then as it
    was at first. -/
theorem Holds.terminate {state : RunState} (h : s.Holds state false 0)
    (terminateTransport : ErrorCode) :
    ∃ t, s.terminate terminateTransport = .ok (terminateTransport, t) ∧
      (terminateTransport = .ok → (t.InPhase .terminated ↔ state = .idle)) ∧
      (terminateTransport ≠ .ok → t = s) := by
  unfold MsgServerParts.terminate
  rw [if_neg (by simp [h.attached])]
  by_cases hok : terminateTransport = .ok
  · subst hok
    have hfreed : s.dataServer.terminate .ok = (.ok, s.dataServer.termConnDataArray) := rfl
    rw [hfreed]
    dsimp only [termAssembler]
    rw [if_neg (not_not.mpr rfl), termMultiplexer_eq]
    · refine ⟨_, rfl, fun _ => ⟨fun hclean => ?_, fun hidle => ?_⟩, fun hne => absurd rfl hne⟩
      · exact h.state.symm.trans hclean.state
      · exact ⟨h.state.trans hidle, h.thread, rfl, rfl, h.threads, rfl, rfl, h.lost⟩
    · exact Nat.le_of_eq h.queues.symm
  · have hrefused : s.dataServer.terminate terminateTransport =
        (terminateTransport, s.dataServer) := if_pos hok
    rw [hrefused]
    dsimp only
    rw [if_pos hok]
    exact ⟨s, rfl, fun heq => absurd heq hok, fun _ => rfl⟩

end MsgServerParts

/-! ## §4 Runs -/

/-- A call on the server, or a session that comes or goes while it runs. -/
inductive LifeEvent where
  | initMsgServer (outcome : MsgServerOutcome)
  | start (startTransport : ErrorCode)
  | stop (outcome : StopOutcome)
  | terminate (terminateTransport : ErrorCode)
  | session (connectionIndex : Nat) (present : Bool)
  deriving DecidableEq, Repr

/-- A server, the phase it is in, and whether a call ended the process. -/
structure MsgServerLife where
  parts : MsgServerParts
  phase : Phase
  fault : Option Fault
  deriving DecidableEq, Repr

namespace MsgServerLife

def new : MsgServerLife := ⟨.new, .terminated, none⟩

/-- What is left after a call: it leads to `next` if it succeeds. -/
def after (s : MsgServerLife) (result : Except Fault (ErrorCode × MsgServerParts)) (next : Phase) :
    MsgServerLife :=
  match result with
  | .error fault => { s with fault := some fault }
  | .ok (rc, parts) => { s with parts, phase := if rc = .ok then next else s.phase }

/-- One event. -/
def advance (s : MsgServerLife) : LifeEvent → MsgServerLife
  | .initMsgServer outcome => s.after (s.parts.initMsgServer outcome) .prepared
  | .start startTransport => s.after (s.parts.start startTransport) .running
  | .stop outcome => s.after (s.parts.stop outcome) .stopped
  | .terminate terminateTransport => s.after (s.parts.terminate terminateTransport) .terminated
  | .session connectionIndex present =>
    { s with parts :=
        { s.parts with m_sessions := s.parts.m_sessions.set connectionIndex present } }

/-- The events in their turn.  A server that was not started may be terminated as well. -/
def InTurn (s : MsgServerLife) : LifeEvent → Prop
  | .initMsgServer _ => s.phase = .terminated
  | .start _ => s.phase = .prepared
  | .stop _ => s.phase = .running
  | .terminate _ => s.phase = .prepared ∨ s.phase = .stopped
  | .session connectionIndex _ =>
    s.phase = .running ∧ connectionIndex < s.parts.m_sessions.length

instance (s : MsgServerLife) : ∀ event : LifeEvent, Decidable (s.InTurn event)
  | .initMsgServer _ => inferInstanceAs (Decidable (_ = _))
  | .start _ => inferInstanceAs (Decidable (_ = _))
  | .stop _ => inferInstanceAs (Decidable (_ = _))
  | .terminate _ => inferInstanceAs (Decidable (_ ∨ _))
  | .session _ _ => inferInstanceAs (Decidable (_ ∧ _))

/-- The calls that do all of their work or none of it. -/
def AllOrNothing (s : MsgServerLife) : LifeEvent → Prop
  | .initMsgServer outcome => ¬ outcome.OnlyStreamsFail
  | .stop outcome => outcome.Succeeds
  | .terminate terminateTransport => terminateTransport = .ok → s.phase = .stopped
  | .start _ | .session _ _ => True

instance (s : MsgServerLife) : ∀ event : LifeEvent, Decidable (s.AllOrNothing event)
  | .initMsgServer outcome => inferInstanceAs (Decidable (¬ outcome.OnlyStreamsFail))
  | .stop outcome => inferInstanceAs (Decidable outcome.Succeeds)
  | .terminate _ => inferInstanceAs (Decidable (_ → _))
  | .start _ => .isTrue trivial
  | .session _ _ => .isTrue trivial

/-- No call ended the process, and the server holds what it holds in its phase. -/
def Orderly (s : MsgServerLife) : Prop := s.fault = none ∧ s.parts.InPhase s.phase

theorem new_orderly : new.Orderly := ⟨rfl, MsgServerParts.new_inPhase⟩

variable {s : MsgServerLife}

/-- After a call that returns, the server is orderly if it is in the phase the result tells. -/
theorem after_orderly_iff (halive : s.fault = none) {rc : ErrorCode} {parts : MsgServerParts}
    {result : Except Fault (ErrorCode × MsgServerParts)} (hresult : result = .ok (rc, parts))
    (next : Phase) :
    (s.after result next).Orderly ↔ parts.InPhase (if rc = .ok then next else s.phase) := by
  subst hresult
  exact ⟨And.right, And.intro halive⟩

theorem initMsgServer_orderly_iff (h : s.Orderly) (hphase : s.phase = .terminated)
    (outcome : MsgServerOutcome) :
    (s.advance (.initMsgServer outcome)).Orderly ↔ ¬ outcome.OnlyStreamsFail := by
  obtain ⟨halive, hin⟩ := h
  rw [hphase] at hin
  obtain ⟨rc, t, hinit, hiff⟩ := MsgServerParts.Clean.initMsgServer hin outcome
  rw [advance, after_orderly_iff halive hinit, hphase]
  exact hiff

theorem start_orderly (h : s.Orderly) (hphase : s.phase = .prepared) (startTransport : ErrorCode) :
    (s.advance (.start startTransport)).Orderly := by
  obtain ⟨halive, hin⟩ := h
  rw [hphase] at hin
  obtain ⟨t, hstart, hafter⟩ := MsgServerParts.Holds.start hin startTransport
  rw [advance, after_orderly_iff halive hstart, hphase]
  exact hafter

theorem stop_orderly_iff (h : s.Orderly) (hphase : s.phase = .running) (outcome : StopOutcome) :
    (s.advance (.stop outcome)).Orderly ↔ outcome.Succeeds := by
  obtain ⟨halive, hin⟩ := h
  rw [hphase] at hin
  obtain ⟨rc, t, hstop, hiff⟩ := MsgServerParts.Holds.stop hin outcome
  rw [advance, after_orderly_iff halive hstop, hphase]
  exact hiff

/-- The run state tells a server that was stopped from one that was not started. -/
theorem terminate_orderly_iff (h : s.Orderly) (hphase : s.phase = .prepared ∨ s.phase = .stopped)
    (terminateTransport : ErrorCode) :
    (s.advance (.terminate terminateTransport)).Orderly ↔
      (terminateTransport = .ok → s.phase = .stopped) := by
  obtain ⟨halive, hin⟩ := h
  obtain ⟨state, hholds, hidle⟩ :
      ∃ state, s.parts.Holds state false 0 ∧ (state = .idle ↔ s.phase = .stopped) := by
    obtain hphase | hphase := hphase
    · rw [hphase] at hin ⊢
      exact ⟨.running, hin, by decide⟩
    · rw [hphase] at hin ⊢
      exact ⟨.idle, hin, by decide⟩
  obtain ⟨t, hterminate, hfreed, hkept⟩ := hholds.terminate terminateTransport
  rw [advance, after_orderly_iff halive hterminate]
  by_cases hok : terminateTransport = .ok
  · rw [if_pos hok, hfreed hok, hidle]
    exact ⟨fun hstopped _ => hstopped, fun hstopped => hstopped hok⟩
  · rw [if_neg hok, hkept hok]
    exact iff_of_true hin fun heq => absurd heq hok

theorem session_orderly (h : s.Orderly) (hphase : s.phase = .running) (connectionIndex : Nat)
    (present : Bool) : (s.advance (.session connectionIndex present)).Orderly := by
  obtain ⟨halive, hin⟩ := h
  refine ⟨halive, ?_⟩
  rw [hphase] at hin
  rw [advance, hphase]
  have hsessions := hin.sessions
  exact { hin with sessions := by rw [List.length_set, hsessions] }

/-- An event in its turn keeps the server orderly if and only if it does all of its work or none. -/
theorem advance_orderly_iff (h : s.Orderly) {event : LifeEvent} (hturn : s.InTurn event) :
    (s.advance event).Orderly ↔ s.AllOrNothing event := by
  cases event with
  | initMsgServer outcome => exact initMsgServer_orderly_iff h hturn outcome
  | start startTransport => exact iff_of_true (start_orderly h hturn startTransport) trivial
  | stop outcome => exact stop_orderly_iff h hturn outcome
  | terminate terminateTransport => exact terminate_orderly_iff h hturn terminateTransport
  | session connectionIndex present =>
    exact iff_of_true (session_orderly h hturn.1 connectionIndex present) trivial

/-- **Lifecycles.**  In a run of events in their turn, the server holds at any time what it holds in
    its phase, and no call ends the process, if and only if the streams are never all that fails in
    `initialize`, no `stop` fails, and `terminate` frees only servers that were stopped. -/
theorem lifecycle_iff (events : List LifeEvent) (hturn : EachStep advance InTurn new events) :
    Throughout advance Orderly new events ↔ EachStep advance AllOrNothing new events :=
  throughout_iff_eachStep (fun _ _ _ _ => trivial)
    (fun _ _ (_ : True) horderly hturn => advance_orderly_iff horderly hturn) trivial
    new_orderly hturn

private def twoConnections : MsgServerOutcome := ⟨2, 1, 1, ⟨true, 0, .ok⟩, true, 2⟩

/-- Two cycles, with a first `initialize` and a first `start` that fail. -/
private def twoCycles : List LifeEvent :=
  [.initMsgServer { twoConnections with queues := 0 }, .initMsgServer twoConnections,
    .start .transportError, .start .ok, .session 0 true, .session 1 true, .session 0 false,
    .stop ⟨true, 0, 0, 0, .ok⟩, .terminate .transportError, .terminate .ok,
    .initMsgServer twoConnections, .start .ok, .stop ⟨true, 0, 0, 0, .ok⟩, .terminate .ok]

theorem lifecycle_iff_two_cycles :
    Throughout advance Orderly new twoCycles ∧
      (twoCycles.foldl advance new).parts.m_sessions = [] :=
  ⟨(lifecycle_iff twoCycles (by decide)).mpr (by decide), by decide⟩

-- where the streams are all that fails, the data server refuses the next `initialize`
example : (List.foldl advance new [.initMsgServer { twoConnections with streams := 1 },
    .initMsgServer twoConnections]).phase = .terminated := by
  decide

end MsgServerLife

end Commutil.Server
