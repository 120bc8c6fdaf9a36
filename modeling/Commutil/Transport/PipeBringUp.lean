import Mathlib.Data.List.Perm.Subperm
import Commutil.Transport.DataServer

/-!
# Bringing Up the IO Pipes of a TCP Server

Before `TcpServer` listens, each IO task connects to the pipe server, and the server loop accepts
these connections one by one into the vacant slots of `m_ioTasks`.  Nothing says which task is at
the other end of a connection: `m_ioTasks[i].m_serverPipe` leads to task `i` only if the
connections arrive in the order in which `initIOTasks` has asked for them.

A connection carries the task that has made it, which the program does not know.  A connect request
is under way from `uv_pipe_connect` on; it may arrive before one that is older, and it may fail.

- `listening_pipes_paired`: once the server listens, the pipes lead to all tasks, and each to its
  own task if the connections have arrived in order
- `listens_once`: in its whole life a server object calls `uv_listen` at most once, as no slot is
  ever vacant again
- `initIOTasks_throws_iff`: which failures of `initIOTasks` join a thread that was never started
-/

namespace Commutil.Transport

open Commutil.Library

/-! ## §1 The calls -/

/-- `enum class ServerState`. -/
inductive ServerState where
  | uninit
  | loopInit
  | tcpInit
  | init
  deriving DecidableEq, Repr

/-- `enum class IOTaskState`. -/
inductive IOTaskState where
  | uninit
  | loopInit
  | serverPipeInit
  | init
  deriving DecidableEq, Repr

/-- Who is at the other end of a connection to the pipe server. -/
inductive PipeClient where
  | task (id : Nat)
  /-- Not an IO task of this server; the path of the pipe is known to all. -/
  | stranger
  deriving DecidableEq, Repr

/-- `struct IOTaskData` during the bring-up. -/
structure PipeTask where
  m_state : IOTaskState
  m_isUsed : Bool
  /-- `m_ioTask.joinable()`. -/
  m_ioTask : Bool
  /-- The other end of `m_serverPipe`, while it is open. -/
  m_serverPipe : Option PipeClient
  deriving DecidableEq, Repr

/-- The constructor of `IOTaskData`. -/
def PipeTask.new : PipeTask := ⟨.uninit, false, false, none⟩

/-- A slot of `m_ioTasks` as the server loop sees it: whether it is used, and where its pipe
    leads. -/
def PipeTask.slot (task : PipeTask) : Bool × Option PipeClient := (task.m_isUsed, task.m_serverPipe)

/-- `class TcpServer` during the bring-up.  `pending` are the connections that the pipe server has
    not accepted yet, in the order of their arrival; `connecting` are the tasks whose connect
    requests are under way, oldest first; `listens` counts the calls of `uv_listen` for `m_server`,
    with those that fail. -/
structure BringUp where
  m_concurrency : Nat
  m_serverState : ServerState
  m_connectedPipes : Nat
  m_ioTasks : List PipeTask
  pending : List PipeClient
  connecting : List Nat
  listening : Bool
  listens : Nat
  deriving DecidableEq, Repr

/-- What libuv answers in `initTcpServer`. -/
structure TcpInitEnv where
  tcpInit : Bool
  address : Bool
  bind : Bool
  deriving DecidableEq, Repr

/-- What libuv and the system answer in `initPipeServer`. -/
structure PipeInitEnv where
  pipeInit : Bool
  /-- There is no old pipe at the path, or it is removed. -/
  unlink : Bool
  bind : Bool
  listen : Bool
  deriving DecidableEq, Repr

/-- What libuv answers in `stopTransportLoop` for the loop of a task. -/
structure TaskStopEnv where
  asyncInit : Bool
  asyncSend : Bool
  loopClose : Bool
  deriving DecidableEq, Repr

/-- What libuv answers in `initIOTask`. -/
structure TaskInitEnv where
  loopInit : Bool
  pipeInit : Bool
  stop : TaskStopEnv
  deriving DecidableEq, Repr

/-- What libuv answers in `initializeTransport`. -/
structure BringUpEnv where
  tcp : TcpInitEnv
  pipe : PipeInitEnv
  tasks : Nat → TaskInitEnv

/-- What libuv answers in `handleNewPipeConnection`. -/
structure AcceptEnv where
  pipeInit : Bool
  accept : Bool
  listen : Bool
  stop : Nat → TaskStopEnv

namespace BringUp

/-- The constructor. -/
def new (concurrency : Nat) : BringUp := ⟨concurrency, .uninit, 0, [], [], [], false, 0⟩

/-- An IO task written. -/
def setTask (s : BringUp) (id : Nat) (task : PipeTask) : BringUp :=
  { s with m_ioTasks := s.m_ioTasks.set id task }

/-- The handles of the server loop are gone: it is closed, or initialized anew.  With the pipe
    server goes what was on its way to it. -/
def closeHandles (s : BringUp) : BringUp :=
  { s with
    m_ioTasks := s.m_ioTasks.map fun task => { task with m_serverPipe := none }
    pending := []
    connecting := []
    listening := false }

/-- `termTcpServer`. -/
def termTcpServer (s : BringUp) : BringUp :=
  { s with
    listening := if s.m_serverState = .init then false else s.listening
    m_serverState := .uninit }

/-- `initTcpServer`. -/
def initTcpServer (s : BringUp) (env : TcpInitEnv) : ErrorCode × BringUp :=
  let s := { s with m_serverState := .loopInit }
  if !env.tcpInit then (.transportError, s.termTcpServer)
  else
    let s := { s with m_serverState := .init }
    if !env.address then (.transportError, s.termTcpServer)
    else if !env.bind then (.transportError, s.termTcpServer)
    -- the server listens when the last pipe has connected
    else (.ok, { s with m_connectedPipes := 0 })

/-- `initPipeServer`; the path now leads to a pipe without connections. -/
def initPipeServer (s : BringUp) (env : PipeInitEnv) : ErrorCode × BringUp :=
  if !env.pipeInit then (.transportError, s)
  else if !env.unlink then (.systemFailure, s)
  else if !env.bind then (.transportError, s)
  else if !env.listen then (.transportError, s)
  else (.ok, { s with pending := [] })

/-- `termIOTask`, with the part of `stopTransportLoop` that joins the thread. -/
def termIOTask (s : BringUp) (id : Nat) (env : TaskStopEnv) : Except Fault (ErrorCode × BringUp) :=
  match s.m_ioTasks[id]? with
  | none => .error .outOfBounds
  | some task =>
    if !env.asyncInit then .ok (.transportError, s)
    else if !env.asyncSend then .ok (.transportError, s)
    -- a thread that was not started cannot be joined
    else if !task.m_ioTask then .error .uncaughtException
    else if !env.loopClose then .ok (.transportError, s.setTask id { task with m_ioTask := false })
    else .ok (.ok, s.setTask id { task with m_ioTask := false, m_state := .uninit })

/-- The loops over `termIOTask`, from a task on: only the first error is reported. -/
def termIOTasksFrom (env : Nat → TaskStopEnv) :
    Nat → Nat → ErrorCode → BringUp → Except Fault (ErrorCode × BringUp)
  | 0, _, rc, s => .ok (rc, s)
  | left + 1, id, rc, s =>
    match s.termIOTask id (env id) with
    | .error fault => .error fault
    | .ok (rc2, s) => termIOTasksFrom env left (id + 1) (if rc = .ok then rc2 else rc) s

/-- `termIOTasks`. -/
def termIOTasks (s : BringUp) (env : Nat → TaskStopEnv) : Except Fault (ErrorCode × BringUp) :=
  termIOTasksFrom env s.m_concurrency 0 .ok s

/-- `initIOTask`.  The connect request goes out; the result of `uv_pipe_connect` is not looked at. -/
def initIOTask (s : BringUp) (id : Nat) (env : TaskInitEnv) : Except Fault (ErrorCode × BringUp) :=
  match s.m_ioTasks[id]? with
  | none => .error .outOfBounds
  | some task =>
    if !env.loopInit then .ok (.transportError, s)
    else
      let s := s.setTask id { task with m_state := .loopInit }
      if !env.pipeInit then
        match s.termIOTask id env.stop with
        | .error fault => .error fault
        | .ok (_, s) => .ok (.transportError, s)
      else
        let s := s.setTask id { task with m_state := .serverPipeInit }
        .ok (.ok, { s with connecting := s.connecting ++ [id] })

/-- The loop of `initIOTasks`, from a task on. -/
def initIOTasksFrom (env : Nat → TaskInitEnv) :
    Nat → Nat → BringUp → Except Fault (ErrorCode × BringUp)
  | 0, _, s => .ok (.ok, s)
  | left + 1, id, s =>
    match s.initIOTask id (env id) with
    | .error fault => .error fault
    | .ok (rc, s) =>
      if rc = .ok then initIOTasksFrom env left (id + 1) s
      else
        -- the tasks before are terminated again
        match termIOTasksFrom (fun id => (env id).stop) id 0 .ok s with
        | .error fault => .error fault
        | .ok (_, s) => .ok (rc, s)

/-- `initIOTasks`. -/
def initIOTasks (s : BringUp) (env : Nat → TaskInitEnv) : Except Fault (ErrorCode × BringUp) :=
  initIOTasksFrom env s.m_concurrency 0 s

/-- `m_ioTasks.resize(m_concurrency)`. -/
def resizeTasks (s : BringUp) : BringUp :=
  { s with m_ioTasks := s.m_ioTasks.take s.m_concurrency ++
      List.replicate (s.m_concurrency - s.m_ioTasks.length) .new }

/-- `initializeTransport`. -/
def initializeTransport (s : BringUp) (env : BringUpEnv) : Except Fault (ErrorCode × BringUp) :=
  let (rc, s) := s.initTcpServer env.tcp
  if rc ≠ .ok then .ok (rc, s)
  else
    let (rc, s) := s.initPipeServer env.pipe
    if rc ≠ .ok then .ok (rc, s.termTcpServer)
    else
      match s.resizeTasks.initIOTasks env.tasks with
      | .error fault => .error fault
      | .ok (rc, s) => .ok (rc, if rc = .ok then s else s.termTcpServer)

/-- `startTransport`: assigning to a thread that runs ends the process. -/
def startTransport (s : BringUp) : Except Fault BringUp :=
  if s.m_ioTasks.any PipeTask.m_ioTask then .error .uncaughtException
  else .ok { s with m_ioTasks := s.m_ioTasks.map fun task => { task with m_ioTask := true } }

/-- `handleNewPipeConnection` once a slot has been found. -/
def acceptPipe (s : BringUp) (id : Nat) (task : PipeTask) (env : AcceptEnv) :
    Except Fault BringUp :=
  if !env.pipeInit then .ok s
  else
    match s.pending with
    | [] => .ok s
    | client :: rest =>
      let s := { s with pending := rest }
      -- a connection that is not accepted is lost, and its slot is vacant again
      if !env.accept then .ok s
      else
        let s := s.setTask id { task with m_isUsed := true, m_serverPipe := some client }
        let s := { s with m_connectedPipes := s.m_connectedPipes + 1 }
        if s.m_connectedPipes = s.m_concurrency then
          let s := { s with listens := s.listens + 1 }
          if !env.listen then (s.termTcpServer.termIOTasks env.stop).map Prod.snd
          else .ok { s with listening := true }
        else .ok s

/-- `handleNewPipeConnection`. -/
def handleNewPipeConnection (s : BringUp) (env : AcceptEnv) : Except Fault BringUp :=
  match s.m_ioTasks.findIdx? fun task => !task.m_isUsed with
  | none => .ok s
  | some id =>
    match s.m_ioTasks[id]? with
    | none => .ok s
    | some task => s.acceptPipe id task env

/-- What can happen to the pipes of a server. -/
inductive Event where
  /-- `DataServer::initialize`, from the initialization of the server loop on. -/
  | initServer (env : BringUpEnv)
  | start
  /-- The connect request of a task reaches the pipe server. -/
  | pipeArrives (id : Nat)
  /-- The connect request of a task fails; `handlePipeConnect` does not look at its status. -/
  | pipeConnectFails (id : Nat)
  /-- A connection to the pipe server that no task has made. -/
  | strangerConnects
  /-- The pipe server has a connection. -/
  | newPipeConnection (env : AcceptEnv)
  /-- The server loop is stopped and closed. -/
  | stopLoop
  /-- `stopTransport`. -/
  | stop (env : Nat → TaskStopEnv)

/-- One step; an exception ends the process. -/
def step (s : BringUp) : Event → Except Fault BringUp
  | .initServer env => (s.closeHandles.initializeTransport env).map Prod.snd
  | .start => s.startTransport
  | .pipeArrives id =>
    .ok (if id ∈ s.connecting then
      { s with pending := s.pending ++ [.task id], connecting := s.connecting.erase id }
    else s)
  | .pipeConnectFails id => .ok { s with connecting := s.connecting.erase id }
  | .strangerConnects => .ok { s with pending := s.pending ++ [.stranger] }
  | .newPipeConnection env => s.handleNewPipeConnection env
  | .stopLoop => .ok s.closeHandles
  | .stop env => (s.termIOTasks env).map Prod.snd

/-- Only the IO tasks connect to the pipe server. -/
def NoStranger (_ : BringUp) : Event → Prop
  | .strangerConnects => False
  | _ => True

/-- Only the IO tasks connect to the pipe server, and a request that arrives is the oldest of those
    under way. -/
def InOrder (s : BringUp) : Event → Prop
  | .pipeArrives id => s.connecting.head? = some id
  | .strangerConnects => False
  | _ => True

instance (s : BringUp) : ∀ e, Decidable (s.NoStranger e)
  | .strangerConnects => .isFalse id
  | .initServer _ | .start | .pipeArrives _ | .pipeConnectFails _ | .newPipeConnection _
  | .stopLoop | .stop _ => .isTrue trivial

instance (s : BringUp) : ∀ e, Decidable (s.InOrder e)
  | .pipeArrives id => inferInstanceAs (Decidable (s.connecting.head? = some id))
  | .strangerConnects => .isFalse id
  | .initServer _ | .start | .pipeConnectFails _ | .newPipeConnection _ | .stopLoop | .stop _ =>
    .isTrue trivial

/-! ## §2 What the calls do to the pipes -/

/-- What there is to know about the pipes. -/
structure Pipes where
  connected : Nat
  slots : List (Bool × Option PipeClient)
  pending : List PipeClient
  connecting : List Nat
  listening : Bool
  listens : Nat

/-- The pipes of a server. -/
def pipes (s : BringUp) : Pipes :=
  ⟨s.m_connectedPipes, s.m_ioTasks.map PipeTask.slot, s.pending, s.connecting, s.listening,
    s.listens⟩

/-- The call leaves the pipes as they are. -/
structure Quiet (s s' : BringUp) : Prop where
  pipes : s'.pipes = s.pipes
  concurrency : s'.m_concurrency = s.m_concurrency

theorem Quiet.refl (s : BringUp) : Quiet s s := ⟨rfl, rfl⟩

theorem Quiet.trans {s₁ s₂ s₃ : BringUp} (h₁ : Quiet s₁ s₂) (h₂ : Quiet s₂ s₃) : Quiet s₁ s₃ :=
  ⟨h₂.pipes.trans h₁.pipes, h₂.concurrency.trans h₁.concurrency⟩

variable {s s' : BringUp} {id : Nat} {rc : ErrorCode}

/-- A change of a task that does not concern its slot. -/
theorem quiet_setTask {task new : PipeTask} (htask : s.m_ioTasks[id]? = some task)
    (hslot : new.slot = task.slot) : Quiet s (s.setTask id new) := by
  have hslots : (s.m_ioTasks.set id new).map PipeTask.slot = s.m_ioTasks.map PipeTask.slot := by
    have hlt := (List.getElem?_eq_some_iff.mp htask).1
    have hsame : (s.m_ioTasks.map PipeTask.slot)[id]? = some new.slot := by
      rw [List.getElem?_map, htask, hslot]
      rfl
    rw [List.map_set]
    apply List.ext_getElem?
    intro i
    by_cases hi : id = i
    · subst hi
      rw [List.getElem?_set_self (by simpa using hlt), hsame]
    · rw [List.getElem?_set_ne hi]
  refine ⟨?_, rfl⟩
  simp only [pipes, setTask, hslots]

theorem termIOTask_quiet {env : TaskStopEnv} (h : s.termIOTask id env = .ok (rc, s')) :
    Quiet s s' := by
  unfold termIOTask at h
  split at h
  · cases h
  rename_i task htask
  split at h
  · cases h
    exact .refl s
  split at h
  · cases h
    exact .refl s
  split at h
  · cases h
  split at h
  · cases h
    apply quiet_setTask htask
    rfl
  · cases h
    apply quiet_setTask htask
    rfl

theorem termIOTasksFrom_quiet {env : Nat → TaskStopEnv} {left : Nat} {rc₀ : ErrorCode}
    (h : termIOTasksFrom env left id rc₀ s = .ok (rc, s')) : Quiet s s' := by
  induction left generalizing id rc₀ s with
  | zero =>
    cases h
    exact .refl _
  | succ left ih =>
    unfold termIOTasksFrom at h
    split at h
    · cases h
    · rename_i rc₂ t ht
      exact (termIOTask_quiet ht).trans (ih h)

/-- Only a task that could be initialized sends its connect request. -/
theorem initIOTask_pipes {env : TaskInitEnv} (h : s.initIOTask id env = .ok (rc, s')) :
    s'.m_concurrency = s.m_concurrency ∧
      (rc ≠ .ok ∧ s'.pipes = s.pipes ∨
        rc = .ok ∧ s'.pipes = { s.pipes with connecting := s.connecting ++ [id] }) := by
  unfold initIOTask at h
  split at h
  · cases h
  rename_i task htask
  split at h
  · cases h
    exact ⟨rfl, .inl ⟨by simp, rfl⟩⟩
  have hset : ∀ state, Quiet s (s.setTask id { task with m_state := state }) := by
    intro state
    apply quiet_setTask htask
    rfl
  dsimp only at h
  split at h
  · split at h
    · cases h
    · rename_i rc₂ t ht
      cases h
      have hquiet := (hset .loopInit).trans (termIOTask_quiet ht)
      exact ⟨hquiet.concurrency, .inl ⟨by simp, hquiet.pipes⟩⟩
  · cases h
    refine ⟨rfl, .inr ⟨rfl, ?_⟩⟩
    -- the state of the task is written twice
    have hslots : ((s.m_ioTasks.set id { task with m_state := .loopInit }).set id
        { task with m_state := .serverPipeInit }).map PipeTask.slot =
          s.m_ioTasks.map PipeTask.slot := by
      rw [List.set_set]
      exact congrArg Pipes.slots (hset .serverPipeInit).pipes
    simp only [pipes, setTask, hslots]

/-- The tasks ask for their connections in their order, up to the one that fails. -/
theorem initIOTasksFrom_pipes {env : Nat → TaskInitEnv} {left : Nat}
    (hconnecting : s.connecting = List.range id)
    (h : initIOTasksFrom env left id s = .ok (rc, s')) :
    s'.m_concurrency = s.m_concurrency ∧
      ∃ k ≤ id + left, s'.pipes = { s.pipes with connecting := List.range k } := by
  induction left generalizing id s with
  | zero =>
    cases h
    refine ⟨rfl, id, Nat.le_refl _, ?_⟩
    rw [← hconnecting]
    rfl
  | succ left ih =>
    unfold initIOTasksFrom at h
    split at h
    · cases h
    rename_i rc₁ t ht
    obtain ⟨hconc, ⟨hrc, hpipes⟩ | ⟨hrc, hpipes⟩⟩ := initIOTask_pipes ht
    · rw [if_neg hrc] at h
      split at h
      · cases h
      rename_i rc₂ u hu
      cases h
      have hquiet := termIOTasksFrom_quiet hu
      refine ⟨hquiet.concurrency.trans hconc, id, by omega, ?_⟩
      rw [hquiet.pipes, hpipes, ← hconnecting]
      rfl
    · rw [if_pos hrc] at h
      have hnext : t.connecting = List.range (id + 1) := by
        rw [List.range_succ, ← hconnecting]
        exact congrArg Pipes.connecting hpipes
      obtain ⟨hconc', k, hk, hk'⟩ := ih hnext h
      refine ⟨hconc'.trans hconc, k, by omega, ?_⟩
      rw [hk', hpipes]

/-- What the slots are once `m_ioTasks` has its size. -/
def resized (concurrency : Nat) (slots : List (Bool × Option PipeClient)) :
    List (Bool × Option PipeClient) :=
  slots.take concurrency ++ List.replicate (concurrency - slots.length) (false, none)

theorem resizeTasks_pipes (s : BringUp) : s.resizeTasks.pipes =
    { s.pipes with slots := resized s.m_concurrency s.pipes.slots } := by
  simp [pipes, resizeTasks, resized, PipeTask.slot, PipeTask.new]

theorem termTcpServer_eq (h : s.listening = false) :
    s.termTcpServer = { s with m_serverState := .uninit } := by
  unfold termTcpServer
  rw [h, ite_self]

theorem initTcpServer_cases {env : TcpInitEnv} (hlistening : s.listening = false)
    (h : s.initTcpServer env = (rc, s')) :
    rc ≠ .ok ∧ s' = { s with m_serverState := .uninit } ∨
      rc = .ok ∧ s' = { s with m_serverState := .init, m_connectedPipes := 0 } := by
  unfold initTcpServer at h
  dsimp only at h
  iterate 3
    split at h
    · cases h
      exact .inl ⟨by simp, termTcpServer_eq hlistening⟩
  cases h
  exact .inr ⟨rfl, rfl⟩

theorem initPipeServer_eq {env : PipeInitEnv} (hpending : s.pending = [])
    (h : s.initPipeServer env = (rc, s')) : s' = s := by
  unfold initPipeServer at h
  iterate 4
    split at h
    · cases h
      rfl
  cases h
  rw [← hpending]

/-- An initialization of a server without handles: the first tasks have asked for their connections,
    and whether a slot is used is as before. -/
theorem initializeTransport_pipes {env : BringUpEnv} (hpending : s.pending = [])
    (hconnecting : s.connecting = []) (hlistening : s.listening = false)
    (h : s.initializeTransport env = .ok (rc, s')) :
    s'.m_concurrency = s.m_concurrency ∧ s'.listening = false ∧ s'.listens = s.listens ∧
      (rc = .ok → s'.m_connectedPipes = 0) ∧ (s'.pipes.slots = s.pipes.slots ∨
        s'.pipes.slots = resized s.m_concurrency s.pipes.slots) ∧
      s'.pending = [] ∧ ∃ k ≤ s.m_concurrency, s'.connecting = List.range k ∧
        (s'.m_connectedPipes = 0 ∨ k = 0 ∧ s'.m_connectedPipes = s.m_connectedPipes) := by
  unfold initializeTransport at h
  -- the server socket
  generalize htcp : s.initTcpServer env.tcp = tcp at h
  obtain ⟨rc₁, t⟩ := tcp
  dsimp only at h
  obtain ⟨hrc, rfl⟩ | ⟨hrc, rfl⟩ := initTcpServer_cases hlistening htcp
  · rw [if_pos hrc] at h
    cases h
    exact ⟨rfl, hlistening, rfl, fun hok => absurd hok hrc, .inl rfl, hpending, 0, Nat.zero_le _,
      hconnecting, .inr ⟨rfl, rfl⟩⟩
  rw [if_neg (not_not.mpr hrc)] at h
  -- the pipe server
  generalize hpipe : initPipeServer _ env.pipe = pipe at h
  obtain ⟨rc₂, t⟩ := pipe
  dsimp only at h
  obtain rfl := initPipeServer_eq (by exact hpending) hpipe
  split at h
  · cases h
    exact ⟨rfl, rfl, rfl, fun _ => rfl, .inl rfl, hpending, 0, Nat.zero_le _, hconnecting,
      .inl rfl⟩
  -- the tasks
  split at h
  · cases h
  rename_i rc₃ u hu
  obtain ⟨hconc, k, hk, hpipes⟩ := initIOTasksFrom_pipes hconnecting hu
  rw [resizeTasks_pipes] at hpipes
  have hlisten : u.listening = false := (congrArg Pipes.listening hpipes).trans hlistening
  rw [Nat.zero_add] at hk
  have hdone : s' = u ∨ s' = { u with m_serverState := .uninit } := by
    cases h
    split
    · exact .inl rfl
    · exact .inr (termTcpServer_eq hlisten)
  have hsame : s'.m_concurrency = u.m_concurrency ∧ s'.pipes = u.pipes := by
    rcases hdone with rfl | rfl <;> exact ⟨rfl, rfl⟩
  rw [← hsame.2] at hpipes
  exact ⟨hsame.1.trans hconc, congrArg Pipes.listening hpipes |>.trans hlistening,
    congrArg Pipes.listens hpipes, fun _ => congrArg Pipes.connected hpipes,
    .inr (congrArg Pipes.slots hpipes), (congrArg Pipes.pending hpipes).trans hpending, k, hk,
    congrArg Pipes.connecting hpipes, .inl (congrArg Pipes.connected hpipes)⟩

/-- A callback of the pipe server: nothing happens, a connection is lost, or it gets the first
    vacant slot. -/
theorem newPipeConnection_cases {env : AcceptEnv}
    (h : s.handleNewPipeConnection env = .ok s') :
    s'.m_concurrency = s.m_concurrency ∧ (s'.pipes = s.pipes ∨
      ∃ client rest, s.pending = client :: rest ∧ (s'.pipes = { s.pipes with pending := rest } ∨
        ∃ (id : Nat) (old : Option PipeClient) (listening : Bool) (listens : Nat),
          s.pipes.slots[id]? = some (false, old) ∧
          (∀ i < id, ∃ pipe, s.pipes.slots[i]? = some (true, pipe)) ∧
          s'.pipes = ⟨s.m_connectedPipes + 1, s.pipes.slots.set id (true, some client), rest,
            s.connecting, listening, listens⟩ ∧
          (s.m_connectedPipes + 1 = s.m_concurrency ∧ listens = s.listens + 1 ∨
            (listening = true → s.listening = true) ∧ listens = s.listens))) := by
  unfold handleNewPipeConnection at h
  split at h
  · cases h
    exact ⟨rfl, .inl rfl⟩
  rename_i id hid
  split at h
  · cases h
    exact ⟨rfl, .inl rfl⟩
  rename_i task htask
  obtain ⟨hlt, hvacant, hbefore⟩ := List.findIdx?_eq_some_iff_getElem.mp hid
  have hgets : ∀ (i : Nat) (t : PipeTask), s.m_ioTasks[i]? = some t →
      s.pipes.slots[i]? = some t.slot := by
    intro i t ht
    simp only [pipes, List.getElem?_map, ht, Option.map_some]
  obtain rfl : s.m_ioTasks[id] = task := (List.getElem?_eq_some_iff.mp htask).2
  have hslot : s.pipes.slots[id]? = some (false, s.m_ioTasks[id].m_serverPipe) := by
    rw [hgets id _ htask, PipeTask.slot]
    simpa using hvacant
  have hused : ∀ i < id, ∃ pipe, s.pipes.slots[i]? = some (true, pipe) := by
    intro i hi
    have hlt' := Nat.lt_trans hi hlt
    refine ⟨s.m_ioTasks[i].m_serverPipe, ?_⟩
    rw [hgets i _ (List.getElem?_eq_getElem hlt'), PipeTask.slot]
    simpa using hbefore i hi
  unfold acceptPipe at h
  split at h
  · cases h
    exact ⟨rfl, .inl rfl⟩
  split at h
  · cases h
    exact ⟨rfl, .inl rfl⟩
  rename_i client rest hpending
  dsimp only at h
  split at h
  · cases h
    exact ⟨rfl, .inr ⟨client, rest, hpending, .inl rfl⟩⟩
  -- the slot is taken
  have hset : (s.m_ioTasks.set id { s.m_ioTasks[id] with
      m_isUsed := true, m_serverPipe := some client }).map PipeTask.slot =
        s.pipes.slots.set id (true, some client) := List.map_set
  have hpipes : ∀ (state : ServerState) (listening : Bool) (listens : Nat),
      pipes { s.setTask id { s.m_ioTasks[id] with
        m_isUsed := true, m_serverPipe := some client } with
        pending := rest, m_connectedPipes := s.m_connectedPipes + 1, m_serverState := state,
        listening := listening, listens := listens } =
      ⟨s.m_connectedPipes + 1, s.pipes.slots.set id (true, some client), rest, s.connecting,
        listening, listens⟩ := by
    intro state listening listens
    simp only [pipes, setTask, hset]
  split at h
  · rename_i hlast
    split at h
    · -- `uv_listen` fails, and the server gives up
      obtain ⟨⟨rc, t⟩, ht, rfl⟩ := of_map_ok h
      have hquiet := termIOTasksFrom_quiet ht
      refine ⟨hquiet.concurrency, .inr ⟨client, rest, hpending, .inr ⟨id, _,
        if s.m_serverState = .init then false else s.listening, s.listens + 1, hslot, hused, ?_,
        .inl ⟨hlast, rfl⟩⟩⟩⟩
      rw [hquiet.pipes]
      exact hpipes _ _ _
    · cases h
      exact ⟨rfl, .inr ⟨client, rest, hpending, .inr ⟨id, _, true, s.listens + 1, hslot, hused,
        hpipes _ _ _, .inl ⟨hlast, rfl⟩⟩⟩⟩
  · cases h
    exact ⟨rfl, .inr ⟨client, rest, hpending, .inr ⟨id, _, s.listening, s.listens, hslot, hused,
      hpipes _ _ _, .inr ⟨fun h => h, rfl⟩⟩⟩⟩

/-- A request that is under way joins the connections to be accepted. -/
theorem step_arrives (h : s.step (.pipeArrives id) = .ok s') : s' = s ∨ id ∈ s.connecting ∧
    s' = { s with pending := s.pending ++ [.task id], connecting := s.connecting.erase id } := by
  cases h
  split
  · exact .inr ⟨‹_›, rfl⟩
  · exact .inl rfl

/-! ## §3 Slots are used in order, and never vacant again -/

/-- The first slots are used, the others are vacant. -/
structure UsedFirst (slots : List (Bool × Option PipeClient)) (used : Nat) : Prop where
  le : used ≤ slots.length
  iff : ∀ (i : Nat) (slot : Bool × Option PipeClient), slots[i]? = some slot →
    (slot.1 = true ↔ i < used)

variable {slots : List (Bool × Option PipeClient)} {used : Nat}

/-- The first vacant slot follows those that are used. -/
theorem UsedFirst.vacant_eq (h : UsedFirst slots used) {old : Option PipeClient}
    (hvacant : slots[id]? = some (false, old))
    (hbefore : ∀ i < id, ∃ pipe, slots[i]? = some (true, pipe)) : id = used := by
  apply Nat.le_antisymm
  · by_contra hgt
    obtain ⟨pipe, hpipe⟩ := hbefore used (by omega)
    exact absurd ((h.iff _ _ hpipe).mp rfl) (Nat.lt_irrefl used)
  · by_contra hlt
    have hfalse := (h.iff _ _ hvacant).mpr (by omega)
    cases hfalse

theorem UsedFirst.take (h : UsedFirst slots used) (hlt : used < slots.length)
    (pipe : Option PipeClient) : UsedFirst (slots.set used (true, pipe)) (used + 1) := by
  refine ⟨?_, fun i slot hslot => ?_⟩
  · rw [List.length_set]
    exact hlt
  by_cases hi : used = i
  · subst hi
    rw [List.getElem?_set_self hlt] at hslot
    cases hslot
    simp
  · rw [List.getElem?_set_ne hi] at hslot
    rw [h.iff i slot hslot]
    omega

/-- The pipes are closed. -/
theorem UsedFirst.close (h : UsedFirst slots used) :
    UsedFirst (slots.map fun slot => (slot.1, none)) used := by
  refine ⟨by simpa using h.le, fun i slot hslot => ?_⟩
  rw [List.getElem?_map, Option.map_eq_some_iff] at hslot
  obtain ⟨old, hold, rfl⟩ := hslot
  exact h.iff i old hold

theorem UsedFirst.resized (h : UsedFirst slots used) {concurrency : Nat}
    (hle : slots.length ≤ concurrency) : UsedFirst (resized concurrency slots) used := by
  unfold BringUp.resized
  rw [List.take_of_length_le hle]
  refine ⟨?_, fun i slot hslot => ?_⟩
  · rw [List.length_append]
    exact Nat.le_add_right_of_le h.le
  · by_cases hi : i < slots.length
    · rw [List.getElem?_append_left hi] at hslot
      exact h.iff i slot hslot
    · -- the slots that are new are vacant
      rw [List.getElem?_append_right (Nat.not_lt.mp hi)] at hslot
      obtain rfl := List.eq_of_mem_replicate (List.mem_of_getElem? hslot)
      have hle := h.le
      simp only [Bool.false_eq_true, false_iff]
      omega

/-- What a server keeps: its slots are used from the first on, at least as many as it has counted
    pipes since it was initialized, and it has listened at most once, with all slots used. -/
structure Inv (s : BringUp) (used : Nat) : Prop where
  usedFirst : UsedFirst s.pipes.slots used
  length_le : s.pipes.slots.length ≤ s.m_concurrency
  connected_le : s.m_connectedPipes ≤ used
  listens : s.listens = 0 ∨ s.listens = 1 ∧ used = s.m_concurrency

/-- Connections that come or go do not matter. -/
theorem Inv.frame (h : s.Inv used) (hslots : s'.pipes.slots = s.pipes.slots)
    (hconc : s'.m_concurrency = s.m_concurrency)
    (hconnected : s'.m_connectedPipes = s.m_connectedPipes) (hlistens : s'.listens = s.listens) :
    s'.Inv used := by
  refine ⟨?_, ?_, ?_, ?_⟩
  · rw [hslots]
    exact h.usedFirst
  · rw [hslots, hconc]
    exact h.length_le
  · rw [hconnected]
    exact h.connected_le
  · rw [hlistens, hconc]
    exact h.listens

/-- The pipes are as before. -/
theorem Inv.quiet (h : s.Inv used) (hquiet : Quiet s s') : s'.Inv used :=
  h.frame (congrArg Pipes.slots hquiet.pipes) hquiet.concurrency
    (congrArg Pipes.connected hquiet.pipes) (congrArg Pipes.listens hquiet.pipes)

theorem Inv.closeHandles (h : s.Inv used) : s.closeHandles.Inv used := by
  have hslots : s.closeHandles.pipes.slots = s.pipes.slots.map fun slot => (slot.1, none) := by
    simp [pipes, BringUp.closeHandles, PipeTask.slot]
  refine ⟨?_, ?_, h.connected_le, h.listens⟩
  · rw [hslots]
    exact h.usedFirst.close
  · rw [hslots, List.length_map]
    exact h.length_le

theorem Inv.initializeTransport (h : s.Inv used) {env : BringUpEnv} (hpending : s.pending = [])
    (hconnecting : s.connecting = []) (hlistening : s.listening = false)
    (hinit : s.initializeTransport env = .ok (rc, s')) : s'.Inv used := by
  obtain ⟨hconc, -, hlistens, -, hslots, -, k, -, -, hconnected⟩ :=
    initializeTransport_pipes hpending hconnecting hlistening hinit
  have hle := h.connected_le
  refine ⟨?_, ?_, ?_, ?_⟩
  · rcases hslots with hslots | hslots
    · rw [hslots]
      exact h.usedFirst
    · rw [hslots]
      exact h.usedFirst.resized h.length_le
  · rcases hslots with hslots | hslots
    · rw [hslots, hconc]
      exact h.length_le
    · have hlen := h.length_le
      rw [hslots, hconc, resized, List.length_append, List.length_take, List.length_replicate]
      omega
  · rcases hconnected with hzero | ⟨-, hsame⟩ <;> omega
  · rw [hlistens, hconc]
    exact h.listens

/-- A callback of the pipe server uses the next slot, or none. -/
theorem Inv.newPipeConnection (h : s.Inv used) {env : AcceptEnv}
    (hstep : s.handleNewPipeConnection env = .ok s') :
    s'.Inv used ∧ s'.m_connectedPipes = s.m_connectedPipes ∧ s'.listens = s.listens ∨
      s'.Inv (used + 1) ∧ used < s.m_concurrency ∧
        s'.m_connectedPipes = s.m_connectedPipes + 1 ∧
        (s.m_connectedPipes + 1 = s.m_concurrency ∨ s'.listens = s.listens) := by
  obtain ⟨hconc, hcases⟩ := newPipeConnection_cases hstep
  rcases hcases with hpipes | ⟨client, rest, -, hpipes | htaken⟩
  · exact .inl ⟨h.quiet ⟨hpipes, hconc⟩, congrArg Pipes.connected hpipes,
      congrArg Pipes.listens hpipes⟩
  · -- a connection is lost
    have hconnected : s'.m_connectedPipes = s.m_connectedPipes := congrArg Pipes.connected hpipes
    have hlistens : s'.listens = s.listens := congrArg Pipes.listens hpipes
    have hslots : s'.pipes.slots = s.pipes.slots := by rw [hpipes]
    exact .inl ⟨h.frame hslots hconc hconnected hlistens, hconnected, hlistens⟩
  · obtain ⟨id, old, listening, listens, hvacant, hbefore, hpipes, hlisten⟩ := htaken
    obtain rfl := h.usedFirst.vacant_eq hvacant hbefore
    have hlt := (List.getElem?_eq_some_iff.mp hvacant).1
    have hlen := h.length_le
    have hle := h.connected_le
    have hconnected : s'.m_connectedPipes = s.m_connectedPipes + 1 :=
      congrArg Pipes.connected hpipes
    have hlistens : s'.listens = listens := congrArg Pipes.listens hpipes
    refine .inr ⟨⟨?_, ?_, by omega, ?_⟩, by omega, hconnected, ?_⟩
    · rw [hpipes]
      exact h.usedFirst.take hlt _
    · rw [hpipes, hconc, List.length_set]
      exact hlen
    · -- a slot was vacant, so the server has not listened before
      have hzero : s.listens = 0 := by
        rcases h.listens with hzero | ⟨-, hall⟩
        · exact hzero
        · omega
      rw [hlistens, hconc]
      rcases hlisten with ⟨hlast, rfl⟩ | ⟨-, rfl⟩
      · exact .inr ⟨by omega, by omega⟩
      · exact .inl hzero
    · rw [hlistens]
      exact hlisten.imp And.left And.right

/-- Used slots stay used.  Where there are more of them than pipes were counted, that stays so, and
    the server does not listen any more. -/
theorem Inv.step (h : s.Inv used) {e : Event} (hstep : s.step e = .ok s') :
    ∃ used', s'.Inv used' ∧ (s.m_connectedPipes < used →
      s'.m_connectedPipes < used' ∧ s'.listens = s.listens) := by
  cases e with
  -- a new start sets the count to zero, unless it fails before
  | initServer env =>
    obtain ⟨⟨rc, t⟩, ht, rfl⟩ := of_map_ok hstep
    refine ⟨used, h.closeHandles.initializeTransport rfl rfl rfl ht, fun hmore => ?_⟩
    obtain ⟨-, -, hlistens, -, -, -, k, -, -, hconnected⟩ :=
      initializeTransport_pipes rfl rfl rfl ht
    refine ⟨?_, hlistens⟩
    rcases hconnected with hzero | ⟨-, hkept⟩
    · rw [hzero]
      exact Nat.lt_of_le_of_lt (Nat.zero_le _) hmore
    · rw [hkept]
      exact hmore
  | start =>
    simp only [BringUp.step, startTransport] at hstep
    split at hstep
    · cases hstep
    cases hstep
    refine ⟨used, h.quiet ⟨?_, rfl⟩, fun hmore => ⟨hmore, rfl⟩⟩
    simp [pipes, PipeTask.slot]
  -- what arrives at the server is not connected yet
  | pipeArrives id =>
    rcases step_arrives hstep with rfl | ⟨-, rfl⟩
    · exact ⟨used, h, fun hmore => ⟨hmore, rfl⟩⟩
    · exact ⟨used, h.frame rfl rfl rfl rfl, fun hmore => ⟨hmore, rfl⟩⟩
  | pipeConnectFails id =>
    cases hstep
    exact ⟨used, h.frame rfl rfl rfl rfl, fun hmore => ⟨hmore, rfl⟩⟩
  | strangerConnects =>
    cases hstep
    exact ⟨used, h.frame rfl rfl rfl rfl, fun hmore => ⟨hmore, rfl⟩⟩
  -- a pipe goes to the next task, and the last one starts the listening
  | newPipeConnection env =>
    rcases h.newPipeConnection hstep with ⟨hinv, hconnected, hlistens⟩ | htaken
    · exact ⟨used, hinv, fun hmore => ⟨hconnected ▸ hmore, hlistens⟩⟩
    · obtain ⟨hinv, hvacant, hconnected, hlast | hlistens⟩ := htaken
      · exact ⟨used + 1, hinv, fun hmore => by omega⟩
      · exact ⟨used + 1, hinv, fun hmore => ⟨by omega, hlistens⟩⟩
  | stopLoop =>
    cases hstep
    exact ⟨used, h.closeHandles, fun hmore => ⟨hmore, rfl⟩⟩
  -- `stop` leaves the count as it is
  | stop env =>
    obtain ⟨⟨rc, t⟩, ht, rfl⟩ := of_map_ok hstep
    have hquiet := termIOTasksFrom_quiet ht
    refine ⟨used, h.quiet hquiet, fun hmore => ?_⟩
    have hconnected : t.m_connectedPipes = s.m_connectedPipes :=
      congrArg Pipes.connected hquiet.pipes
    exact ⟨hconnected ▸ hmore, congrArg Pipes.listens hquiet.pipes⟩

theorem new_inv (concurrency : Nat) : Inv (new concurrency) 0 :=
  ⟨⟨Nat.le_refl _, by simp [new, pipes]⟩, Nat.zero_le _, Nat.le_refl _, .inl rfl⟩

/-- A run of a server object; an exception ends it. -/
abbrev Runs (P : BringUp → Event → Prop) : BringUp → List Event → BringUp → Prop :=
  RunsWith (fun s e t => s.step e = .ok t) P

/-- **A server object calls `uv_listen` at most once.**  After a slot has been used, an
    initialization that succeeds is in vain: the slot stays used when the server is stopped, and
    `m_connectedPipes` does not reach `m_concurrency` any more. -/
theorem listens_once (concurrency : Nat) {events : List Event} {s : BringUp}
    (h : Runs (fun _ _ => True) (new concurrency) events s) :
    s.listens ≤ 1 ∧ ∀ env s₁ events' t, (∃ task ∈ s.m_ioTasks, task.m_isUsed = true) →
      s.closeHandles.initializeTransport env = .ok (.ok, s₁) →
        Runs (fun _ _ => True) s₁ events' t → t.listens = s.listens := by
  obtain ⟨used, hinv⟩ : ∃ used, s.Inv used := by
    refine h.invariant (fun u => ∃ used, u.Inv used) ?_ ⟨0, new_inv concurrency⟩
    rintro u e u' ⟨used, hinv⟩ - hstep
    obtain ⟨used', hinv', -⟩ := hinv.step hstep
    exact ⟨used', hinv'⟩
  constructor
  · rcases hinv.listens with hzero | ⟨hone, -⟩ <;> omega
  intro env s₁ events' t ⟨task, htask, hused⟩ hinit hrun
  -- the used slot is one more than is counted after the initialization
  have hpos : 0 < used := by
    obtain ⟨i, hi, rfl⟩ := List.mem_iff_getElem.mp htask
    have hslot : s.pipes.slots[i]? = some (s.m_ioTasks[i]).slot := by simp [pipes, hi]
    have hlt := (hinv.usedFirst.iff i _ hslot).mp hused
    omega
  obtain ⟨-, -, hlistens, hzero, -⟩ := initializeTransport_pipes rfl rfl rfl hinit
  have hstale : ∃ used, s₁.Inv used ∧ s₁.m_connectedPipes < used ∧ s₁.listens = s.listens := by
    refine ⟨used, hinv.closeHandles.initializeTransport rfl rfl rfl hinit, ?_, hlistens⟩
    rw [hzero rfl]
    exact hpos
  obtain ⟨-, -, -, hsame⟩ := hrun.invariant
    (fun u => ∃ used, u.Inv used ∧ u.m_connectedPipes < used ∧ u.listens = s.listens)
    (fun u e u' ⟨used, hinv, hmore, hlistens⟩ _ hstep => by
      obtain ⟨used', hinv', hstays⟩ := hinv.step hstep
      obtain ⟨hmore', hkept⟩ := hstays hmore
      exact ⟨used', hinv', hmore', hkept.trans hlistens⟩) hstale
  exact hsame

/-- Nothing fails in an initialization. -/
def quietInit : BringUpEnv := ⟨⟨true, true, true⟩, ⟨true, true, true, true⟩,
  fun _ => ⟨true, true, ⟨true, true, true⟩⟩⟩

/-- Nothing fails when a pipe connects. -/
def quietAccept : AcceptEnv := ⟨true, true, true, fun _ => ⟨true, true, true⟩⟩

/-- A server with one task is refused its one `uv_listen`, and is initialized and started again. -/
theorem listens_once_restarted : ∃ s s₁ t : BringUp, s.listening = false ∧ s.listens = 1 ∧
    s.listens ≤ 1 ∧ s₁.connecting = [0] ∧
    Runs (fun _ _ => True) s₁ [.start, .pipeArrives 0, .newPipeConnection quietAccept] t ∧
    t.listens = s.listens := by
  obtain ⟨s, hs, hlistening, hlistens, hused, s₁, hinit, hconnecting, t, ht⟩ : ∃ s, runWhere
      (fun s e => (step s e).toOption) (fun _ _ => True) (new 1) [.initServer quietInit, .start,
        .pipeArrives 0, .newPipeConnection { quietAccept with listen := false }] = some s ∧
      s.listening = false ∧ s.listens = 1 ∧ (∃ task ∈ s.m_ioTasks, task.m_isUsed = true) ∧
      ∃ s₁, s.closeHandles.initializeTransport quietInit = .ok (.ok, s₁) ∧
      s₁.connecting = [0] ∧ ∃ t, runWhere (fun s e => (step s e).toOption) (fun _ _ => True) s₁
        [.start, .pipeArrives 0, .newPipeConnection quietAccept] = some t :=
    ⟨_, rfl, rfl, rfl, ⟨_, List.mem_cons_self, rfl⟩, _, rfl, rfl, _, rfl⟩
  have hrun := runsWith_of_runWhere_except ht
  obtain ⟨hle, honce⟩ := listens_once 1 (runsWith_of_runWhere_except hs)
  exact ⟨s, s₁, t, hlistening, hlistens, hle, hconnecting, hrun,
    honce quietInit s₁ _ t hused hinit hrun⟩

/-! ## §4 Every pipe leads to its task -/

/-- Every slot is used, and their pipes lead to these tasks. -/
def LeadTo (s : BringUp) (order : List Nat) : Prop :=
  s.m_ioTasks.map PipeTask.slot = order.map fun id => (true, some (.task id))

/-- All tasks are there, in an order of this kind: any order is one of distinct tasks, and that of
    the tasks themselves is the ascending one. -/
structure AllTasks (r : Nat → Nat → Prop) (concurrency : Nat) (order : List Nat) : Prop where
  related : order.Pairwise r
  lt : ∀ id ∈ order, id < concurrency
  length : order.length = concurrency

theorem AllTasks.perm {concurrency : Nat} {order : List Nat}
    (h : AllTasks (· ≠ ·) concurrency order) : order.Perm (List.range concurrency) := by
  have hsub : order ⊆ List.range concurrency := fun id hid => List.mem_range.mpr (h.lt id hid)
  apply (List.subperm_of_subset h.related hsub).perm_of_length_le
  rw [List.length_range, h.length]

theorem AllTasks.eq_range {concurrency : Nat} {order : List Nat}
    (h : AllTasks (· < ·) concurrency order) : order = List.range concurrency := by
  have hperm := AllTasks.perm ⟨h.related.imp Nat.ne_of_lt, h.lt, h.length⟩
  exact hperm.eq_of_pairwise (fun a b _ _ hab hba => absurd hab (Nat.lt_asymm hba)) h.related
    List.pairwise_lt_range

variable {r : Nat → Nat → Prop}

/-- The tasks to which the pipes in use lead, then those whose connections are to be accepted, then
    those whose requests are under way. -/
structure Line (r : Nat → Nat → Prop) (s : BringUp) (used : Nat) (held waiting : List Nat) :
    Prop where
  slots : s.pipes.slots.take used = held.map fun id => (true, some (.task id))
  pending : s.pending = waiting.map .task
  related : (held ++ (waiting ++ s.connecting)).Pairwise r
  lt : ∀ id ∈ held ++ (waiting ++ s.connecting), id < s.m_concurrency

/-- Tasks that drop out leave the others in their order. -/
theorem Line.sublist {held waiting held' waiting' : List Nat} {used' : Nat}
    (h : Line r s used held waiting)
    (hheld : s'.pipes.slots.take used' = held'.map fun id => (true, some (.task id)))
    (hwaiting : s'.pending = waiting'.map .task) (hconc : s'.m_concurrency = s.m_concurrency)
    (hsub : (held' ++ (waiting' ++ s'.connecting)).Sublist (held ++ (waiting ++ s.connecting))) :
    Line r s' used' held' waiting' := by
  refine ⟨hheld, hwaiting, h.related.sublist hsub, fun id hid => ?_⟩
  rw [hconc]
  exact h.lt id (hsub.subset hid)

/-- A request arrives: the order stays if it is the oldest, and any order is as good as another
    where the tasks are only distinct. -/
theorem Line.arrives {held waiting : List Nat} (h : Line r s used held waiting)
    (hid : id ∈ s.connecting) (hr : (∀ {a b}, r a b → r b a) ∨ s.connecting.head? = some id) :
    Line r { s with pending := s.pending ++ [.task id], connecting := s.connecting.erase id } used
      held (waiting ++ [id]) := by
  have hwaiting : s.pending ++ [.task id] = (waiting ++ [id]).map .task := by
    rw [h.pending, List.map_append]
    rfl
  have hperm : (held ++ (waiting ++ [id] ++ s.connecting.erase id)).Perm
      (held ++ (waiting ++ s.connecting)) := by
    rw [List.append_assoc waiting]
    exact ((List.perm_cons_erase hid).symm.append_left waiting).append_left held
  rcases hr with hsymm | hhead
  · exact ⟨h.slots, hwaiting, (hperm.pairwise_iff hsymm).mpr h.related,
      fun j hj => h.lt j (hperm.mem_iff.mp hj)⟩
  · obtain ⟨rest, hrest⟩ := List.head?_eq_some_iff.mp hhead
    refine h.sublist h.slots hwaiting rfl ?_
    simp [hrest]

/-- A connection is accepted into the next slot. -/
theorem Line.accepts {held waiting : List Nat} {client : PipeClient} {rest : List PipeClient}
    (h : Line r s used held waiting) (hpending : s.pending = client :: rest)
    (hlt : used < s.pipes.slots.length)
    (hslots : s'.pipes.slots = s.pipes.slots.set used (true, some client))
    (hrest : s'.pending = rest) (hconnecting : s'.connecting = s.connecting)
    (hconc : s'.m_concurrency = s.m_concurrency) :
    ∃ id waiting', waiting = id :: waiting' ∧ Line r s' (used + 1) (held ++ [id]) waiting' := by
  obtain _ | ⟨id, waiting'⟩ := waiting
  · have hnone := h.pending
    rw [hpending] at hnone
    cases hnone
  obtain ⟨rfl, rfl⟩ := List.cons.inj (hpending.symm.trans h.pending)
  refine ⟨id, waiting', rfl, h.sublist ?_ hrest hconc ?_⟩
  · have hlt' : used < (s.pipes.slots.set used (true, some (.task id))).length := by
      rw [List.length_set]
      exact hlt
    rw [hslots, List.take_succ_eq_append_getElem hlt', List.getElem_set_self,
      List.take_set_of_le (Nat.le_refl used), h.slots, List.map_append]
    rfl
  · rw [hconnecting]
    simp

/-- What a server keeps as long as only its tasks connect to it. -/
structure Paired (r : Nat → Nat → Prop) (s : BringUp) (used : Nat) : Prop where
  inv : s.Inv used
  listening : s.listening = true → ∃ order, AllTasks r s.m_concurrency order ∧ s.LeadTo order
  coming : s.m_connectedPipes = used → s.pending = [] ∧ s.connecting = [] ∨
    ∃ held waiting, Line r s used held waiting

theorem Paired.quiet (h : s.Paired r used) (hquiet : Quiet s s') : s'.Paired r used := by
  obtain ⟨hpipes, hconc⟩ := hquiet
  have hslots : s'.pipes.slots = s.pipes.slots := congrArg Pipes.slots hpipes
  have hlistening : s'.listening = s.listening := congrArg Pipes.listening hpipes
  have hconnected : s'.m_connectedPipes = s.m_connectedPipes := congrArg Pipes.connected hpipes
  have hpending : s'.pending = s.pending := congrArg Pipes.pending hpipes
  have hconnecting : s'.connecting = s.connecting := congrArg Pipes.connecting hpipes
  refine ⟨h.inv.quiet ⟨hpipes, hconc⟩, fun hlisten => ?_, fun hused => ?_⟩
  · obtain ⟨order, hall, hlead⟩ := h.listening (hlistening ▸ hlisten)
    exact ⟨order, hconc.symm ▸ hall, hslots.trans hlead⟩
  · rw [hpending, hconnecting]
    refine (h.coming (hconnected ▸ hused)).imp_right fun ⟨held, waiting, hline⟩ => ?_
    refine ⟨held, waiting, hline.sublist ?_ (hpending.trans hline.pending) hconc ?_⟩
    · rw [hslots]
      exact hline.slots
    · rw [hconnecting]

theorem Paired.initServer (hasc : ∀ {a b : Nat}, a < b → r a b) (h : s.Inv used) {env : BringUpEnv}
    (hpending : s.pending = []) (hconnecting : s.connecting = []) (hlistening : s.listening = false)
    (hinit : s.initializeTransport env = .ok (rc, s')) : s'.Paired r used := by
  obtain ⟨hconc, hlistening', -, -, -, hpending', k, hk, hconnecting', hconnected⟩ :=
    initializeTransport_pipes hpending hconnecting hlistening hinit
  refine ⟨h.initializeTransport hpending hconnecting hlistening hinit, fun hlisten => ?_,
    fun hused => ?_⟩
  · rw [hlistening'] at hlisten
    cases hlisten
  · rcases hconnected with hzero | ⟨rfl, -⟩
    · -- no slot is used yet, and the requests go out in the order of the tasks
      obtain rfl : used = 0 := hused.symm.trans hzero
      refine .inr ⟨[], [], rfl, hpending', ?_, fun id hid => ?_⟩
      · simpa [hconnecting'] using List.pairwise_lt_range.imp hasc
      · have hlt : id < k := by simpa [hconnecting'] using hid
        omega
    · exact .inl ⟨hpending', hconnecting'⟩

/-- Connections that come or go, while the slots stay. -/
theorem Paired.frame (h : s.Paired r used) {pending : List PipeClient} {connecting : List Nat}
    (hcoming : s.m_connectedPipes = used → (pending = [] ∧ connecting = []) ∨ ∃ held waiting,
      Line r { s with pending := pending, connecting := connecting } used held waiting) :
    Paired r { s with pending := pending, connecting := connecting } used :=
  ⟨h.inv.frame rfl rfl rfl rfl, h.listening, hcoming⟩

/-- A connection that is not accepted is lost, and the others move up. -/
theorem Paired.lost (h : s.Paired r used) {client : PipeClient} {rest : List PipeClient}
    (hpending : s.pending = client :: rest) : Paired r { s with pending := rest } used := by
  refine h.frame fun hused => ?_
  rcases h.coming hused with ⟨hnone, -⟩ | ⟨held, waiting, hline⟩
  · rw [hpending] at hnone
    cases hnone
  · obtain _ | ⟨id, waiting⟩ := waiting
    · have hnone := hline.pending
      rw [hpending] at hnone
      cases hnone
    obtain ⟨-, hrest⟩ := List.cons.inj (hpending.symm.trans hline.pending)
    refine .inr ⟨held, waiting, hline.sublist hline.slots hrest rfl ?_⟩
    exact (List.Sublist.refl held).append ((List.sublist_cons_self id waiting).append_right _)

theorem Paired.newPipeConnection (h : s.Paired r used) {env : AcceptEnv}
    (hstep : s.handleNewPipeConnection env = .ok s') :
    s'.Paired r used ∨ s'.Paired r (used + 1) := by
  obtain ⟨hconc, hcases⟩ := newPipeConnection_cases hstep
  have hinv := h.inv.newPipeConnection hstep
  rcases hcases with hpipes | ⟨client, rest, hpending, hpipes | htaken⟩
  · exact .inl (h.quiet ⟨hpipes, hconc⟩)
  · exact .inl ((h.lost hpending).quiet ⟨hpipes, hconc⟩)
  -- the first vacant slot is taken
  obtain ⟨id, old, listening, listens, hvacant, hbefore, hpipes, hlisten⟩ := htaken
  obtain rfl : used = id := (h.inv.usedFirst.vacant_eq hvacant hbefore).symm
  have hconnected : s'.m_connectedPipes = s.m_connectedPipes + 1 := congrArg Pipes.connected hpipes
  have hlistening : s'.listening = listening := congrArg Pipes.listening hpipes
  have hslots : s'.pipes.slots = s.pipes.slots.set used (true, some client) :=
    congrArg Pipes.slots hpipes
  obtain ⟨hinv', hlt, -⟩ := hinv.resolve_left fun hsame => by
    have hkept := hsame.2.1
    omega
  have hcoming : s.m_connectedPipes = used →
      ∃ held waiting, Line r s' (used + 1) held waiting := by
    intro hused
    rcases h.coming hused with ⟨hnone, -⟩ | ⟨held, waiting, hline⟩
    · rw [hpending] at hnone
      cases hnone
    · obtain ⟨id, waiting', -, hline'⟩ := hline.accepts hpending
        (List.getElem?_eq_some_iff.mp hvacant).1 hslots (congrArg Pipes.pending hpipes)
        (congrArg Pipes.connecting hpipes) hconc
      exact ⟨_, waiting', hline'⟩
  refine .inr ⟨hinv', fun hlisten' => ?_, fun hused => .inr (hcoming (by omega))⟩
  rcases hlisten with ⟨hlast, -⟩ | ⟨hbefore', -⟩
  · -- all pipes are in use: the line ends with them
    have hle := h.inv.connected_le
    have hlen := hinv'.length_le
    have hused := hinv'.usedFirst.le
    obtain ⟨held, waiting, hline⟩ := hcoming (by omega)
    have hall : s'.pipes.slots = held.map fun id => (true, some (.task id)) := by
      rw [← hline.slots, List.take_of_length_le (by omega)]
    refine ⟨held, ⟨?_, fun id hid => ?_, ?_⟩, hall⟩
    · exact hline.related.sublist (List.sublist_append_left held _)
    · exact hline.lt id (List.mem_append_left _ hid)
    · have hcount := congrArg List.length hall
      rw [List.length_map] at hcount
      omega
  · -- the server has listened before, when no slot was vacant
    obtain ⟨order, -, hlead⟩ := h.listening (hbefore' (hlistening ▸ hlisten'))
    have hused := List.mem_of_getElem? hvacant
    rw [show s.pipes.slots = _ from hlead] at hused
    obtain ⟨task, -, heq⟩ := List.mem_map.mp hused
    cases heq

theorem Paired.closeHandles (h : s.Inv used) : s.closeHandles.Paired r used :=
  ⟨h.closeHandles, fun hlisten => absurd hlisten Bool.false_ne_true, fun _ => .inl ⟨rfl, rfl⟩⟩

/-- **One step without strangers keeps the pipes paired**, with the order of the tasks where the
    connections arrive in order. -/
theorem Paired.step (hasc : ∀ {a b : Nat}, a < b → r a b) (h : s.Paired r used) {e : Event}
    (he : s.NoStranger e) (hr : (∀ {a b}, r a b → r b a) ∨ s.InOrder e)
    (hstep : s.step e = .ok s') : ∃ used', s'.Paired r used' := by
  cases e with
  | initServer env =>
    obtain ⟨⟨rc, t⟩, ht, rfl⟩ := of_map_ok hstep
    exact ⟨used, initServer hasc h.inv.closeHandles rfl rfl rfl ht⟩
  | start =>
    simp only [BringUp.step, startTransport] at hstep
    split at hstep
    · cases hstep
    cases hstep
    refine ⟨used, h.quiet ⟨?_, rfl⟩⟩
    simp [pipes, PipeTask.slot]
  -- the requests are on their way, none has arrived
  | pipeArrives id =>
    -- a request joins the line behind those that wait
    rcases step_arrives hstep with rfl | ⟨hid, rfl⟩
    · exact ⟨used, h⟩
    refine ⟨used, h.frame fun hused => ?_⟩
    rcases h.coming hused with ⟨-, hnone⟩ | ⟨held, waiting, hline⟩
    · rw [hnone] at hid
      cases hid
    · exact .inr ⟨held, waiting ++ [id], hline.arrives hid hr⟩
  -- a failed request leaves the line, and the order of the rest
  | pipeConnectFails id =>
    cases hstep
    refine ⟨used, h.frame fun hused => ?_⟩
    rcases h.coming hused with ⟨hpending, hnone⟩ | ⟨held, waiting, hline⟩
    · exact .inl ⟨hpending, by rw [hnone]; rfl⟩
    · refine .inr ⟨held, waiting, hline.sublist hline.slots hline.pending rfl ?_⟩
      exact (List.Sublist.refl held).append ((List.Sublist.refl waiting).append List.erase_sublist)
  | strangerConnects => cases he
  -- the first of the line is accepted: refused or given the next slot
  | newPipeConnection env =>
    rcases h.newPipeConnection hstep with hpaired | hpaired
    · exact ⟨used, hpaired⟩
    · exact ⟨used + 1, hpaired⟩
  | stopLoop =>
    cases hstep
    exact ⟨used, closeHandles h.inv⟩
  | stop env =>
    obtain ⟨⟨rc, t⟩, ht, rfl⟩ := of_map_ok hstep
    exact ⟨used, h.quiet (termIOTasksFrom_quiet ht)⟩

theorem step_concurrency {e : Event} (hstep : s.step e = .ok s') :
    s'.m_concurrency = s.m_concurrency := by
  cases e with
  | initServer env =>
    obtain ⟨⟨rc, t⟩, ht, rfl⟩ := of_map_ok hstep
    exact (initializeTransport_pipes rfl rfl rfl ht).1
  | start =>
    simp only [BringUp.step, startTransport] at hstep
    split at hstep
    · cases hstep
    · cases hstep
      rfl
  | pipeArrives id =>
    rcases step_arrives hstep with rfl | ⟨-, rfl⟩
    · rfl
    · rfl
  | pipeConnectFails id =>
    cases hstep
    rfl
  | strangerConnects =>
    cases hstep
    rfl
  | newPipeConnection env => exact (newPipeConnection_cases hstep).1
  | stopLoop =>
    cases hstep
    rfl
  | stop env =>
    obtain ⟨⟨rc, t⟩, ht, rfl⟩ := of_map_ok hstep
    exact (termIOTasksFrom_quiet ht).concurrency

theorem noStranger_of_inOrder {e : Event} (h : s.InOrder e) : s.NoStranger e := by
  cases e with
  | strangerConnects => exact h
  | _ => trivial

/-- A run keeps the order of the tasks that each of its steps keeps. -/
theorem paired_of_run {P : BringUp → Event → Prop} (hasc : ∀ {a b : Nat}, a < b → r a b)
    (hP : ∀ s e, P s e → s.NoStranger e ∧ ((∀ {a b}, r a b → r b a) ∨ s.InOrder e))
    (concurrency : Nat) {events : List Event} (h : Runs P (new concurrency) events s) :
    s.m_concurrency = concurrency ∧ ∃ used, s.Paired r used := by
  refine h.invariant (fun u => u.m_concurrency = concurrency ∧ ∃ used, u.Paired r used) ?_
    ⟨rfl, 0, new_inv concurrency, fun hlisten => absurd hlisten Bool.false_ne_true,
      fun _ => .inl ⟨rfl, rfl⟩⟩
  rintro u e u' ⟨hconc, used, hpaired⟩ he hstep
  obtain ⟨hstranger, horder⟩ := hP u e he
  exact ⟨(step_concurrency hstep).trans hconc, hpaired.step hasc hstranger horder hstep⟩

/-- **Every pipe leads to its task**: in every run in which only the IO tasks connect to the pipe
    server, whatever fails on the way, once the server listens every slot is used, and the pipes
    lead to all tasks, each to another one; where the connections arrive in the order in which the
    tasks have asked for them, the pipe of a slot leads to the task of the same id. -/
theorem listening_pipes_paired (concurrency : Nat) {events : List Event} {s : BringUp}
    (h : Runs NoStranger (new concurrency) events s) (hlistening : s.listening = true) :
    (∃ order : List Nat, order.Perm (List.range concurrency) ∧ s.LeadTo order) ∧
      (Runs InOrder (new concurrency) events s → s.LeadTo (List.range concurrency)) := by
  constructor
  · -- in any order the tasks stay distinct
    obtain ⟨hconc, used, hpaired⟩ := paired_of_run (r := (· ≠ ·)) Nat.ne_of_lt
      (fun _ _ he => ⟨he, .inl Ne.symm⟩) concurrency h
    obtain ⟨order, hall, hlead⟩ := hpaired.listening hlistening
    exact ⟨order, hconc ▸ hall.perm, hlead⟩
  · -- in order they stay ascending
    intro horder
    obtain ⟨hconc, used, hpaired⟩ := paired_of_run (r := (· < ·)) id
      (fun _ _ he => ⟨noStranger_of_inOrder he, .inr he⟩) concurrency horder
    obtain ⟨order, hall, hlead⟩ := hpaired.listening hlistening
    rw [hall.eq_range, hconc] at hlead
    exact hlead

/-- A server with two tasks is brought up, after a first initialization has failed to bind. -/
theorem listening_pipes_paired_two_tasks : ∃ s : BringUp, s.listening = true ∧
    s.LeadTo [0, 1] := by
  let events : List Event := [.initServer { quietInit with tcp := ⟨true, true, false⟩ },
    .initServer quietInit, .start, .pipeArrives 0, .newPipeConnection quietAccept, .pipeArrives 1,
    .newPipeConnection quietAccept]
  obtain ⟨s, hs, hs', hlistening⟩ : ∃ s,
      runWhere (fun s e => (step s e).toOption) NoStranger (new 2) events = some s ∧
      runWhere (fun s e => (step s e).toOption) InOrder (new 2) events = some s ∧
      s.listening = true := ⟨_, rfl, rfl, rfl⟩
  obtain ⟨-, hpaired⟩ := listening_pipes_paired 2 (runsWith_of_runWhere_except hs) hlistening
  exact ⟨s, hlistening, hpaired (runsWith_of_runWhere_except hs')⟩

/-- The request of the second task arrives first: the server listens, and the pipes are crossed. -/
theorem arrivals_cross_pipes : ∃ s : BringUp, Runs NoStranger (new 2)
    [.initServer quietInit, .start, .pipeArrives 1, .pipeArrives 0,
      .newPipeConnection quietAccept, .newPipeConnection quietAccept] s ∧
    s.listening = true ∧ s.LeadTo [1, 0] :=
  ⟨_, runsWith_of_runWhere_except rfl, rfl, rfl⟩

/-- A stranger connects, and the connection of the first task is lost: the server listens, and its
    first pipe leads to the second task. -/
theorem stranger_shifts_pipes : ∃ s : BringUp, Runs (fun _ _ => True) (new 2)
    [.initServer quietInit, .start, .pipeArrives 0, .pipeArrives 1, .strangerConnects,
      .newPipeConnection { quietAccept with accept := false }, .newPipeConnection quietAccept,
      .newPipeConnection quietAccept] s ∧
    s.listening = true ∧ (s.m_ioTasks.map PipeTask.m_serverPipe) =
      [some (.task 1), some .stranger] :=
  ⟨_, runsWith_of_runWhere_except (P := fun _ _ => True) rfl, rfl, rfl⟩

/-! ## §5 Failed initializations -/

/-- libuv refuses the loop or the pipe of the task. -/
def TaskFails (env : TaskInitEnv) : Prop := env.loopInit = false ∨ env.pipeInit = false

instance (env : TaskInitEnv) : Decidable (TaskFails env) := inferInstanceAs (Decidable (_ ∨ _))

/-- No IO task runs. -/
def NotStarted (s : BringUp) : Prop := ∀ task ∈ s.m_ioTasks, task.m_ioTask = false

/-- A loop can be told to stop. -/
def TaskStopEnv.Tells (env : TaskStopEnv) : Prop := env.asyncInit = true ∧ env.asyncSend = true

/-- A task that was not started cannot be terminated. -/
theorem termIOTask_throws {env : TaskStopEnv} (hidle : s.NotStarted)
    (hid : id < s.m_ioTasks.length) (htells : TaskStopEnv.Tells env) :
    s.termIOTask id env = .error .uncaughtException := by
  have hthread : s.m_ioTasks[id].m_ioTask = false := hidle _ (List.getElem_mem hid)
  simp [termIOTask, hid, htells.1, htells.2, hthread]

theorem NotStarted.setTask (h : s.NotStarted) (id : Nat) (task : PipeTask)
    (htask : task.m_ioTask = false) :
    (s.setTask id task).NotStarted := by
  intro other hother
  rcases List.mem_or_eq_of_mem_set hother with hold | rfl
  · exact h other hold
  · exact htask

/-- What comes of a task: it goes on, it is refused its loop, or it throws. -/
theorem initIOTask_cases {env : TaskInitEnv} (hidle : s.NotStarted)
    (hid : id < s.m_ioTasks.length) (htells : TaskStopEnv.Tells env.stop) :
    (¬ TaskFails env ∧ ∃ s', s.initIOTask id env = .ok (.ok, s') ∧ s'.NotStarted ∧
      s'.m_ioTasks.length = s.m_ioTasks.length) ∨
      (env.loopInit = false ∧ s.initIOTask id env = .ok (.transportError, s)) ∨
      (env.loopInit = true ∧ TaskFails env ∧
        s.initIOTask id env = .error .uncaughtException) := by
  have hthread : s.m_ioTasks[id].m_ioTask = false := hidle _ (List.getElem_mem hid)
  unfold initIOTask
  rw [List.getElem?_eq_getElem hid]
  dsimp only
  cases hloop : env.loopInit with
  | false => exact .inr (.inl ⟨rfl, rfl⟩)
  | true =>
    cases hpipe : env.pipeInit with
    | false =>
      refine .inr (.inr ⟨rfl, .inr hpipe, ?_⟩)
      have hthrows : (s.setTask id { s.m_ioTasks[id] with m_state := .loopInit }).termIOTask id
          env.stop = .error .uncaughtException := by
        apply termIOTask_throws _ _ htells
        · exact hidle.setTask _ _ hthread
        · simpa [BringUp.setTask] using hid
      simp [hthrows]
    | true =>
      refine .inl ⟨by simp [TaskFails, hloop, hpipe], _, rfl, ?_, by simp [BringUp.setTask]⟩
      have hinit := hidle.setTask id { s.m_ioTasks[id] with m_state := .loopInit } hthread
      exact hinit.setTask id { s.m_ioTasks[id] with m_state := .serverPipeInit } hthread

/-- A failure after the first loop throws. -/
theorem initIOTasksFrom_throws {env : Nat → TaskInitEnv} {left : Nat} (hidle : s.NotStarted)
    (hlen : id + left = s.m_ioTasks.length)
    (htells : ∀ id, TaskStopEnv.Tells (env id).stop)
    (hfirst : id = 0 → (env 0).loopInit = true) :
    initIOTasksFrom env left id s = .error .uncaughtException ↔
      ∃ j, id ≤ j ∧ j < id + left ∧ TaskFails (env j) := by
  induction left generalizing id s with
  | zero =>
    simp only [initIOTasksFrom, reduceCtorEq, false_iff]
    rintro ⟨j, hle, hlt, -⟩
    omega
  | succ left ih =>
    unfold initIOTasksFrom
    have hid : id < s.m_ioTasks.length := by omega
    rcases initIOTask_cases hidle hid (htells id) with ⟨hgood, t, ht, hidle', hlen'⟩ | hbad | hbad
    · rw [ht]
      dsimp only
      rw [if_pos rfl, ih hidle' (by omega) (by omega)]
      -- the task that fails is a later one
      constructor
      · rintro ⟨j, hle, hlt, hfails⟩
        exact ⟨j, by omega, by omega, hfails⟩
      · rintro ⟨j, hle, hlt, hfails⟩
        have hne : j ≠ id := by
          rintro rfl
          exact hgood hfails
        exact ⟨j, by omega, by omega, hfails⟩
    · obtain ⟨hloop, ht⟩ := hbad
      have hpos : id ≠ 0 := by
        rintro rfl
        rw [hfirst rfl] at hloop
        cases hloop
      obtain ⟨before, rfl⟩ := Nat.exists_eq_succ_of_ne_zero hpos
      -- the first of the tasks before is terminated
      have hthrows : termIOTasksFrom (fun id => (env id).stop) (before + 1) 0 .ok s =
          .error .uncaughtException := by
        unfold termIOTasksFrom
        rw [termIOTask_throws hidle (by omega) (htells 0)]
      rw [ht]
      simp only [reduceCtorEq, if_false, hthrows, true_iff]
      exact ⟨_, Nat.le_refl _, by omega, .inl hloop⟩
    · obtain ⟨hloop, hfails, ht⟩ := hbad
      rw [ht]
      simp only [true_iff]
      exact ⟨id, Nat.le_refl _, by omega, hfails⟩

/-- **A failed initialization throws**, unless it is the first loop that fails: the tasks whose
    loops exist are terminated as if their threads had been started. -/
theorem initIOTasks_throws_iff (s : BringUp) {env : Nat → TaskInitEnv} (hidle : s.NotStarted)
    (hlen : s.m_ioTasks.length = s.m_concurrency)
    (htells : ∀ id, TaskStopEnv.Tells (env id).stop) :
    s.initIOTasks env = .error .uncaughtException ↔
      (env 0).loopInit = true ∧ ∃ id < s.m_concurrency, TaskFails (env id) := by
  unfold initIOTasks
  cases hloop : (env 0).loopInit with
  | true =>
    rw [initIOTasksFrom_throws hidle (by omega) htells fun _ => hloop]
    simp
  | false =>
    simp only [Bool.false_eq_true, false_and, iff_false]
    intro hthrows
    cases hconc : s.m_concurrency with
    | zero =>
      rw [hconc] at hthrows
      cases hthrows
    | succ left =>
      have hid : 0 < s.m_ioTasks.length := by omega
      rw [hconc] at hthrows
      unfold initIOTasksFrom initIOTask at hthrows
      simp [hid, hloop, termIOTasksFrom] at hthrows

/-- The second of two loops cannot be initialized. -/
theorem initIOTasks_throws_second :
    (resizeTasks (new 2)).initIOTasks (fun id => ⟨id == 0, true, ⟨true, true, true⟩⟩) =
      .error .uncaughtException := by
  apply (initIOTasks_throws_iff _ _ rfl fun _ => ⟨rfl, rfl⟩).mpr
  · exact ⟨rfl, 1, by decide, .inl rfl⟩
  · intro task htask
    obtain rfl := List.eq_of_mem_replicate htask
    rfl

end BringUp

end Commutil.Transport
