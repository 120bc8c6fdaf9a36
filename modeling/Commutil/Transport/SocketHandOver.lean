import Commutil.Transport.StreamServers

/-!
# Sockets on Their Way to an IO Task

`TcpServer` passes an accepted socket to an IO task in two parts that meet again only in
`handlePipeRead`: the socket goes through a pipe, and its connection object through the
queue `m_pendingConns`.

The server of `StreamServers` is extended by the sockets in each pipe.  A socket carries
the connection that `handleNewConnection` queued for it, which the program does not know;
it is there to be compared with the connection that is taken off the queue.

- `Inv.step`: while both parts go the whole way, the queue is the pipe, connection by
  connection
- `sockets_keep_connections`: so every socket meets its own connection
- `failed_write_shifts_pairing`: a connection whose `uv_write2` failed stays in the queue
  and meets the next socket
-/

namespace Commutil.Transport

open Commutil.Library

/-! ## §1 Sockets and pairings -/

/-- An accepted socket, by the connection object that was queued for it and its id then. -/
structure Socket where
  connection : Nat
  connectionId : UInt64
  deriving DecidableEq, Repr

/-- A socket that met a connection in `handlePipeRead`, and what the connection was then. -/
structure Pairing where
  socket : Socket
  connection : Nat
  m_connectionId : UInt64
  m_isUsed : Bool
  deriving DecidableEq, Repr

/-- The connection is the one that was queued for the socket, and in use. -/
def Pairing.Proper (p : Pairing) : Prop :=
  p.connection = p.socket.connection ∧ p.m_connectionId = p.socket.connectionId ∧
    p.m_isUsed = true

instance (p : Pairing) : Decidable p.Proper := by
  unfold Pairing.Proper
  infer_instance

/-- `handlePipeRead` gets as far as `uv_accept`. -/
def PipeReadEnv.reachesAccept (env : PipeReadEnv) : Bool :=
  env.read && env.pendingCount && env.pendingTcp && env.tcpInit

/-- A TCP server with the sockets of each IO task: `pipe` holds those that were written and have
    not arrived, `unaccepted` those that arrived and wait in `m_clientPipe` for `uv_accept`, oldest
    first. -/
structure HandOver where
  tcp : TcpServer
  pipe : Nat → List Socket
  unaccepted : Nat → List Socket
  pairings : List Pairing

namespace HandOver

/-- The server before the first connection. -/
def start (maxConnections concurrency : Nat) : HandOver :=
  ⟨.start maxConnections concurrency, fun _ => [], fun _ => [], []⟩

/-- The queue of an IO task. -/
def pending (s : HandOver) (task : Nat) : List Nat := (s.tcp.m_ioTasks task).m_pendingConns

/-- A slot of the connection array. -/
def slot (s : HandOver) (index : Nat) : Option (ConnectionData TcpSlot) :=
  s.tcp.server.m_connDataArray[index]?

/-- Sockets that meet the connection at the head of the queue. -/
def meet (s : HandOver) (task : Nat) (sockets : List Socket) : List Pairing :=
  match s.pending task with
  | [] => []
  | index :: _ =>
    match s.slot index with
    | none => []
    | some connData =>
      sockets.map fun socket => ⟨socket, index, connData.m_connectionId, connData.m_isUsed⟩

/-! ## §2 Steps -/

/-- What can happen to the connections and their sockets. -/
inductive Event where
  | newConnection (status tcpInit accept : Bool)
  | handOver (allocated write2 : Bool)
  /-- The write of a socket in the pipe fails after `uv_write2` has returned: `onWrite2Static`
      deletes the request. -/
  | writeError (task position : Nat)
  /-- A read callback of the pipe, which `brings` the next socket, or comes without one. -/
  | pipeRead (task : Nat) (brings : Bool) (env : PipeReadEnv)
  | readError (index : Nat)
  | notifyDisconnect (task : Nat)
  deriving DecidableEq, Repr

/-- The socket for which `uv_write2` has been called is in the pipe of its task. -/
def written (s : HandOver) (index : Nat) : Nat → List Socket :=
  match s.slot index with
  | none => s.pipe
  | some connData =>
    let task := index % s.tcp.m_concurrency
    Function.update s.pipe task (s.pipe task ++ [⟨index, connData.m_connectionId⟩])

/-- A read callback: the socket leaves the pipe, and is lost if the read failed.  What is not
    accepted stays where it is; `uv_pipe_pending_count` counts it, and `uv_accept` takes the
    oldest. -/
def pipeRead (s : HandOver) (task : Nat) (brings : Bool) (env : PipeReadEnv) : Option HandOver :=
  if brings && (s.pipe task).isEmpty then none
  else
    let brought := if brings then (s.pipe task).take 1 else []
    let arrived := if env.read then brought else []
    let waiting := s.unaccepted task ++ arrived
    if env.read && env.pendingCount == waiting.isEmpty then none
    else
      match s.tcp.step (.pipeRead task env) with
      | none => none
      | some tcp =>
        let accepted := if env.reachesAccept then waiting.take 1 else []
        some {
          tcp
          pipe := Function.update s.pipe task ((s.pipe task).drop brought.length)
          unaccepted := Function.update s.unaccepted task (waiting.drop accepted.length)
          pairings := s.pairings ++ s.meet task arrived ++ s.meet task accepted }

/-- One step, if it is possible. -/
def step (s : HandOver) : Event → Option HandOver
  | .newConnection status tcpInit accept =>
    (s.tcp.step (.newConnection status tcpInit accept)).map fun tcp => { s with tcp }
  | .handOver allocated write2 =>
    match s.tcp.handingOver, s.tcp.step (.handOver allocated write2) with
    | some index, some tcp =>
      some { s with tcp, pipe := if write2 then s.written index else s.pipe }
    | _, _ => none
  | .writeError task position =>
    some { s with pipe := Function.update s.pipe task ((s.pipe task).eraseIdx position) }
  | .pipeRead task brings env => s.pipeRead task brings env
  | .readError index => (s.tcp.step (.readError index)).map fun tcp => { s with tcp }
  | .notifyDisconnect task =>
    (s.tcp.step (.notifyDisconnect task)).map fun tcp => { s with tcp }

/-- **What is asked of the hand-over**: no connection is in the queues twice, every socket that
    arrives or is accepted meets its own connection, in use, and no socket arrives to find no
    connection at all. -/
structure KeepsConnections (s : HandOver) : Prop where
  once : ∀ task, (s.pending task).Nodup
  apart : ∀ task other, task ≠ other → List.Disjoint (s.pending task) (s.pending other)
  paired : ∀ p ∈ s.pairings, p.Proper
  met : ∀ task env, s.pipe task ≠ [] → ∃ tcp, s.tcp.handlePipeRead task env = .ok tcp

/-- A queued connection gets its socket: the socket is written, arrives with the next callback, and
    is accepted by it.  A callback without a socket finds no connection in the queue. -/
def Undisturbed (s : HandOver) : Event → Prop
  | .handOver allocated write2 => allocated = true ∧ write2 = true
  | .writeError _ _ => False
  | .pipeRead task brings env =>
    if brings then env.read = true → env.pendingTcp = true ∧ env.tcpInit = true
    else s.pending task = []
  | _ => True

instance (s : HandOver) (e : Event) : Decidable (s.Undisturbed e) := by
  cases e <;> unfold Undisturbed <;> infer_instance

end HandOver

/-! ## §3 What the server does to one slot -/

/-- Only one slot has changed, and it is in use if it is read. -/
structure TcpServer.Touches (index : Nat) (s s' : TcpServer) : Prop where
  pending : ∀ task, (s'.m_ioTasks task).m_pendingConns = (s.m_ioTasks task).m_pendingConns
  concurrency : s'.m_concurrency = s.m_concurrency
  handingOver : s'.handingOver = s.handingOver
  others : ∀ j, index ≠ j → s'.server.m_connDataArray[j]? = s.server.m_connDataArray[j]?
  used : ∀ connData, s'.server.m_connDataArray[index]? = some connData →
    connData.extension.reading = true → connData.m_isUsed = true

namespace TcpServer

variable {s s' s'' : TcpServer} {index : Nat} {connData : ConnectionData TcpSlot}

theorem Touches.trans (h : Touches index s s') (h' : Touches index s' s'') :
    Touches index s s'' where
  pending task := (h'.pending task).trans (h.pending task)
  concurrency := h'.concurrency.trans h.concurrency
  handingOver := h'.handingOver.trans h.handingOver
  others j hne := (h'.others j hne).trans (h.others j hne)
  used := h'.used

theorem touches_setSlot (hslot : s.server.m_connDataArray[index]? = some connData)
    (new : ConnectionData TcpSlot) (hnew : new.extension.reading = true → new.m_isUsed = true) :
    Touches index s (s.setSlot index new) where
  pending _ := rfl
  concurrency := rfl
  handingOver := rfl
  others _ hne := s.server.setSlot_ne hne new
  used d hd := by
    have hself := s.server.setSlot_self hslot new
    obtain rfl : new = d := Option.some.inj (hself.symm.trans hd)
    exact hnew

theorem touches_release (hslot : s.server.m_connDataArray[index]? = some connData)
    (hquiet : connData.extension.reading = false) : Touches index s (s.release index) := by
  have hset : s.release index = s.setSlot index { connData with m_isUsed := false } := by
    simp only [TcpServer.release, DataServer.releaseSlot, hslot, setSlot]
  rw [hset]
  apply touches_setSlot hslot
  intro hread
  rw [show connData.extension.reading = true from hread] at hquiet
  cases hquiet

/-- The listener is called; the connections are as they were. -/
theorem touches_calls (calls : List Notification)
    (hslot : s.server.m_connDataArray[index]? = some connData)
    (hquiet : connData.extension.reading = false) : Touches index s { s with calls } where
  pending _ := rfl
  concurrency := rfl
  handingOver := rfl
  others _ _ := rfl
  used d hd hread := by
    obtain rfl : connData = d := Option.some.inj (hslot.symm.trans hd)
    rw [hread] at hquiet
    cases hquiet

theorem touches_receiveSocket (hslot : s.server.m_connDataArray[index]? = some connData)
    (hused : connData.m_isUsed = true) (hquiet : connData.extension.reading = false)
    (env : PipeReadEnv) : Touches index s (s.receiveSocket index connData env) := by
  have hcalls := fun calls => touches_calls (s := s) calls hslot hquiet
  unfold receiveSocket
  iterate 5
    split
    · exact touches_release hslot hquiet
  dsimp only
  split
  · -- the listener refuses the connection
    exact (hcalls _).trans (touches_release hslot hquiet)
  split
  · exact (hcalls _).trans (touches_release hslot hquiet)
  · have hread := touches_setSlot
      (s := { s with calls := s.calls ++ [.onConnect index env.onConnect] }) hslot
      { connData with extension := ⟨true⟩ } fun _ => hused
    exact (hcalls _).trans hread

/-- What `handlePipeRead` does with the connection at the head of the queue. -/
theorem handlePipeRead_eq {task : Nat} {behind : List Nat}
    (hqueue : (s.m_ioTasks task).m_pendingConns = index :: behind)
    (hslot : s.server.m_connDataArray[index]? = some connData) (env : PipeReadEnv) :
    s.handlePipeRead task env = .ok ((s.setTask task { s.m_ioTasks task with
      m_pendingConns := behind }).receiveSocket index connData env) := by
  have hget : (s.setTask task { s.m_ioTasks task with
      m_pendingConns := behind }).server.m_connDataArray[index]? = some connData := hslot
  unfold handlePipeRead
  rw [hqueue]
  dsimp only
  rw [hget]

end TcpServer

namespace HandOver

/-! ## §4 The queue is the pipe -/

/-- The connection for which `uv_write2` is still to be called. -/
def handed (s : HandOver) (task : Nat) : List Nat :=
  match s.tcp.handingOver with
  | none => []
  | some index => if index % s.tcp.m_concurrency = task then [index] else []

/-- What an undisturbed hand-over keeps: the queue of a task holds the connections of the sockets in
    its pipe, in order, and behind them the one that is handed over; they are in use and not read,
    and have kept their ids. -/
structure Inv (s : HandOver) : Prop where
  used : ∀ (index : Nat) (connData : ConnectionData TcpSlot), s.slot index = some connData →
    connData.extension.reading = true → connData.m_isUsed = true
  inStep : ∀ task, s.pending task = (s.pipe task).map Socket.connection ++ s.handed task
  nodup : ∀ task, (s.pending task).Nodup
  waiting : ∀ task, ∀ index ∈ s.pending task,
    index % s.tcp.m_concurrency = task ∧ s.tcp.Waiting index
  ids : ∀ task, ∀ socket ∈ s.pipe task, ∃ connData, s.slot socket.connection = some connData ∧
    connData.m_connectionId = socket.connectionId
  accepted : ∀ task, s.unaccepted task = []
  paired : ∀ p ∈ s.pairings, p.Proper

theorem start_inv (maxConnections concurrency : Nat) : Inv (start maxConnections concurrency) :=
  have h := TcpServer.start_inv maxConnections concurrency
  ⟨h.used, fun _ => rfl, h.nodup, h.pending, nofun, fun _ => rfl, nofun⟩

variable {s s' : HandOver} {task index : Nat}

/-- A slot that is in no queue may change. -/
theorem Inv.touch (h : s.Inv) {tcp : TcpServer} (ht : s.tcp.Touches index tcp)
    (hfree : ∀ task, index ∉ s.pending task) : Inv { s with tcp } := by
  have hpending : ∀ task, pending { s with tcp } task = s.pending task := ht.pending
  have hhanded : ∀ task, handed { s with tcp } task = s.handed task := by
    intro task
    simp only [handed, ht.handingOver, ht.concurrency]
  have hmem : ∀ task, ∀ socket ∈ s.pipe task, socket.connection ∈ s.pending task := by
    intro task socket hsocket
    rw [h.inStep]
    exact List.mem_append_left _ (List.mem_map_of_mem hsocket)
  refine ⟨fun j connData hj hread => ?_, fun task => ?_, fun task => ?_, fun task j hj => ?_,
    fun task socket hsocket => ?_, h.accepted, h.paired⟩
  · by_cases hne : index = j
    · subst hne
      exact ht.used connData hj hread
    · exact h.used j connData ((ht.others j hne).symm.trans hj) hread
  · rw [hpending, hhanded]
    exact h.inStep task
  · rw [hpending]
    exact h.nodup task
  · rw [hpending] at hj
    obtain ⟨htask, connData, hslot, hrest⟩ := h.waiting task j hj
    refine ⟨(congrArg (j % ·) ht.concurrency).trans htask, connData, ?_, hrest⟩
    have hne : index ≠ j := fun heq => hfree task (heq ▸ hj)
    exact (ht.others j hne).trans hslot
  · obtain ⟨connData, hslot, hid⟩ := h.ids task socket hsocket
    refine ⟨connData, ?_, hid⟩
    have hne : index ≠ socket.connection := fun heq => hfree task (heq ▸ hmem task socket hsocket)
    exact (ht.others _ hne).trans hslot

/-- A slot that is not in use is in no queue. -/
theorem Inv.not_pending (h : s.Inv) {connData : ConnectionData TcpSlot}
    (hslot : s.slot index = some connData)
    (hfree : connData.m_isUsed = false ∨ connData.extension.reading = true) (task : Nat) :
    index ∉ s.pending task := by
  intro hmem
  obtain ⟨-, d, hd, hused, hquiet⟩ := h.waiting task index hmem
  obtain rfl : connData = d := Option.some.inj (hslot.symm.trans hd)
  rcases hfree with hfree | hread
  · rw [hfree] at hused
    cases hused
  · rw [hread] at hquiet
    cases hquiet

/-- A connection in use goes to the end of the queue of its task, and is handed over. -/
theorem Inv.queue (h : s.Inv) (hidle : s.tcp.handingOver = none)
    {connData : ConnectionData TcpSlot} (hslot : s.slot index = some connData)
    (hused : connData.m_isUsed = true) (hquiet : connData.extension.reading = false)
    (hfree : ∀ task, index ∉ s.pending task) :
    Inv { s with tcp := { s.tcp.setTask (index % s.tcp.m_concurrency)
      { s.tcp.m_ioTasks (index % s.tcp.m_concurrency) with m_pendingConns :=
        (s.tcp.m_ioTasks (index % s.tcp.m_concurrency)).m_pendingConns ++ [index] } with
      handingOver := some index } } := by
  -- only the queue of the task of this index gets longer
  have hpending : ∀ task, pending { s with tcp := { s.tcp.setTask (index % s.tcp.m_concurrency)
      { s.tcp.m_ioTasks (index % s.tcp.m_concurrency) with m_pendingConns :=
        (s.tcp.m_ioTasks (index % s.tcp.m_concurrency)).m_pendingConns ++ [index] } with
      handingOver := some index } } task =
      s.pending task ++ if index % s.tcp.m_concurrency = task then [index] else [] := by
    intro task
    unfold pending
    dsimp only
    split
    · rename_i htask
      subst htask
      rw [TcpServer.setTask_self]
    · rename_i hne
      rw [TcpServer.setTask_ne _ (Ne.symm hne), List.append_nil]
  have hnone : ∀ task, s.handed task = [] := by
    intro task
    simp only [handed, hidle]
  refine ⟨h.used, fun task => ?_, fun task => ?_, fun task j hj => ?_, h.ids, h.accepted, h.paired⟩
  · rw [hpending, h.inStep, hnone, List.append_nil]
    rfl
  · rw [hpending]
    -- the index was in no queue, so it is in this one once
    split
    · rw [List.nodup_append]
      refine ⟨h.nodup task, List.pairwise_singleton _ index, fun a ha b hb => ?_⟩
      cases List.mem_singleton.mp hb
      rintro rfl
      exact hfree task ha
    · rw [List.append_nil]
      exact h.nodup task
  · rw [hpending] at hj
    rcases List.mem_append.mp hj with hj | hj
    · exact h.waiting task j hj
    · split at hj
      · rename_i htask
        cases List.mem_singleton.mp hj
        exact ⟨htask, connData, hslot, hused, hquiet⟩
      · cases hj

theorem Inv.newConnection (h : s.Inv) (hidle : s.tcp.handingOver = none)
    (status tcpInit accept : Bool) :
    Inv { s with tcp := s.tcp.handleNewConnection status tcpInit accept } := by
  unfold TcpServer.handleNewConnection
  split
  · exact h
  split
  · exact h
  rename_i index server hgrab
  obtain ⟨connData, hslot, hunused, harray, -, -⟩ := DataServer.grabConnectionData_spec hgrab
  have hfree := h.not_pending hslot (.inl hunused)
  have hquiet : connData.extension.reading = false := by
    cases hread : connData.extension.reading with
    | false => rfl
    | true =>
      rw [h.used index connData hslot hread] at hunused
      cases hunused
  have hself : server.m_connDataArray[index]? =
      some (DataServer.grabbed connData s.tcp.server.m_nextConnectionId) := by
    rw [harray]
    exact s.tcp.server.setSlot_self hslot _
  have hgrabbed : s.tcp.Touches index { s.tcp with server } := by
    have hset := TcpServer.touches_setSlot (s := s.tcp) hslot
      (DataServer.grabbed connData s.tcp.server.m_nextConnectionId) fun _ => rfl
    obtain ⟨array, next, state⟩ := server
    obtain rfl : array = _ := harray
    exact ⟨hset.pending, hset.concurrency, hset.handingOver, hset.others, hset.used⟩
  dsimp only
  split
  · exact h.touch (hgrabbed.trans (TcpServer.touches_release hself hquiet)) hfree
  split
  · exact h.touch (hgrabbed.trans (TcpServer.touches_release hself hquiet)) hfree
  -- the connection goes to the end of the queue, and its socket is still to be written
  have hg := h.touch hgrabbed hfree
  exact hg.queue hidle hself rfl hquiet hfree

/-- The socket of the connection that is handed over goes to the end of the pipe. -/
theorem Inv.handOver (h : s.Inv) (hover : s.tcp.handingOver = some index) :
    Inv { s with tcp := { s.tcp with handingOver := none }, pipe := s.written index } := by
  have hhanded : ∀ task, s.handed task =
      if index % s.tcp.m_concurrency = task then [index] else [] := by
    intro task
    simp only [handed, hover]
  have hmem : index ∈ s.pending (index % s.tcp.m_concurrency) := by
    rw [h.inStep, hhanded, if_pos rfl]
    exact List.mem_append_right _ (List.mem_singleton_self index)
  obtain ⟨-, connData, hslot, hused, hquiet⟩ := h.waiting _ index hmem
  have hwritten : ∀ task, s.written index task =
      s.pipe task ++ if index % s.tcp.m_concurrency = task
        then [⟨index, connData.m_connectionId⟩] else [] := by
    intro task
    have hslot' : s.slot index = some connData := hslot
    simp only [written, hslot']
    split
    · rename_i htask
      rw [htask, Function.update_self]
    · rename_i hne
      rw [Function.update_of_ne (Ne.symm hne), List.append_nil]
  refine ⟨h.used, fun task => ?_, h.nodup, h.waiting, fun task socket hsocket => ?_, h.accepted,
    h.paired⟩
  · show s.pending task = (s.written index task).map Socket.connection ++ []
    rw [h.inStep, hhanded, hwritten]
    split <;> simp
  · have hsocket' : socket ∈ s.written index task := hsocket
    rw [hwritten] at hsocket'
    rcases List.mem_append.mp hsocket' with hold | hnew
    · exact h.ids task socket hold
    · split at hnew
      · cases List.mem_singleton.mp hnew
        exact ⟨connData, hslot, rfl⟩
      · cases hnew

/-- The socket at the head of the pipe and the connection at the head of the queue leave
    together. -/
theorem Inv.dequeue (h : s.Inv) {socket : Socket} {rest : List Socket} {behind : List Nat}
    (hpipe : s.pipe task = socket :: rest) (hqueue : s.pending task = socket.connection :: behind) :
    Inv { s with
      tcp := s.tcp.setTask task { s.tcp.m_ioTasks task with m_pendingConns := behind }
      pipe := Function.update s.pipe task rest } := by
  have hpending : ∀ t, pending { s with
      tcp := s.tcp.setTask task { s.tcp.m_ioTasks task with m_pendingConns := behind }
      pipe := Function.update s.pipe task rest } t =
      if t = task then behind else s.pending t := by
    intro t
    unfold pending
    dsimp only
    split
    · rename_i ht
      rw [ht, TcpServer.setTask_self]
    · rename_i ht
      rw [TcpServer.setTask_ne _ ht]
  -- what is left in the queue is what is left in the pipe and was handed over
  have hbehind : behind = rest.map Socket.connection ++ s.handed task := by
    have hstep := h.inStep task
    rw [hqueue, hpipe] at hstep
    exact (List.cons.inj hstep).2
  have hsub : ∀ t, ∀ j ∈ (if t = task then behind else s.pending t), j ∈ s.pending t := by
    intro t j hj
    split at hj
    · rename_i ht
      rw [ht, hqueue]
      exact List.mem_cons_of_mem _ hj
    · exact hj
  -- used, inStep, nodup, waiting, ids, accepted, paired
  refine ⟨h.used, fun t => ?_, fun t => ?_, fun t j hj => ?_, fun t sock hsock => ?_, h.accepted,
    h.paired⟩
  · rw [hpending]
    show _ = (Function.update s.pipe task rest t).map Socket.connection ++ s.handed t
    split
    · rename_i ht
      rw [ht, Function.update_self, hbehind]
    · rename_i ht
      rw [Function.update_of_ne ht]
      exact h.inStep t
  · rw [hpending]
    split
    · have hnodup := h.nodup task
      rw [hqueue] at hnodup
      exact hnodup.of_cons
    · exact h.nodup t
  · rw [hpending] at hj
    exact h.waiting t j (hsub t j hj)
  · have hsock' : sock ∈ Function.update s.pipe task rest t := hsock
    by_cases ht : t = task
    · subst ht
      rw [Function.update_self] at hsock'
      exact h.ids t sock (by rw [hpipe]; exact List.mem_cons_of_mem _ hsock')
    · rw [Function.update_of_ne ht] at hsock'
      exact h.ids t sock hsock'

/-- In step, a socket meets its own connection. -/
theorem Inv.meets (h : s.Inv) {socket : Socket} {rest : List Socket}
    (hpipe : s.pipe task = socket :: rest) :
    ∃ behind connData, s.pending task = socket.connection :: behind ∧
      s.slot socket.connection = some connData ∧ connData.m_isUsed = true ∧
      connData.extension.reading = false ∧ (∀ t, socket.connection ∉
        if t = task then behind else s.pending t) ∧
      ∀ p ∈ s.meet task [socket], p.Proper := by
  have hqueue := h.inStep task
  rw [hpipe, List.map_cons, List.cons_append] at hqueue
  have hmem : socket.connection ∈ s.pending task := by
    rw [hqueue]
    exact List.mem_cons_self
  obtain ⟨htask, connData, hslot, hused, hquiet⟩ := h.waiting task _ hmem
  obtain ⟨d, hd, hid⟩ := h.ids task socket (by rw [hpipe]; exact List.mem_cons_self)
  obtain rfl : connData = d := Option.some.inj (hslot.symm.trans hd)
  refine ⟨_, connData, hqueue, hslot, hused, hquiet, fun t hin => ?_, fun p hp => ?_⟩
  · split at hin
    · have hnodup := h.nodup task
      rw [hqueue] at hnodup
      exact (List.nodup_cons.mp hnodup).1 hin
    · rename_i ht
      exact ht ((h.waiting t _ hin).1.symm.trans htask)
  · unfold meet at hp
    rw [hqueue] at hp
    dsimp only at hp
    rw [hd] at hp
    cases List.mem_singleton.mp hp
    exact ⟨rfl, hid, hused⟩

@[simp] theorem meet_nil (s : HandOver) (task : Nat) : s.meet task [] = [] := by
  unfold meet
  split
  · rfl
  split <;> rfl

/-- The sockets that wait for `uv_accept`, if there are none in the end. -/
theorem Inv.setUnaccepted (h : s.Inv) (task : Nat) :
    Inv { s with unaccepted := Function.update s.unaccepted task [] } := by
  refine ⟨h.used, h.inStep, h.nodup, h.waiting, h.ids, fun t => ?_, h.paired⟩
  have hsame : Function.update s.unaccepted task [] = s.unaccepted := by
    rw [← h.accepted task, Function.update_eq_self]
  exact (congrFun hsame t).trans (h.accepted t)

/-- A callback without a socket that finds no connection changes nothing: the read has failed. -/
theorem Inv.pipeRead_none (h : s.Inv) {env : PipeReadEnv} (hempty : s.pending task = [])
    (hstep : s.pipeRead task false env = some s') : s'.Inv := by
  have hempty' : (s.tcp.m_ioTasks task).m_pendingConns = [] := hempty
  simp only [HandOver.pipeRead, TcpServer.step, TcpServer.handlePipeRead, hempty'] at hstep
  cases hread : env.read with
  | true => simp [hread] at hstep
  | false =>
    have hreach : env.reachesAccept = false := by
      simp only [PipeReadEnv.reachesAccept, hread, Bool.false_and]
    simp [hread, hreach, h.accepted task] at hstep
    split at hstep
    · cases hstep
    rename_i tcp htcp
    split at htcp
    · cases htcp
    cases htcp
    cases hstep
    exact h.setUnaccepted task

/-- What a callback that brings a socket comes to. -/
theorem Inv.pipeRead_eq (h : s.Inv) {env : PipeReadEnv} {socket : Socket} {rest : List Socket}
    (hpipe : s.pipe task = socket :: rest)
    (henv : env.read = true → env.pendingTcp = true ∧ env.tcpInit = true)
    (hstep : s.pipeRead task true env = some s') :
    ∃ tcp, s.tcp.step (.pipeRead task env) = some tcp ∧
      s' = { tcp
             pipe := Function.update s.pipe task rest
             unaccepted := Function.update s.unaccepted task []
             pairings := s.pairings ++
               if env.read then s.meet task [socket] ++ s.meet task [socket] else [] } := by
  unfold HandOver.pipeRead at hstep
  rw [hpipe, h.accepted task] at hstep
  cases hread : env.read with
  | false =>
    have hreach : env.reachesAccept = false := by
      simp only [PipeReadEnv.reachesAccept, hread, Bool.false_and]
    simp [hread, hreach] at hstep
    split at hstep
    · cases hstep
    rename_i tcp htcp
    cases hstep
    exact ⟨tcp, htcp, by simp⟩
  | true =>
    obtain ⟨hpending, hinit⟩ := henv hread
    cases hcount : env.pendingCount with
    | false => simp [hread, hcount] at hstep
    | true =>
      have hreach : env.reachesAccept = true := by
        simp only [PipeReadEnv.reachesAccept, hread, hcount, hpending, hinit, Bool.and_self]
      simp [hread, hcount, hreach] at hstep
      split at hstep
      · cases hstep
      rename_i tcp htcp
      cases hstep
      exact ⟨tcp, htcp, by simp⟩

/-- A callback that brings a socket: it meets its own connection, and is accepted unless the read
    failed. -/
theorem Inv.pipeRead (h : s.Inv) {env : PipeReadEnv}
    (henv : env.read = true → env.pendingTcp = true ∧ env.tcpInit = true)
    (hstep : s.pipeRead task true env = some s') : s'.Inv := by
  cases hpipe : s.pipe task with
  | nil => simp [HandOver.pipeRead, hpipe] at hstep
  | cons socket rest =>
    obtain ⟨behind, connData, hqueue, hslot, hused, hquiet, hfree, hmeet⟩ := h.meets hpipe
    obtain ⟨tcp, htcp, rfl⟩ := h.pipeRead_eq hpipe henv hstep
    have hdequeued := (h.dequeue hpipe hqueue).setUnaccepted task
    -- the connection is off the queue, and its slot changes
    have htouch : TcpServer.Touches socket.connection (s.tcp.setTask task
        { s.tcp.m_ioTasks task with m_pendingConns := behind }) tcp := by
      simp only [TcpServer.step, TcpServer.handlePipeRead_eq hqueue hslot] at htcp
      split at htcp
      · cases htcp
      cases htcp
      apply TcpServer.touches_receiveSocket _ hused hquiet
      exact hslot
    have hdone := hdequeued.touch htouch fun t hin => hfree t ?_
    · refine ⟨hdone.used, hdone.inStep, hdone.nodup, hdone.waiting, hdone.ids, hdone.accepted, ?_⟩
      intro p hp
      rcases List.mem_append.mp hp with hold | hnew
      · exact h.paired p hold
      · split at hnew
        · exact hmeet p ((List.mem_append.mp hnew).elim id id)
        · cases hnew
    · have hin' : socket.connection ∈ ((s.tcp.setTask task { s.tcp.m_ioTasks task with
          m_pendingConns := behind }).m_ioTasks t).m_pendingConns := hin
      split
      · rename_i ht
        rw [ht, TcpServer.setTask_self] at hin'
        exact hin'
      · rename_i ht
        rw [TcpServer.setTask_ne _ ht] at hin'
        exact hin'

/-- **One undisturbed step keeps the queues and the pipes in step.** -/
theorem Inv.step (h : s.Inv) {e : Event} (he : s.Undisturbed e) (hstep : s.step e = some s') :
    s'.Inv := by
  cases e with
  | newConnection status tcpInit accept =>
    obtain ⟨tcp, htcp, rfl⟩ := Option.map_eq_some_iff.mp hstep
    simp only [TcpServer.step] at htcp
    split at htcp
    · cases htcp
    rename_i hidle
    cases htcp
    exact h.newConnection (by simpa using hidle) status tcpInit accept
  | handOver allocated write2 =>
    obtain ⟨rfl, rfl⟩ := he
    cases hover : s.tcp.handingOver with
    | none => simp [HandOver.step, hover] at hstep
    | some index =>
      simp [HandOver.step, TcpServer.step, TcpServer.handOver, hover] at hstep
      cases hstep
      exact h.handOver hover
  -- excluded by the condition
  | writeError task position => cases he
  -- the pipe brings a socket, or nothing
  | pipeRead task brings env =>
    cases brings with
    | false => exact h.pipeRead_none he hstep
    | true => exact h.pipeRead he hstep
  -- the slot is closed and left to `notifyDisconnect`
  | readError index =>
    obtain ⟨tcp, htcp, rfl⟩ := Option.map_eq_some_iff.mp hstep
    simp only [TcpServer.step] at htcp
    split at htcp
    · cases htcp
    rename_i connData hslot
    split at htcp
    · rename_i hcond
      rw [Bool.and_eq_true] at hcond
      cases htcp
      -- a slot that is read is in no queue
      have hset := TcpServer.touches_setSlot (s := s.tcp) hslot
        { connData with m_isUsed := false, extension := ⟨false⟩ } (by rintro ⟨⟩)
      have hclosed : s.tcp.Touches index ((s.tcp.setSlot index { connData with
          m_isUsed := false, extension := ⟨false⟩ }).setTask (index % s.tcp.m_concurrency)
          { s.tcp.m_ioTasks (index % s.tcp.m_concurrency) with disconnecting := some index }) := by
        refine ⟨fun t => ?_, rfl, rfl, hset.others, hset.used⟩
        by_cases ht : t = index % s.tcp.m_concurrency
        · rw [ht, TcpServer.setTask_self]
        · rw [TcpServer.setTask_ne _ ht]
          rfl
      exact h.touch hclosed (h.not_pending hslot (.inr hcond.1))
    · cases htcp
  -- only the note of the task is taken back
  | notifyDisconnect task =>
    obtain ⟨tcp, htcp, rfl⟩ := Option.map_eq_some_iff.mp hstep
    simp only [TcpServer.step] at htcp
    split at htcp
    · cases htcp
    rename_i index hindex
    cases htcp
    have hqueue : ∀ t, ((s.tcp.setTask task { s.tcp.m_ioTasks task with
        disconnecting := none }).m_ioTasks t).m_pendingConns =
          (s.tcp.m_ioTasks t).m_pendingConns := by
      intro t
      by_cases ht : t = task
      · rw [ht, TcpServer.setTask_self]
      · rw [TcpServer.setTask_ne _ ht]
    have hpending : ∀ t, pending { s with tcp := { s.tcp.setTask task { s.tcp.m_ioTasks task with
        disconnecting := none } with calls := s.tcp.calls ++ [.onDisconnect index] } } t =
          s.pending t := hqueue
    refine ⟨h.used, fun t => ?_, fun t => ?_, fun t j hj => ?_, h.ids, h.accepted, h.paired⟩
    · rw [hpending]
      exact h.inStep t
    · rw [hpending]
      exact h.nodup t
    · rw [hpending] at hj
      exact h.waiting t j hj

/-! ## §5 Every socket meets its connection -/

/-- In step, everything that is asked of the hand-over holds. -/
theorem Inv.keepsConnections (h : s.Inv) : s.KeepsConnections where
  once := h.nodup
  apart task other hne index hin hin' :=
    hne ((h.waiting task index hin).1.symm.trans (h.waiting other index hin').1)
  paired := h.paired
  met task env hpipe := by
    obtain ⟨socket, rest, hsocket⟩ := List.exists_cons_of_ne_nil hpipe
    obtain ⟨behind, connData, hqueue, hslot, -⟩ := h.meets hsocket
    exact ⟨_, TcpServer.handlePipeRead_eq hqueue hslot env⟩

end HandOver

open HandOver in
/-- **Every socket meets its own connection**, in every run in which each queued connection gets its
    socket through the pipe and no callback without a socket finds a connection in the queue. -/
theorem sockets_keep_connections (maxConnections concurrency : Nat) (events : List HandOver.Event)
    (s : HandOver)
    (hrun : RunsWith (stepOf HandOver.step) Undisturbed (.start maxConnections concurrency)
      events s) : s.KeepsConnections := by
  have hinv := hrun.invariant HandOver.Inv (fun _ _ _ hs he hstep => hs.step he hstep)
    (start_inv maxConnections concurrency)
  exact hinv.keepsConnections

/-- Two connections go over, of which the second is lost with a failed read, and a third one takes
    its slot. -/
theorem sockets_keep_connections_three :
    ∃ s, RunsWith (stepOf HandOver.step) HandOver.Undisturbed (.start 2 1)
      [.newConnection true true true, .handOver true true,
        .newConnection true true true, .handOver true true,
        .pipeRead 0 true ⟨true, true, true, true, true, true, true⟩,
        .pipeRead 0 true ⟨false, true, true, true, true, true, true⟩,
        .newConnection true true true, .handOver true true,
        .pipeRead 0 true ⟨true, true, true, true, true, true, true⟩] s ∧
      s.pairings.map Pairing.connection = [0, 0, 1, 1] ∧ s.KeepsConnections := by
  have hrun : ∃ s, RunsWith (stepOf HandOver.step) HandOver.Undisturbed (.start 2 1)
      [.newConnection true true true, .handOver true true,
        .newConnection true true true, .handOver true true,
        .pipeRead 0 true ⟨true, true, true, true, true, true, true⟩,
        .pipeRead 0 true ⟨false, true, true, true, true, true, true⟩,
        .newConnection true true true, .handOver true true,
        .pipeRead 0 true ⟨true, true, true, true, true, true, true⟩] s ∧
      s.pairings.map Pairing.connection = [0, 0, 1, 1] :=
    ⟨_, runsWith_of_runWhere (f := HandOver.step) (P := HandOver.Undisturbed) rfl, rfl⟩
  obtain ⟨s, hs, hpairings⟩ := hrun
  exact ⟨s, hs, hpairings, sockets_keep_connections 2 1 _ s hs⟩

/-- The first `uv_write2` fails: its connection is free again and stays in the queue.  The next
    connection takes the same slot, which is then in the queue twice; and when it has been read, the
    third socket meets the slot of the second, which is still in use by it. -/
theorem failed_write_shifts_pairing :
    ∃ s t, RunsWith (stepOf HandOver.step) (fun _ _ => True) (.start 2 1)
        [.newConnection true true true, .handOver true false, .newConnection true true true] s ∧
      s.pending 0 = [0, 0] ∧
      RunsWith (stepOf HandOver.step) (fun _ _ => True) s
        [.handOver true true, .pipeRead 0 true ⟨true, true, true, true, true, true, true⟩,
          .newConnection true true true, .handOver true true,
          .pipeRead 0 true ⟨true, true, true, true, true, true, true⟩] t ∧
      (∃ p ∈ t.pairings, p.socket.connection = 1 ∧ p.connection = 0) ∧
      ¬ s.KeepsConnections ∧ ¬ t.KeepsConnections := by
  refine ⟨_, _, runsWith_of_runWhere (f := HandOver.step) (P := fun _ _ => True) rfl, rfl,
    runsWith_of_runWhere (f := HandOver.step) (P := fun _ _ => True) rfl, ?_, ?_, ?_⟩
  · exact ⟨⟨⟨1, 2⟩, 0, 1, true⟩, by decide, rfl, rfl⟩
  · exact fun h => absurd (h.once 0) (by decide)
  · exact fun h => absurd (h.paired ⟨⟨1, 2⟩, 0, 1, true⟩ (by decide)) (by decide)

end Commutil.Transport
