import Commutil.Transport.StreamClient

/-!
# Closing the Transport Handle of a Client

`uv_close` on `m_transport` is called by `onRead` and `onWrite` of `data_client.cpp` on an
error, by `stopTransport`, and by `walk_and_close` of `transport.cpp` when the loop has been
stopped.  The handlers are those of `StreamClient`; here they meet a handle with writes under
way.

A handle that is being closed completes the writes that are left with an error, and only
then its close callback is called.  To close it once more is fatal.

- `Inv.step`: a handle that is closed with no write under way stays quiet
- `Doomed.step`: a handle that is closed with writes under way is closed again
- `closes_once_iff`: which of the two happens is decided when `uv_close` is called
-/

namespace Commutil.Transport

open Commutil.Library

/-! ## §1 The handle -/

/-- A libuv handle that was opened; `notifies` says whether its close callback is
    `onCloseStatic`. -/
inductive HandlePhase where
  | opened
  | closing (notifies : Bool)
  | closed (notifies : Bool)
  /-- `uv_close` on a handle that is closing, or on a null handle. -/
  | fatal
  deriving DecidableEq, Repr

/-- The transport of a client: the handle, whether `m_transport` still points to it, the writes that
    libuv has yet to complete, and what the handlers did so far. -/
structure ClientTransport where
  handle : HandlePhase
  m_transport : Bool
  outstanding : Nat
  actions : List ClientAction
  deriving DecidableEq, Repr

/-- What happens to the transport. -/
inductive TransportEvent where
  /-- `uv_write` accepts a buffer. -/
  | write
  | read (nread : Int)
  /-- A write completes. -/
  | written (status : Int)
  /-- `DataClient::stopTransport`. -/
  | stopTransport
  /-- `walk_and_close` comes to the handle. -/
  | walkAndClose
  /-- The close callback. -/
  | closed
  deriving DecidableEq, Repr

namespace ClientTransport

/-- A connected client with a number of writes under way. -/
def connected (outstanding : Nat) : ClientTransport := ⟨.opened, true, outstanding, []⟩

/-- The handle after `uv_close`. -/
def uvClose (notifies : Bool) : HandlePhase → HandlePhase
  | .opened => .closing notifies
  -- libuv asserts that a handle is closed once
  | .closing _ | .closed _ | .fatal => .fatal

/-- A handler has done its work. -/
def perform (s : ClientTransport) (actions : List ClientAction) : ClientTransport :=
  { s with
    actions := s.actions ++ actions
    handle := if .close ∈ actions then uvClose true s.handle else s.handle }

/-- One event, if it is possible: a handle that is not open is not read from or written to, and the
    writes left over complete with an error, before the close callback. -/
def step (s : ClientTransport) : TransportEvent → Option ClientTransport
  | .write => if s.handle = .opened then some { s with outstanding := s.outstanding + 1 } else none
  | .read nread =>
    if s.handle = .opened then some (s.perform (DataStreamClient.onRead nread)) else none
  | .written status =>
    match s.handle, s.outstanding with
    | .opened, outstanding + 1 =>
      some (perform { s with outstanding } (DataStreamClient.onWrite status))
    -- a write left over completes with an error, which closes again
    | .closing _, outstanding + 1 =>
      if status < 0 then some (perform { s with outstanding } (DataStreamClient.onWrite status))
      else none
    | _, _ => none
  | .stopTransport =>
    if s.handle = .fatal then none
    -- the pointer is null from here on
    else if s.m_transport then some { s.perform [.close] with m_transport := false }
    else some s
  | .walkAndClose =>
    match s.handle with
    | .opened =>
      some { s with handle := uvClose false s.handle, actions := s.actions ++ [.close] }
    | .closing _ | .closed _ => some s
    | .fatal => none
  | .closed =>
    match s.handle, s.outstanding with
    -- only a close by the client itself has its callback
    | .closing true, 0 =>
      some { s.perform DataStreamClient.onClose with handle := .closed true }
    | .closing false, 0 => some { s with handle := .closed false }
    | _, _ => none

/-! ## §2 What is asked of the client -/

/-- **What is asked of the client**: `uv_close` has been called once at most, and the listener was
    told of the disconnect once, when the connection that was lost is closed. -/
structure ClosesOnce (s : ClientTransport) : Prop where
  close_le : s.actions.count .close ≤ 1
  disconnect_eq : s.actions.count .onDisconnect = if s.handle = .closed true then 1 else 0

/-- libuv has nothing left to do for the handle. -/
def Settled (s : ClientTransport) : Prop := ∀ notifies, s.handle ≠ .closing notifies

/-- No other write is under way when `uv_close` is called, and the handle is open. -/
def ClosedAlone (s : ClientTransport) : TransportEvent → Prop
  | .read nread => nread < 0 → s.outstanding = 0
  | .written status => status < 0 → s.handle = .opened ∧ s.outstanding = 1
  | .stopTransport => s.m_transport = true → s.handle = .opened ∧ s.outstanding = 0
  | .walkAndClose => s.handle = .opened → s.outstanding = 0
  | .write | .closed => True

instance (s : ClientTransport) (e : TransportEvent) : Decidable (s.ClosedAlone e) := by
  cases e <;> unfold ClosedAlone <;> infer_instance

/-- What holds while every `uv_close` comes alone. -/
structure Inv (s : ClientTransport) : Prop where
  close_eq : s.actions.count .close = if s.handle = .opened then 0 else 1
  disconnect_eq : s.actions.count .onDisconnect = if s.handle = .closed true then 1 else 0
  alone : s.handle ≠ .opened → s.outstanding = 0
  survives : s.handle ≠ .fatal

/-- The handle was closed too early: it has been closed again, or a write that will fail does it. -/
def Doomed (s : ClientTransport) : Prop :=
  1 < s.actions.count .close ∧ s.handle = .fatal ∨
    (∃ notifies, s.handle = .closing notifies) ∧ 0 < s.outstanding ∧
      0 < s.actions.count .close

theorem connected_inv (outstanding : Nat) : Inv (connected outstanding) :=
  ⟨rfl, rfl, fun h => absurd rfl h, nofun⟩

theorem Inv.closesOnce {s : ClientTransport} (h : s.Inv) : s.ClosesOnce where
  close_le := by
    rw [h.close_eq]
    split <;> decide
  disconnect_eq := h.disconnect_eq

/-! ## §3 What a handler does to the handle -/

/-- A handler of a read or a write: it closes the handle once on an error, and does not touch it
    otherwise. -/
structure ClosesIf (failed : Prop) [Decidable failed] (actions : List ClientAction) : Prop where
  close_eq : actions.count .close = if failed then 1 else 0
  disconnect_eq : actions.count .onDisconnect = 0

theorem onRead_closesIf (nread : Int) : ClosesIf (nread < 0) (DataStreamClient.onRead nread) := by
  unfold DataStreamClient.onRead
  split
  · rename_i hneg
    exact ⟨(if_pos hneg).symm, rfl⟩
  · rename_i hneg
    split
    · exact ⟨(if_neg hneg).symm, rfl⟩
    · exact ⟨(if_neg hneg).symm, rfl⟩

theorem onWrite_closesIf (status : Int) :
    ClosesIf (status < 0) (DataStreamClient.onWrite status) := by
  unfold DataStreamClient.onWrite
  split
  · rename_i hneg
    exact ⟨(if_pos hneg).symm, rfl⟩
  · rename_i hneg
    exact ⟨(if_neg hneg).symm, rfl⟩

section Handlers

variable {failed : Prop} [Decidable failed] {actions : List ClientAction} {s : ClientTransport}

theorem ClosesIf.perform_quiet (h : ClosesIf failed actions) (hok : ¬ failed) :
    s.perform actions = { s with actions := s.actions ++ actions } := by
  have hnot : .close ∉ actions := by
    apply List.count_eq_zero.mp
    rw [h.close_eq, if_neg hok]
  simp only [perform, hnot, if_false]

theorem ClosesIf.perform_close (h : ClosesIf failed actions) (hfailed : failed) :
    s.perform actions =
      { s with actions := s.actions ++ actions, handle := uvClose true s.handle } := by
  have hmem : .close ∈ actions := by
    apply List.count_pos_iff.mp
    rw [h.close_eq, if_pos hfailed]
    exact Nat.one_pos
  simp only [perform, hmem, if_true]

/-- A handler that meets an open handle, and closes it only if no write is under way. -/
theorem Inv.perform (h : s.Inv) (hact : ClosesIf failed actions) (hopened : s.handle = .opened)
    (halone : failed → s.outstanding = 0) : Inv (s.perform actions) := by
  have hclose := h.close_eq
  have hdisconnect := h.disconnect_eq
  rw [hopened] at hclose hdisconnect
  by_cases hfailed : failed
  · rw [hact.perform_close hfailed, hopened]
    refine ⟨?_, ?_, fun _ => halone hfailed, nofun⟩
    · simp [List.count_append, hclose, hact.close_eq, hfailed, uvClose]
    · simp [List.count_append, hdisconnect, hact.disconnect_eq, uvClose]
  · rw [hact.perform_quiet hfailed]
    refine ⟨?_, ?_, fun hnot => absurd hopened hnot, h.survives⟩
    · simp [List.count_append, hclose, hact.close_eq, hfailed, hopened]
    · simp [List.count_append, hdisconnect, hact.disconnect_eq, hopened]

/-- A handler that closes an open handle with writes under way. -/
theorem doomed_perform (hact : ClosesIf failed actions) (hfailed : failed)
    (hopened : s.handle = .opened) (hbusy : 0 < s.outstanding) : Doomed (s.perform actions) := by
  rw [hact.perform_close hfailed, hopened]
  refine .inr ⟨⟨true, rfl⟩, hbusy, ?_⟩
  simp [List.count_append, hact.close_eq, hfailed]

/-- A handler that closes a handle for the second time. -/
theorem doomed_again (hact : ClosesIf failed actions) (hfailed : failed)
    (hclosed : uvClose true s.handle = .fatal) (hbefore : 0 < s.actions.count .close) :
    Doomed (s.perform actions) := by
  rw [hact.perform_close hfailed, hclosed]
  refine .inl ⟨?_, rfl⟩
  simp [List.count_append, hact.close_eq, hfailed, hbefore]

end Handlers

/-! ## §4 A close that comes alone, and one that does not -/

variable {s s' : ClientTransport} {e : TransportEvent}

/-- `stopTransport` calls `uv_close` and nothing else. -/
theorem stop_closesIf : ClosesIf True [ClientAction.close] := ⟨rfl, rfl⟩

/-- **A step that closes alone keeps the invariant.** -/
theorem Inv.step (h : s.Inv) (he : s.ClosedAlone e) (hstep : s.step e = some s') : s'.Inv := by
  cases e with
  | write =>
    simp only [ClientTransport.step] at hstep
    split at hstep
    · rename_i hopened
      cases hstep
      exact ⟨h.close_eq, h.disconnect_eq, fun hnot => absurd hopened hnot, h.survives⟩
    · cases hstep
  -- a read closes the handle if it is an error
  | read nread =>
    simp only [ClientTransport.step] at hstep
    split at hstep
    · rename_i hopened
      cases hstep
      exact h.perform (onRead_closesIf nread) hopened he
    · cases hstep
  -- a failed write closes the handle, and then no other write is under way
  | written status =>
    simp only [ClientTransport.step] at hstep
    split at hstep
    · rename_i outstanding hopened hout
      cases hstep
      have hless : Inv { s with outstanding } :=
        ⟨h.close_eq, h.disconnect_eq, fun hnot => absurd hopened hnot, h.survives⟩
      refine hless.perform (onWrite_closesIf status) hopened fun hneg => ?_
      have hone := (he hneg).2
      rw [hout] at hone
      exact Nat.succ.inj hone
    · -- a handle that is closing has no write left
      rename_i notifies outstanding hclosing hout
      have hzero := h.alone (by rw [hclosing]; nofun)
      rw [hout] at hzero
      cases hzero
    · cases hstep
  -- `stop` closes the handle of a transport that is open
  | stopTransport =>
    simp only [ClientTransport.step] at hstep
    split at hstep
    · cases hstep
    split at hstep
    · rename_i htransport
      cases hstep
      obtain ⟨hopened, hidle⟩ := he htransport
      have hdone := h.perform stop_closesIf hopened fun _ => hidle
      exact ⟨hdone.close_eq, hdone.disconnect_eq, hdone.alone, hdone.survives⟩
    · cases hstep
      exact h
  -- the walk closes what is still open
  | walkAndClose =>
    simp only [ClientTransport.step] at hstep
    split at hstep
    · rename_i hopened
      cases hstep
      have hclose := h.close_eq
      have hdisconnect := h.disconnect_eq
      rw [hopened] at hclose hdisconnect
      refine ⟨?_, ?_, fun _ => he hopened, ?_⟩
      · simp [List.count_append, hclose, hopened, uvClose]
      · simp [List.count_append, hdisconnect, hopened, uvClose]
      · simp [hopened, uvClose]
    · cases hstep
      exact h
    · cases hstep
      exact h
    · cases hstep
  -- the close callback comes when no write is left
  | closed =>
    simp only [ClientTransport.step] at hstep
    have hclose := h.close_eq
    have hdisconnect := h.disconnect_eq
    split at hstep
    · rename_i hclosing hout
      rw [hclosing] at hclose hdisconnect
      cases hstep
      refine ⟨?_, ?_, fun _ => hout, nofun⟩
      · simp [ClientTransport.perform, DataStreamClient.onClose, List.count_append, hclose]
      · simp [ClientTransport.perform, DataStreamClient.onClose, List.count_append, hdisconnect]
    · rename_i hclosing hout
      rw [hclosing] at hclose hdisconnect
      cases hstep
      exact ⟨hclose, hdisconnect, fun _ => hout, nofun⟩
    · cases hstep

/-- **A step that does not close alone dooms the handle.** -/
theorem Inv.doomed (h : s.Inv) (he : ¬ s.ClosedAlone e) (hstep : s.step e = some s') :
    s'.Doomed := by
  -- a handle that is not open has been closed once
  have hclosed : s.handle ≠ .opened → 0 < s.actions.count .close := by
    intro hnot
    rw [h.close_eq, if_neg hnot]
    exact Nat.one_pos
  cases e with
  | write => exact absurd trivial he
  -- a read error while writes are under way
  | read nread =>
    obtain ⟨hneg, hbusy⟩ := Classical.not_imp.mp he
    simp only [ClientTransport.step] at hstep
    split at hstep
    · rename_i hopened
      cases hstep
      exact doomed_perform (onRead_closesIf nread) hneg hopened (Nat.pos_of_ne_zero hbusy)
    · cases hstep
  -- a failed write that is not the last
  | written status =>
    obtain ⟨hneg, hnot⟩ := Classical.not_imp.mp he
    simp only [ClientTransport.step] at hstep
    split at hstep
    · rename_i outstanding hopened hout
      cases hstep
      have hbusy : outstanding ≠ 0 := fun hzero =>
        hnot ⟨hopened, hout.trans (congrArg (· + 1) hzero)⟩
      exact doomed_perform (onWrite_closesIf status) hneg hopened (Nat.pos_of_ne_zero hbusy)
    · rename_i notifies outstanding hclosing hout
      have hzero := h.alone (by rw [hclosing]; nofun)
      rw [hout] at hzero
      cases hzero
    · cases hstep
  -- `stop` while writes are under way, or on a handle that is closing
  | stopTransport =>
    obtain ⟨htransport, hnot⟩ := Classical.not_imp.mp he
    simp only [ClientTransport.step] at hstep
    split at hstep
    · cases hstep
    cases hstep
    have hdoomed : Doomed (s.perform [.close]) := by
      cases hhandle : s.handle with
      | opened =>
        have hbusy : s.outstanding ≠ 0 := fun hzero => hnot ⟨hhandle, hzero⟩
        exact doomed_perform stop_closesIf trivial hhandle (Nat.pos_of_ne_zero hbusy)
      | closing notifies =>
        exact doomed_again stop_closesIf trivial (by rw [hhandle]; rfl)
          (hclosed (by rw [hhandle]; nofun))
      | closed notifies =>
        exact doomed_again stop_closesIf trivial (by rw [hhandle]; rfl)
          (hclosed (by rw [hhandle]; nofun))
      | fatal => exact absurd hhandle h.survives
    exact hdoomed
  -- the walk closes a handle with writes under way
  | walkAndClose =>
    obtain ⟨hopened, hbusy⟩ := Classical.not_imp.mp he
    simp only [ClientTransport.step, hopened] at hstep
    cases hstep
    refine .inr ⟨⟨false, rfl⟩, Nat.pos_of_ne_zero hbusy, ?_⟩
    simp [List.count_append]
  | closed => exact absurd trivial he

/-- What is doomed stays doomed, whatever comes. -/
theorem Doomed.step (h : s.Doomed) (hstep : s.step e = some s') : s'.Doomed := by
  rcases h with ⟨hclose, hfatal⟩ | ⟨⟨notifies, hclosing⟩, hbusy, hclose⟩
  · -- nothing happens after a fatal error
    cases e <;> simp [ClientTransport.step, hfatal] at hstep
  · obtain ⟨outstanding, hout⟩ := Nat.exists_eq_add_one.mpr hbusy
    have hagain : uvClose true s.handle = .fatal := by rw [hclosing]; rfl
    cases e with
    | write => simp [ClientTransport.step, hclosing] at hstep
    | read nread => simp [ClientTransport.step, hclosing] at hstep
    | written status =>
      simp only [ClientTransport.step, hclosing, hout] at hstep
      split at hstep
      · rename_i hneg
        cases hstep
        have hdoomed := doomed_again (s := { s with outstanding }) (onWrite_closesIf status) hneg
          hagain hclose
        exact hclosing ▸ hdoomed
      · cases hstep
    | stopTransport =>
      simp only [ClientTransport.step, hclosing] at hstep
      rw [if_neg (by nofun)] at hstep
      split at hstep
      · cases hstep
        have hdoomed := doomed_again (s := s) stop_closesIf trivial hagain hclose
        exact hdoomed
      · cases hstep
        exact .inr ⟨⟨notifies, hclosing⟩, hbusy, hclose⟩
    | walkAndClose =>
      simp only [ClientTransport.step, hclosing] at hstep
      cases hstep
      exact .inr ⟨⟨notifies, hclosing⟩, hbusy, hclose⟩
    | closed =>
      cases notifies <;> simp [ClientTransport.step, hclosing, hout] at hstep

/-! ## §5 The client closes its handle once -/

/-- A run from a quiet handle either closes alone all the way, or dooms the handle. -/
theorem run_alone_or_doomed {events : List TransportEvent}
    (hrun : RunsWith (stepOf step) (fun _ _ => True) s events s') (h : s.Inv) :
    RunsWith (stepOf step) ClosedAlone s events s' ∨ s'.Doomed := by
  induction hrun with
  | nil s => exact .inl (.nil s)
  | @cons s t u e events _ hstep hrest ih =>
    by_cases he : s.ClosedAlone e
    · rcases ih (h.step he hstep) with halone | hdoomed
      · exact .inl (.cons he hstep halone)
      · exact .inr hdoomed
    · exact .inr (hrest.invariant Doomed (fun _ _ _ hd _ hs => hd.step hs) (h.doomed he hstep))

/-- **The client closes its handle once** in every state of a run in which each `uv_close` comes
    alone; and in any run after which libuv has nothing left to do, only then. -/
theorem closes_once_iff (outstanding : Nat) (events : List TransportEvent) (s : ClientTransport) :
    (RunsWith (stepOf step) ClosedAlone (connected outstanding) events s → s.ClosesOnce) ∧
      (RunsWith (stepOf step) (fun _ _ => True) (connected outstanding) events s → s.Settled →
        (s.ClosesOnce ↔ RunsWith (stepOf step) ClosedAlone (connected outstanding) events s)) := by
  have halone : RunsWith (stepOf step) ClosedAlone (connected outstanding) events s →
      s.ClosesOnce := by
    intro hrun
    have hinv := hrun.invariant Inv (fun _ _ _ hs he hstep => hs.step he hstep)
      (connected_inv outstanding)
    exact hinv.closesOnce
  refine ⟨halone, fun hrun hsettled => ⟨fun honce => ?_, halone⟩⟩
  rcases run_alone_or_doomed hrun (connected_inv outstanding) with hgood | hdoomed
  · exact hgood
  · rcases hdoomed with ⟨htwice, -⟩ | ⟨⟨notifies, hclosing⟩, -⟩
    · exact absurd honce.close_le (Nat.not_le.mpr htwice)
    · exact absurd hclosing (hsettled notifies)

/-- A write completes, another one fails, and the handle is closed. -/
theorem closes_once_one_write :
    ClosesOnce ⟨.closed true, true, 0,
      [.onBytesSent 0, .onWriteError (-32), .close, .onDisconnect]⟩ ∧
    (ClosesOnce ⟨.closed true, true, 0,
        [.onBytesSent 0, .onWriteError (-32), .close, .onDisconnect]⟩ ↔
      RunsWith (stepOf step) ClosedAlone (connected 1)
        [.write, .written 0, .written (-32), .closed] ⟨.closed true, true, 0,
          [.onBytesSent 0, .onWriteError (-32), .close, .onDisconnect]⟩) := by
  have hrun : RunsWith (stepOf step) ClosedAlone (connected 1)
      [.write, .written 0, .written (-32), .closed] ⟨.closed true, true, 0,
        [.onBytesSent 0, .onWriteError (-32), .close, .onDisconnect]⟩ :=
    runsWith_of_runWhere rfl
  have hany : RunsWith (stepOf step) (fun _ _ => True) (connected 1)
      [.write, .written 0, .written (-32), .closed] ⟨.closed true, true, 0,
        [.onBytesSent 0, .onWriteError (-32), .close, .onDisconnect]⟩ :=
    runsWith_of_runWhere rfl
  exact ⟨(closes_once_iff 1 _ _).1 hrun, (closes_once_iff 1 _ _).2 hany nofun⟩

/-- Two writes are under way when a read fails: the first of them is cancelled by the close, and
    `onWrite` closes the handle again. -/
theorem cancelled_write_closes_again :
    ∃ s, RunsWith (stepOf step) (fun _ _ => True) (connected 2)
        [.read (-104), .written (-125)] s ∧
      s.actions = [.onReadError (-104), .close, .onWriteError (-125), .close] ∧
      s.handle = .fatal ∧ ¬ s.ClosesOnce :=
  ⟨_, runsWith_of_runWhere (f := step) (P := fun _ _ => True) rfl, rfl, rfl,
    fun h => absurd h.close_le (by decide)⟩

end ClientTransport

end Commutil.Transport
