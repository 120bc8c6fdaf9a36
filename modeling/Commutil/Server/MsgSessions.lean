import Commutil.Server.MsgServer
import Mathlib.Data.List.Nodup
import Mathlib.Data.List.ReduceOption

/-!
# Session Lookup

`MsgServer::onConnect`, `onDisconnect`, `getSession` and `terminate` of `msg_server.cpp`,
each taken as a whole.  The handlers are those that the workers of `MsgServer` run in
small steps: a worker that is not interleaved with another one runs exactly these
(`runs_onConnect`, `runs_onDisconnect`).

A `SessionHistory` keeps the calls, with their arguments and what `onConnect` answered, beside
the table.  Which connection has an index follows from the arguments alone (`holder`), and so
does what every `onConnect` is to answer (`HandledCall.Expected`).  With the answers one can say
which session holds a slot without the table (`Holds`).
-/

namespace Commutil.Server

open Commutil.Library
open Commutil.Transport

/-! ## §1 The handlers -/

/-- The session table of `MsgServer` and its id generator. -/
structure SessionTable where
  m_sessions : List (Option MsgSession)
  m_nextSessionId : UInt64
  deriving DecidableEq, Repr

/-- How `onConnect` ends; it returns true if the connection is accepted. -/
inductive ConnectAnswer where
  /-- The connection failed, or its index is active. -/
  | refused
  /-- No session could be created. -/
  | denied
  | accepted (session : MsgSession)
  deriving DecidableEq, Repr

namespace SessionTable

/-- `m_sessions` after `initialize`. -/
def start (maxConnections : UInt32) : SessionTable :=
  ⟨List.replicate maxConnections.toNat none, 0⟩

/-- `MsgServer::onConnect`; `allocated` says whether a session can be allocated. -/
def onConnect (t : SessionTable) (connectionDetails : ConnectionDetails) (status : Int)
    (allocated : Bool) : Except Fault (ConnectAnswer × SessionTable) :=
  if status ≠ 0 then .ok (.refused, t)
  else
    match t.m_sessions[connectionDetails.m_connIndex]? with
    | none => .error .outOfBounds
    | some (some _) => .ok (.refused, t)
    | some none =>
      let sessionId := t.m_nextSessionId
      let t := { t with m_nextSessionId := t.m_nextSessionId + 1 }
      if allocated then
        let session := MsgSession.create sessionId connectionDetails
        .ok (.accepted session,
          { t with m_sessions := t.m_sessions.set connectionDetails.m_connIndex (some session) })
      else .ok (.denied, t)

/-- `MsgServer::onDisconnect`: the session that is deleted. -/
def onDisconnect (t : SessionTable) (connectionDetails : ConnectionDetails) :
    Except Fault (Option MsgSession × SessionTable) :=
  match t.m_sessions[connectionDetails.m_connIndex]? with
  | none => .error .outOfBounds
  | some none => .ok (none, t)
  | some (some session) =>
    .ok (some session,
      { t with m_sessions := t.m_sessions.set connectionDetails.m_connIndex none })

/-- `MsgServer::getSession`: the result and the session it leaves in the out parameter. -/
def getSession (t : SessionTable) (connectionDetails : ConnectionDetails) :
    ErrorCode × Option MsgSession :=
  match t.m_sessions[connectionDetails.m_connIndex]? with
  | none => (.invalidConnection, none)
  | some none => (.sessionNotFound, none)
  | some (some session) =>
    if session.m_connectionId ≠ connectionDetails.m_connId then (.sessionStale, some session)
    else (.ok, some session)

/-- `MsgServer::terminate`, with the result of terminating the data server (the assembler and the
    multiplexer always terminate): the sessions that are deleted. -/
def terminate (t : SessionTable) (dataServer : ErrorCode) :
    ErrorCode × List MsgSession × SessionTable :=
  if dataServer ≠ .ok then (dataServer, [], t)
  else (.ok, t.m_sessions.reduceOption, { t with m_sessions := [] })

end SessionTable

/-! ## §2 The handlers as the workers run them -/

namespace MsgServer

/-- The session table of a server. -/
def table (s : MsgServer) : SessionTable := ⟨s.m_sessions, s.m_nextSessionId⟩

variable {s : MsgServer} {worker : Nat} {connectionDetails : ConnectionDetails}

/-- Some steps of one worker, with nothing in between. -/
def RunsAlone (s : MsgServer) (worker : Nat) (allocated : Bool) (s' : MsgServer) : Prop :=
  ∃ n, RunsWith (stepOf step) (fun _ _ => True) s
    (List.replicate n (.listener worker allocated)) s'

theorem RunsAlone.refl (s : MsgServer) (worker : Nat) (allocated : Bool) :
    RunsAlone s worker allocated s := ⟨0, .nil s⟩

theorem RunsAlone.step {s₁ s₂ s₃ : MsgServer} {allocated : Bool}
    (h : s₁.listenerStep worker allocated = some s₂) (hrest : RunsAlone s₂ worker allocated s₃) :
    RunsAlone s₁ worker allocated s₃ := by
  obtain ⟨n, hn⟩ := hrest
  exact ⟨n + 1, .cons trivial h hn⟩

/-- From `create` on, a worker alone takes an id and, if a session is allocated, stores it. -/
private theorem runs_create (hpc : s.workers worker = .create connectionDetails)
    (allocated : Bool) :
    ∃ s', RunsAlone s worker allocated s' ∧ s'.workers worker = .returned ∧
      s'.table = ⟨if allocated then
          s.m_sessions.set connectionDetails.m_connIndex
            (some (.create s.m_nextSessionId connectionDetails))
        else s.m_sessions, s.m_nextSessionId + 1⟩ := by
  cases allocated with
  | false =>
    have hstep : s.listenerStep worker false =
        some ({ s with m_nextSessionId := s.m_nextSessionId + 1 }.setWorker worker .returned) := by
      simp only [listenerStep, hpc]
      rfl
    exact ⟨_, .step hstep (.refl _ _ _), setWorker_self _, rfl⟩
  | true =>
    obtain ⟨session, hsession⟩ :
        ∃ session, session = MsgSession.create s.m_nextSessionId connectionDetails := ⟨_, rfl⟩
    have hstep : s.listenerStep worker true =
        some ({ s with m_nextSessionId := s.m_nextSessionId + 1 }.setWorker worker
          (.store connectionDetails session)) := by
      simp only [listenerStep, hpc, hsession]
      rfl
    obtain ⟨s₁, hs₁⟩ : ∃ s₁, s₁ = { s with m_nextSessionId := s.m_nextSessionId + 1 }.setWorker
        worker (.store connectionDetails session) := ⟨_, rfl⟩
    have hstore : s₁.listenerStep worker true =
        some { s₁.setWorker worker .returned with
          m_sessions := s₁.m_sessions.set connectionDetails.m_connIndex (some session) } := by
      have hpc₁ : s₁.workers worker = .store connectionDetails session := by
        rw [hs₁]
        exact setWorker_self _
      simp only [listenerStep, hpc₁]
    rw [← hs₁] at hstep
    refine ⟨_, .step hstep (.step hstore (.refl _ _ _)), setWorker_self _, ?_⟩
    simp only [table, setWorker, hs₁, hsession, if_true]

/-- A worker that runs `onConnect` alone does what the handler does as a whole. -/
theorem runs_onConnect (hpc : s.workers worker = .onConnect connectionDetails) {allocated : Bool}
    {answer : ConnectAnswer} {t : SessionTable}
    (h : s.table.onConnect connectionDetails 0 allocated = .ok (answer, t)) :
    ∃ s', RunsAlone s worker allocated s' ∧ s'.workers worker = .returned ∧ s'.table = t := by
  simp only [SessionTable.onConnect, table, ne_eq, not_true_eq_false, if_false] at h
  split at h
  · cases h
  · rename_i session hslot
    cases h
    have hload : s.listenerStep worker allocated = some (s.setWorker worker .returned) := by
      simp only [listenerStep, hpc, hslot]
    exact ⟨_, .step hload (.refl _ _ _), setWorker_self _, rfl⟩
  · rename_i hslot
    have hload : s.listenerStep worker allocated =
        some (s.setWorker worker (.create connectionDetails)) := by
      simp only [listenerStep, hpc, hslot]
    obtain ⟨s', hrun, hpc', htable⟩ := @runs_create (s.setWorker worker (.create connectionDetails))
      worker connectionDetails (setWorker_self _) allocated
    refine ⟨s', .step hload hrun, hpc', ?_⟩
    rw [htable]
    cases allocated with
    | false =>
      simp only [Bool.false_eq_true, if_false] at h
      cases h
      rfl
    | true =>
      cases h
      rfl

/-- A worker that runs `onDisconnect` alone does what the handler does as a whole. -/
theorem runs_onDisconnect (hpc : s.workers worker = .onDisconnect connectionDetails)
    {deleted : Option MsgSession} {t : SessionTable}
    (h : s.table.onDisconnect connectionDetails = .ok (deleted, t)) (allocated : Bool) :
    ∃ s', RunsAlone s worker allocated s' ∧ s'.workers worker = .returned ∧ s'.table = t := by
  simp only [SessionTable.onDisconnect, table] at h
  split at h
  · cases h
  · rename_i hslot
    cases h
    have hload : s.listenerStep worker allocated = some (s.setWorker worker .returned) := by
      simp only [listenerStep, hpc, hslot]
    exact ⟨_, .step hload (.refl _ _ _), setWorker_self _, rfl⟩
  · rename_i session hslot
    cases h
    have hload : s.listenerStep worker allocated =
        some (s.setWorker worker (.clear connectionDetails)) := by
      simp only [listenerStep, hpc, hslot]
    have hclear : (s.setWorker worker (.clear connectionDetails)).listenerStep worker allocated =
        some { (s.setWorker worker (.clear connectionDetails)).setWorker worker .returned with
          m_sessions := s.m_sessions.set connectionDetails.m_connIndex none } := by
      have hpc₁ : (s.setWorker worker (.clear connectionDetails)).workers worker =
          .clear connectionDetails := setWorker_self _
      simp only [listenerStep, hpc₁]
      rfl
    exact ⟨_, .step hload (.step hclear (.refl _ _ _)), setWorker_self _, rfl⟩

end MsgServer

/-! ## §3 Histories -/

/-- A call on the message server. -/
inductive SessionCall where
  | onConnect (connectionDetails : ConnectionDetails) (status : Int) (allocated : Bool)
  | onDisconnect (connectionDetails : ConnectionDetails)
  | getSession (connectionDetails : ConnectionDetails)
  deriving DecidableEq, Repr

/-- The data server raises connects and disconnects for its own connection indices. -/
def SessionCall.InRange (maxConnections : UInt32) : SessionCall → Prop
  | .onConnect connectionDetails _ _ | .onDisconnect connectionDetails =>
    connectionDetails.m_connIndex < maxConnections.toNat
  | .getSession _ => True

instance (maxConnections : UInt32) : ∀ call : SessionCall, Decidable (call.InRange maxConnections)
  | .onConnect connectionDetails _ _ | .onDisconnect connectionDetails =>
    inferInstanceAs (Decidable (connectionDetails.m_connIndex < maxConnections.toNat))
  | .getSession _ => .isTrue trivial

/-- What a call makes of the connection that has an index: a connect that did not fail and for which
    a session is allocated takes the index while it is free, and a disconnect frees it. -/
def holderAfter (index : Nat) (held : Option ConnectionDetails) :
    SessionCall → Option ConnectionDetails
  | .onConnect connectionDetails status allocated =>
    if connectionDetails.m_connIndex = index ∧ status = 0 ∧ held = none ∧ allocated = true then
      some connectionDetails
    else held
  | .onDisconnect connectionDetails =>
    if connectionDetails.m_connIndex = index then none else held
  | .getSession _ => held

/-- The connection that has an index after some calls. -/
def holder (index : Nat) (calls : List SessionCall) : Option ConnectionDetails :=
  calls.foldl (holderAfter index) none

/-- A call and, if it is `onConnect`, its answer. -/
structure HandledCall where
  call : SessionCall
  answer : Option ConnectAnswer
  deriving DecidableEq, Repr

namespace HandledCall

/-- What a call is to answer after some others.  A connect that failed, or for an index that is
    taken, is refused; any other one is accepted, with a session for its own connection, if that
    can be allocated. -/
def Expected (before : List SessionCall) : HandledCall → Prop
  | ⟨.onConnect connectionDetails status allocated, answer⟩ =>
    if status ≠ 0 ∨ (holder connectionDetails.m_connIndex before).isSome then
      answer = some .refused
    else if allocated then
      ∃ session, answer = some (.accepted session) ∧ session.details = connectionDetails
    else answer = some .denied
  | ⟨_, answer⟩ => answer = none

/-- The session that was created. -/
def session (e : HandledCall) : Option MsgSession :=
  match e.answer with
  | some (.accepted session) => some session
  | _ => none

/-- A session id was taken. -/
def takesId (e : HandledCall) : Bool :=
  match e.answer with
  | some (.accepted _) | some .denied => true
  | _ => false

/-- The call put a session into the slot, or was a disconnect on the index. -/
def Concerns (index : Nat) (e : HandledCall) : Prop :=
  match e.call with
  | .onConnect connectionDetails _ _ =>
    connectionDetails.m_connIndex = index ∧ e.session.isSome
  | .onDisconnect connectionDetails => connectionDetails.m_connIndex = index
  | .getSession _ => False

end HandledCall

/-- Every call was answered as what was called before it demands. -/
def Answered (log : List HandledCall) : Prop :=
  ∀ before e, before ++ [e] <+: log → e.Expected (before.map HandledCall.call)

/-- The session was created by the latest accepted connect on the index, and no disconnect on the
    index came since. -/
def Holds (log : List HandledCall) (index : Nat) (session : MsgSession) : Prop :=
  ∃ before connectionDetails status allocated after,
    log = before ++ ⟨.onConnect connectionDetails status allocated,
      some (.accepted session)⟩ :: after ∧
    connectionDetails.m_connIndex = index ∧ ∀ e ∈ after, ¬ e.Concerns index

/-- The sessions created, in order. -/
def created (log : List HandledCall) : List MsgSession := log.filterMap HandledCall.session

/-- How many session ids were taken. -/
def idsTaken (log : List HandledCall) : Nat := log.countP HandledCall.takesId

/-- The session table with the calls that were handled and the sessions that were deleted. -/
structure SessionHistory where
  table : SessionTable
  log : List HandledCall
  deleted : List MsgSession
  deriving DecidableEq, Repr

namespace SessionHistory

def start (maxConnections : UInt32) : SessionHistory := ⟨.start maxConnections, [], []⟩

/-- One call. -/
def perform (s : SessionHistory) (call : SessionCall) : Except Fault SessionHistory :=
  match call with
  | .onConnect connectionDetails status allocated =>
    match s.table.onConnect connectionDetails status allocated with
    | .error fault => .error fault
    | .ok (answer, t) => .ok ⟨t, s.log ++ [⟨call, some answer⟩], s.deleted⟩
  | .onDisconnect connectionDetails =>
    match s.table.onDisconnect connectionDetails with
    | .error fault => .error fault
    | .ok (deleted, t) => .ok ⟨t, s.log ++ [⟨call, none⟩], s.deleted ++ deleted.toList⟩
  | .getSession _ => .ok ⟨s.table, s.log ++ [⟨call, none⟩], s.deleted⟩

/-- The calls, one after another. -/
def performAll (s : SessionHistory) (calls : List SessionCall) : Except Fault SessionHistory :=
  calls.foldlM perform s

end SessionHistory

/-! ## §4 Who holds a slot -/

section Holders

variable {log : List HandledCall} {e : HandledCall} {index : Nat} {session : MsgSession}

theorem not_holds_nil : ¬ Holds [] index session := by
  rintro ⟨before, connectionDetails, status, allocated, after, heq, -⟩
  simp at heq

/-- A call that concerns the slot decides who holds it. -/
theorem holds_concat_of_concerns (h : e.Concerns index) :
    Holds (log ++ [e]) index session ↔ ∃ connectionDetails status allocated,
      e = ⟨.onConnect connectionDetails status allocated, some (.accepted session)⟩ := by
  constructor
  · rintro ⟨before, connectionDetails, status, allocated, after, heq, -, hafter⟩
    -- the call is the last one, so it is the connect or comes after it
    rcases List.eq_nil_or_concat after with rfl | ⟨after', last, rfl⟩
    · exact ⟨connectionDetails, status, allocated,
        (List.cons.inj (List.append_inj' heq rfl).2).1⟩
    · rw [List.concat_eq_append, ← List.cons_append, ← List.append_assoc] at heq
      obtain rfl := (List.cons.inj (List.append_inj' heq rfl).2).1
      exact absurd h (hafter e (by simp))
  · rintro ⟨connectionDetails, status, allocated, rfl⟩
    exact ⟨log, connectionDetails, status, allocated, [], rfl, h.1, fun _ hmem => by cases hmem⟩

/-- Any other call leaves the holder alone. -/
theorem holds_concat_of_not_concerns (h : ¬ e.Concerns index) :
    Holds (log ++ [e]) index session ↔ Holds log index session := by
  constructor
  · rintro ⟨before, connectionDetails, status, allocated, after, heq, hindex, hafter⟩
    rcases List.eq_nil_or_concat after with rfl | ⟨after', last, rfl⟩
    · obtain rfl := (List.cons.inj (List.append_inj' heq rfl).2).1
      exact absurd ⟨hindex, rfl⟩ h
    · rw [List.concat_eq_append, ← List.cons_append, ← List.append_assoc] at heq
      refine ⟨before, connectionDetails, status, allocated, after', (List.append_inj' heq rfl).1,
        hindex, fun e' hmem => ?_⟩
      exact hafter e' (by simp [hmem])
  · rintro ⟨before, connectionDetails, status, allocated, after, rfl, hindex, hafter⟩
    refine ⟨before, connectionDetails, status, allocated, after ++ [e], by simp, hindex,
      fun e' hmem => ?_⟩
    rcases List.mem_append.mp hmem with hold | hnew
    · exact hafter e' hold
    · rw [List.mem_singleton.mp hnew]
      exact h

theorem created_concat (log : List HandledCall) (e : HandledCall) :
    created (log ++ [e]) = created log ++ e.session.toList := by
  unfold created
  rw [List.filterMap_append]
  cases he : e.session <;> simp [he]

theorem idsTaken_concat (log : List HandledCall) (e : HandledCall) :
    idsTaken (log ++ [e]) = idsTaken log + if e.takesId then 1 else 0 := by
  unfold idsTaken
  rw [List.countP_append, List.countP_singleton]

theorem holder_concat (index : Nat) (calls : List SessionCall) (call : SessionCall) :
    holder index (calls ++ [call]) = holderAfter index (holder index calls) call := by
  unfold holder
  rw [List.foldl_append]
  rfl

theorem Answered.concat (h : Answered log) (he : e.Expected (log.map HandledCall.call)) :
    Answered (log ++ [e]) := by
  intro before e' hstarts
  rcases List.prefix_concat_iff.mp hstarts with heq | hbefore
  · obtain ⟨rfl, hlast⟩ := List.append_inj' heq rfl
    obtain rfl := List.singleton_inj.mp hlast
    exact he
  · exact h before e' hbefore

end Holders

/-- Filling an empty slot adds one session. -/
theorem reduceOption_set_some {slots : List (Option MsgSession)} {i : Nat}
    (h : slots[i]? = some none) (session : MsgSession) :
    (slots.set i (some session)).reduceOption.Perm (session :: slots.reduceOption) := by
  induction slots generalizing i with
  | nil => simp at h
  | cons slot rest ih =>
    cases i with
    | zero =>
      obtain rfl : slot = none := by simpa using h
      exact .refl _
    | succ i =>
      have hrest := ih (by simpa using h)
      cases slot with
      | none => exact hrest
      | some other => exact (hrest.cons other).trans (.swap session other _)

/-- Emptying a slot takes its session away. -/
theorem reduceOption_set_none {slots : List (Option MsgSession)} {i : Nat} {session : MsgSession}
    (h : slots[i]? = some (some session)) :
    slots.reduceOption.Perm (session :: (slots.set i none).reduceOption) := by
  induction slots generalizing i with
  | nil => simp at h
  | cons slot rest ih =>
    cases i with
    | zero =>
      obtain rfl : slot = some session := by simpa using h
      exact .refl _
    | succ i =>
      have hrest := ih (by simpa using h)
      cases slot with
      | none => exact hrest
      | some other => exact (hrest.cons other).trans (.swap session other _)

/-! ## §5 Exact lookup -/

namespace SessionHistory

/-- The table agrees with the history. -/
structure Inv (maxConnections : UInt32) (s : SessionHistory) : Prop where
  length_eq : s.table.m_sessions.length = maxConnections.toNat
  /-- A slot contains the session that holds it. -/
  slot_iff : ∀ index session,
    s.table.m_sessions[index]? = some (some session) ↔ Holds s.log index session
  /-- And that session is for the connection that has the index. -/
  slot_details : ∀ (index : Nat) (slot : Option MsgSession),
    s.table.m_sessions[index]? = some slot →
      slot.map MsgSession.details = holder index (s.log.map HandledCall.call)
  answered : Answered s.log
  /-- A created session is deleted, or in the table, and not both. -/
  created_perm : (created s.log).Perm (s.deleted ++ s.table.m_sessions.reduceOption)
  nextId_eq : s.table.m_nextSessionId = UInt64.ofNat (idsTaken s.log)
  /-- The ids of the sessions are ids that were taken, in order. -/
  ids_sublist : List.Sublist ((created s.log).map MsgSession.m_sessionId)
    ((List.range (idsTaken s.log)).map UInt64.ofNat)

variable {maxConnections : UInt32} {s s' : SessionHistory} {e : HandledCall}
  {connectionDetails : ConnectionDetails}

theorem start_inv (maxConnections : UInt32) : Inv maxConnections (start maxConnections) := by
  have hslot : ∀ (index : Nat) (slot : Option MsgSession),
      (start maxConnections).table.m_sessions[index]? = some slot → slot = none :=
    fun index slot h => List.eq_of_mem_replicate (List.mem_of_getElem? h)
  refine ⟨List.length_replicate, fun index session => ?_, fun index slot h => ?_, ?_, ?_, rfl,
    .slnil⟩
  · refine iff_of_false (fun h => ?_) not_holds_nil
    cases hslot index _ h
  · rw [hslot index slot h]
    rfl
  · intro before e hstarts
    cases (List.append_eq_nil_iff.mp (List.prefix_nil.mp hstarts)).2
  · rw [start, SessionTable.start, List.reduceOption_replicate_none]
    exact .refl _

/-- Every slot below the size is there. -/
theorem Inv.slot (h : s.Inv maxConnections) {index : Nat} (hindex : index < maxConnections.toNat) :
    ∃ slot, s.table.m_sessions[index]? = some slot :=
  ⟨_, List.getElem?_eq_getElem (by rw [h.length_eq]; exact hindex)⟩

/-- The next id is the one that the next call takes that takes any. -/
theorem Inv.nextId_succ (h : s.Inv maxConnections) :
    s.table.m_nextSessionId + 1 = UInt64.ofNat (idsTaken s.log + 1) ∧
    (List.range (idsTaken s.log + 1)).map UInt64.ofNat =
      (List.range (idsTaken s.log)).map UInt64.ofNat ++ [s.table.m_nextSessionId] := by
  rw [h.nextId_eq, UInt64.ofNat_add, List.range_succ, List.map_append]
  exact ⟨rfl, rfl⟩

/-- **A call that leaves the slots alone** creates no session, and takes an id or not. -/
private theorem Inv.kept (h : s.Inv maxConnections)
    (hexpected : e.Expected (s.log.map HandledCall.call)) (hsession : e.session = none)
    (hconcerns : ∀ index, ¬ e.Concerns index)
    (hholder : ∀ index, holderAfter index (holder index (s.log.map HandledCall.call)) e.call =
      holder index (s.log.map HandledCall.call)) :
    Inv maxConnections ⟨⟨s.table.m_sessions, if e.takesId then s.table.m_nextSessionId + 1
      else s.table.m_nextSessionId⟩, s.log ++ [e], s.deleted⟩ := by
  have hcreated : created (s.log ++ [e]) = created s.log := by
    rw [created_concat, hsession]
    exact List.append_nil _
  obtain ⟨hnext, hrange⟩ := h.nextId_succ
  refine ⟨h.length_eq, fun index session => ?_, fun index slot hslot => ?_,
    h.answered.concat hexpected, ?_, ?_, ?_⟩
  · rw [holds_concat_of_not_concerns (hconcerns index)]
    exact h.slot_iff index session
  · rw [List.map_append, List.map_singleton, holder_concat, hholder]
    exact h.slot_details index slot hslot
  · rw [hcreated]
    exact h.created_perm
  · rw [idsTaken_concat]
    split
    · exact hnext
    · exact h.nextId_eq
  · rw [hcreated, idsTaken_concat]
    split
    · rw [hrange]
      exact h.ids_sublist.trans (List.sublist_append_left _ _)
    · exact h.ids_sublist

/-- **A call that writes a slot**: the slots agree with who holds them again. -/
private theorem Inv.slots_set (h : s.Inv maxConnections) {index : Nat}
    (hindex : index < maxConnections.toNat) (hconcerns : e.Concerns index)
    (hothers : ∀ i, index ≠ i → ¬ e.Concerns i ∧ ∀ held, holderAfter i held e.call = held)
    (slot : Option MsgSession)
    (hslot : ∀ session, slot = some session ↔ ∃ connectionDetails status allocated,
      e = ⟨.onConnect connectionDetails status allocated, some (.accepted session)⟩)
    (hholder : slot.map MsgSession.details =
      holderAfter index (holder index (s.log.map HandledCall.call)) e.call) :
    (∀ i session, (s.table.m_sessions.set index slot)[i]? = some (some session) ↔
      Holds (s.log ++ [e]) i session) ∧
    ∀ (i : Nat) (slot' : Option MsgSession),
      (s.table.m_sessions.set index slot)[i]? = some slot' →
        slot'.map MsgSession.details = holder i ((s.log ++ [e]).map HandledCall.call) := by
  have hlt : index < s.table.m_sessions.length := by
    rw [h.length_eq]
    exact hindex
  refine ⟨fun i session => ?_, fun i slot' hslot' => ?_⟩
  · by_cases heq : index = i
    · subst heq
      rw [holds_concat_of_concerns hconcerns, ← hslot, List.getElem?_set_self hlt,
        Option.some.injEq]
    · rw [holds_concat_of_not_concerns (hothers i heq).1, List.getElem?_set_ne heq, h.slot_iff i]
  · rw [List.map_append, List.map_singleton, holder_concat]
    by_cases heq : index = i
    · subst heq
      rw [List.getElem?_set_self hlt] at hslot'
      rw [← Option.some.inj hslot', hholder]
    · rw [List.getElem?_set_ne heq] at hslot'
      rw [(hothers i heq).2, h.slot_details i slot' hslot']

/-- Calls for one index concern no other. -/
private theorem concerns_other {call : SessionCall} {answer : Option ConnectAnswer}
    (hcall : call = .onDisconnect connectionDetails ∨
      ∃ status allocated, call = .onConnect connectionDetails status allocated)
    (i : Nat) (hi : connectionDetails.m_connIndex ≠ i) :
    ¬ HandledCall.Concerns i ⟨call, answer⟩ ∧ ∀ held, holderAfter i held call = held := by
  rcases hcall with rfl | ⟨status, allocated, rfl⟩
  · exact ⟨hi, fun held => if_neg hi⟩
  · exact ⟨fun hconcerns => hi hconcerns.1, fun held => if_neg fun hcond => hi hcond.1⟩

/-- **A disconnect** empties its slot, and deletes the session that was there. -/
theorem Inv.onDisconnect (h : s.Inv maxConnections)
    (hindex : connectionDetails.m_connIndex < maxConnections.toNat) :
    ∃ s', s.perform (.onDisconnect connectionDetails) = .ok s' ∧ Inv maxConnections s' ∧
      s'.log = s.log ++ [⟨.onDisconnect connectionDetails, none⟩] := by
  obtain ⟨slot, hslot⟩ := h.slot hindex
  have hcreated : created (s.log ++ [⟨.onDisconnect connectionDetails, none⟩]) = created s.log := by
    rw [created_concat]
    exact List.append_nil _
  have hids : idsTaken (s.log ++ [⟨.onDisconnect connectionDetails, none⟩]) = idsTaken s.log := by
    rw [idsTaken_concat]
    rfl
  obtain ⟨hholds, hdetails⟩ := h.slots_set (e := ⟨.onDisconnect connectionDetails, none⟩)
    hindex rfl (concerns_other (.inl rfl)) none (by simp) (if_pos rfl).symm
  have hanswered := h.answered.concat (e := ⟨.onDisconnect connectionDetails, none⟩) rfl
  cases slot with
  | none =>
    -- nobody was there
    have hself : s.table.m_sessions.set connectionDetails.m_connIndex none =
        s.table.m_sessions := by
      obtain ⟨hlt, hget⟩ := List.getElem?_eq_some_iff.mp hslot
      rw [← hget, List.set_getElem_self]
    rw [hself] at hholds hdetails
    refine ⟨⟨s.table, s.log ++ [⟨.onDisconnect connectionDetails, none⟩], s.deleted ++ []⟩, ?_,
      ⟨h.length_eq, hholds, hdetails, hanswered, ?_, hids ▸ h.nextId_eq, ?_⟩, rfl⟩
    · simp only [SessionHistory.perform, SessionTable.onDisconnect, hslot, Option.toList_none]
    · rw [hcreated, List.append_nil]
      exact h.created_perm
    · rw [hcreated, hids]
      exact h.ids_sublist
  | some session =>
    refine ⟨⟨{ s.table with
        m_sessions := s.table.m_sessions.set connectionDetails.m_connIndex none },
      s.log ++ [⟨.onDisconnect connectionDetails, none⟩], s.deleted ++ [session]⟩, ?_,
      ⟨?_, hholds, hdetails, hanswered, ?_, hids ▸ h.nextId_eq, ?_⟩, rfl⟩
    · simp only [SessionHistory.perform, SessionTable.onDisconnect, hslot, Option.toList_some]
    · rw [List.length_set, h.length_eq]
    -- the session moves from the table to those that were deleted
    · rw [hcreated, List.append_assoc]
      exact h.created_perm.trans ((reduceOption_set_none hslot).append_left _)
    · rw [hcreated, hids]
      exact h.ids_sublist

/-- **An accepted connect** takes an id, and puts a session for its connection into the slot. -/
theorem Inv.accepted (h : s.Inv maxConnections)
    (hindex : connectionDetails.m_connIndex < maxConnections.toNat)
    (hslot : s.table.m_sessions[connectionDetails.m_connIndex]? = some none)
    {session : MsgSession} (hsession : session = .create s.table.m_nextSessionId connectionDetails) :
    Inv maxConnections ⟨⟨s.table.m_sessions.set connectionDetails.m_connIndex (some session),
      s.table.m_nextSessionId + 1⟩,
      s.log ++ [⟨.onConnect connectionDetails 0 true, some (.accepted session)⟩], s.deleted⟩ := by
  have hfree : holder connectionDetails.m_connIndex (s.log.map HandledCall.call) = none :=
    (h.slot_details _ _ hslot).symm
  have hdetails : session.details = connectionDetails := by
    rw [hsession]
    rfl
  have hcreated : created (s.log ++ [⟨.onConnect connectionDetails 0 true,
      some (.accepted session)⟩]) = created s.log ++ [session] := created_concat _ _
  have hids : idsTaken (s.log ++ [⟨.onConnect connectionDetails 0 true,
      some (.accepted session)⟩]) = idsTaken s.log + 1 := idsTaken_concat _ _
  obtain ⟨hnext, hrange⟩ := h.nextId_succ
  obtain ⟨hholds, hslots⟩ := h.slots_set
    (e := ⟨.onConnect connectionDetails 0 true, some (.accepted session)⟩)
    hindex ⟨rfl, rfl⟩ (concerns_other (.inr ⟨0, true, rfl⟩)) (some session) (by simp)
    (by rw [Option.map_some, hdetails]; exact (if_pos ⟨rfl, rfl, hfree, rfl⟩).symm)
  refine ⟨?_, hholds, hslots, h.answered.concat ?_, ?_, ?_, ?_⟩
  · rw [List.length_set, h.length_eq]
  · show if _ then _ else _
    rw [if_neg (by simp [hfree]), if_pos rfl]
    exact ⟨session, rfl, hdetails⟩
  -- the new session is in the table
  · rw [hcreated]
    have hset := reduceOption_set_some hslot session
    have hmove : (s.deleted ++ session :: s.table.m_sessions.reduceOption).Perm
        (session :: (s.deleted ++ s.table.m_sessions.reduceOption)) := List.perm_middle
    exact (List.perm_append_singleton session _).trans
      ((h.created_perm.cons session).trans (hmove.symm.trans (hset.symm.append_left s.deleted)))
  · rw [hids]
    exact hnext
  · rw [hcreated, hids, hrange, List.map_append, List.map_singleton]
    refine h.ids_sublist.append ?_
    rw [hsession]
    exact .refl _

/-- **A refused connect**: it failed, or its index is active. -/
theorem Inv.refused (h : s.Inv maxConnections) {status : Int} {allocated : Bool}
    (hrefused : status ≠ 0 ∨
      (holder connectionDetails.m_connIndex (s.log.map HandledCall.call)).isSome) :
    Inv maxConnections ⟨s.table,
      s.log ++ [⟨.onConnect connectionDetails status allocated, some .refused⟩], s.deleted⟩ := by
  refine h.kept (e := ⟨.onConnect connectionDetails status allocated, some .refused⟩) ?_ rfl
    (fun index hconcerns => nomatch hconcerns.2) fun index => if_neg fun hcond => ?_
  · show if _ then _ else _
    rw [if_pos hrefused]
  · obtain ⟨rfl, hstatus, hnone, -⟩ := hcond
    rcases hrefused with hfailed | hactive
    · exact hfailed hstatus
    · rw [hnone] at hactive
      cases hactive

/-- **A denied connect** takes an id in vain. -/
theorem Inv.denied (h : s.Inv maxConnections)
    (hfree : holder connectionDetails.m_connIndex (s.log.map HandledCall.call) = none) :
    Inv maxConnections ⟨⟨s.table.m_sessions, s.table.m_nextSessionId + 1⟩,
      s.log ++ [⟨.onConnect connectionDetails 0 false, some .denied⟩], s.deleted⟩ := by
  refine h.kept (e := ⟨.onConnect connectionDetails 0 false, some .denied⟩) ?_ rfl
    (fun index hconcerns => nomatch hconcerns.2) fun index => if_neg fun hcond => ?_
  · show if _ then _ else _
    rw [if_neg (by simp [hfree]), if_neg (by simp)]
  · cases hcond.2.2.2

/-- **A connect** is refused, denied or accepted. -/
theorem Inv.onConnect (h : s.Inv maxConnections)
    (hindex : connectionDetails.m_connIndex < maxConnections.toNat) (status : Int)
    (allocated : Bool) :
    ∃ s' answer, s.perform (.onConnect connectionDetails status allocated) = .ok s' ∧
      Inv maxConnections s' ∧
      s'.log = s.log ++ [⟨.onConnect connectionDetails status allocated, answer⟩] := by
  by_cases hstatus : status = 0
  swap
  · refine ⟨_, some .refused, ?_, h.refused (.inl hstatus), rfl⟩
    simp only [SessionHistory.perform, SessionTable.onConnect, if_pos hstatus]
  subst hstatus
  obtain ⟨slot, hslot⟩ := h.slot hindex
  have hheld := h.slot_details _ _ hslot
  cases slot with
  | some session =>
    refine ⟨_, some .refused, ?_, h.refused (.inr (by rw [← hheld]; rfl)), rfl⟩
    simp only [SessionHistory.perform, SessionTable.onConnect, ne_eq, not_true_eq_false, if_false,
      hslot]
  | none =>
    cases allocated with
    | false =>
      refine ⟨_, some .denied, ?_, h.denied hheld.symm, rfl⟩
      simp [SessionHistory.perform, SessionTable.onConnect, hslot]
    | true =>
      obtain ⟨session, hsession⟩ : ∃ session, session =
          MsgSession.create s.table.m_nextSessionId connectionDetails := ⟨_, rfl⟩
      refine ⟨_, some (.accepted session), ?_, h.accepted hindex hslot hsession, rfl⟩
      simp [SessionHistory.perform, SessionTable.onConnect, hslot, hsession]

/-- What a call leaves behind: the history has it, and agrees with the table again. -/
theorem Inv.perform (h : s.Inv maxConnections) {call : SessionCall}
    (hcall : call.InRange maxConnections) :
    ∃ s' answer, s.perform call = .ok s' ∧ Inv maxConnections s' ∧
      s'.log = s.log ++ [⟨call, answer⟩] := by
  cases call with
  | onConnect connectionDetails status allocated => exact h.onConnect hcall status allocated
  | onDisconnect connectionDetails =>
    obtain ⟨s', hperform, hinv, hlog⟩ := h.onDisconnect hcall
    exact ⟨s', none, hperform, hinv, hlog⟩
  | getSession connectionDetails =>
    exact ⟨_, none, rfl, h.kept (e := ⟨.getSession connectionDetails, none⟩) rfl rfl
      (fun _ hconcerns => hconcerns) fun _ => rfl, rfl⟩

theorem Inv.performAll {calls : List SessionCall} (h : s.Inv maxConnections)
    (hcalls : ∀ call ∈ calls, call.InRange maxConnections) :
    ∃ s', s.performAll calls = .ok s' ∧ Inv maxConnections s' ∧
      s'.log.map HandledCall.call = s.log.map HandledCall.call ++ calls := by
  induction calls generalizing s with
  | nil => exact ⟨s, rfl, h, (List.append_nil _).symm⟩
  | cons call rest ih =>
    obtain ⟨s₁, answer, hs₁, hinv₁, hlog₁⟩ := h.perform (hcalls call List.mem_cons_self)
    obtain ⟨s₂, hs₂, hinv₂, hlog₂⟩ := ih hinv₁ (fun c hc => hcalls c (List.mem_cons_of_mem _ hc))
    refine ⟨s₂, ?_, hinv₂, ?_⟩
    · unfold SessionHistory.performAll at hs₂ ⊢
      rw [List.foldlM_cons, hs₁]
      exact hs₂
    · rw [hlog₂, hlog₁, List.map_append, List.append_assoc]
      rfl

end SessionHistory

end Commutil.Server
