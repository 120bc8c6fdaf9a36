import Commutil.Server.MsgSessions

/-!
# What the Session Listener Hears

`MsgSessionListener` of `msg_session.h` announces two calls for every session,
`onConnectSession` and `onDisconnectSession`.  This module records what `onConnect` and
`onDisconnect` of `msg_server.cpp` do to the sessions, and what they tell the listener, in
one log.

A session that goes through its life is created, announced, announced as disconnected, and
deleted.  `SessionPhase.follow` reads a log in this order, with the announcement or
without it:

- `silent_paired`: the log of the server is in order without the announcement
- `notifications_paired_iff`: with it, only if no session is created
-/

namespace Commutil.Server

open Commutil.Library
open Commutil.Transport

/-! ## §1 Lives of sessions -/

/-- What is done with a session. -/
inductive SessionAct where
  | created (session : MsgSession)
  | onConnectSession (session : MsgSession) (connectionDetails : ConnectionDetails)
  | onDisconnectSession (session : MsgSession) (connectionDetails : ConnectionDetails)
  /-- Deleted by `onDisconnect`. -/
  | deleted (session : MsgSession)
  deriving DecidableEq, Repr

/-- The session it is done with. -/
def SessionAct.session : SessionAct → MsgSession
  | created session | onConnectSession session _ | onDisconnectSession session _
  | deleted session => session

/-- How far the session on an index has come. -/
inductive SessionPhase where
  | vacant
  | created (session : MsgSession)
  | connected (session : MsgSession)
  | disconnected (session : MsgSession)
  deriving DecidableEq, Repr

namespace SessionPhase

/-- The phase after an act; `none` if the act is out of order.  A session is `announced` by
    `onConnectSession`, or is connected once it is created. -/
def follow (announced : Bool) : SessionPhase → SessionAct → Option SessionPhase
  | vacant, .created session =>
    some (if announced then .created session else .connected session)
  | .created session, .onConnectSession session' _ =>
    if session' = session then some (.connected session) else none
  | connected session, .onDisconnectSession session' _ =>
    if session' = session then some (.disconnected session) else none
  | disconnected session, .deleted session' =>
    if session' = session then some .vacant else none
  | _, _ => none

/-- The phase between two calls of the server. -/
def settled : SessionPhase → Bool
  | vacant | connected _ => true
  | created _ | disconnected _ => false

end SessionPhase

/-- The acts for the sessions of an index. -/
def actsOn (log : List SessionAct) (index : Nat) : List SessionAct :=
  log.filter fun act => act.session.m_connectionIndex = index

/-- The phase of an index after all acts; `none` if one of them was out of order. -/
def phaseAfter (announced : Bool) (log : List SessionAct) (index : Nat) : Option SessionPhase :=
  (actsOn log index).foldlM (SessionPhase.follow announced) .vacant

/-- **The notifications are paired**: on every index one session follows the other, each created,
    announced, announced as disconnected and deleted in this order, and no session is left in
    between. -/
def Paired (announced : Bool) (log : List SessionAct) : Prop :=
  ∀ index, ∃ phase, phaseAfter announced log index = some phase ∧ phase.settled = true

/-- Without an announcement only an empty index is in order. -/
theorem actsOn_eq_nil_of_paired {log : List SessionAct} (h : Paired true log)
    (hsilent : ∀ session d, .onConnectSession session d ∉ log) (index : Nat) :
    actsOn log index = [] := by
  obtain ⟨phase, hphase, hsettled⟩ := h index
  have hquiet : ∀ session d, .onConnectSession session d ∉ actsOn log index :=
    fun session d hmem => hsilent session d (List.mem_filter.mp hmem).1
  unfold phaseAfter at hphase
  cases hacts : actsOn log index with
  | nil => rfl
  | cons act rest =>
    rw [hacts] at hphase hquiet
    -- the first act creates a session, and the next one would have to announce it
    cases act with
    | created session =>
      simp only [List.foldlM_cons, SessionPhase.follow, if_true] at hphase
      cases rest with
      | nil =>
        cases hphase
        cases hsettled
      | cons next rest =>
        cases next with
        | onConnectSession session' d =>
          exact absurd (List.mem_cons_of_mem _ List.mem_cons_self) (hquiet session' d)
        | _ => cases hphase
    | _ => cases hphase

/-! ## §2 The handlers with a session listener -/

/-- The session table with the acts so far. -/
structure AnnouncedSessions where
  table : SessionTable
  log : List SessionAct
  deriving DecidableEq, Repr

namespace AnnouncedSessions

def start (maxConnections : UInt32) : AnnouncedSessions := ⟨.start maxConnections, []⟩

/-- `onConnect` and `onDisconnect` with a session listener installed: `onConnect` does not call
    it. -/
def perform (s : AnnouncedSessions) : SessionCall → Except Fault AnnouncedSessions
  | .onConnect connectionDetails status allocated =>
    match s.table.onConnect connectionDetails status allocated with
    | .error fault => .error fault
    | .ok (.refused, t) | .ok (.denied, t) => .ok { s with table := t }
    | .ok (.accepted session, t) => .ok ⟨t, s.log ++ [.created session]⟩
  | .onDisconnect connectionDetails =>
    match s.table.onDisconnect connectionDetails with
    | .error fault => .error fault
    | .ok (none, t) => .ok { s with table := t }
    | .ok (some session, t) =>
      .ok ⟨t, s.log ++ [.onDisconnectSession session connectionDetails, .deleted session]⟩
  | .getSession _ => .ok s

/-- The calls, one after another. -/
def performAll (s : AnnouncedSessions) (calls : List SessionCall) :
    Except Fault AnnouncedSessions :=
  calls.foldlM perform s

end AnnouncedSessions

/-- The call creates a session, if its slot is free. -/
def SessionCall.Creates : SessionCall → Prop
  | .onConnect _ status allocated => status = 0 ∧ allocated = true
  | .onDisconnect _ | .getSession _ => False

instance : ∀ call : SessionCall, Decidable call.Creates
  | .onConnect _ status allocated => inferInstanceAs (Decidable (status = 0 ∧ allocated = true))
  | .onDisconnect _ | .getSession _ => .isFalse id

/-! ## §3 What every call keeps -/

/-- The phase of a slot of the table. -/
def SessionPhase.ofSlot : Option (Option MsgSession) → SessionPhase
  | some (some session) => .connected session
  | some none | none => .vacant

theorem SessionPhase.settled_ofSlot (slot : Option (Option MsgSession)) :
    (SessionPhase.ofSlot slot).settled = true := by
  rcases slot with _ | _ | session <;> rfl

section Phases

variable {announced : Bool} {log acts : List SessionAct} {index : Nat} {phase : SessionPhase}

/-- Acts for another index do not change the phase. -/
theorem phaseAfter_append_ne (hacts : ∀ act ∈ acts, act.session.m_connectionIndex ≠ index) :
    phaseAfter announced (log ++ acts) index = phaseAfter announced log index := by
  have hnone : actsOn acts index = [] := by
    apply List.filter_eq_nil_iff.mpr
    intro act hact
    simpa using hacts act hact
  have hsame : actsOn (log ++ acts) index = actsOn log index := by
    have happend : actsOn (log ++ acts) index = actsOn log index ++ actsOn acts index :=
      List.filter_append ..
    rw [happend, hnone, List.append_nil]
  rw [phaseAfter, hsame]
  rfl

/-- Acts for the index are followed from the phase it has. -/
theorem phaseAfter_append_self (hacts : ∀ act ∈ acts, act.session.m_connectionIndex = index)
    (h : phaseAfter announced log index = some phase) :
    phaseAfter announced (log ++ acts) index =
      acts.foldlM (SessionPhase.follow announced) phase := by
  have hall : actsOn acts index = acts := by
    apply List.filter_eq_self.mpr
    intro act hact
    simpa using hacts act hact
  have happend : actsOn (log ++ acts) index = actsOn log index ++ acts := by
    have hfilter : actsOn (log ++ acts) index = actsOn log index ++ actsOn acts index :=
      List.filter_append ..
    rw [hfilter, hall]
  unfold phaseAfter at h ⊢
  rw [happend, List.foldlM_append, h]
  rfl

end Phases

namespace AnnouncedSessions

variable {s s' : AnnouncedSessions} {maxConnections : UInt32}

/-- The table agrees with the lives of the sessions, none of which is announced. -/
structure Inv (maxConnections : UInt32) (s : AnnouncedSessions) : Prop where
  length_eq : s.table.m_sessions.length = maxConnections.toNat
  index_eq : ∀ (index : Nat) (session : MsgSession),
    s.table.m_sessions[index]? = some (some session) →
      session.m_connectionIndex = index
  phase_eq : ∀ index,
    phaseAfter false s.log index = some (.ofSlot s.table.m_sessions[index]?)
  silent : ∀ session d, .onConnectSession session d ∉ s.log

theorem start_inv (maxConnections : UInt32) : Inv maxConnections (start maxConnections) := by
  have hvacant : ∀ index : Nat, (start maxConnections).table.m_sessions[index]? = none ∨
      (start maxConnections).table.m_sessions[index]? = some none := by
    intro index
    simp only [start, SessionTable.start, List.getElem?_replicate]
    split
    · exact .inr rfl
    · exact .inl rfl
  refine ⟨List.length_replicate, fun index session hslot => ?_, fun index => ?_, ?_⟩
  · rcases hvacant index with h | h <;> rw [h] at hslot <;> cases hslot
  · rcases hvacant index with h | h <;> rw [h] <;> rfl
  · rintro session d ⟨⟩

/-- A slot is written, and the acts for its session lead to the phase of the new slot. -/
theorem Inv.setSlot (h : s.Inv maxConnections) {index : Nat} {slot : Option MsgSession}
    {acts : List SessionAct} {nextSessionId : UInt64} (hindex : index < maxConnections.toNat)
    (hslot : ∀ session, slot = some session → session.m_connectionIndex = index)
    (hacts : ∀ act ∈ acts, act.session.m_connectionIndex = index)
    (hsilent : ∀ session d, .onConnectSession session d ∉ acts)
    (hfollow : acts.foldlM (SessionPhase.follow false)
      (.ofSlot s.table.m_sessions[index]?) = some (.ofSlot (some slot))) :
    Inv maxConnections ⟨⟨s.table.m_sessions.set index slot, nextSessionId⟩, s.log ++ acts⟩ := by
  have hself : (s.table.m_sessions.set index slot)[index]? = some slot :=
    List.getElem?_set_self (by rw [h.length_eq]; exact hindex)
  refine ⟨?_, fun j session hj => ?_, fun j => ?_, fun session d hmem => ?_⟩
  · dsimp only
    rw [List.length_set]
    exact h.length_eq
  · dsimp only at hj
    by_cases hne : index = j
    · subst hne
      rw [hself] at hj
      exact hslot session (Option.some.inj hj)
    · rw [List.getElem?_set_ne hne] at hj
      exact h.index_eq j session hj
  · dsimp only
    by_cases hne : index = j
    · subst hne
      rw [phaseAfter_append_self hacts (h.phase_eq index), hself]
      exact hfollow
    · rw [phaseAfter_append_ne fun act hact heq => hne ((hacts act hact).symm.trans heq),
        List.getElem?_set_ne hne]
      exact h.phase_eq j
  · rcases List.mem_append.mp hmem with hold | hnew
    · exact h.silent session d hold
    · exact hsilent session d hnew

/-- No session has been created. -/
structure Untouched (s : AnnouncedSessions) : Prop where
  log_eq : s.log = []
  vacant : ∀ slot ∈ s.table.m_sessions, slot = none

theorem start_untouched (maxConnections : UInt32) : Untouched (start maxConnections) :=
  ⟨rfl, fun _ hmem => List.eq_of_mem_replicate hmem⟩

/-- What a call leaves behind: the table agrees with the log again, and the first session is created
    by the first call that can. -/
structure Performed (maxConnections : UInt32) (s : AnnouncedSessions) (call : SessionCall)
    (s' : AnnouncedSessions) : Prop where
  inv : s'.Inv maxConnections
  log_prefix : s.log <+: s'.log
  first : s.Untouched → call.Creates → ∃ session, .created session ∈ s'.log
  untouched : s.Untouched → ¬ call.Creates → s'.Untouched

theorem Inv.perform (h : s.Inv maxConnections) {call : SessionCall}
    (hcall : call.InRange maxConnections) :
    ∃ s', s.perform call = .ok s' ∧ Performed maxConnections s call s' := by
  have hslot : ∀ {index : Nat}, index < maxConnections.toNat →
      ∃ slot, s.table.m_sessions[index]? = some slot := fun hindex =>
    ⟨_, List.getElem?_eq_getElem (by rw [h.length_eq]; exact hindex)⟩
  cases call with
  -- a lookup changes nothing
  | getSession d => exact ⟨s, rfl, h, List.prefix_rfl, fun _ hno => hno.elim, fun hu _ => hu⟩
  | onConnect d status allocated =>
    obtain ⟨slot, hat⟩ := hslot hcall
    -- a failed connect creates nothing
    by_cases hstatus : status = 0
    · cases slot with
      | some session =>
        refine ⟨s, ?_, h, List.prefix_rfl, fun hu _ => ?_, fun hu _ => hu⟩
        · simp [AnnouncedSessions.perform, SessionTable.onConnect, hstatus, hat]
        · cases hu.vacant _ (List.mem_of_getElem? hat)
      -- an id is taken even if no session can be allocated
      | none =>
        cases allocated with
        | false =>
          refine ⟨⟨⟨s.table.m_sessions, s.table.m_nextSessionId + 1⟩, s.log⟩, ?_,
            ⟨h.length_eq, h.index_eq, h.phase_eq, h.silent⟩, List.prefix_rfl,
            fun _ hcreates => ?_, fun hu _ => ⟨hu.log_eq, hu.vacant⟩⟩
          · simp [AnnouncedSessions.perform, SessionTable.onConnect, hstatus, hat]
          · cases hcreates.2
        -- the session is created, but `onConnectSession` is not called
        | true =>
          refine ⟨⟨⟨s.table.m_sessions.set d.m_connIndex
              (some (.create s.table.m_nextSessionId d)), s.table.m_nextSessionId + 1⟩,
            s.log ++ [.created (.create s.table.m_nextSessionId d)]⟩, ?_, ?_,
            List.prefix_append _ _, fun _ _ => ⟨_, List.mem_concat_self⟩,
            fun _ hno => absurd ⟨hstatus, rfl⟩ hno⟩
          · simp [AnnouncedSessions.perform, SessionTable.onConnect, hstatus, hat]
          · apply h.setSlot hcall
            · intro session heq
              cases heq
              rfl
            · intro act hact
              cases List.mem_singleton.mp hact
              rfl
            · intro session d' hmem
              cases List.mem_singleton.mp hmem
            · rw [hat]
              rfl
    · refine ⟨s, ?_, h, List.prefix_rfl, fun _ hcreates => absurd hcreates.1 hstatus,
        fun hu _ => hu⟩
      simp [AnnouncedSessions.perform, SessionTable.onConnect, hstatus]
  | onDisconnect d =>
    obtain ⟨slot, hat⟩ := hslot hcall
    cases slot with
    -- there is no session to tell of
    | none =>
      refine ⟨s, ?_, h, List.prefix_rfl, fun _ hno => hno.elim, fun hu _ => hu⟩
      simp [AnnouncedSessions.perform, SessionTable.onDisconnect, hat]
    -- the listener is told, then the session is deleted
    | some session =>
      have hindex := h.index_eq _ _ hat
      refine ⟨⟨⟨s.table.m_sessions.set d.m_connIndex none, s.table.m_nextSessionId⟩,
        s.log ++ [.onDisconnectSession session d, .deleted session]⟩, ?_, ?_,
        List.prefix_append _ _, fun _ hno => hno.elim, fun hu _ => ?_⟩
      · simp [AnnouncedSessions.perform, SessionTable.onDisconnect, hat]
      · apply h.setSlot hcall
        · rintro session' ⟨⟩
        · intro act hact
          rcases List.mem_pair.mp hact with rfl | rfl <;> exact hindex
        · intro session' d' hmem
          rcases List.mem_pair.mp hmem with heq | heq <;> cases heq
        · rw [hat]
          simp [SessionPhase.ofSlot, SessionPhase.follow]
      · cases hu.vacant _ (List.mem_of_getElem? hat)

/-- All calls together: the table agrees with the log, and the log has a session exactly if one of
    the calls can create one. -/
theorem Inv.performAll {calls : List SessionCall} (h : s.Inv maxConnections)
    (hcalls : ∀ call ∈ calls, call.InRange maxConnections) :
    ∃ s', s.performAll calls = .ok s' ∧ s'.Inv maxConnections ∧ s.log <+: s'.log ∧
      (s.Untouched → (∀ call ∈ calls, ¬ call.Creates) → s'.Untouched) ∧
      (s.Untouched → (∃ call ∈ calls, call.Creates) → ∃ session, .created session ∈ s'.log) := by
  induction calls generalizing s with
  | nil => exact ⟨s, rfl, h, List.prefix_rfl, fun hu _ => hu, fun _ hex => by simp at hex⟩
  | cons call rest ih =>
    obtain ⟨t, ht, hdone⟩ := h.perform (hcalls call List.mem_cons_self)
    obtain ⟨s', hs', hinv, hlog, hnone, hsome⟩ := ih hdone.inv
      fun c hc => hcalls c (List.mem_cons_of_mem _ hc)
    refine ⟨s', ?_, hinv, hdone.log_prefix.trans hlog, fun hu hall => ?_, fun hu hex => ?_⟩
    · simp only [AnnouncedSessions.performAll, List.foldlM_cons, ht]
      exact hs'
    · exact hnone (hdone.untouched hu (hall call List.mem_cons_self))
        fun c hc => hall c (List.mem_cons_of_mem _ hc)
    · by_cases hcreates : call.Creates
      · obtain ⟨session, hmem⟩ := hdone.first hu hcreates
        exact ⟨session, hlog.subset hmem⟩
      · obtain ⟨c, hc, hcreate⟩ := hex
        rcases List.mem_cons.mp hc with rfl | hc
        · exact absurd hcreate hcreates
        · exact hsome (hdone.untouched hu hcreates) ⟨c, hc, hcreate⟩

/-! ## §4 Who is told -/

/-- Without the announcement the notifications are in order: every session is announced as
    disconnected once, before it is deleted, and no refused connection is announced. -/
theorem Inv.silent_paired (h : s.Inv maxConnections) : Paired false s.log :=
  fun index => ⟨_, h.phase_eq index, SessionPhase.settled_ofSlot _⟩

end AnnouncedSessions

/-- **Paired session notifications**: after any connects and disconnects for connection indices of
    the data server, the notifications are paired exactly if none of the calls can create a
    session; but for the missing announcements they always are. -/
theorem notifications_paired_iff (maxConnections : UInt32) {calls : List SessionCall}
    (hcalls : ∀ call ∈ calls, call.InRange maxConnections) :
    ∃ s, (AnnouncedSessions.start maxConnections).performAll calls = .ok s ∧
      (Paired true s.log ↔ ∀ call ∈ calls, ¬ call.Creates) ∧ Paired false s.log := by
  obtain ⟨s, hs, hinv, -, hnone, hsome⟩ :=
    (AnnouncedSessions.start_inv maxConnections).performAll hcalls
  have hstart := AnnouncedSessions.start_untouched maxConnections
  refine ⟨s, hs, ⟨fun hpaired call hmem hcreates => ?_, fun hall => ?_⟩, hinv.silent_paired⟩
  · obtain ⟨session, hcreated⟩ := hsome hstart ⟨call, hmem, hcreates⟩
    have hnil := actsOn_eq_nil_of_paired hpaired hinv.silent session.m_connectionIndex
    have hact : .created session ∈ actsOn s.log session.m_connectionIndex :=
      List.mem_filter.mpr ⟨hcreated, by simp [SessionAct.session]⟩
    rw [hnil] at hact
    cases hact
  · rw [(hnone hstart hall).log_eq]
    exact fun _ => ⟨.vacant, rfl, rfl⟩

/-- A failed connection, one for which no session can be allocated, and a disconnect. -/
theorem notifications_paired_refused :
    ∃ s, (AnnouncedSessions.start 1).performAll
        [.onConnect ⟨7, 0⟩ (-1) true, .onConnect ⟨8, 0⟩ 0 false, .onDisconnect ⟨8, 0⟩] = .ok s ∧
      (Paired true s.log ↔ ∀ call ∈ [SessionCall.onConnect ⟨7, 0⟩ (-1) true,
        .onConnect ⟨8, 0⟩ 0 false, .onDisconnect ⟨8, 0⟩], ¬ call.Creates) ∧
      Paired false s.log :=
  notifications_paired_iff 1 (by decide)

/-- One connection comes and goes: the listener is told of its end only. -/
theorem session_never_announced :
    ∃ s, (AnnouncedSessions.start 1).performAll
        [.onConnect ⟨7, 0⟩ 0 true, .onDisconnect ⟨7, 0⟩] = .ok s ∧
      s.log = [.created ⟨0, 7, 0⟩, .onDisconnectSession ⟨0, 7, 0⟩ ⟨7, 0⟩, .deleted ⟨0, 7, 0⟩] ∧
      ¬ Paired true s.log := by
  refine ⟨_, rfl, rfl, fun h => ?_⟩
  obtain ⟨phase, hphase, -⟩ := h 0
  cases hphase

end Commutil.Server
