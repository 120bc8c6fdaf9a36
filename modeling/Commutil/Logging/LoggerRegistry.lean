import Mathlib.Logic.Function.Basic
import Commutil.Logging.LogStack
import Commutil.Library.Transitions

/-!
# The Registry of Loggers

`registerLogger`, `unregisterLogger` and `setLoggerSeverity` of `commutil_log_imp.cpp`, and the
calls of them in `initCommUtil` and `termCommUtil`.

The id of a logger is its place in `sLoggers`.  Unregistering leaves the id in the logger, and does
not look whether the place still is its own: `loggers_own_places_iff` says in which sequences of
calls every registered logger has its place to itself.

For the library this asks that the logger of `commutil_tls.cpp`, which is registered before
anything can fail, is not registered a second time after `initCommUtil` has failed
(`library_loggers_own_places_iff`).
-/

namespace Commutil.Logging

open Commutil.Library

/-! ## §1 The code -/

/-- `MAX_LOGGERS`. -/
def MAX_LOGGERS : Nat := 1024

/-- `COMMUTIL_INVALID_LOGGER_ID`. -/
def COMMUTIL_INVALID_LOGGER_ID : Nat := 2 ^ 64 - 1

/-- `struct Logger`. -/
structure LoggerObject extends Logger where
  m_severity : LogSeverity
  deriving DecidableEq, Repr

/-- A logger in static storage, before it is registered. -/
def LoggerObject.static : LoggerObject := ⟨⟨"", 0⟩, .LS_FATAL⟩

/-- The variables of the log module; `null` is a place that was given up.  `registered` is what the
    callers may expect: the loggers that were accepted and have not been unregistered since. -/
structure Registry where
  sLoggers : List (Option Nat)
  /-- The logger at an address. -/
  memory : Nat → LoggerObject
  sLogSeverity : LogSeverity
  /-- There is a log handler. -/
  sLogHandler : Bool
  registered : Nat → Bool

namespace Registry

/-- When the program begins. -/
def start : Registry := ⟨[], fun _ => .static, .LS_INFO, false, fun _ => false⟩

/-- The logger in a place. -/
def place (s : Registry) (id : Nat) : Option Nat := (s.sLoggers[id]?).join

/-- The id in a logger. -/
def idOf (s : Registry) (logger : Nat) : Nat := (s.memory logger).m_loggerId

/-- The logger at an address is written. -/
def write (s : Registry) (logger : Nat) (object : LoggerObject) : Registry :=
  { s with memory := Function.update s.memory logger object }

/-- `initLog`. -/
def initLog (s : Registry) (logHandler : Bool) (severity : LogSeverity) : Registry :=
  { s with sLogHandler := logHandler, sLogSeverity := severity }

/-- `registerLogger`; `answer` is the severity that the log handler returns. -/
def registerLogger (s : Registry) (logger : Nat) (loggerName : String) (answer : LogSeverity) :
    Registry :=
  -- the limit is exceeded by one
  if MAX_LOGGERS < s.sLoggers.length then
    s.write logger { s.memory logger with m_loggerId := COMMUTIL_INVALID_LOGGER_ID }
  else
    { s.write logger ⟨⟨loggerName, s.sLoggers.length⟩,
        if s.sLogHandler then answer else (s.memory logger).m_severity⟩ with
      sLoggers := s.sLoggers ++ [some logger]
      registered := Function.update s.registered logger true }

/-- The loop of `unregisterLogger`: what is left of `sLoggers`, from a place downwards. -/
def trimLoop (loggers : List (Option Nat)) : Nat → List (Option Nat)
  | 0 =>
    match (loggers[0]?).join with
    | some _ => loggers.take 1
    | none => []
  | maxLogTargetId + 1 =>
    match (loggers[maxLogTargetId + 1]?).join with
    | some _ => loggers.take (maxLogTargetId + 2)
    | none => trimLoop loggers maxLogTargetId

/-- `unregisterLogger`. -/
def unregisterLogger (s : Registry) (logger : Nat) : Registry :=
  let sLoggers :=
    if s.idOf logger = COMMUTIL_INVALID_LOGGER_ID then s.sLoggers
    else if s.idOf logger < s.sLoggers.length then
      -- whoever is in the place
      trimLoop (s.sLoggers.set (s.idOf logger) none) (s.sLoggers.length - 1)
    else s.sLoggers
  { s with sLoggers, registered := Function.update s.registered logger false }

/-- `setLoggerSeverity`. -/
def setLoggerSeverity (s : Registry) (loggerId : Nat) (severity : LogSeverity) : Registry :=
  match s.place loggerId with
  | none => s
  | some logger => s.write logger { s.memory logger with m_severity := severity }

/-- `setLogSeverity`. -/
def setLogSeverity (s : Registry) (severity : LogSeverity) : Registry :=
  { s with sLogSeverity := severity }

/-- A call of the log module. -/
inductive Op where
  | register (logger : Nat) (loggerName : String) (answer : LogSeverity)
  | unregister (logger : Nat)
  | setLoggerSeverity (loggerId : Nat) (severity : LogSeverity)
  | setLogSeverity (severity : LogSeverity)
  deriving DecidableEq, Repr

/-- A call is made. -/
def perform (s : Registry) : Op → Registry
  | .register logger loggerName answer => s.registerLogger logger loggerName answer
  | .unregister logger => s.unregisterLogger logger
  | .setLoggerSeverity loggerId severity => s.setLoggerSeverity loggerId severity
  | .setLogSeverity severity => s.setLogSeverity severity

/-! ## §2 Places and their owners -/

/-- **What is asked of the registry**: the places are taken by the registered loggers, each of which
    is in the place that its id says and in no other; the last place is taken, and there are no more
    of them than the limit and one. -/
structure Owned (s : Registry) : Prop where
  owner : ∀ id logger, s.place id = some logger ↔
    s.registered logger = true ∧ s.idOf logger = id
  trimmed : s.sLoggers.getLast? ≠ some none
  length_le : s.sLoggers.length ≤ MAX_LOGGERS + 1

/-- A logger is registered only once at a time, and unregistered only while it is, or while its id
    is the place of nobody. -/
def Orderly (s : Registry) : Op → Prop
  | .register logger _ _ => s.registered logger = false
  | .unregister logger => s.registered logger = true ∨ s.place (s.idOf logger) = none
  | _ => True

instance (s : Registry) : ∀ op, Decidable (s.Orderly op)
  | .register logger _ _ => inferInstanceAs (Decidable (s.registered logger = false))
  | .unregister _ => inferInstanceAs (Decidable (_ ∨ _))
  | .setLoggerSeverity _ _ | .setLogSeverity _ => .isTrue trivial

variable {s : Registry} {logger : Nat}

theorem place_lt {id : Nat} (h : s.place id = some logger) : id < s.sLoggers.length := by
  by_contra hge
  unfold place at h
  rw [List.getElem?_eq_none (Nat.not_lt.mp hge)] at h
  cases h

/-- No logger has the invalid id as its place. -/
theorem Owned.place_invalid (h : s.Owned) : s.place COMMUTIL_INVALID_LOGGER_ID = none := by
  cases hplace : s.place COMMUTIL_INVALID_LOGGER_ID with
  | none => rfl
  | some logger =>
    have hlt := place_lt hplace
    have hle := h.length_le
    simp only [COMMUTIL_INVALID_LOGGER_ID, MAX_LOGGERS] at hlt hle
    omega

/-- Without registered loggers there is no place. -/
theorem Owned.sLoggers_eq_nil (h : s.Owned) (hnone : ∀ l, s.registered l = false) :
    s.sLoggers = [] := by
  cases hlast : s.sLoggers.getLast? with
  | none => exact List.getLast?_eq_none_iff.mp hlast
  | some last =>
    cases last with
    | none => exact absurd hlast h.trimmed
    | some logger =>
      have hplace : s.place (s.sLoggers.length - 1) = some logger := by
        rw [place, ← List.getLast?_eq_getElem?, hlast]
        rfl
      have howner := ((h.owner _ _).mp hplace).1
      rw [hnone] at howner
      cases howner

theorem start_owned : start.Owned := by
  refine ⟨fun id logger => ?_, by simp [start], Nat.zero_le _⟩
  simp [start, place]

/-- The loop gives up no place that is taken, and its last one is. -/
theorem trimLoop_spec (loggers : List (Option Nat)) (id : Nat)
    (hrest : ∀ j : Nat, id < j → (loggers[j]?).join = none) :
    (∀ j : Nat, ((trimLoop loggers id)[j]?).join = (loggers[j]?).join) ∧
      (trimLoop loggers id).getLast? ≠ some none ∧
      (trimLoop loggers id).length ≤ loggers.length := by
  have htake : ∀ {last logger : Nat}, (∀ j : Nat, last < j → (loggers[j]?).join = none) →
      (loggers[last]?).join = some logger →
      (∀ j : Nat, ((loggers.take (last + 1))[j]?).join = (loggers[j]?).join) ∧
        (loggers.take (last + 1)).getLast? ≠ some none ∧
        (loggers.take (last + 1)).length ≤ loggers.length := by
    intro last logger habove hlast
    have hget : loggers[last]? = some (some logger) := Option.join_eq_some_iff.mp hlast
    refine ⟨fun j => ?_, ?_, List.length_take_le' ..⟩
    · rw [List.getElem?_take]
      split
      · rfl
      · rw [habove j (by omega)]
        rfl
    · rw [List.take_add_one, hget]
      simp
  induction id with
  | zero =>
    unfold trimLoop
    split
    · rename_i logger hlogger
      exact htake hrest hlogger
    · -- the first place is not taken either
      rename_i hnone
      refine ⟨fun j => ?_, by simp, Nat.zero_le _⟩
      cases j with
      | zero => simpa using hnone.symm
      | succ j => simpa using (hrest (j + 1) (Nat.succ_pos j)).symm
  | succ id ih =>
    unfold trimLoop
    split
    · rename_i logger hlogger
      exact htake hrest hlogger
    · rename_i hnone
      apply ih
      intro j hj
      rcases Nat.lt_or_eq_of_le hj with hlt | rfl
      · exact hrest j hlt
      · exact hnone

/-! ## §3 Each call -/

section Calls

variable {loggerName : String} {answer : LogSeverity}

@[simp] theorem idOf_write_self (s : Registry) (logger : Nat) (object : LoggerObject) :
    (s.write logger object).idOf logger = object.m_loggerId := by
  simp [idOf, write]

theorem idOf_write_ne {other : Nat} (hne : other ≠ logger) (object : LoggerObject) :
    (s.write logger object).idOf other = s.idOf other := by
  simp [idOf, write, hne]

/-- A logger that is not registered may get another id. -/
theorem Owned.write (h : s.Owned) (hfree : s.registered logger = false) (object : LoggerObject) :
    (s.write logger object).Owned := by
  refine ⟨fun id other => ?_, h.trimmed, h.length_le⟩
  rw [show (s.write logger object).place id = s.place id from rfl, h.owner]
  refine and_congr_right fun hregistered => ?_
  have hne : other ≠ logger := by
    rintro rfl
    have hregistered' : s.registered other = true := hregistered
    rw [hfree] at hregistered'
    cases hregistered'
  rw [idOf_write_ne hne]

/-- Setting a severity changes nothing else. -/
theorem setLoggerSeverity_rest (s : Registry) (loggerId : Nat) (severity : LogSeverity) :
    (s.setLoggerSeverity loggerId severity).sLoggers = s.sLoggers ∧
      (s.setLoggerSeverity loggerId severity).registered = s.registered ∧
      ∀ other, (s.setLoggerSeverity loggerId severity).idOf other = s.idOf other := by
  unfold setLoggerSeverity
  split
  · exact ⟨rfl, rfl, fun _ => rfl⟩
  · rename_i logger hlogger
    refine ⟨rfl, rfl, fun other => ?_⟩
    by_cases hother : other = logger
    · rw [hother, idOf_write_self]
      rfl
    · exact idOf_write_ne hother _

theorem Owned.setLoggerSeverity (h : s.Owned) (loggerId : Nat) (severity : LogSeverity) :
    (s.setLoggerSeverity loggerId severity).Owned := by
  obtain ⟨hplaces, hregistered, hids⟩ := setLoggerSeverity_rest s loggerId severity
  refine ⟨fun id other => ?_, ?_, ?_⟩
  · rw [hids, hregistered, place, hplaces]
    exact h.owner id other
  · rw [hplaces]
    exact h.trimmed
  · rw [hplaces]
    exact h.length_le

/-- The place at the end is taken. -/
theorem place_registerLogger (hroom : s.sLoggers.length ≤ MAX_LOGGERS) (id : Nat) :
    (s.registerLogger logger loggerName answer).place id =
      if id = s.sLoggers.length then some logger else s.place id := by
  unfold registerLogger
  rw [if_neg (Nat.not_lt.mpr hroom)]
  simp only [place]
  split
  · rename_i hid
    rw [hid, List.getElem?_append_right (Nat.le_refl _), Nat.sub_self]
    rfl
  · rename_i hid
    by_cases hlt : id < s.sLoggers.length
    · rw [List.getElem?_append_left hlt]
    · rw [List.getElem?_eq_none (by simp; omega), List.getElem?_eq_none (by omega)]

theorem idOf_registerLogger_ne {other : Nat} (hne : other ≠ logger) :
    (s.registerLogger logger loggerName answer).idOf other = s.idOf other := by
  unfold registerLogger
  split
  · exact idOf_write_ne hne _
  · exact idOf_write_ne hne _

theorem idOf_registerLogger_self (hroom : s.sLoggers.length ≤ MAX_LOGGERS) :
    (s.registerLogger logger loggerName answer).idOf logger = s.sLoggers.length := by
  unfold registerLogger
  rw [if_neg (Nat.not_lt.mpr hroom)]
  exact idOf_write_self _ _ _

theorem registered_registerLogger (hroom : s.sLoggers.length ≤ MAX_LOGGERS) :
    (s.registerLogger logger loggerName answer).registered =
      Function.update s.registered logger true := by
  unfold registerLogger
  rw [if_neg (Nat.not_lt.mpr hroom)]

/-- Registering keeps the places owned exactly if the logger is not registered yet. -/
theorem registerLogger_owned_iff (h : s.Owned) (logger : Nat) (loggerName : String)
    (answer : LogSeverity) :
    (s.registerLogger logger loggerName answer).Owned ↔ s.registered logger = false := by
  by_cases hroom : s.sLoggers.length ≤ MAX_LOGGERS
  · constructor
    · intro h'
      by_contra hregistered
      -- it keeps its old place, and has the id of the new one
      have hold : s.place (s.idOf logger) = some logger :=
        (h.owner _ _).mpr ⟨by simpa using hregistered, rfl⟩
      have hlt := place_lt hold
      have hstays : (s.registerLogger logger loggerName answer).place (s.idOf logger) =
          some logger := by
        rw [place_registerLogger hroom, if_neg (Nat.ne_of_lt hlt)]
        exact hold
      have hid := ((h'.owner _ _).mp hstays).2
      rw [idOf_registerLogger_self hroom] at hid
      omega
    · intro hfree
      refine ⟨fun id other => ?_, ?_, ?_⟩
      · rw [place_registerLogger hroom, registered_registerLogger hroom]
        by_cases hother : other = logger
        · subst hother
          rw [Function.update_self, idOf_registerLogger_self hroom]
          by_cases hid : id = s.sLoggers.length
          · simp [hid]
          · have hnone : s.place id ≠ some other := fun hplace => by
              rw [((h.owner _ _).mp hplace).1] at hfree
              cases hfree
            simp [hid, hnone, Ne.symm hid]
        · rw [Function.update_of_ne hother, idOf_registerLogger_ne hother, ← h.owner]
          by_cases hid : id = s.sLoggers.length
          · have hnone : s.place id ≠ some other := fun hplace =>
              Nat.lt_irrefl _ (hid ▸ place_lt hplace)
            simp [hid, Ne.symm hother]
            exact hid ▸ hnone
          · simp [hid]
      · unfold registerLogger
        rw [if_neg (Nat.not_lt.mpr hroom)]
        simp
      · unfold registerLogger
        rw [if_neg (Nat.not_lt.mpr hroom)]
        simpa using hroom
  · -- the logger is refused, and gets the invalid id
    have hrefused : s.registerLogger logger loggerName answer = s.write logger
        { s.memory logger with m_loggerId := COMMUTIL_INVALID_LOGGER_ID } := by
      unfold registerLogger
      rw [if_pos (Nat.not_le.mp hroom)]
    rw [hrefused]
    constructor
    · intro h'
      by_contra hregistered
      have howner : s.registered logger = true := by simpa using hregistered
      have hplace := (h'.owner COMMUTIL_INVALID_LOGGER_ID logger).mpr
        ⟨howner, idOf_write_self _ _ _⟩
      rw [h'.place_invalid] at hplace
      cases hplace
    · intro hfree
      exact h.write hfree _

/-- Whatever is in the place of the logger is taken out, and no other place changes. -/
theorem place_unregisterLogger (h : s.Owned) (id : Nat) :
    (s.unregisterLogger logger).place id =
      if id = s.idOf logger then none else s.place id := by
  unfold unregisterLogger
  simp only [place]
  split
  · rename_i hinvalid
    split
    · rename_i hid
      have hnone := h.place_invalid
      rw [hid, hinvalid]
      exact hnone
    · rfl
  split
  · rename_i hlt
    have hspec := (trimLoop_spec (s.sLoggers.set (s.idOf logger) none)
      (s.sLoggers.length - 1) fun j hj => by
        rw [List.getElem?_eq_none (by rw [List.length_set]; omega)]
        rfl).1 id
    rw [hspec]
    by_cases hid : id = s.idOf logger
    · rw [if_pos hid, hid, List.getElem?_set_self hlt]
      rfl
    · rw [if_neg hid, List.getElem?_set_ne (Ne.symm hid)]
  · rename_i hge
    split
    · rename_i hid
      rw [hid, List.getElem?_eq_none (Nat.not_lt.mp hge)]
      rfl
    · rfl

/-- Unregistering leaves the ids, and the logger is not expected to be there any more. -/
theorem unregisterLogger_rest (s : Registry) (logger : Nat) :
    (s.unregisterLogger logger).memory = s.memory ∧
      (s.unregisterLogger logger).registered = Function.update s.registered logger false :=
  ⟨rfl, rfl⟩

/-- The last place stays taken. -/
theorem unregisterLogger_sLoggers (h : s.Owned) (logger : Nat) :
    (s.unregisterLogger logger).sLoggers.getLast? ≠ some none ∧
      (s.unregisterLogger logger).sLoggers.length ≤ MAX_LOGGERS + 1 := by
  unfold unregisterLogger
  dsimp only
  split
  · exact ⟨h.trimmed, h.length_le⟩
  split
  · obtain ⟨-, hlast, hle⟩ := trimLoop_spec (s.sLoggers.set (s.idOf logger) none)
      (s.sLoggers.length - 1) fun j hj => by
        rw [List.getElem?_eq_none (by rw [List.length_set]; omega)]
        rfl
    rw [List.length_set] at hle
    exact ⟨hlast, Nat.le_trans hle h.length_le⟩
  · exact ⟨h.trimmed, h.length_le⟩

/-- Unregistering keeps the places owned exactly if it takes away nobody else's. -/
theorem unregisterLogger_owned_iff (h : s.Owned) :
    (s.unregisterLogger logger).Owned ↔
      s.registered logger = true ∨ s.place (s.idOf logger) = none := by
  obtain ⟨hmemory, hregistered⟩ := unregisterLogger_rest s logger
  have hid : ∀ other, (s.unregisterLogger logger).idOf other = s.idOf other := by
    intro other
    rw [idOf, hmemory]
    rfl
  constructor
  · intro h'
    by_contra hnot
    rw [not_or] at hnot
    obtain ⟨hfree, hsome⟩ := hnot
    -- another logger is in the place, and is taken out of it
    obtain ⟨other, hother⟩ := Option.ne_none_iff_exists'.mp hsome
    obtain ⟨howner, hsame⟩ := (h.owner _ _).mp hother
    have hne : other ≠ logger := by
      rintro rfl
      exact hfree howner
    have hplace := (h'.owner (s.idOf logger) other).mpr (by
      rw [hregistered, Function.update_of_ne hne, hid]
      exact ⟨howner, hsame⟩)
    rw [place_unregisterLogger h, if_pos rfl] at hplace
    cases hplace
  · intro horderly
    obtain ⟨hlast, hle⟩ := unregisterLogger_sLoggers h logger
    refine ⟨fun id other => ?_, hlast, hle⟩
    rw [place_unregisterLogger h, hregistered, hid]
    by_cases hother : other = logger
    · subst hother
      rw [Function.update_self]
      simp only [Bool.false_eq_true, false_and, iff_false]
      split
      · simp
      · rename_i hne
        intro hplace
        exact hne ((h.owner _ _).mp hplace).2.symm
    · rw [Function.update_of_ne hother, ← h.owner]
      split
      · rename_i heq
        -- the place is the one of the logger, or of nobody
        have hnot : s.place id ≠ some other := by
          rcases horderly with howner | hnone
          · have hmine := (h.owner (s.idOf logger) logger).mpr ⟨howner, rfl⟩
            rw [heq, hmine]
            exact fun hsame => hother (Option.some.inj hsame).symm
          · rw [heq, hnone]
            simp
        simp [hnot]
      · rfl

/-- **Exactly the orderly calls keep the places owned.** -/
theorem perform_owned_iff (h : s.Owned) (op : Op) : (s.perform op).Owned ↔ s.Orderly op := by
  cases op with
  | register logger loggerName answer => exact registerLogger_owned_iff h logger loggerName answer
  | unregister logger => exact unregisterLogger_owned_iff h
  | setLoggerSeverity loggerId severity =>
    exact iff_of_true (h.setLoggerSeverity loggerId severity) trivial
  | setLogSeverity severity => exact iff_of_true ⟨h.owner, h.trimmed, h.length_le⟩ trivial

end Calls

/-- **Registered loggers own their places**, in every state of a sequence of calls, exactly if no
    logger is registered twice and none is unregistered while its id is another one's place. -/
theorem loggers_own_places_iff (ops : List Op) :
    Throughout perform Owned start ops ↔ EachStep perform Orderly start ops :=
  @throughout_iff_eachStep _ _ perform _ _ Owned (fun _ => True) (fun _ _ => True) _
    (fun _ _ _ _ => trivial) (fun _ op _ h _ => perform_owned_iff h op) trivial start_owned
    (eachStep_true perform start ops)

/-- A logger is unregistered a second time, after another one has got its place: that one is
    taken out. -/
theorem stale_id_takes_place :
    let s := [Op.register 0 "tls" .LS_INFO, .unregister 0, .register 1 "Msg" .LS_INFO,
      .unregister 0].foldl perform start
    s.registered 1 = true ∧ s.sLoggers = [] := by
  decide

/-! ## §4 Several loggers at once -/

/-- `registerLogger` for some loggers in turn. -/
def registerAll (s : Registry) (answers : Nat → LogSeverity) : List (Nat × String) → Registry
  | [] => s
  | (logger, loggerName) :: rest =>
    registerAll (s.registerLogger logger loggerName (answers logger)) answers rest

/-- `unregisterLogger` for some loggers in turn. -/
def unregisterAll (s : Registry) : List Nat → Registry
  | [] => s
  | logger :: rest => unregisterAll (s.unregisterLogger logger) rest

/-- Loggers that are not registered, and of which there are not too many, get the next places. -/
theorem registerAll_spec {answers : Nat → LogSeverity} {loggers : List (Nat × String)}
    (h : s.Owned) (hfree : ∀ l ∈ loggers.map Prod.fst, s.registered l = false)
    (hnodup : (loggers.map Prod.fst).Nodup)
    (hroom : s.sLoggers.length + loggers.length ≤ MAX_LOGGERS + 1) :
    (s.registerAll answers loggers).Owned ∧
      (∀ l ∈ loggers.map Prod.fst, (s.registerAll answers loggers).registered l = true ∧
        s.sLoggers.length ≤ (s.registerAll answers loggers).idOf l) ∧
      ∀ l, l ∉ loggers.map Prod.fst →
        (s.registerAll answers loggers).registered l = s.registered l ∧
        (s.registerAll answers loggers).idOf l = s.idOf l := by
  -- induction on the loggers that are left; the free places shrink with the list
  induction loggers generalizing s with
  | nil => exact ⟨h, fun l hl => absurd hl List.not_mem_nil, fun l _ => ⟨rfl, rfl⟩⟩
  | cons first rest ih =>
    obtain ⟨logger, loggerName⟩ := first
    rw [List.map_cons, List.nodup_cons] at hnodup
    rw [List.length_cons] at hroom
    have hroom' : s.sLoggers.length ≤ MAX_LOGGERS := by omega
    have hfirst : s.registered logger = false := hfree logger List.mem_cons_self
    have howned := (registerLogger_owned_iff h logger loggerName (answers logger)).mpr hfirst
    have hregistered := @registered_registerLogger s logger loggerName (answers logger) hroom'
    have hlength : (s.registerLogger logger loggerName (answers logger)).sLoggers.length =
        s.sLoggers.length + 1 := by
      unfold registerLogger
      rw [if_neg (Nat.not_lt.mpr hroom')]
      simp
    -- registering the first leaves the others free, as no name comes twice
    have hrest : ∀ l ∈ rest.map Prod.fst,
        (s.registerLogger logger loggerName (answers logger)).registered l = false := by
      intro l hl
      have hne : l ≠ logger := by
        rintro rfl
        exact hnodup.1 hl
      rw [hregistered, Function.update_of_ne hne]
      exact hfree l (List.mem_cons_of_mem _ hl)
    obtain ⟨hdone, hin, hout⟩ := ih howned hrest hnodup.2 (by omega)
    refine ⟨hdone, fun l hl => ?_, fun l hl => ?_⟩
    · rcases List.mem_cons.mp hl with rfl | hl
      · -- the first logger: the rest of the list does not touch it
        obtain ⟨hkept, hid⟩ := hout l hnodup.1
        rw [registerAll, hkept, hid, hregistered, Function.update_self,
          idOf_registerLogger_self hroom']
        exact ⟨rfl, Nat.le_refl _⟩
      · obtain ⟨hset, hid⟩ := hin l hl
        exact ⟨hset, by rw [registerAll]; omega⟩
    · rw [List.map_cons, List.mem_cons, not_or] at hl
      obtain ⟨hkept, hid⟩ := hout l hl.2
      rw [registerAll, hkept, hid, hregistered, Function.update_of_ne hl.1,
        idOf_registerLogger_ne hl.1]
      exact ⟨rfl, rfl⟩

/-- Loggers whose unregistering is orderly now may be unregistered in any order. -/
theorem unregisterAll_spec {loggers : List Nat} (h : s.Owned)
    (horderly : ∀ l ∈ loggers, s.registered l = true ∨ s.place (s.idOf l) = none) :
    (s.unregisterAll loggers).Owned ∧ (s.unregisterAll loggers).memory = s.memory ∧
      (∀ l ∈ loggers, (s.unregisterAll loggers).registered l = false) ∧
      ∀ l, l ∉ loggers → (s.unregisterAll loggers).registered l = s.registered l := by
  induction loggers generalizing s with
  | nil => exact ⟨h, rfl, fun l hl => absurd hl List.not_mem_nil, fun l _ => rfl⟩
  | cons logger rest ih =>
    obtain ⟨hmemory, hregistered⟩ := unregisterLogger_rest s logger
    have howned := (unregisterLogger_owned_iff h).mpr (horderly logger List.mem_cons_self)
    -- taking one out makes the others no less orderly
    have hrest : ∀ l ∈ rest, (s.unregisterLogger logger).registered l = true ∨
        (s.unregisterLogger logger).place ((s.unregisterLogger logger).idOf l) = none := by
      intro l hl
      rw [place_unregisterLogger h, hregistered]
      have hid : (s.unregisterLogger logger).idOf l = s.idOf l := rfl
      rw [hid]
      by_cases hsame : l = logger
      · rw [hsame, if_pos rfl]
        exact .inr rfl
      · rw [Function.update_of_ne hsame]
        refine (horderly l (List.mem_cons_of_mem _ hl)).imp id fun hnone => ?_
        split
        · rfl
        · exact hnone
    obtain ⟨hdone, hmemory', hin, hout⟩ := ih howned hrest
    refine ⟨hdone, hmemory'.trans hmemory, fun l hl => ?_, fun l hl => ?_⟩
    · rcases List.mem_cons.mp hl with rfl | hl
      · by_cases hagain : l ∈ rest
        · exact hin l hagain
        · rw [unregisterAll, hout l hagain, hregistered, Function.update_self]
      · exact hin l hl
    · rw [List.mem_cons, not_or] at hl
      rw [unregisterAll, hout l hl.2, hregistered, Function.update_of_ne hl.1]

/-- The logger has a place that is not the one of its id. -/
def Misplaced (s : Registry) (logger : Nat) : Prop :=
  ∃ id, s.place id = some logger ∧ s.idOf logger ≠ id

theorem Misplaced.not_owned (h : s.Misplaced logger) : ¬ s.Owned := by
  obtain ⟨id, hplace, hne⟩ := h
  intro howned
  exact hne ((howned.owner _ _).mp hplace).2

/-- Registering other loggers does not help. -/
theorem Misplaced.registerLogger (h : s.Misplaced logger) {other : Nat} (hne : logger ≠ other)
    (loggerName : String) (answer : LogSeverity) :
    (s.registerLogger other loggerName answer).Misplaced logger := by
  obtain ⟨id, hplace, hid⟩ := h
  refine ⟨id, ?_, ?_⟩
  · by_cases hroom : s.sLoggers.length ≤ MAX_LOGGERS
    · rw [place_registerLogger hroom, if_neg (Nat.ne_of_lt (place_lt hplace))]
      exact hplace
    · unfold Registry.registerLogger
      rw [if_pos (Nat.not_le.mp hroom)]
      exact hplace
  · rw [idOf_registerLogger_ne hne]
    exact hid

theorem Misplaced.registerAll (h : s.Misplaced logger) {answers : Nat → LogSeverity}
    {loggers : List (Nat × String)} (hother : logger ∉ loggers.map Prod.fst) :
    (s.registerAll answers loggers).Misplaced logger := by
  induction loggers generalizing s with
  | nil => exact h
  | cons first rest ih =>
    rw [List.map_cons, List.mem_cons, not_or] at hother
    exact ih (h.registerLogger hother.1 _ _) hother.2

/-- A logger that is registered a second time is misplaced. -/
theorem misplaced_of_registered (h : s.Owned) (hregistered : s.registered logger = true)
    (loggerName : String) (answer : LogSeverity) :
    (s.registerLogger logger loggerName answer).Misplaced logger := by
  have hplace : s.place (s.idOf logger) = some logger := (h.owner _ _).mpr ⟨hregistered, rfl⟩
  have hlt := place_lt hplace
  by_cases hroom : s.sLoggers.length ≤ MAX_LOGGERS
  · refine ⟨s.idOf logger, ?_, ?_⟩
    · rw [place_registerLogger hroom, if_neg (Nat.ne_of_lt hlt)]
      exact hplace
    · rw [idOf_registerLogger_self hroom]
      omega
  · refine ⟨s.idOf logger, ?_, ?_⟩
    · unfold Registry.registerLogger
      rw [if_pos (Nat.not_le.mp hroom)]
      exact hplace
    · unfold Registry.registerLogger
      rw [if_pos (Nat.not_le.mp hroom), idOf_write_self]
      intro hinvalid
      rw [← show COMMUTIL_INVALID_LOGGER_ID = s.idOf logger from hinvalid, h.place_invalid] at hplace
      cases hplace

end Registry

/-! ## §5 The loggers of the library -/

/-- The logger of `commutil_tls.cpp`. -/
def tlsLogger : Nat := 0

/-- `registerIoLoggers`. -/
def ioLoggers : List (Nat × String) := [(1, "SegmentedInputStream")]

/-- `registerTransportLoggers`. -/
def transportLoggers : List (Nat × String) :=
  [(2, "transport"), (3, "ConnectionDetails"), (4, "DataClient"), (5, "DataLoopListener"),
    (6, "DataServer"), (7, "DataStreamClient"), (8, "DataStreamServer"), (9, "PipeClient"),
    (10, "PipeServer"), (11, "TcpClient"), (12, "TcpServer"), (13, "UdpClient"), (14, "UdpServer")]

/-- `registerMsgLoggers`; the one of `MsgRequestPool` is not among them. -/
def msgLoggers : List (Nat × String) :=
  [(15, "Msg"), (16, "MsgAssembler"), (17, "MsgBacklog"), (18, "MsgClient"), (19, "MsgFrameReader"),
    (20, "MsgFrameWriter"), (21, "MsgMultiplexer"), (22, "MsgRequest"), (23, "MsgSender"),
    (24, "MsgServer")]

/-- The loggers of the classes, in the order in which they are registered. -/
def classLoggers : List (Nat × String) := ioLoggers ++ transportLoggers ++ msgLoggers

/-- The loggers of the classes, in the order in which they are unregistered. -/
def classLoggersOff : List Nat :=
  (msgLoggers ++ transportLoggers.reverse ++ ioLoggers).map Prod.fst

/-- The library: the log module, whether there is a key for the log data of the threads, and
    whether it is initialized. -/
structure CommUtil where
  registry : Registry
  sLogDataKey : Bool
  sIsInitialized : Bool

namespace CommUtil

/-- When the program begins. -/
def start : CommUtil := ⟨.start, false, false⟩

/-- `initCommUtil`: `answers` are those of the log handler, `createTls` is the result of the
    system. -/
def initCommUtil (s : CommUtil) (logHandler : Bool) (severity : LogSeverity)
    (answers : Nat → LogSeverity) (createTls : Bool) : ErrorCode × CommUtil :=
  if s.sIsInitialized then (.invalidState, s)
  else
    let registry := (s.registry.initLog logHandler severity).registerLogger tlsLogger "tls"
      (answers tlsLogger)
    let s := { s with registry }
    -- the logger is not unregistered when the rest fails
    if s.sLogDataKey then (.invalidState, s)
    else if !createTls then (.systemFailure, s)
    else (.ok, ⟨registry.registerAll answers classLoggers, true, true⟩)

/-- `destroyLogDataKey`. -/
def destroyLogDataKey (s : CommUtil) (destroyTls : Bool) : ErrorCode × CommUtil :=
  if !s.sLogDataKey then (.ok, s)
  else if !destroyTls then (.systemFailure, s)
  else (.ok, { s with sLogDataKey := false })

/-- `termCommUtil`, with the results of the system for `beginTermLog` and `termLog`. -/
def termCommUtil (s : CommUtil) (destroyTls destroyTls' : Bool) : ErrorCode × CommUtil :=
  if !s.sIsInitialized then (.invalidState, s)
  else
    let s := { s with registry := s.registry.unregisterAll classLoggersOff }
    let (rc, s) := s.destroyLogDataKey destroyTls
    if rc ≠ .ok then (rc, s)
    else
      let s := { s with registry := s.registry.unregisterLogger tlsLogger }
      let (rc, s) := s.destroyLogDataKey destroyTls'
      if rc ≠ .ok then (rc, s)
      else (.ok, { s with sIsInitialized := false })

/-- A call of the library. -/
inductive Call where
  | initCommUtil (logHandler : Bool) (severity : LogSeverity) (answers : Nat → LogSeverity)
      (createTls : Bool)
  | termCommUtil (destroyTls destroyTls' : Bool)
  | setLoggerSeverity (loggerId : Nat) (severity : LogSeverity)
  | setLogSeverity (severity : LogSeverity)

/-- A call is made. -/
def perform (s : CommUtil) : Call → CommUtil
  | .initCommUtil logHandler severity answers createTls =>
    (s.initCommUtil logHandler severity answers createTls).2
  | .termCommUtil destroyTls destroyTls' => (s.termCommUtil destroyTls destroyTls').2
  | .setLoggerSeverity loggerId severity =>
    { s with registry := s.registry.setLoggerSeverity loggerId severity }
  | .setLogSeverity severity => { s with registry := s.registry.setLogSeverity severity }

/-- The library is not initialized again after an initialization has failed. -/
def Orderly (s : CommUtil) : Call → Prop
  | .initCommUtil _ _ _ _ =>
    s.sIsInitialized = false → s.registry.registered tlsLogger = false
  | _ => True

/-- What is known of the library as long as places are owned. -/
structure Shape (s : CommUtil) : Prop where
  others : ∀ l, l ≠ tlsLogger → l ∉ classLoggersOff → s.registry.registered l = false
  off : s.sIsInitialized = false →
    s.sLogDataKey = false ∧ ∀ l ∈ classLoggersOff, s.registry.registered l = false
  on : s.sIsInitialized = true → s.registry.registered tlsLogger = true ∧
    ((∀ l ∈ classLoggersOff, s.registry.registered l = true) ∨
      (∀ l ∈ classLoggersOff, s.registry.registered l = false)) ∧
    ∀ l ∈ classLoggersOff, s.registry.idOf l ≠ s.registry.idOf tlsLogger

theorem mem_classLoggersOff {l : Nat} :
    l ∈ classLoggersOff ↔ l ∈ classLoggers.map Prod.fst := by
  have hperm : classLoggersOff.Perm (classLoggers.map Prod.fst) := by decide
  exact hperm.mem_iff

variable {s : CommUtil}

theorem start_shape : start.Shape :=
  ⟨fun _ _ _ => rfl, fun _ => ⟨rfl, fun _ _ => rfl⟩, fun hon => absurd hon (by simp [start])⟩

theorem tlsLogger_not_class : tlsLogger ∉ classLoggers.map Prod.fst := by decide

theorem classLoggers_nodup : (classLoggers.map Prod.fst).Nodup := by decide

theorem classLoggers_fit : 1 + classLoggers.length ≤ MAX_LOGGERS + 1 := by decide

/-- Before the library is initialized only the logger of TLS can be registered. -/
theorem Shape.sLoggers_eq_nil (hshape : s.Shape) (howned : s.registry.Owned)
    (hoff : s.sIsInitialized = false) (hfree : s.registry.registered tlsLogger = false) :
    s.registry.sLoggers = [] := by
  apply howned.sLoggers_eq_nil
  intro l
  by_cases hl : l = tlsLogger
  · rw [hl]
    exact hfree
  by_cases hclass : l ∈ classLoggersOff
  · exact (hshape.off hoff).2 l hclass
  · exact hshape.others l hl hclass

/-- The first registration after `initLog`. -/
theorem Registry.registerLogger_first {r : Registry} (hnil : r.sLoggers = []) (logHandler : Bool)
    (severity answer : LogSeverity) (logger : Nat) (loggerName : String) :
    ((r.initLog logHandler severity).registerLogger logger loggerName answer).sLoggers.length = 1 ∧
      ((r.initLog logHandler severity).registerLogger logger loggerName answer).idOf logger = 0 ∧
      ((r.initLog logHandler severity).registerLogger logger loggerName answer).registered =
        Function.update r.registered logger true := by
  have hroom : (r.initLog logHandler severity).sLoggers.length ≤ MAX_LOGGERS := by
    rw [show (r.initLog logHandler severity).sLoggers = r.sLoggers from rfl, hnil]
    exact Nat.zero_le _
  refine ⟨?_, ?_, ?_⟩
  · rw [Registry.registerLogger, if_neg (Nat.not_lt.mpr hroom)]
    simp [Registry.initLog, hnil]
  · rw [Registry.idOf_registerLogger_self hroom]
    simp [Registry.initLog, hnil]
  · rw [Registry.registered_registerLogger hroom]
    rfl

theorem ne_tlsLogger {l : Nat} (hl : l ∈ classLoggersOff) : l ≠ tlsLogger := by
  rintro rfl
  exact tlsLogger_not_class (mem_classLoggersOff.mp hl)

/-- **The class loggers** come after the logger of TLS, which is the only one so far, and have ids of
    their own. -/
theorem Registry.registerAll_classes {r after : Registry} (h : r.Owned)
    (hlength : r.sLoggers.length = 1) (hid : r.idOf tlsLogger = 0)
    (hset : r.registered tlsLogger = true)
    (hothers : ∀ l, l ≠ tlsLogger → r.registered l = false) {answers : Nat → LogSeverity}
    (hafter : r.registerAll answers classLoggers = after) :
    after.Owned ∧ CommUtil.Shape ⟨after, true, true⟩ := by
  have hfit : r.sLoggers.length + classLoggers.length ≤ MAX_LOGGERS + 1 := by
    rw [hlength]
    exact classLoggers_fit
  have hfree : ∀ l ∈ classLoggers.map Prod.fst, r.registered l = false := fun l hl =>
    hothers l (ne_tlsLogger (mem_classLoggersOff.mpr hl))
  have hspec := @Registry.registerAll_spec _ answers _ h hfree classLoggers_nodup hfit
  rw [hafter] at hspec
  obtain ⟨howned, hin, hout⟩ := hspec
  obtain ⟨hkept, hidkept⟩ := hout tlsLogger tlsLogger_not_class
  refine ⟨howned, fun l hl hclass => ?_, fun hoff => ?_,
    fun _ => ⟨?_, .inl fun l hl => ?_, fun l hl => ?_⟩⟩
  · rw [(hout l fun h => hclass (mem_classLoggersOff.mpr h)).1]
    exact hothers l hl
  · cases hoff
  · rw [hkept]
    exact hset
  · exact (hin l (mem_classLoggersOff.mp hl)).1
  · have hge := (hin l (mem_classLoggersOff.mp hl)).2
    rw [hlength] at hge
    show after.idOf l ≠ after.idOf tlsLogger
    rw [hidkept, hid]
    omega

/-- `initCommUtil` keeps the places owned exactly if the logger of TLS is not registered, and then
    the log module was empty. -/
theorem initCommUtil_spec (hshape : s.Shape) (howned : s.registry.Owned)
    (hoff : s.sIsInitialized = false) (logHandler : Bool) (severity : LogSeverity)
    (answers : Nat → LogSeverity) (createTls : Bool) :
    ((s.initCommUtil logHandler severity answers createTls).2.registry.Owned ↔
      s.registry.registered tlsLogger = false) ∧
      (s.registry.registered tlsLogger = false →
        (s.initCommUtil logHandler severity answers createTls).2.Shape) := by
  obtain ⟨hkey, hclasses⟩ := hshape.off hoff
  have hinit : (s.registry.initLog logHandler severity).Owned :=
    ⟨howned.owner, howned.trimmed, howned.length_le⟩
  have htls : ((s.registry.initLog logHandler severity).registerLogger tlsLogger "tls"
      (answers tlsLogger)).Owned ↔ s.registry.registered tlsLogger = false :=
    Registry.registerLogger_owned_iff hinit tlsLogger "tls" (answers tlsLogger)
  -- what the first registration comes to
  have hfirst := fun hfree => Registry.registerLogger_first
    (hshape.sLoggers_eq_nil howned hoff hfree) logHandler severity (answers tlsLogger) tlsLogger
    "tls"
  generalize hr : (s.registry.initLog logHandler severity).registerLogger tlsLogger "tls"
    (answers tlsLogger) = registry at htls hfirst
  have hregistered : s.registry.registered tlsLogger = false → ∀ l, l ≠ tlsLogger →
      registry.registered l = s.registry.registered l := by
    intro hfree l hl
    rw [(hfirst hfree).2.2, Function.update_of_ne hl]
  -- the registration of the class loggers is reached only if the key can be created
  cases createTls with
  | false =>
    have heq : (s.initCommUtil logHandler severity answers false).2 = { s with registry } := by
      unfold initCommUtil
      rw [hoff, hkey, ← hr]
      rfl
    rw [heq]
    refine ⟨htls, fun hfree => ⟨fun l hl hclass => ?_, fun _ => ⟨hkey, fun l hl => ?_⟩, ?_⟩⟩
    · exact (hregistered hfree l hl).trans (hshape.others l hl hclass)
    · exact (hregistered hfree l (ne_tlsLogger hl)).trans (hclasses l hl)
    · intro hon
      rw [show s.sIsInitialized = true from hon] at hoff
      cases hoff
  | true =>
    have heq : (s.initCommUtil logHandler severity answers true).2 =
        ⟨registry.registerAll answers classLoggers, true, true⟩ := by
      unfold initCommUtil
      rw [hoff, hkey, ← hr]
      rfl
    rw [heq]
    generalize hafter : registry.registerAll answers classLoggers = after
    cases hfree : s.registry.registered tlsLogger with
    | true =>
      -- registered twice, it stays misplaced whatever is registered after it
      have hmisplaced := Registry.misplaced_of_registered hinit hfree "tls" (answers tlsLogger)
      rw [hr] at hmisplaced
      have hstays := @Registry.Misplaced.registerAll _ _ hmisplaced answers _ tlsLogger_not_class
      rw [hafter] at hstays
      exact ⟨iff_of_false hstays.not_owned (by simp), fun h => absurd h (by simp)⟩
    | false =>
      obtain ⟨hlength, hid, hset⟩ := hfirst hfree
      have hothers : ∀ l, l ≠ tlsLogger → registry.registered l = false := by
        intro l hl
        rw [hregistered hfree l hl]
        by_cases hclass : l ∈ classLoggersOff
        · exact hclasses l hclass
        · exact hshape.others l hl hclass
      obtain ⟨howned', hshape'⟩ := Registry.registerAll_classes (htls.mpr hfree) hlength hid
        (by rw [hset, Function.update_self]) hothers hafter
      exact ⟨iff_of_true howned' rfl, fun _ => hshape'⟩

/-- When the library is initialized, every logger of a class may be unregistered. -/
theorem Shape.unregister (hshape : s.Shape) (howned : s.registry.Owned)
    (hon : s.sIsInitialized = true) :
    ∀ l ∈ classLoggersOff, s.registry.registered l = true ∨
      s.registry.place (s.registry.idOf l) = none := by
  obtain ⟨htls, hall | hnone, hne⟩ := hshape.on hon
  · exact fun l hl => .inl (hall l hl)
  · intro l hl
    refine .inr ?_
    -- only the logger of TLS has a place, and it is another one
    cases hplace : s.registry.place (s.registry.idOf l) with
    | none => rfl
    | some other =>
      exfalso
      obtain ⟨hregistered, hid⟩ := (howned.owner _ _).mp hplace
      by_cases htlsOther : other = tlsLogger
      · rw [htlsOther] at hid
        exact hne l hl hid.symm
      · by_cases hclass : other ∈ classLoggersOff
        · rw [hnone other hclass] at hregistered
          cases hregistered
        · rw [hshape.others other htlsOther hclass] at hregistered
          cases hregistered

/-- `termCommUtil` keeps the places owned, whatever fails. -/
theorem termCommUtil_spec (hshape : s.Shape) (howned : s.registry.Owned)
    (destroyTls destroyTls' : Bool) :
    (s.termCommUtil destroyTls destroyTls').2.registry.Owned ∧
      (s.termCommUtil destroyTls destroyTls').2.Shape := by
  cases hon : s.sIsInitialized with
  | false =>
    have heq : s.termCommUtil destroyTls destroyTls' = (.invalidState, s) := by
      unfold termCommUtil
      rw [hon]
      rfl
    rw [heq]
    exact ⟨howned, hshape⟩
  -- the loggers of the classes go first, and the ids of the others stay
  | true =>
    have hspec := Registry.unregisterAll_spec howned (hshape.unregister howned hon)
    have htls := (hshape.on hon).1
    have hids := (hshape.on hon).2.2
    generalize hafter : s.registry.unregisterAll classLoggersOff = after at hspec
    obtain ⟨howned', hmemory, hin, hout⟩ := hspec
    have hidOf : ∀ l, after.idOf l = s.registry.idOf l := by
      intro l
      rw [Registry.idOf, hmemory]
      rfl
    have htls' : after.registered tlsLogger = true := by
      rw [hout tlsLogger fun h => tlsLogger_not_class (mem_classLoggersOff.mp h)]
      exact htls
    have hothers : ∀ l, l ≠ tlsLogger → l ∉ classLoggersOff → after.registered l = false := by
      intro l hl hclass
      rw [hout l hclass]
      exact hshape.others l hl hclass
    by_cases hfails : s.sLogDataKey = true ∧ destroyTls = false
    · -- the library stays initialized, without the loggers of the classes
      have heq : s.termCommUtil destroyTls destroyTls' =
          (.systemFailure, { s with registry := after }) := by
        simp [termCommUtil, destroyLogDataKey, hon, hafter, hfails.1, hfails.2]
      rw [heq]
      refine ⟨howned', hothers, fun hoff => ?_, fun _ => ⟨htls', .inr hin, fun l hl => ?_⟩⟩
      · rw [show s.sIsInitialized = false from hoff] at hon
        cases hon
      · show after.idOf l ≠ after.idOf tlsLogger
        rw [hidOf, hidOf]
        exact hids l hl
    · -- then the logger of the thread local buffers goes, and with it the library is off
      have heq : s.termCommUtil destroyTls destroyTls' =
          (.ok, ⟨after.unregisterLogger tlsLogger, false, false⟩) := by
        cases hkey : s.sLogDataKey with
        | false => simp [termCommUtil, destroyLogDataKey, hon, hafter, hkey]
        | true =>
          have hdestroy : destroyTls = true := by
            cases destroyTls with
            | false => exact absurd ⟨hkey, rfl⟩ hfails
            | true => rfl
          simp [termCommUtil, destroyLogDataKey, hon, hafter, hkey, hdestroy]
      rw [heq]
      have hregistered := (Registry.unregisterLogger_rest after tlsLogger).2
      have hne : ∀ l ∈ classLoggersOff, l ≠ tlsLogger := by
        rintro l hl rfl
        exact tlsLogger_not_class (mem_classLoggersOff.mp hl)
      refine ⟨(Registry.unregisterLogger_owned_iff howned').mpr (.inl htls'), fun l hl hclass => ?_,
        fun _ => ⟨rfl, fun l hl => ?_⟩, fun h => ?_⟩
      · show (after.unregisterLogger tlsLogger).registered l = false
        rw [hregistered, Function.update_of_ne hl]
        exact hothers l hl hclass
      · show (after.unregisterLogger tlsLogger).registered l = false
        rw [hregistered, Function.update_of_ne (hne l hl)]
        exact hin l hl
      · cases h

/-- What is known of the library does not depend on the severities. -/
theorem Shape.with_registry (hshape : s.Shape) {registry : Registry}
    (hregistered : registry.registered = s.registry.registered)
    (hids : ∀ l, registry.idOf l = s.registry.idOf l) :
    Shape { s with registry } := by
  refine ⟨fun l hl hclass => ?_, fun hoff => ⟨(hshape.off hoff).1, fun l hl => ?_⟩, fun hon => ?_⟩
  · show registry.registered l = false
    rw [hregistered]
    exact hshape.others l hl hclass
  · show registry.registered l = false
    rw [hregistered]
    exact (hshape.off hoff).2 l hl
  · show registry.registered tlsLogger = true ∧
      ((∀ l ∈ classLoggersOff, registry.registered l = true) ∨
        ∀ l ∈ classLoggersOff, registry.registered l = false) ∧
      ∀ l ∈ classLoggersOff, registry.idOf l ≠ registry.idOf tlsLogger
    rw [hregistered]
    simp only [hids]
    exact hshape.on hon

/-- A call keeps the places owned exactly if it is orderly, and then what is known of the library
    stays true. -/
theorem perform_spec (hshape : s.Shape) (howned : s.registry.Owned) (call : Call) :
    ((s.perform call).registry.Owned ↔ s.Orderly call) ∧
      ((s.perform call).registry.Owned → (s.perform call).Shape) := by
  cases call with
  | initCommUtil logHandler severity answers createTls =>
    cases hon : s.sIsInitialized with
    | true =>
      have heq : s.initCommUtil logHandler severity answers createTls = (.invalidState, s) := by
        unfold initCommUtil
        rw [hon]
        rfl
      have hperform : s.perform (.initCommUtil logHandler severity answers createTls) = s :=
        congrArg Prod.snd heq
      rw [hperform]
      refine ⟨iff_of_true howned fun hoff => ?_, fun _ => hshape⟩
      rw [hon] at hoff
      cases hoff
    | false =>
      obtain ⟨hiff, hkept⟩ := initCommUtil_spec hshape howned hon logHandler severity answers
        createTls
      exact ⟨hiff.trans ⟨fun h _ => h, fun h => h hon⟩, fun h => hkept (hiff.mp h)⟩
  | termCommUtil destroyTls destroyTls' =>
    obtain ⟨howned', hshape'⟩ := termCommUtil_spec hshape howned destroyTls destroyTls'
    exact ⟨iff_of_true howned' trivial, fun _ => hshape'⟩
  | setLoggerSeverity loggerId severity =>
    obtain ⟨-, hregistered, hids⟩ := Registry.setLoggerSeverity_rest s.registry loggerId severity
    exact ⟨iff_of_true (howned.setLoggerSeverity loggerId severity) trivial,
      fun _ => hshape.with_registry hregistered hids⟩
  | setLogSeverity severity =>
    exact ⟨iff_of_true ⟨howned.owner, howned.trimmed, howned.length_le⟩ trivial,
      fun _ => hshape.with_registry rfl fun _ => rfl⟩

/-- **The loggers of the library own their places** whatever fails in `initCommUtil` and
    `termCommUtil`, exactly if no `initCommUtil` follows one that has failed. -/
theorem library_loggers_own_places_iff (calls : List Call) :
    Throughout perform (fun s => s.registry.Owned) start calls ↔
      EachStep perform Orderly start calls := by
  refine @throughout_iff_eachStep_of_kept _ _ perform _ _ _ Shape _ ?_ ?_ ?_ ?_
  · exact fun s call hshape howned => (perform_spec hshape howned call).2
  · exact fun s call hshape howned => (perform_spec hshape howned call).1
  · exact start_shape
  · exact Registry.start_owned

/-- No key could be created, and the library is initialized once more: the logger of TLS has two
    places. -/
example :
    let failed := start.perform (.initCommUtil false .LS_INFO (fun _ => .LS_INFO) false)
    let again := failed.perform (.initCommUtil false .LS_INFO (fun _ => .LS_INFO) false)
    again.registry.sLoggers = [some tlsLogger, some tlsLogger] := by
  decide

end CommUtil

end Commutil.Logging
