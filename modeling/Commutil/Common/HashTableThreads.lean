import Commutil.Common.HashTableMap

/-!
# Threads in the Hash Table

`ConcurrentHashTable` called by several threads at once.  Every access of the array is a step of
its own: the load of a key, the compare-exchange of a key, and the load and the store of a value.
The accesses are taken to be sequentially consistent.

Without removals keys are permanent, and that is what the table rests on: a key that is in the
table when a search begins is found, a search never returns a value of another key, and only a full
table refuses a key (`concurrent_inserts_are_found`).  A key has one entry as long as no thread
loses the race for an entry to its own key, which the loops do not look at again
(`concurrent_keys_unique`).
-/

namespace Commutil.Common.ConcurrentHashTable

open Commutil.Library

/-! ## §1 The threads -/

variable {β : Type}

/-- A call of a member function. -/
inductive Call (β : Type) where
  | setItem (key : UInt64) (value : β)
  | getOrSetItem (key : UInt64) (value : β)
  | getItem (key : UInt64)
  | removeItem (key : UInt64)
  | removeAt (idx : UInt32)
  deriving DecidableEq, Repr

/-- The key of a call; `removeAt` has none. -/
def Call.key : Call β → UInt64
  | .setItem key _ => key
  | .getOrSetItem key _ => key
  | .getItem key => key
  | .removeItem key => key
  | .removeAt _ => 0

/-- The call stores the value under the key, unless it finds the key or no room. -/
def Call.Stores (c : Call β) (key : UInt64) (value : β) : Prop :=
  c = .setItem key value ∨ c = .getOrSetItem key value

/-- The call stores a value. -/
def Call.inserts : Call β → Bool
  | .setItem _ _ | .getOrSetItem _ _ => true
  | _ => false

/-- The call removes an entry. -/
def Call.removes : Call β → Bool
  | .removeItem _ | .removeAt _ => true
  | _ => false

/-- The call searches or inserts, and its key is not the mark of a vacant entry. -/
def Call.Plain (c : Call β) : Prop := c.key ≠ 0 ∧ c.removes = false

instance (c : Call β) : Decidable c.Plain := inferInstanceAs (Decidable (_ ∧ _))

/-- What a call returns. -/
inductive Answer (β : Type) where
  /-- An entry id, and whether `getOrSetItem` has found the key. -/
  | entry (idx : UInt32) (found : Bool)
  | value (idx : UInt32) (value : β)
  /-- `COMMUTIL_INVALID_CHT_ENTRY_ID`. -/
  | invalid
  deriving DecidableEq, Repr

/-- The entry id that a call has returned. -/
def Answer.idx? : Answer β → Option UInt32
  | .entry idx _ => some idx
  | .value idx _ => some idx
  | .invalid => none

/-- Where a thread is in a call. -/
inductive Pc (β : Type) where
  | returned
  /-- Before the load of a key, with the rounds of the loop that are left. -/
  | probe (c : Call β) (left : Nat) (idx : UInt32)
  /-- The entry was vacant, the compare-exchange is next. -/
  | grab (c : Call β) (left : Nat) (idx : UInt32)
  | storeValue (c : Call β) (idx : UInt32)
  | loadValue (c : Call β) (idx : UInt32)
  /-- `removeItem` has found its key. -/
  | takeOut (c : Call β) (idx : UInt32)
  /-- Before the store of `removeAt`. -/
  | clear (c : Call β) (idx : UInt32)
  deriving DecidableEq, Repr

/-- The call a thread is in. -/
def Pc.call? : Pc β → Option (Call β)
  | .returned => none
  | .probe c _ _ => some c
  | .grab c _ _ => some c
  | .storeValue c _ => some c
  | .loadValue c _ => some c
  | .takeOut c _ => some c
  | .clear c _ => some c

/-- A thread is about to remove an entry. -/
def Pc.removes : Pc β → Bool
  | .takeOut _ _ | .clear _ _ => true
  | _ => false

/-- A call that has returned, with the table as it was when the call began. -/
structure Finished (β : Type) where
  call : Call β
  before : ConcurrentHashTable β
  answer : Answer β
  deriving DecidableEq, Repr

/-- A table and its threads.  `before` is the table when the current call of a thread began;
    `begun` and `finished` are logs. -/
structure Shared (β : Type) where
  table : ConcurrentHashTable β
  threads : Nat → Pc β
  before : Nat → ConcurrentHashTable β
  begun : List (Call β)
  finished : List (Finished β)

namespace Shared

/-- After `initialize`. -/
def start (size : Nat) (garbage : β) : Shared β where
  table := initTable size garbage
  threads := fun _ => .returned
  before := fun _ => initTable size garbage
  begun := []
  finished := []

/-- A thread goes on. -/
def goTo (s : Shared β) (thread : Nat) (pc : Pc β) : Shared β :=
  { s with threads := Function.update s.threads thread pc }

/-- A call returns. -/
def finish (s : Shared β) (thread : Nat) (c : Call β) (answer : Answer β) : Shared β :=
  { s.goTo thread .returned with finished := s.finished ++ [⟨c, s.before thread, answer⟩] }

/-- The load of a key in the loops. -/
def probeStep (s : Shared β) (thread : Nat) (c : Call β) (left : Nat) (idx : UInt32)
    (probedKey : UInt64) : Shared β :=
  match c with
  | .setItem key _ =>
    if probedKey ≠ key then
      if probedKey ≠ 0 then s.goTo thread (.probe c left (idx + 1))
      else s.goTo thread (.grab c left idx)
    else s.goTo thread (.storeValue c idx)
  | .getOrSetItem key _ =>
    if probedKey = key then s.finish thread c (.entry idx true)
    else if probedKey ≠ 0 then s.goTo thread (.probe c left (idx + 1))
    else s.goTo thread (.grab c left idx)
  | .getItem key =>
    if probedKey = key then s.goTo thread (.loadValue c idx)
    else s.goTo thread (.probe c left (idx + 1))
  | .removeItem key =>
    if probedKey ≠ key then s.goTo thread (.probe c left (idx + 1))
    else s.goTo thread (.takeOut c idx)
  | .removeAt idx => s.goTo thread (.clear c idx)

/-- The store of a value. -/
def valueOf : Call β → β → β
  | .setItem _ value, _ => value
  | .getOrSetItem _ value, _ => value
  | _, old => old

/-- Where a call begins. -/
def entryPoint (s : Shared β) : Call β → Pc β
  | .removeAt idx => .clear (.removeAt idx) idx
  | c => .probe c s.table.m_size (hash64 c.key)

/-- The next step of a thread. -/
def run (s : Shared β) (thread : Nat) : Option (Shared β) :=
  match s.threads thread with
  | .returned => none
  | .probe c left idx =>
    match left with
    | 0 => some (s.finish thread c .invalid)
    | left + 1 =>
      let idx := s.table.mask idx
      (s.table.m_entries[idx.toNat]?).map fun entry => s.probeStep thread c left idx entry.m_key
  | .grab c left idx =>
    (s.table.m_entries[idx.toNat]?).map fun entry =>
      if entry.m_key = 0 then
        { s.goTo thread (.storeValue c idx) with
          table := s.table.store idx { entry with m_key := c.key } }
      -- the key that is there now is not compared again
      else s.goTo thread (.probe c left (idx + 1))
  | .storeValue c idx =>
    (s.table.m_entries[idx.toNat]?).map fun entry =>
      { s.finish thread c (.entry idx false) with
        table := s.table.store idx { entry with m_value := valueOf c entry.m_value } }
  | .loadValue c idx =>
    (s.table.m_entries[idx.toNat]?).map fun entry => s.finish thread c (.value idx entry.m_value)
  | .takeOut c idx =>
    (s.table.m_entries[idx.toNat]?).map fun entry =>
      if entry.m_key = c.key then
        { s.finish thread c (.entry idx false) with
          table := s.table.store idx { entry with m_key := 0 } }
      else s.finish thread c (.entry idx false)
  | .clear c idx =>
    (s.table.m_entries[idx.toNat]?).map fun entry =>
      { s.finish thread c (.entry idx false) with
        table := s.table.store idx { entry with m_key := 0 } }

/-- A thread begins a call, or goes on with it. -/
inductive Event (β : Type) where
  | call (thread : Nat) (c : Call β)
  | run (thread : Nat)
  deriving DecidableEq, Repr

/-- One step, if it is possible. -/
def step (s : Shared β) : Event β → Option (Shared β)
  | .call thread c =>
    match s.threads thread with
    | .returned =>
      some { s.goTo thread (s.entryPoint c) with
        before := Function.update s.before thread s.table
        begun := s.begun ++ [c] }
    | _ => none
  | .run thread => s.run thread

/-- No call removes anything. -/
def InsertOnly (_ : Shared β) : Event β → Prop
  | .call _ c => c.Plain
  | .run _ => True

/-- The entry the thread is about to take has got the same key from another thread. -/
def LostToTwin (s : Shared β) : Pc β → Prop
  | .grab c _ idx => s.table.keyAt idx.toNat = some c.key
  | _ => False

/-- The thread does not lose an entry to another one that inserts the same key. -/
def NoTwin (s : Shared β) : Event β → Prop
  | .call _ _ => True
  | .run thread => ¬ s.LostToTwin (s.threads thread)

instance (s : Shared β) : ∀ e, Decidable (s.InsertOnly e)
  | .call _ c => inferInstanceAs (Decidable c.Plain)
  | .run _ => .isTrue trivial

instance (s : Shared β) : ∀ pc, Decidable (s.LostToTwin pc)
  | .grab c _ idx => inferInstanceAs (Decidable (s.table.keyAt idx.toNat = some c.key))
  | .returned | .probe _ _ _ | .storeValue _ _ | .loadValue _ _ | .takeOut _ _ | .clear _ _ =>
    .isFalse id

instance (s : Shared β) : ∀ e, Decidable (s.NoTwin e)
  | .call _ _ => .isTrue trivial
  | .run thread => inferInstanceAs (Decidable (¬ s.LostToTwin (s.threads thread)))

/-! ## §2 What a step does without removals -/

/-- The steps of a thread in a call that searches or inserts. -/
inductive Runs (s : Shared β) (thread : Nat) : Shared β → Prop where
  /-- The loop has gone once round. -/
  | exhausted {c : Call β} {idx : UInt32} (hpc : s.threads thread = .probe c 0 idx) :
      Runs s thread (s.finish thread c .invalid)
  | pass {c : Call β} {left : Nat} {idx : UInt32} {probedKey : UInt64}
      (hpc : s.threads thread = .probe c (left + 1) idx)
      (hkey : s.table.keyAt (s.table.mask idx).toNat = some probedKey) (hne : probedKey ≠ c.key)
      (hused : c.inserts = true → probedKey ≠ 0) :
      Runs s thread (s.goTo thread (.probe c left (s.table.mask idx + 1)))
  | vacant {c : Call β} {left : Nat} {idx : UInt32} (hinserts : c.inserts = true)
      (hpc : s.threads thread = .probe c (left + 1) idx)
      (hkey : s.table.keyAt (s.table.mask idx).toNat = some 0) :
      Runs s thread (s.goTo thread (.grab c left (s.table.mask idx)))
  | hit {c : Call β} {left : Nat} {idx : UInt32} {pc : Pc β}
      (hpc : s.threads thread = .probe c (left + 1) idx)
      (hkey : s.table.keyAt (s.table.mask idx).toNat = some c.key)
      (hnext : pc = .storeValue c (s.table.mask idx) ∧ c.inserts = true ∨
        pc = .loadValue c (s.table.mask idx) ∧ c = .getItem c.key) :
      Runs s thread (s.goTo thread pc)
  /-- `getOrSetItem` has found its key. -/
  | present {c : Call β} {left : Nat} {idx : UInt32} (hinserts : c.inserts = true)
      (hpc : s.threads thread = .probe c (left + 1) idx)
      (hkey : s.table.keyAt (s.table.mask idx).toNat = some c.key) :
      Runs s thread (s.finish thread c (.entry (s.table.mask idx) true))
  | grabbed {c : Call β} {left : Nat} {idx : UInt32} {entry : Entry β}
      (hpc : s.threads thread = .grab c left idx)
      (hentry : s.table.m_entries[idx.toNat]? = some entry) (hvacant : entry.m_key = 0) :
      Runs s thread { s.goTo thread (.storeValue c idx) with
        table := s.table.store idx { entry with m_key := c.key } }
  /-- The race for the entry is lost. -/
  | lost {c : Call β} {left : Nat} {idx : UInt32} {probedKey : UInt64}
      (hpc : s.threads thread = .grab c left idx)
      (hkey : s.table.keyAt idx.toNat = some probedKey) (hused : probedKey ≠ 0) :
      Runs s thread (s.goTo thread (.probe c left (idx + 1)))
  | stored {c : Call β} {idx : UInt32} {entry : Entry β}
      (hpc : s.threads thread = .storeValue c idx)
      (hentry : s.table.m_entries[idx.toNat]? = some entry) :
      Runs s thread { s.finish thread c (.entry idx false) with
        table := s.table.store idx { entry with m_value := valueOf c entry.m_value } }
  | loaded {c : Call β} {idx : UInt32} {entry : Entry β}
      (hpc : s.threads thread = .loadValue c idx)
      (hentry : s.table.m_entries[idx.toNat]? = some entry) :
      Runs s thread (s.finish thread c (.value idx entry.m_value))

theorem run_runs {s s' : Shared β} {thread : Nat} (h : s.run thread = some s')
    (hplain : ∀ c, (s.threads thread).call? = some c → c.Plain)
    (hkeeps : (s.threads thread).removes = false) : Runs s thread s' := by
  unfold run at h
  split at h
  · cases h
  · -- the probe of the next entry, by the call
    rename_i c left idx hpc
    have hc : c.Plain := hplain c (by rw [hpc]; rfl)
    split at h
    · cases h
      exact .exhausted hpc
    · rename_i left
      obtain ⟨entry, hentry, hs'⟩ := Option.map_eq_some_iff.mp h
      have hkey : s.table.keyAt (s.table.mask idx).toNat = some entry.m_key :=
        keyAt_eq_some.mpr ⟨entry, hentry, rfl⟩
      cases c with
      | setItem key value =>
        simp only [probeStep] at hs'
        split at hs'
        · -- another key or a vacant entry
          rename_i hne
          split at hs'
          · rename_i hused
            subst hs'
            exact .pass hpc hkey hne fun _ => hused
          · rename_i hvacant
            subst hs'
            rw [not_not.mp hvacant] at hkey
            exact .vacant rfl hpc hkey
        · -- the key is there, and its value will be overwritten
          rename_i hsame
          subst hs'
          rw [not_not.mp hsame] at hkey
          exact .hit hpc hkey (.inl ⟨rfl, rfl⟩)
      | getOrSetItem key value =>
        simp only [probeStep] at hs'
        split at hs'
        · rename_i hsame
          subst hs'
          rw [hsame] at hkey
          exact .present rfl hpc hkey
        · -- vacant or of another key
          rename_i hne
          split at hs'
          · rename_i hused
            subst hs'
            exact .pass hpc hkey hne fun _ => hused
          · rename_i hvacant
            subst hs'
            rw [not_not.mp hvacant] at hkey
            exact .vacant rfl hpc hkey
      -- `getItem` does not stop at a vacant entry
      | getItem key =>
        simp only [probeStep] at hs'
        split at hs'
        · rename_i hsame
          subst hs'
          rw [hsame] at hkey
          exact .hit hpc hkey (.inr ⟨rfl, rfl⟩)
        · rename_i hne
          subst hs'
          exact .pass hpc hkey hne nofun
      | removeItem key => cases hc.2
      | removeAt idx => cases hc.2
  · -- the compare-exchange on a vacant entry
    rename_i c left idx hpc
    obtain ⟨entry, hentry, hs'⟩ := Option.map_eq_some_iff.mp h
    split at hs'
    · rename_i hvacant
      subst hs'
      exact .grabbed hpc hentry hvacant
    · rename_i hused
      subst hs'
      exact .lost hpc (keyAt_eq_some.mpr ⟨entry, hentry, rfl⟩) hused
  · -- the store of a value, and its load
    rename_i c idx hpc
    obtain ⟨entry, hentry, rfl⟩ := Option.map_eq_some_iff.mp h
    exact .stored hpc hentry
  · rename_i c idx hpc
    obtain ⟨entry, hentry, rfl⟩ := Option.map_eq_some_iff.mp h
    exact .loaded hpc hentry
  · -- removals are excluded
    rename_i c idx hpc
    rw [hpc] at hkeeps
    cases hkeeps
  · rename_i c idx hpc
    rw [hpc] at hkeeps
    cases hkeeps

end Shared

/-! ## §3 Tables that only gain keys -/

/-- Keys that are in the table stay where they are. -/
structure Keeps (t t' : ConcurrentHashTable β) : Prop where
  size_eq : t'.m_size = t.m_size
  key_eq : ∀ i k, k ≠ 0 → t.keyAt i = some k → t'.keyAt i = some k

theorem Keeps.refl (t : ConcurrentHashTable β) : Keeps t t := ⟨rfl, fun _ _ _ h => h⟩

theorem Keeps.trans {t₁ t₂ t₃ : ConcurrentHashTable β} (h₁ : Keeps t₁ t₂) (h₂ : Keeps t₂ t₃) :
    Keeps t₁ t₃ :=
  ⟨h₂.size_eq.trans h₁.size_eq, fun i k hk h => h₂.key_eq i k hk (h₁.key_eq i k hk h)⟩

theorem Keeps.sized {t t' : ConcurrentHashTable β} (h : Keeps t t') (hs : t.Sized) : t'.Sized := by
  obtain ⟨k, hk, hsize⟩ := hs
  exact ⟨k, hk, h.size_eq.trans hsize⟩

theorem Keeps.probe_eq {t t' : ConcurrentHashTable β} (h : Keeps t t') (idx : UInt32) (n : Nat) :
    t'.probe idx n = t.probe idx n := by
  unfold probe
  rw [h.size_eq]

theorem Keeps.mask_eq {t t' : ConcurrentHashTable β} (h : Keeps t t') (idx : UInt32) :
    t'.mask idx = t.mask idx := by
  unfold mask
  rw [h.size_eq]

/-- An entry in use stays in use. -/
theorem Keeps.used {t t' : ConcurrentHashTable β} (h : Keeps t t') {i : Nat}
    (hi : i < t.m_size) (hused : t.keyAt i ≠ some 0) : t'.keyAt i ≠ some 0 := by
  obtain ⟨k, hk⟩ := keyAt_of_lt hi
  have hne : k ≠ 0 := by
    rintro rfl
    exact hused hk
  rw [h.key_eq i k hne hk]
  intro heq
  exact hne (Option.some.inj heq)

variable {table : ConcurrentHashTable β} {idx : UInt32} {entry : Entry β}

/-- A vacant entry is taken. -/
theorem keeps_grab (hentry : table.m_entries[idx.toNat]? = some entry) (hvacant : entry.m_key = 0)
    (new : Entry β) : Keeps table (table.store idx new) := by
  refine ⟨m_size_store _ _, fun i k hk h => ?_⟩
  have hne : idx.toNat ≠ i := by
    rintro rfl
    rw [keyAt, hentry] at h
    exact hk ((Option.some.inj h).symm.trans hvacant)
  rw [keyAt_store_ne hne]
  exact h

/-- Another value is stored under the same key. -/
theorem keeps_store (hentry : table.m_entries[idx.toNat]? = some entry) (value : β) :
    Keeps table (table.store idx { entry with m_value := value }) := by
  refine ⟨m_size_store _ _, fun i k _ h => ?_⟩
  by_cases hidx : idx.toNat = i
  · subst hidx
    rw [keyAt_store_self (lt_of_keyAt h)]
    rw [keyAt, hentry] at h
    exact h
  · rw [keyAt_store_ne hidx]
    exact h

/-- The loop for a key is at this index, with so many rounds left. -/
structure Reaches (table : ConcurrentHashTable β) (key : UInt64) (left : Nat) (idx : UInt32) :
    Prop where
  le : left ≤ table.m_size
  path : ∀ m, table.probe idx m = table.probe (hash64 key) (table.m_size - left + m)

theorem reaches_start (table : ConcurrentHashTable β) (key : UInt64) :
    Reaches table key table.m_size (hash64 key) :=
  ⟨Nat.le_refl _, fun m => by rw [Nat.sub_self, Nat.zero_add]⟩

theorem Reaches.next {key : UInt64} {left : Nat} (hs : table.Sized)
    (h : Reaches table key (left + 1) idx) : Reaches table key left (table.mask idx + 1) := by
  have hle := h.le
  refine ⟨by omega, fun m => ?_⟩
  rw [hs.probe_succ, h.path]
  congr 1
  omega

theorem Reaches.here {key : UInt64} {left : Nat} (hs : table.Sized)
    (h : Reaches table key (left + 1) idx) :
    (table.mask idx).toNat = table.probe (hash64 key) (table.m_size - (left + 1)) := by
  rw [hs.mask_toNat]
  exact h.path 0

/-- What holds of the entries that were passed, and of the one that is looked at, holds of all that
    are passed after this round. -/
theorem Reaches.round {key : UInt64} {left : Nat} {P : Nat → Prop} (hs : table.Sized)
    (h : Reaches table key (left + 1) idx)
    (hpassed : ∀ m < table.m_size - (left + 1), P (table.probe (hash64 key) m))
    (hhere : P (table.mask idx).toNat) :
    ∀ m < table.m_size - left, P (table.probe (hash64 key) m) := by
  have hle := h.le
  have hround : table.m_size - left = table.m_size - (left + 1) + 1 := by omega
  intro m hm
  rcases Nat.lt_succ_iff_lt_or_eq.mp (hround ▸ hm) with hlt | rfl
  · exact hpassed m hlt
  · rw [← h.here hs]
    exact hhere

theorem Reaches.keeps {t' : ConcurrentHashTable β} {key : UInt64} {left : Nat}
    (h : Reaches table key left idx) (hk : Keeps table t') : Reaches t' key left idx := by
  refine ⟨hk.size_eq ▸ h.le, fun m => ?_⟩
  rw [hk.probe_eq, hk.probe_eq, hk.size_eq]
  exact h.path m

namespace Shared

/-! ## §4 The invariant -/

/-- The first entries on the path of a key are in use. -/
def UsedBefore (table : ConcurrentHashTable β) (key : UInt64) (n : Nat) : Prop :=
  ∀ m < n, table.keyAt (table.probe (hash64 key) m) ≠ some 0

/-- What a thread knows in a call: an insertion has only passed entries in use, a search only
    entries that did not have its key when it began. -/
def PcOk (s : Shared β) (thread : Nat) : Pc β → Prop
  | .returned => True
  | .probe c left idx => Reaches s.table c.key left idx ∧
      (c.inserts = true → UsedBefore s.table c.key (s.table.m_size - left)) ∧
      (c.inserts = false → ∀ m < s.table.m_size - left,
        (s.before thread).keyAt (s.table.probe (hash64 c.key) m) ≠ some c.key)
  | .grab c left idx => c.inserts = true ∧
      (∃ idx', idx = s.table.mask idx' ∧ Reaches s.table c.key (left + 1) idx') ∧
      UsedBefore s.table c.key (s.table.m_size - (left + 1))
  | .storeValue c idx => c.inserts = true ∧ s.table.keyAt idx.toNat = some c.key
  | .loadValue c idx => c = .getItem c.key ∧ s.table.keyAt idx.toNat = some c.key
  | .takeOut _ _ => False
  | .clear _ _ => False

/-- A value is the one the array was made with, or one that was stored under the key. -/
def Allowed (garbage : β) (begun : List (Call β)) (key : UInt64) (value : β) : Prop :=
  value = garbage ∨ key ≠ 0 ∧ ∃ c ∈ begun, c.Stores key value

/-- What a call that has returned rests on, then and later. -/
structure Justified (garbage : β) (s : Shared β) (r : Finished β) : Prop where
  plain : r.call.Plain
  before : Keeps r.before s.table
  entry : ∀ idx found, r.answer = .entry idx found → s.table.keyAt idx.toNat = some r.call.key
  value : ∀ idx value, r.answer = .value idx value →
    s.table.keyAt idx.toNat = some r.call.key ∧ Allowed garbage s.begun r.call.key value
  missed : r.answer = .invalid → r.call.inserts = false →
    ∀ i, r.before.keyAt i ≠ some r.call.key
  refused : r.answer = .invalid → r.call.inserts = true → ∀ i, s.table.keyAt i ≠ some 0

/-- **The invariant** of a table from which nothing is removed. -/
structure Inv (garbage : β) (s : Shared β) : Prop where
  sized : s.table.Sized
  before : ∀ thread, Keeps (s.before thread) s.table
  call : ∀ thread c, (s.threads thread).call? = some c → c.Plain ∧ c ∈ s.begun
  pc : ∀ thread, s.PcOk thread (s.threads thread)
  values : ∀ (i : Nat) (entry : Entry β), s.table.m_entries[i]? = some entry →
    Allowed garbage s.begun entry.m_key entry.m_value
  path : ∀ key m, key ≠ 0 → m < s.table.m_size →
    s.table.keyAt (s.table.probe (hash64 key) m) = some key → UsedBefore s.table key m
  finished : ∀ r ∈ s.finished, s.Justified garbage r

variable {garbage : β} {s s' : Shared β} {thread : Nat}

theorem UsedBefore.keeps {t t' : ConcurrentHashTable β} (hk : Keeps t t') (hs : t.Sized)
    {key : UInt64} {n : Nat} (h : UsedBefore t key n) : UsedBefore t' key n := by
  intro m hm
  rw [hk.probe_eq]
  exact hk.used (hs.probe_lt _ _) (h m hm)

/-- What a thread knows stays true when others insert. -/
theorem PcOk.keeps (hk : Keeps s.table s'.table) (hs : s.table.Sized)
    (hbefore : s'.before thread = s.before thread) {pc : Pc β} (h : s.PcOk thread pc)
    (hplain : ∀ c, pc.call? = some c → c.Plain) : s'.PcOk thread pc := by
  cases pc with
  | returned => trivial
  | probe c left idx =>
    refine ⟨h.1.keeps hk, fun hinserts => ?_, fun hsearch => ?_⟩
    · rw [hk.size_eq]
      exact (h.2.1 hinserts).keeps hk hs
    · rw [hk.size_eq, hbefore]
      intro m hm
      rw [hk.probe_eq]
      exact h.2.2 hsearch m hm
  | grab c left idx =>
    obtain ⟨hinserts, ⟨idx', hidx, hreach⟩, hused⟩ := h
    refine ⟨hinserts, ⟨idx', ?_, hreach.keeps hk⟩, ?_⟩
    · rw [hk.mask_eq]
      exact hidx
    · rw [hk.size_eq]
      exact hused.keeps hk hs
  | storeValue c idx => exact ⟨h.1, hk.key_eq _ _ (hplain c rfl).1 h.2⟩
  | loadValue c idx => exact ⟨h.1, hk.key_eq _ _ (hplain c rfl).1 h.2⟩
  | takeOut c idx => exact h
  | clear c idx => exact h

theorem Allowed.mono {begun begun' : List (Call β)} {key : UInt64} {value : β}
    (h : Allowed garbage begun key value) (hsub : ∀ c ∈ begun, c ∈ begun') :
    Allowed garbage begun' key value := by
  rcases h with hgarbage | ⟨hkey, c, hc, hstores⟩
  · exact .inl hgarbage
  · exact .inr ⟨hkey, c, hsub c hc, hstores⟩

/-- The key of a call is in the entry that it has returned. -/
theorem Justified.keyAt_idx {r : Finished β} (h : s.Justified garbage r) {idx : UInt32}
    (hidx : r.answer.idx? = some idx) : s.table.keyAt idx.toNat = some r.call.key := by
  cases hanswer : r.answer with
  | entry idx' found =>
    rw [hanswer] at hidx
    cases hidx
    exact h.entry idx found hanswer
  | value idx' value =>
    rw [hanswer] at hidx
    cases hidx
    exact (h.value idx value hanswer).1
  | invalid =>
    rw [hanswer] at hidx
    cases hidx

theorem Justified.keeps {r : Finished β} (h : s.Justified garbage r)
    (hk : Keeps s.table s'.table) (hbegun : ∀ c ∈ s.begun, c ∈ s'.begun) :
    s'.Justified garbage r := by
  refine ⟨h.plain, h.before.trans hk, ?_, ?_, h.missed, ?_⟩
  · intro idx found hanswer
    exact hk.key_eq _ _ h.plain.1 (h.entry idx found hanswer)
  · intro idx value hanswer
    obtain ⟨hat, hvalue⟩ := h.value idx value hanswer
    exact ⟨hk.key_eq _ _ h.plain.1 hat, hvalue.mono hbegun⟩
  · intro hanswer hinserts i hvacant
    have hi := lt_of_keyAt hvacant
    rw [hk.size_eq] at hi
    exact hk.used hi (h.refused hanswer hinserts i) hvacant

/-- A thread goes on, and perhaps writes an entry and returns. -/
theorem Inv.advance (h : s.Inv garbage) {t : ConcurrentHashTable β} {pc : Pc β}
    {finished : List (Finished β)}
    (hs' : s' = ⟨t, Function.update s.threads thread pc, s.before, s.begun, finished⟩)
    (hk : Keeps s.table t) (hcall : ∀ c, pc.call? = some c → (s.threads thread).call? = some c)
    (hok : s'.PcOk thread pc)
    (hvalues : ∀ (i : Nat) (entry : Entry β), t.m_entries[i]? = some entry →
      Allowed garbage s.begun entry.m_key entry.m_value)
    (hpath : ∀ key m, key ≠ 0 → m < t.m_size → t.keyAt (t.probe (hash64 key) m) = some key →
      UsedBefore t key m)
    (hfinished : ∀ r ∈ finished, r ∈ s.finished ∨ s'.Justified garbage r) : s'.Inv garbage := by
  have hthreads : s'.threads = Function.update s.threads thread pc := by rw [hs']
  have hcalls : ∀ other c, (s'.threads other).call? = some c → c.Plain ∧ c ∈ s.begun := by
    intro other c hc
    rw [hthreads] at hc
    by_cases hother : other = thread
    · -- this thread is still in the call that it was in
      subst hother
      rw [Function.update_self] at hc
      exact h.call other c (hcall c hc)
    · rw [Function.update_of_ne hother] at hc
      exact h.call other c hc
  have hk' : Keeps s.table s'.table := by rw [hs']; exact hk
  refine ⟨hk'.sized h.sized, ?_, ?_, ?_, ?_, ?_, ?_⟩
  · intro other
    rw [hs']
    exact (h.before other).trans hk
  · intro other c hc
    rw [hs']
    exact hcalls other c hc
  · intro other
    by_cases hother : other = thread
    · -- this thread: the caller shows the clause
      have hpc : s'.threads other = pc := by rw [hthreads, hother, Function.update_self]
      rw [hpc, hother]
      exact hok
    · -- the others do not read what changed
      have hpc : s'.threads other = s.threads other := by
        rw [hthreads, Function.update_of_ne hother]
      rw [hpc]
      refine (h.pc other).keeps hk' h.sized (by rw [hs']) fun c hc => ?_
      exact (h.call other c hc).1
  · rw [hs']
    exact hvalues
  · rw [hs']
    exact hpath
  · intro r hr
    rw [hs'] at hr
    rcases hfinished r hr with hold | hnew
    · -- what is recorded stays justified by the new table
      exact (h.finished r hold).keeps hk' fun c hc => by rw [hs']; exact hc
    · exact hnew

/-- The entry at the end of a path that was all in use is taken: the paths stay in use. -/
theorem Inv.path_grab (h : s.Inv garbage) {c : Call β} {left : Nat} {idx : UInt32}
    {entry : Entry β} (hok : s.PcOk thread (.grab c left idx))
    (hentry : s.table.m_entries[idx.toNat]? = some entry) (hvacant : entry.m_key = 0)
    (key : UInt64) (m : Nat) (hne : key ≠ 0)
    (hm : m < (s.table.store idx { entry with m_key := c.key }).m_size)
    (hat : (s.table.store idx { entry with m_key := c.key }).keyAt
      ((s.table.store idx { entry with m_key := c.key }).probe (hash64 key) m) = some key) :
    UsedBefore (s.table.store idx { entry with m_key := c.key }) key m := by
  obtain ⟨-, ⟨idx', rfl, hreach⟩, hused⟩ := hok
  have hk := keeps_grab hentry hvacant { entry with m_key := c.key }
  have hlt : (s.table.mask idx').toNat < s.table.m_size :=
    (List.getElem?_eq_some_iff.mp hentry).1
  rw [m_size_store] at hm
  rw [hk.probe_eq] at hat
  by_cases hidx : (s.table.mask idx').toNat = s.table.probe (hash64 key) m
  · -- the entry that was taken: its key is the one of the call
    rw [← hidx, keyAt_store_self hlt] at hat
    obtain rfl : c.key = key := Option.some.inj hat
    rw [hreach.here h.sized] at hidx
    have hround := probe_inj (by have := hreach.le; omega) hm hidx
    rw [← hround]
    exact hused.keeps hk h.sized
  · rw [keyAt_store_ne hidx] at hat
    exact (h.path key m hne hm hat).keeps hk h.sized

/-- A thread goes on in its call, and the table is as before. -/
theorem Inv.goTo (h : s.Inv garbage) {pc : Pc β} (hcall : pc.call? = (s.threads thread).call?)
    (hok : s.PcOk thread pc) : (s.goTo thread pc).Inv garbage :=
  h.advance rfl (.refl _) (fun _ hc => hcall ▸ hc) hok h.values h.path fun _ hr => .inl hr

/-- A call returns, and the table is as before. -/
theorem Inv.finish (h : s.Inv garbage) {c : Call β} {answer : Answer β}
    (hanswer : (s.finish thread c answer).Justified garbage ⟨c, s.before thread, answer⟩) :
    (s.finish thread c answer).Inv garbage := by
  refine h.advance rfl (.refl _) (by simp [Pc.call?]) trivial h.values h.path fun r hr => ?_
  rcases List.mem_append.mp hr with hold | hnew
  · exact .inl hold
  · obtain rfl := List.mem_singleton.mp hnew
    exact .inr hanswer

/-- An entry is written, with a value that is allowed for its key. -/
theorem Inv.values_store (h : s.Inv garbage) {idx : UInt32} {new : Entry β}
    (hallowed : Allowed garbage s.begun new.m_key new.m_value) (i : Nat) (entry : Entry β)
    (hentry : (s.table.store idx new).m_entries[i]? = some entry) :
    Allowed garbage s.begun entry.m_key entry.m_value := by
  by_cases hi : idx.toNat = i
  · subst hi
    have hlt := (List.getElem?_eq_some_iff.mp hentry).1
    rw [store, List.length_set] at hlt
    rw [store, List.getElem?_set_self hlt] at hentry
    cases hentry
    exact hallowed
  · rw [store, List.getElem?_set_ne hi] at hentry
    exact h.values i entry hentry

/-- The loop has gone once round: it has seen every entry. -/
theorem Inv.exhausted (h : s.Inv garbage) {c : Call β} {idx : UInt32}
    (hpc : s.threads thread = .probe c 0 idx) : (s.finish thread c .invalid).Inv garbage := by
  have hok := h.pc thread
  rw [hpc] at hok
  have hplain := (h.call thread c (by rw [hpc]; rfl)).1
  refine h.finish ⟨hplain, h.before thread, by simp, by simp, fun _ hsearch i hi => ?_,
    fun _ hinserts i hvacant => ?_⟩
  · -- a search has not met its key
    have hlt := lt_of_keyAt ((h.before thread).key_eq i _ hplain.1 hi)
    obtain ⟨n, hn, rfl⟩ := h.sized.exists_probe (hash64 c.key) hlt
    exact hok.2.2 hsearch n hn hi
  · -- an insertion has not met a vacant entry
    obtain ⟨n, hn, rfl⟩ := h.sized.exists_probe (hash64 c.key) (lt_of_keyAt hvacant)
    exact hok.2.1 hinserts n hn hvacant

/-- The loop passes an entry with another key. -/
theorem Inv.pass (h : s.Inv garbage) {c : Call β} {left : Nat} {idx : UInt32} {probedKey : UInt64}
    (hpc : s.threads thread = .probe c (left + 1) idx)
    (hkey : s.table.keyAt (s.table.mask idx).toNat = some probedKey) (hne : probedKey ≠ c.key)
    (hused : c.inserts = true → probedKey ≠ 0) :
    (s.goTo thread (.probe c left (s.table.mask idx + 1))).Inv garbage := by
  have hok := h.pc thread
  rw [hpc] at hok
  have hplain := (h.call thread c (by rw [hpc]; rfl)).1
  refine h.goTo (by rw [hpc]; rfl) ⟨hok.1.next h.sized, fun hinserts => ?_, fun hsearch => ?_⟩
  · refine hok.1.round h.sized (P := fun i => s.table.keyAt i ≠ some 0) (hok.2.1 hinserts) ?_
    rw [hkey]
    exact fun heq => hused hinserts (Option.some.inj heq)
  · refine hok.1.round h.sized (P := fun i => (s.before thread).keyAt i ≠ some c.key)
      (hok.2.2 hsearch) fun hbefore => ?_
    -- a key that was there when the call began would still be there
    have hnow := (h.before thread).key_eq _ _ hplain.1 hbefore
    rw [hkey] at hnow
    exact hne (Option.some.inj hnow)

/-- The compare-exchange succeeds: the key of the call is in the entry. -/
theorem Inv.grabbed (h : s.Inv garbage) {c : Call β} {left : Nat} {idx : UInt32} {entry : Entry β}
    (hpc : s.threads thread = .grab c left idx)
    (hentry : s.table.m_entries[idx.toNat]? = some entry) (hvacant : entry.m_key = 0) :
    Inv garbage { s.goTo thread (.storeValue c idx) with
      table := s.table.store idx { entry with m_key := c.key } } := by
  have hok := h.pc thread
  rw [hpc] at hok
  have hlt := (List.getElem?_eq_some_iff.mp hentry).1
  -- a vacant entry still has the value it was made with
  have hvalue : entry.m_value = garbage :=
    (h.values _ entry hentry).resolve_right fun hstored => hstored.1 hvacant
  refine h.advance rfl (keeps_grab hentry hvacant _) (by rw [hpc]; exact fun _ => id)
    ⟨hok.1, ?_⟩ ?_ (h.path_grab hok hentry hvacant) fun r hr => .inl hr
  · exact keyAt_store_self hlt
  · exact h.values_store (.inl hvalue)

/-- The compare-exchange fails: the entry is in use, and the loop goes on. -/
theorem Inv.lost (h : s.Inv garbage) {c : Call β} {left : Nat} {idx : UInt32} {probedKey : UInt64}
    (hpc : s.threads thread = .grab c left idx) (hkey : s.table.keyAt idx.toNat = some probedKey)
    (hused : probedKey ≠ 0) : (s.goTo thread (.probe c left (idx + 1))).Inv garbage := by
  have hok := h.pc thread
  rw [hpc] at hok
  obtain ⟨hinserts, ⟨idx', rfl, hreach⟩, hbefore⟩ := hok
  refine h.goTo (by rw [hpc]; rfl) ⟨hreach.next h.sized, fun _ => ?_, fun hsearch => ?_⟩
  · refine hreach.round h.sized (P := fun i => s.table.keyAt i ≠ some 0) hbefore ?_
    rw [hkey]
    exact fun heq => hused (Option.some.inj heq)
  · rw [hinserts] at hsearch
    cases hsearch

/-- A value stored under the key that is there leaves the paths as they are. -/
theorem Inv.path_store (h : s.Inv garbage) {idx : UInt32} {entry : Entry β}
    (hentry : s.table.m_entries[idx.toNat]? = some entry) (value : β) (key : UInt64) (m : Nat)
    (hne : key ≠ 0) (hm : m < (s.table.store idx { entry with m_value := value }).m_size)
    (hat : (s.table.store idx { entry with m_value := value }).keyAt
      ((s.table.store idx { entry with m_value := value }).probe (hash64 key) m) = some key) :
    UsedBefore (s.table.store idx { entry with m_value := value }) key m := by
  have hk := keeps_store hentry value
  have hlt := (List.getElem?_eq_some_iff.mp hentry).1
  rw [m_size_store] at hm
  rw [hk.probe_eq] at hat
  refine (h.path key m hne hm ?_).keeps hk h.sized
  by_cases hi : idx.toNat = s.table.probe (hash64 key) m
  · rw [← hi, keyAt_store_self hlt] at hat
    rw [← hi, keyAt, hentry]
    exact hat
  · rw [keyAt_store_ne hi] at hat
    exact hat

/-- The value of an insertion is stored, and the call returns. -/
theorem Inv.stored (h : s.Inv garbage) {c : Call β} {idx : UInt32} {entry : Entry β}
    (hpc : s.threads thread = .storeValue c idx)
    (hentry : s.table.m_entries[idx.toNat]? = some entry) :
    Inv garbage { s.finish thread c (.entry idx false) with
      table := s.table.store idx { entry with m_value := valueOf c entry.m_value } } := by
  have hok := h.pc thread
  rw [hpc] at hok
  obtain ⟨hplain, hbegun⟩ := h.call thread c (by rw [hpc]; rfl)
  have hkeyEq : entry.m_key = c.key := by
    have hat := hok.2
    rw [keyAt, hentry] at hat
    exact Option.some.inj hat
  have hk := keeps_store hentry (valueOf c entry.m_value)
  refine h.advance rfl hk (by simp [Pc.call?]) trivial ?_ (h.path_store hentry _) fun r hr => ?_
  · -- the value is that of the call
    have hstores : c.Stores c.key (valueOf c entry.m_value) := by
      have hinserts := hok.1
      cases c with
      | setItem key value => exact .inl rfl
      | getOrSetItem key value => exact .inr rfl
      | _ => cases hinserts
    apply h.values_store
    dsimp only
    rw [hkeyEq]
    exact .inr ⟨hplain.1, c, hbegun, hstores⟩
  · rcases List.mem_append.mp hr with hold | hnew
    · exact .inl hold
    obtain rfl := List.mem_singleton.mp hnew
    refine .inr ⟨hplain, (h.before thread).trans hk, ?_, by simp, by simp, by simp⟩
    rintro idx' found ⟨⟩
    exact hk.key_eq _ _ hplain.1 hok.2

/-- The value of the entry in which a search has found its key is loaded, and the call returns. -/
theorem Inv.loaded (h : s.Inv garbage) {c : Call β} {idx : UInt32} {entry : Entry β}
    (hpc : s.threads thread = .loadValue c idx)
    (hentry : s.table.m_entries[idx.toNat]? = some entry) :
    (s.finish thread c (.value idx entry.m_value)).Inv garbage := by
  have hok := h.pc thread
  rw [hpc] at hok
  have hplain := (h.call thread c (by rw [hpc]; rfl)).1
  refine h.finish ⟨hplain, h.before thread, by simp, ?_, by simp, by simp⟩
  rintro idx' value ⟨⟩
  have hat := hok.2
  refine ⟨hat, ?_⟩
  -- the entry has the key, so its value is one that was stored under it
  rw [keyAt, hentry] at hat
  have hallowed := h.values _ entry hentry
  rw [Option.some.inj hat] at hallowed
  exact hallowed

/-- **A step of a thread keeps the invariant.** -/
theorem Inv.run (h : s.Inv garbage) (hruns : Runs s thread s') : s'.Inv garbage := by
  have hok := h.pc thread
  have hcall := h.call thread
  cases hruns with
  | exhausted hpc => exact h.exhausted hpc
  | pass hpc hkey hne hused => exact h.pass hpc hkey hne hused
  | @vacant c left idx hinserts hpc hkey =>
    rw [hpc] at hok
    exact h.goTo (by rw [hpc]; rfl) ⟨hinserts, ⟨idx, rfl, hok.1⟩, hok.2.1 hinserts⟩
  | @hit c left idx pc hpc hkey hnext =>
    obtain ⟨rfl, hinserts⟩ | ⟨rfl, hc⟩ := hnext
    · exact h.goTo (by rw [hpc]; rfl) ⟨hinserts, hkey⟩
    · exact h.goTo (by rw [hpc]; rfl) ⟨hc, hkey⟩
  | @present c left idx hinserts hpc hkey =>
    rw [hpc] at hcall
    refine h.finish ⟨(hcall c rfl).1, h.before thread, ?_, by simp, by simp, by simp⟩
    rintro idx' found ⟨⟩
    exact hkey
  | grabbed hpc hentry hvacant => exact h.grabbed hpc hentry hvacant
  | lost hpc hkey hused => exact h.lost hpc hkey hused
  | stored hpc hentry => exact h.stored hpc hentry
  | loaded hpc hentry => exact h.loaded hpc hentry

/-- The threads are as before but for one that is at the beginning of a call. -/
theorem Inv.call_step (h : s.Inv garbage) {c : Call β} (hplain : c.Plain)
    (hs' : s' = ⟨s.table, Function.update s.threads thread (s.entryPoint c),
      Function.update s.before thread s.table, s.begun ++ [c], s.finished⟩) : s'.Inv garbage := by
  have htable : s'.table = s.table := by rw [hs']
  have hbegun : s'.begun = s.begun ++ [c] := by rw [hs']
  have hsub : ∀ c ∈ s.begun, c ∈ s'.begun := fun c hc => by
    rw [hbegun]
    exact List.mem_append_left _ hc
  have hkeeps : Keeps s.table s'.table := by
    rw [htable]
    exact .refl _
  -- the table does not change, and the thread begins to probe
  have hthere : s'.threads thread = .probe c s.table.m_size (hash64 c.key) := by
    rw [hs']
    refine (Function.update_self ..).trans ?_
    cases c with
    | removeAt idx => cases hplain.2
    | _ => rfl
  have hother : ∀ other, other ≠ thread →
      s'.threads other = s.threads other ∧ s'.before other = s.before other := by
    intro other hne
    rw [hs']
    exact ⟨Function.update_of_ne hne .., Function.update_of_ne hne ..⟩
  have hnow : s'.before thread = s.table := by
    rw [hs']
    exact Function.update_self ..
  -- sized, before, call, pc, values, path, finished
  refine ⟨hkeeps.sized h.sized, fun other => ?_, fun other c' hc' => ?_, fun other => ?_, ?_, ?_,
    fun r hr => ?_⟩
  · rw [htable]
    by_cases hne : other = thread
    · rw [hne, hnow]
      exact .refl _
    · rw [(hother other hne).2]
      exact h.before other
  · by_cases hne : other = thread
    · rw [hne, hthere] at hc'
      cases hc'
      rw [hbegun]
      exact ⟨hplain, List.mem_append_right _ (List.mem_singleton_self _)⟩
    · rw [(hother other hne).1] at hc'
      obtain ⟨hplain', hmem⟩ := h.call other c' hc'
      exact ⟨hplain', hsub _ hmem⟩
  · by_cases hne : other = thread
    · rw [hne, hthere]
      -- no round has been made
      refine ⟨?_, fun _ m hm => ?_, fun _ m hm => ?_⟩
      · rw [htable]
        exact reaches_start _ _
      · rw [htable, Nat.sub_self] at hm
        exact absurd hm (Nat.not_lt_zero m)
      · rw [htable, Nat.sub_self] at hm
        exact absurd hm (Nat.not_lt_zero m)
    · -- the other threads see the same table
      rw [(hother other hne).1]
      exact (h.pc other).keeps hkeeps h.sized (hother other hne).2
        fun c' hc' => (h.call other c' hc').1
  · rw [htable]
    intro i entry hentry
    exact (h.values i entry hentry).mono hsub
  · rw [htable]
    exact h.path
  · have hfinished : s'.finished = s.finished := by rw [hs']
    rw [hfinished] at hr
    exact (h.finished r hr).keeps hkeeps hsub

/-- No thread is about to remove anything. -/
theorem Inv.no_removal (h : s.Inv garbage) (thread : Nat) :
    (s.threads thread).removes = false := by
  have hok := h.pc thread
  cases hpc : s.threads thread with
  | takeOut c idx =>
    rw [hpc] at hok
    exact hok.elim
  | clear c idx =>
    rw [hpc] at hok
    exact hok.elim
  | _ => rfl

/-- What the steps of a run without removals are. -/
theorem Inv.step_cases (h : s.Inv garbage) {e : Event β} (hP : s.InsertOnly e)
    (hstep : s.step e = some s') :
    (∃ thread c, e = .call thread c ∧ c.Plain ∧
      s' = ⟨s.table, Function.update s.threads thread (s.entryPoint c),
        Function.update s.before thread s.table, s.begun ++ [c], s.finished⟩) ∨
      ∃ thread, e = .run thread ∧ Runs s thread s' := by
  cases e with
  | call thread c =>
    simp only [step] at hstep
    split at hstep
    · exact .inl ⟨thread, c, rfl, hP, (Option.some.inj hstep).symm⟩
    · cases hstep
  | run thread =>
    refine .inr ⟨thread, rfl, run_runs hstep (fun c hc => ?_) (h.no_removal thread)⟩
    exact (h.call thread c hc).1

theorem Inv.step (h : s.Inv garbage) {e : Event β} (hP : s.InsertOnly e)
    (hstep : s.step e = some s') : s'.Inv garbage := by
  obtain ⟨thread, c, -, hplain, hs'⟩ | ⟨thread, -, hruns⟩ := h.step_cases hP hstep
  · exact h.call_step hplain hs'
  · exact h.run hruns

/-- A step leaves the keys where they are. -/
theorem Inv.step_keeps (h : s.Inv garbage) {e : Event β} (hP : s.InsertOnly e)
    (hstep : s.step e = some s') : Keeps s.table s'.table := by
  obtain ⟨thread, c, -, -, rfl⟩ | ⟨thread, -, hruns⟩ := h.step_cases hP hstep
  · exact .refl _
  · cases hruns with
    | grabbed hpc hentry hvacant => exact keeps_grab hentry hvacant _
    | stored hpc hentry => exact keeps_store hentry _
    | _ => exact .refl _

/-- What has returned is not returned again. -/
theorem Inv.step_finished (h : s.Inv garbage) {e : Event β} (hP : s.InsertOnly e)
    (hstep : s.step e = some s') : s.finished <+: s'.finished := by
  obtain ⟨thread, c, -, -, rfl⟩ | ⟨thread, -, hruns⟩ := h.step_cases hP hstep
  · exact List.prefix_rfl
  · cases hruns with
    | exhausted | present | stored | loaded => exact List.prefix_append _ _
    | _ => exact List.prefix_rfl

theorem start_inv {size : Nat} (hsize : size ≤ 2 ^ 31) (garbage : β) :
    (start size garbage).Inv garbage := by
  have hvacant : ∀ (i : Nat) (entry : Entry β),
      (start size garbage).table.m_entries[i]? = some entry → entry = ⟨0, garbage⟩ := by
    intro i entry hentry
    have hmem := List.mem_of_getElem? hentry
    exact List.eq_of_mem_replicate hmem
  have hsized : (start size garbage).table.Sized := Usage.initTable_sized hsize garbage
  refine ⟨hsized, fun _ => Keeps.refl _, fun _ _ hc => ?_, fun _ => trivial, ?_, ?_, fun _ hr => ?_⟩
  · cases hc
  · intro i entry hentry
    rw [hvacant i entry hentry]
    exact .inl rfl
  · intro key m hne _ hat
    obtain ⟨entry, hentry, hkey⟩ := keyAt_eq_some.mp hat
    rw [hvacant _ entry hentry] at hkey
    exact absurd hkey.symm hne
  · cases hr

theorem inv_of_run {size : Nat} (hsize : size ≤ 2 ^ 31) {events : List (Event β)}
    (h : RunsWith (stepOf step) InsertOnly (start size garbage) events s) : s.Inv garbage :=
  h.invariant _ (fun _ _ _ hinv hP hstep => hinv.step hP hstep) (start_inv hsize garbage)

/-! ## §5 What the threads can rely on -/

/-- **Insertions by many threads**: in any interleaving of searches and insertions, a key stays in
    the entry it has got, and what a call has returned is justified from then on.  In particular a
    search finds every key that was in the table when it began, the value it returns is that of an
    insertion of the same key or the one the array was made with, and a key is refused only when no
    entry is left. -/
theorem concurrent_inserts_are_found {size : Nat} (hsize : size ≤ 2 ^ 31) (garbage : β)
    {events events' : List (Event β)} {s s' : Shared β}
    (h : RunsWith (stepOf step) InsertOnly (start size garbage) events s)
    (h' : RunsWith (stepOf step) InsertOnly s events' s') :
    Keeps s.table s'.table ∧ s.finished <+: s'.finished ∧
      ∀ r ∈ s'.finished, s'.Justified garbage r := by
  have hgrown : s'.Inv garbage ∧ Keeps s.table s'.table ∧ s.finished <+: s'.finished := by
    refine h'.invariant (fun u => u.Inv garbage ∧ Keeps s.table u.table ∧
      s.finished <+: u.finished) ?_ ⟨inv_of_run hsize h, .refl _, List.prefix_rfl⟩
    intro u e u' ⟨hinv, hkeeps, hfinished⟩ hP hstep
    exact ⟨hinv.step hP hstep, hkeeps.trans (hinv.step_keeps hP hstep),
      hfinished.trans (hinv.step_finished hP hstep)⟩
  exact ⟨hgrown.2.1, hgrown.2.2, hgrown.1.finished⟩

/-- Two threads on two entries.  The first takes an entry for key 3; before it has stored its value
    the second finds the key, with the value the array was made with. -/
theorem concurrent_inserts_are_found_early :
    ∃ s s' : Shared Nat, s'.finished.map (·.answer) = [.value 1 0] ∧ Keeps s.table s'.table ∧
      s.finished <+: s'.finished ∧ ∀ r ∈ s'.finished, s'.Justified 0 r := by
  obtain ⟨s, hs, s', hs', hanswers⟩ : ∃ s, runWhere step InsertOnly (start 2 0)
      [.call 0 (.setItem 3 10), .run 0, .run 0] = some s ∧ ∃ s', runWhere step InsertOnly s
      [.call 1 (.getItem 3), .run 1, .run 1] = some s' ∧
        s'.finished.map (·.answer) = [.value 1 0] := ⟨_, rfl, _, rfl, rfl⟩
  exact ⟨s, s', hanswers, concurrent_inserts_are_found (by decide) 0 (runsWith_of_runWhere hs)
    (runsWith_of_runWhere hs')⟩

/-! ## §6 One entry for each key -/

/-- The first entries on the path of a key are in use for other keys. -/
def OthersBefore (table : ConcurrentHashTable β) (key : UInt64) (n : Nat) : Prop :=
  ∀ m < n, ∃ k, k ≠ 0 ∧ k ≠ key ∧ table.keyAt (table.probe (hash64 key) m) = some k

/-- An insertion has not passed its own key. -/
def NotPassed (s : Shared β) : Pc β → Prop
  | .probe c left _ => c.inserts = true → OthersBefore s.table c.key (s.table.m_size - left)
  | .grab c left _ => OthersBefore s.table c.key (s.table.m_size - (left + 1))
  | _ => True

/-- **The invariant** of a table in which no insertion has lost to a twin. -/
structure OneEach (s : Shared β) : Prop where
  unique : s.table.Unique
  pc : ∀ thread, s.NotPassed (s.threads thread)
  refused : ∀ r ∈ s.finished, r.answer = .invalid → r.call.inserts = true →
    OthersBefore s.table r.call.key s.table.m_size

theorem OthersBefore.keeps {t t' : ConcurrentHashTable β} (hk : Keeps t t') {key : UInt64} {n : Nat}
    (h : OthersBefore t key n) : OthersBefore t' key n := by
  intro m hm
  obtain ⟨k, hk0, hne, hat⟩ := h m hm
  refine ⟨k, hk0, hne, ?_⟩
  rw [hk.probe_eq]
  exact hk.key_eq _ _ hk0 hat

theorem OthersBefore.succ {key k : UInt64} {n : Nat} {t : ConcurrentHashTable β}
    (h : OthersBefore t key n) (hk : k ≠ 0) (hne : k ≠ key)
    (hat : t.keyAt (t.probe (hash64 key) n) = some k) : OthersBefore t key (n + 1) := by
  intro m hm
  rcases Nat.lt_succ_iff_lt_or_eq.mp hm with hlt | rfl
  · exact h m hlt
  · exact ⟨k, hk, hne, hat⟩

theorem NotPassed.keeps (hk : Keeps s.table s'.table) {pc : Pc β} (h : s.NotPassed pc) :
    s'.NotPassed pc := by
  cases pc with
  | probe c left idx =>
    intro hinserts
    rw [hk.size_eq]
    exact (h hinserts).keeps hk
  | grab c left idx =>
    show OthersBefore _ _ _
    rw [hk.size_eq]
    exact OthersBefore.keeps hk h
  | _ => trivial

/-- The key of a vacant entry on its path, with other keys before it, is in no entry. -/
theorem Inv.absent_of_vacant (h : s.Inv garbage) {key : UInt64} {n : Nat} (hkey : key ≠ 0)
    (hothers : OthersBefore s.table key n)
    (hvacant : s.table.keyAt (s.table.probe (hash64 key) n) = some 0) (i : Nat) :
    s.table.keyAt i ≠ some key := by
  intro hat
  obtain ⟨m, hm, rfl⟩ := h.sized.exists_probe (hash64 key) (lt_of_keyAt hat)
  rcases Nat.lt_trichotomy m n with hlt | rfl | hgt
  · obtain ⟨k, -, hne, hother⟩ := hothers m hlt
    rw [hat] at hother
    exact hne (Option.some.inj hother).symm
  · rw [hat] at hvacant
    exact hkey (Option.some.inj hvacant)
  · exact h.path key m hkey hm hat n hgt hvacant

/-- A thread goes on: what the others know, and what has been refused, stays true. -/
theorem OneEach.advance (h : s.OneEach) {pc : Pc β} (hk : Keeps s.table s'.table)
    (hthreads : s'.threads = Function.update s.threads thread pc) (hunique : s'.table.Unique)
    (hpc : s'.NotPassed pc)
    (hfinished : ∀ r ∈ s'.finished, r ∈ s.finished ∨ (r.answer = .invalid →
      r.call.inserts = true → OthersBefore s'.table r.call.key s'.table.m_size)) : s'.OneEach := by
  refine ⟨hunique, fun other => ?_, fun r hr => ?_⟩
  · rw [hthreads]
    by_cases hother : other = thread
    · rw [hother, Function.update_self]
      exact hpc
    · rw [Function.update_of_ne hother]
      exact (h.pc other).keeps hk
  · rcases hfinished r hr with hold | hnew
    · intro hanswer hinserts
      rw [hk.size_eq]
      exact (h.refused r hold hanswer hinserts).keeps hk
    · exact hnew

/-- Only the last of the log is new, and it is no refusal. -/
theorem finished_of_append {c : Call β} {answer : Answer β} (hanswer : answer ≠ .invalid)
    {P : Finished β → Prop} :
    ∀ r ∈ s.finished ++ [⟨c, s.before thread, answer⟩],
      r ∈ s.finished ∨ (r.answer = .invalid → P r) := by
  intro r hr
  rcases List.mem_append.mp hr with hold | hnew
  · exact .inl hold
  · obtain rfl := List.mem_singleton.mp hnew
    exact .inr fun heq => absurd heq hanswer

theorem OneEach.run (hinv : s.Inv garbage) (h : s.OneEach) (hruns : Runs s thread s')
    (hP : ¬ s.LostToTwin (s.threads thread)) : s'.OneEach := by
  have hok := hinv.pc thread
  have hcall := hinv.call thread
  have hpast := h.pc thread
  cases hruns with
  -- the probe is exhausted: no entry that was passed had the key
  | @exhausted c idx hpc =>
    rw [hpc] at hpast
    refine h.advance (.refl _) rfl h.unique trivial fun r hr => ?_
    rcases List.mem_append.mp hr with hold | hnew
    · exact .inl hold
    · obtain rfl := List.mem_singleton.mp hnew
      exact .inr fun _ => hpast
  -- the entry is passed, and it has another key
  | @pass c left idx probedKey hpc hkey hne hused =>
    rw [hpc] at hok hpast
    have hle := hok.1.le
    have hround : s.table.m_size - left = s.table.m_size - (left + 1) + 1 := by omega
    refine h.advance (.refl _) rfl h.unique (fun hinserts => ?_) fun r hr => .inl hr
    show OthersBefore s.table c.key (s.table.m_size - left)
    rw [hround]
    refine (hpast hinserts).succ (hused hinserts) hne ?_
    rw [← hok.1.here hinv.sized]
    exact hkey
  -- the places of an insertion do not change before its compare-exchange
  | @vacant c left idx hinserts hpc hkey =>
    rw [hpc] at hpast
    exact h.advance (.refl _) rfl h.unique (hpast hinserts) fun r hr => .inl hr
  | @hit c left idx pc hpc hkey hnext =>
    refine h.advance (.refl _) rfl h.unique ?_ fun r hr => .inl hr
    obtain ⟨rfl, -⟩ | ⟨rfl, -⟩ := hnext
    · trivial
    · trivial
  | @present c left idx hinserts hpc hkey =>
    exact h.advance (.refl _) rfl h.unique trivial (finished_of_append (by nofun))
  -- the key is grabbed, and no other entry has it
  | @grabbed c left idx entry hpc hentry hvacant =>
    rw [hpc] at hok hcall hpast
    obtain ⟨-, ⟨idx', rfl, hreach⟩, -⟩ := hok
    have hat : s.table.keyAt (s.table.mask idx').toNat = some 0 :=
      keyAt_eq_some.mpr ⟨entry, hentry, hvacant⟩
    rw [hreach.here hinv.sized] at hat
    have habsent := hinv.absent_of_vacant (hcall c rfl).1.1 hpast hat
    refine h.advance (keeps_grab hentry hvacant _) rfl ?_ trivial fun r hr => .inl hr
    exact h.unique.store fun i _ _ => habsent i
  -- the entry was lost, but not to the same key
  | @lost c left idx probedKey hpc hkey hused =>
    rw [hpc] at hok hpast hP
    obtain ⟨-, ⟨idx', rfl, hreach⟩, -⟩ := hok
    have hle := hreach.le
    have hround : s.table.m_size - left = s.table.m_size - (left + 1) + 1 := by omega
    refine h.advance (.refl _) rfl h.unique (fun _ => ?_) fun r hr => .inl hr
    show OthersBefore s.table c.key (s.table.m_size - left)
    rw [hround]
    refine OthersBefore.succ hpast hused (fun hsame => hP ?_) ?_
    · rw [hsame] at hkey
      exact hkey
    · rw [← hreach.here hinv.sized]
      exact hkey
  -- the value is stored under a key that is there already
  | @stored c idx entry hpc hentry =>
    refine h.advance (keeps_store hentry _) rfl ?_ trivial (finished_of_append (by nofun))
    have hat : s.table.keyAt idx.toNat = some entry.m_key := keyAt_eq_some.mpr ⟨entry, hentry, rfl⟩
    exact h.unique.store fun i hi hused hsame => hi (h.unique i _ _ hused hsame hat)
  | @loaded c idx entry hpc hentry =>
    exact h.advance (.refl _) rfl h.unique trivial (finished_of_append (by nofun))

theorem OneEach.step (hinv : s.Inv garbage) (h : s.OneEach) {e : Event β} (hP : s.InsertOnly e)
    (hC : s.NoTwin e) (hstep : s.step e = some s') : s'.OneEach := by
  obtain ⟨thread, c, -, hplain, rfl⟩ | ⟨thread, rfl, hruns⟩ := hinv.step_cases hP hstep
  · refine h.advance (.refl _) rfl h.unique ?_ fun r hr => .inl hr
    cases c with
    | removeAt idx => trivial
    | _ =>
      intro _ m hm
      rw [Nat.sub_self] at hm
      exact absurd hm (Nat.not_lt_zero m)
  · exact h.run hinv hruns hC

/-- **One entry for each key**: as long as no insertion loses an entry to another one of the same
    key, a key is in one entry only, all calls for a key return the same entry id, and what is
    refused for want of an entry is in no entry of its own. -/
theorem concurrent_keys_unique {size : Nat} (hsize : size ≤ 2 ^ 31) (garbage : β)
    {events : List (Event β)} {s : Shared β}
    (h : RunsWith (stepOf step) (fun s e => s.InsertOnly e ∧ s.NoTwin e) (start size garbage)
      events s) :
    s.table.Unique ∧
      (∀ r₁ ∈ s.finished, ∀ r₂ ∈ s.finished, r₁.call.key = r₂.call.key →
        ∀ idx₁ idx₂, r₁.answer.idx? = some idx₁ → r₂.answer.idx? = some idx₂ → idx₁ = idx₂) ∧
      ∀ r ∈ s.finished, r.answer = .invalid → r.call.inserts = true →
        ∀ i, s.table.keyAt i ≠ some r.call.key := by
  obtain ⟨hinv, hone⟩ : s.Inv garbage ∧ s.OneEach := by
    refine h.invariant (fun u => u.Inv garbage ∧ u.OneEach) ?_
      ⟨start_inv hsize garbage, fun i j k hk hi _ => ?_, fun _ => trivial, nofun⟩
    · intro u e u' ⟨hinv, hone⟩ hP hstep
      exact ⟨hinv.step hP.1 hstep, hone.step hinv hP.1 hP.2 hstep⟩
    · obtain ⟨entry, hentry, hkey⟩ := keyAt_eq_some.mp hi
      obtain rfl := List.eq_of_mem_replicate (List.mem_of_getElem? hentry)
      exact absurd hkey.symm hk
  refine ⟨hone.unique, fun r₁ h₁ r₂ h₂ hkey idx₁ idx₂ hidx₁ hidx₂ => ?_, fun r hr hanswer hinserts i
    hat => ?_⟩
  · have hat₁ := (hinv.finished r₁ h₁).keyAt_idx hidx₁
    have hat₂ := (hinv.finished r₂ h₂).keyAt_idx hidx₂
    rw [← hkey] at hat₂
    have hsame := hone.unique _ _ _ (hinv.finished r₁ h₁).plain.1 hat₁ hat₂
    exact UInt32.toNat_inj.mp hsame
  · obtain ⟨n, hn, rfl⟩ := hinv.sized.exists_probe (hash64 r.call.key) (lt_of_keyAt hat)
    obtain ⟨k, -, hne, hother⟩ := hone.refused r hr hanswer hinserts n hn
    rw [hat] at hother
    exact hne (Option.some.inj hother).symm

/-- Two threads set keys 3 and 7 in a table of two entries, and one of them loses the entry. -/
theorem concurrent_keys_unique_two_keys :
    ∃ s : Shared Nat, s.finished.map (·.answer) = [.entry 1 false, .entry 0 false] ∧
      s.table.Unique := by
  obtain ⟨s, hs, hanswers⟩ : ∃ s, runWhere step (fun s e => s.InsertOnly e ∧ s.NoTwin e) (start 2 0)
      [.call 0 (.setItem 3 10), .call 1 (.setItem 7 20), .run 0, .run 1, .run 0, .run 1, .run 0,
        .run 1, .run 1, .run 1] = some s ∧
        s.finished.map (·.answer) = [.entry 1 false, .entry 0 false] := ⟨_, rfl, rfl⟩
  exact ⟨s, hanswers, (concurrent_keys_unique (by decide) 0 (runsWith_of_runWhere hs)).1⟩

/-- Two threads set key 3 at once.  The one that loses the entry does not see that it now has its
    key, and takes another one. -/
theorem same_key_twice :
    ∃ s : Shared Nat, RunsWith (stepOf step) InsertOnly (start 2 0)
      [.call 0 (.setItem 3 10), .call 1 (.setItem 3 11), .run 0, .run 1, .run 0, .run 1, .run 1,
        .run 1, .run 1, .run 0] s ∧
      s.table.m_entries = [⟨3, 11⟩, ⟨3, 10⟩] :=
  ⟨_, runsWith_of_runWhere rfl, rfl⟩

end Shared

end Commutil.Common.ConcurrentHashTable
