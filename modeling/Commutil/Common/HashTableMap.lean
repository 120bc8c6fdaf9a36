import Commutil.Common.ConcurrentHashTable
import Commutil.Library.Transitions
import Mathlib.Data.Nat.ModEq
import Mathlib.Logic.Function.Basic

/-!
# When the Hash Table Is a Map

A run of calls on a `ConcurrentHashTable`, one after another, beside the map that the
calls stand for.

A removal leaves a hole, and `setItem` and `getOrSetItem` take the first hole on the
probe path of their key without looking whether the key lies behind it.  `Shadowed`
is that situation.  `hash_table_is_map_iff`: the table is a map in every state of a
run exactly if no call stores a shadowed key.
-/

namespace Commutil.Common.ConcurrentHashTable

open Commutil.Library

variable {β : Type}

/-! ## §1 Probe paths -/

/-- The tables of the module: a power of two of entries, and no entry has the invalid id. -/
def Sized (table : ConcurrentHashTable β) : Prop := ∃ k ≤ 31, table.m_size = 2 ^ k

/-- The `n`-th entry that a search from `idx` visits. -/
def probe (table : ConcurrentHashTable β) (idx : UInt32) (n : Nat) : Nat :=
  (idx.toNat + n) % table.m_size

/-- The key in an entry, zero if it is vacant. -/
def keyAt (table : ConcurrentHashTable β) (i : Nat) : Option UInt64 :=
  table.m_entries[i]?.map Entry.m_key

variable {table : ConcurrentHashTable β} {key : UInt64}

theorem Sized.pos (h : table.Sized) : 0 < table.m_size := by
  obtain ⟨k, -, hk⟩ := h
  rw [hk]
  exact Nat.two_pow_pos k

theorem Sized.le (h : table.Sized) : table.m_size ≤ 2 ^ 31 := by
  obtain ⟨k, hk31, hk⟩ := h
  rw [hk]
  exact Nat.pow_le_pow_right (by decide) hk31

theorem Sized.dvd (h : table.Sized) : table.m_size ∣ 2 ^ 32 := by
  obtain ⟨k, hk31, hk⟩ := h
  rw [hk]
  exact Nat.pow_dvd_pow 2 (by omega)

theorem Sized.mask_toNat (h : table.Sized) (idx : UInt32) :
    (table.mask idx).toNat = idx.toNat % table.m_size := by
  have hle := h.le
  obtain ⟨k, hk31, hk⟩ := h
  have hlt : idx.toNat % table.m_size < 2 ^ 32 :=
    Nat.lt_of_le_of_lt (Nat.mod_le _ _) idx.toNat_lt
  rw [mask, hk, Nat.and_two_pow_sub_one_eq_mod, ← hk]
  exact Nat.mod_eq_of_lt hlt

theorem Sized.probe_lt (h : table.Sized) (idx : UInt32) (n : Nat) :
    table.probe idx n < table.m_size := Nat.mod_lt _ h.pos

/-- The next round goes on with the next entry, across the end of the array. -/
theorem Sized.probe_succ (h : table.Sized) (idx : UInt32) (n : Nat) :
    table.probe (table.mask idx + 1) n = table.probe idx (n + 1) := by
  have hdvd := h.dvd
  simp only [probe, UInt32.toNat_add, h.mask_toNat, UInt32.toNat_one]
  rw [Nat.add_mod, Nat.mod_mod_of_dvd _ hdvd, ← Nat.add_mod, Nat.add_assoc, Nat.mod_add_mod]
  congr 2
  omega

/-- What holds of the first entry on the probe path and of those that follow it. -/
theorem Sized.forall_probe (h : table.Sized) {idx : UInt32} {P : Nat → Prop} {n : Nat}
    (hfirst : P (table.probe idx 0)) (hrest : ∀ m < n, P (table.probe (table.mask idx + 1) m)) :
    ∀ m < n + 1, P (table.probe idx m) := by
  intro m hm
  cases m with
  | zero => exact hfirst
  | succ m =>
    rw [← h.probe_succ]
    exact hrest m (Nat.lt_of_succ_lt_succ hm)

/-- A full round visits every entry. -/
theorem Sized.exists_probe (h : table.Sized) (idx : UInt32) {i : Nat} (hi : i < table.m_size) :
    ∃ n < table.m_size, table.probe idx n = i := by
  obtain ⟨r, hr⟩ : ∃ r, r = idx.toNat % table.m_size := ⟨_, rfl⟩
  have hr' : r < table.m_size := hr ▸ Nat.mod_lt _ h.pos
  refine ⟨(i + (table.m_size - r)) % table.m_size, Nat.mod_lt _ h.pos, ?_⟩
  rw [probe, Nat.add_mod_mod, Nat.add_mod, ← hr, Nat.add_mod_mod]
  rw [show r + (i + (table.m_size - r)) = i + table.m_size by omega, Nat.add_mod_right]
  exact Nat.mod_eq_of_lt hi

theorem keyAt_eq_some {i : Nat} {k : UInt64} :
    table.keyAt i = some k ↔ ∃ entry, table.m_entries[i]? = some entry ∧ entry.m_key = k :=
  Option.map_eq_some_iff

theorem keyAt_of_lt {i : Nat} (hi : i < table.m_size) : ∃ k, table.keyAt i = some k :=
  ⟨_, by rw [keyAt, List.getElem?_eq_getElem hi]; rfl⟩

theorem lt_of_keyAt {i : Nat} {k : UInt64} (h : table.keyAt i = some k) : i < table.m_size := by
  obtain ⟨entry, hentry, -⟩ := keyAt_eq_some.mp h
  exact (List.getElem?_eq_some_iff.mp hentry).1

/-! ## §2 Where the loops stop -/

/-- `getItem` stops at the first entry on the probe path that holds the key. -/
theorem Sized.getItemLoop_cases (h : table.Sized) (key : UInt64) :
    ∀ (left : Nat) (idx : UInt32),
      (∃ n < left, ∃ e value, table.getItemLoop key left idx = some (e, value) ∧
        e.toNat = table.probe idx n ∧ ∀ m < n, table.keyAt (table.probe idx m) ≠ some key) ∨
      (table.getItemLoop key left idx = none ∧
        ∀ n < left, table.keyAt (table.probe idx n) ≠ some key) := by
  intro left
  induction left with
  | zero => exact fun idx => .inr ⟨rfl, fun n hn => absurd hn (Nat.not_lt_zero n)⟩
  | succ left ih =>
    intro idx
    have hhere : (table.mask idx).toNat = table.probe idx 0 := h.mask_toNat idx
    obtain ⟨k, hk⟩ := keyAt_of_lt (h.probe_lt idx 0)
    obtain ⟨entry, hentry, rfl⟩ := keyAt_eq_some.mp hk
    simp only [getItemLoop, hhere, hentry]
    by_cases hkey : entry.m_key = key
    · rw [if_pos hkey]
      exact .inl ⟨0, Nat.succ_pos _, _, _, rfl, hhere, fun m hm => absurd hm (Nat.not_lt_zero m)⟩
    · rw [if_neg hkey]
      have hfirst : table.keyAt (table.probe idx 0) ≠ some key := by
        rw [hk]
        exact fun heq => hkey (Option.some.inj heq)
      -- the entries after the first one are those of the rounds that follow
      rcases ih (table.mask idx + 1) with ⟨n, hn, e, value, hrun, he, hbefore⟩ | ⟨hrun, hall⟩
      · refine .inl ⟨n + 1, Nat.succ_lt_succ hn, e, value, hrun, ?_, ?_⟩
        · rw [he, h.probe_succ]
        · exact @Sized.forall_probe β table h idx (fun i => table.keyAt i ≠ some key) n hfirst hbefore
      · exact .inr ⟨hrun,
          @Sized.forall_probe β table h idx (fun i => table.keyAt i ≠ some key) left hfirst hall⟩

/-- `setItem` stops at the first entry on the probe path that holds the key or is vacant, if there is
    one. -/
theorem Sized.setItemLoop_cases (h : table.Sized) (key : UInt64) :
    ∀ (left : Nat) (idx : UInt32),
      (∃ n < left, ∃ e, table.setItemLoop key left idx = some e ∧ e.toNat = table.probe idx n ∧
        (table.keyAt e.toNat = some key ∨ table.keyAt e.toNat = some 0) ∧
        ∀ m < n, table.keyAt (table.probe idx m) ≠ some key ∧
          table.keyAt (table.probe idx m) ≠ some 0) ∨
      (table.setItemLoop key left idx = none ∧
        ∀ n < left, table.keyAt (table.probe idx n) ≠ some key ∧
          table.keyAt (table.probe idx n) ≠ some 0) := by
  intro left
  induction left with
  | zero => exact fun idx => .inr ⟨rfl, fun n hn => absurd hn (Nat.not_lt_zero n)⟩
  | succ left ih =>
    intro idx
    have hhere : (table.mask idx).toNat = table.probe idx 0 := h.mask_toNat idx
    obtain ⟨k, hk⟩ := keyAt_of_lt (h.probe_lt idx 0)
    obtain ⟨entry, hentry, rfl⟩ := keyAt_eq_some.mp hk
    simp only [setItemLoop, hhere, hentry]
    by_cases hkey : entry.m_key = key
    · rw [if_neg (not_not.mpr hkey)]
      exact .inl ⟨0, Nat.succ_pos _, _, rfl, hhere, .inl (by rw [hhere, hk, hkey]),
        fun m hm => absurd hm (Nat.not_lt_zero m)⟩
    rw [if_pos hkey]
    by_cases hzero : entry.m_key = 0
    · rw [if_neg (not_not.mpr hzero)]
      exact .inl ⟨0, Nat.succ_pos _, _, rfl, hhere, .inr (by rw [hhere, hk, hzero]),
        fun m hm => absurd hm (Nat.not_lt_zero m)⟩
    rw [if_pos hzero]
    have hfirst : table.keyAt (table.probe idx 0) ≠ some key ∧
        table.keyAt (table.probe idx 0) ≠ some 0 := by
      rw [hk]
      exact ⟨fun heq => hkey (Option.some.inj heq), fun heq => hzero (Option.some.inj heq)⟩
    rcases ih (table.mask idx + 1) with ⟨n, hn, e, hrun, he, hat, hbefore⟩ | ⟨hrun, hall⟩
    · refine .inl ⟨n + 1, Nat.succ_lt_succ hn, e, hrun, ?_, hat, ?_⟩
      · rw [he, h.probe_succ]
      · exact @Sized.forall_probe β table h idx
          (fun i => table.keyAt i ≠ some key ∧ table.keyAt i ≠ some 0) n hfirst hbefore
    · exact .inr ⟨hrun, @Sized.forall_probe β table h idx
        (fun i => table.keyAt i ≠ some key ∧ table.keyAt i ≠ some 0) left hfirst hall⟩

/-- `getOrSetItem` stops where `setItem` does, and tells a hit from a hole. -/
theorem getOrSetItemLoop_eq (table : ConcurrentHashTable β) (key : UInt64) :
    ∀ (left : Nat) (idx : UInt32),
      table.getOrSetItemLoop key left idx = (table.setItemLoop key left idx).map
        fun e => (e, decide (table.keyAt e.toNat = some key)) := by
  intro left
  induction left with
  | zero => exact fun _ => rfl
  | succ left ih =>
    intro idx
    simp only [getOrSetItemLoop, setItemLoop]
    cases hentry : table.m_entries[(table.mask idx).toNat]? with
    | none => rfl
    | some entry =>
      have hkeyAt : table.keyAt (table.mask idx).toNat = some entry.m_key := by
        rw [keyAt, hentry]
        rfl
      by_cases hkey : entry.m_key = key
      · simp [hkey, hkeyAt]
      · by_cases hzero : entry.m_key = 0
        · simp [hzero, hkeyAt, hzero ▸ hkey]
        · simp [hkey, hzero, ih]

/-- `removeItem` stops where `getItem` does. -/
theorem removeItemLoop_eq (table : ConcurrentHashTable β) (key : UInt64) :
    ∀ (left : Nat) (idx : UInt32),
      table.removeItemLoop key left idx = (table.getItemLoop key left idx).map Prod.fst := by
  intro left
  induction left with
  | zero => exact fun _ => rfl
  | succ left ih =>
    intro idx
    simp only [removeItemLoop, getItemLoop]
    cases hentry : table.m_entries[(table.mask idx).toNat]? with
    | none => rfl
    | some entry =>
      by_cases hkey : entry.m_key = key
      · simp [hkey]
      · simp [hkey, ih]

/-! ## §3 One entry for each key -/

/-- No key occupies two entries. -/
def Unique (table : ConcurrentHashTable β) : Prop :=
  ∀ i j k, k ≠ 0 → table.keyAt i = some k → table.keyAt j = some k → i = j

/-- A search that stores reaches a hole before the entry that holds the key. -/
def Shadowed (table : ConcurrentHashTable β) (key : UInt64) : Prop :=
  ∃ n m, n < m ∧ m < table.m_size ∧ table.keyAt (table.probe (hash64 key) n) = some 0 ∧
    table.keyAt (table.probe (hash64 key) m) = some key

instance (table : ConcurrentHashTable β) (key : UInt64) : Decidable (table.Shadowed key) :=
  decidable_of_iff (∃ m < table.m_size, ∃ n < m,
    table.keyAt (table.probe (hash64 key) n) = some 0 ∧
      table.keyAt (table.probe (hash64 key) m) = some key)
    ⟨fun ⟨m, hm, n, hn, hat⟩ => ⟨n, m, hn, hm, hat⟩, fun ⟨n, m, hn, hm, hat⟩ => ⟨m, hm, n, hn, hat⟩⟩

theorem Sized.ne_invalid (h : table.Sized) {e : UInt32} {k : UInt64}
    (hk : table.keyAt e.toNat = some k) : e ≠ COMMUTIL_INVALID_CHT_ENTRY_ID := by
  rintro rfl
  have hlt := lt_of_keyAt hk
  have hle := h.le
  have hid : COMMUTIL_INVALID_CHT_ENTRY_ID.toNat = 2 ^ 32 - 1 := rfl
  omega

theorem keyAt_of_getItem {e : UInt32} {value : β} (h : table.getItem key = some (e, value)) :
    table.keyAt e.toNat = some key := by
  rw [keyAt, (entry_of_getItem h).2]
  rfl

/-- The invalid id is never what a search returns, so `getItem` is its loop. -/
theorem Sized.getItem_eq_loop (h : table.Sized) (key : UInt64) :
    table.getItem key = table.getItemLoop key table.m_size (hash64 key) := by
  unfold getItem
  cases hloop : table.getItemLoop key table.m_size (hash64 key) with
  | none => rfl
  | some found =>
    have hentry := entry_of_getItemLoop hloop
    have hkey : table.keyAt found.1.toNat = some key := by
      rw [keyAt, hentry]
      rfl
    exact if_neg (h.ne_invalid hkey)

theorem Sized.getItem_eq_none_iff (h : table.Sized) :
    table.getItem key = none ↔ ∀ i, table.keyAt i ≠ some key := by
  rw [h.getItem_eq_loop]
  constructor
  · intro hnone i hi
    obtain ⟨n, hn, hprobe⟩ := h.exists_probe (hash64 key) (lt_of_keyAt hi)
    rcases h.getItemLoop_cases key table.m_size (hash64 key) with ⟨_, _, e, v, hrun, -⟩ | ⟨-, hall⟩
    · rw [hnone] at hrun
      cases hrun
    · exact hall n hn (hprobe ▸ hi)
  · intro hall
    cases hloop : table.getItemLoop key table.m_size (hash64 key) with
    | none => rfl
    | some found =>
      refine absurd ?_ (hall found.1.toNat)
      rw [keyAt, entry_of_getItemLoop hloop]
      rfl

/-- In a table without duplicates a search finds exactly what is stored. -/
theorem Sized.found_of_unique (h : table.Sized) (hu : table.Unique) : table.Found := by
  intro e _ entry hentry hkey
  have hat : table.keyAt e.toNat = some entry.m_key := by
    rw [keyAt, hentry]
    rfl
  cases hget : table.getItem entry.m_key with
  | none => exact absurd hat (h.getItem_eq_none_iff.mp hget _)
  | some found =>
    obtain ⟨e', value⟩ := found
    have heq : e' = e := UInt32.toNat_inj.mp (hu _ _ _ hkey (keyAt_of_getItem hget) hat)
    subst heq
    have hsame := (entry_of_getItem hget).2
    rw [hentry] at hsame
    have hvalue : entry.m_value = value := congrArg Entry.m_value (Option.some.inj hsame)
    rw [hvalue]

theorem keyAt_store_self {e : UInt32} {entry : Entry β} (he : e.toNat < table.m_size) :
    (table.store e entry).keyAt e.toNat = some entry.m_key := by
  rw [keyAt, store, List.getElem?_set_self he]
  rfl

theorem keyAt_store_ne {e : UInt32} {entry : Entry β} {i : Nat} (hne : e.toNat ≠ i) :
    (table.store e entry).keyAt i = table.keyAt i := by
  rw [keyAt, store, List.getElem?_set_ne hne]
  rfl

/-- Writing a key keeps the table free of duplicates if the key is in no other entry. -/
theorem Unique.store (hu : table.Unique) {e : UInt32} {entry : Entry β}
    (hother : ∀ i, i ≠ e.toNat → entry.m_key ≠ 0 → table.keyAt i ≠ some entry.m_key) :
    Unique (table.store e entry) := by
  have hcase : ∀ i k, (table.store e entry).keyAt i = some k →
      i = e.toNat ∧ k = entry.m_key ∨ i ≠ e.toNat ∧ table.keyAt i = some k := by
    intro i k hi
    by_cases heq : e.toNat = i
    · subst heq
      have hlt := lt_of_keyAt hi
      rw [m_size_store] at hlt
      rw [keyAt_store_self hlt] at hi
      exact .inl ⟨rfl, (Option.some.inj hi).symm⟩
    · rw [keyAt_store_ne heq] at hi
      exact .inr ⟨Ne.symm heq, hi⟩
  intro i j k hk hi hj
  rcases hcase i k hi with ⟨rfl, rfl⟩ | ⟨hine, hi'⟩
  · rcases hcase j _ hj with ⟨rfl, -⟩ | ⟨hjne, hj'⟩
    · rfl
    · exact absurd hj' (hother j hjne hk)
  · rcases hcase j k hj with ⟨rfl, rfl⟩ | ⟨-, hj'⟩
    · exact absurd hi' (hother i hine hk)
    · exact hu i j k hk hi' hj'

theorem Unique.removeAt (hu : table.Unique) (e : UInt32) : Unique (table.removeAt e) := by
  unfold ConcurrentHashTable.removeAt
  split
  · exact hu
  · exact hu.store (fun i _ hzero => absurd rfl hzero)

theorem probe_inj {idx : UInt32} {n m : Nat} (hn : n < table.m_size)
    (hm : m < table.m_size) (heq : table.probe idx n = table.probe idx m) : n = m := by
  have hmod : n ≡ m [MOD table.m_size] := Nat.ModEq.add_left_cancel' idx.toNat heq
  rwa [Nat.ModEq, Nat.mod_eq_of_lt hn, Nat.mod_eq_of_lt hm] at hmod

/-- A key that is present and not behind a hole is found by a search that stores. -/
theorem Sized.setItemLoop_of_present (h : table.Sized) (hu : table.Unique) (hkey : key ≠ 0)
    {e : UInt32} (hat : table.keyAt e.toNat = some key) (hclear : ¬ table.Shadowed key) :
    table.setItemLoop key table.m_size (hash64 key) = some e := by
  obtain ⟨m, hm, hprobe⟩ := h.exists_probe (hash64 key) (lt_of_keyAt hat)
  rw [← hprobe] at hat
  rcases h.setItemLoop_cases key table.m_size (hash64 key) with
    ⟨n, hn, e', hrun, he', hat', hbefore⟩ | ⟨-, hall⟩
  · rcases hat' with hsame | hvacant
    · have heq := hu _ _ _ hkey hsame hat
      rw [hrun, UInt32.toNat_inj.mp (heq.trans hprobe)]
    · -- the hole comes after the key, or the key would be shadowed
      exfalso
      rw [he'] at hvacant
      rcases Nat.lt_trichotomy n m with hlt | rfl | hgt
      · exact hclear ⟨n, m, hlt, hm, hvacant, hat⟩
      · rw [hat] at hvacant
        exact hkey (Option.some.inj hvacant)
      · exact (hbefore m hgt).1 hat
  · exact absurd hat (hall m hm).1

/-- A shadowed key is missed by a search that stores: it stops at a hole. -/
theorem Sized.setItemLoop_of_shadowed (h : table.Sized) (hu : table.Unique) (hkey : key ≠ 0)
    (hsh : table.Shadowed key) :
    ∃ e j, table.setItemLoop key table.m_size (hash64 key) = some e ∧
      table.keyAt e.toNat = some 0 ∧ table.keyAt j = some key := by
  obtain ⟨n, m, hlt, hm, hhole, hat⟩ := hsh
  rcases h.setItemLoop_cases key table.m_size (hash64 key) with
    ⟨n', hn', e, hrun, he, hat', hbefore⟩ | ⟨-, hall⟩
  · refine ⟨e, _, hrun, ?_, hat⟩
    rcases hat' with hsame | hvacant
    · exfalso
      rw [he] at hsame
      obtain rfl := probe_inj hn' hm (hu _ _ _ hkey hsame hat)
      exact (hbefore n hlt).2 hhole
    · exact hvacant
  · exact absurd hat (hall m hm).1

/-- `setItem` refuses a key that is not present exactly if no entry is vacant. -/
theorem Sized.setItem_refuses_iff (h : table.Sized) (habsent : table.getItem key = none)
    (value : β) :
    (table.setItem key value).1 = COMMUTIL_INVALID_CHT_ENTRY_ID ↔
      ∀ i, table.keyAt i ≠ some 0 := by
  have hkey := h.getItem_eq_none_iff.mp habsent
  unfold setItem
  rcases h.setItemLoop_cases key table.m_size (hash64 key) with
    ⟨n, hn, e, hrun, he, hat, -⟩ | ⟨hrun, hall⟩
  · -- it has found a vacant entry
    have hvacant : table.keyAt e.toNat = some 0 := hat.resolve_left (hkey e.toNat)
    rw [hrun]
    exact iff_of_false (h.ne_invalid hvacant) fun hfull => hfull e.toNat hvacant
  · rw [hrun]
    refine iff_of_true rfl fun i hvacant => ?_
    obtain ⟨n, hn, hprobe⟩ := h.exists_probe (hash64 key) (lt_of_keyAt hvacant)
    exact (hall n hn).2 (hprobe ▸ hvacant)

/-- A key that is not present is stored in a hole, unless there is none. -/
theorem setItemLoop_of_absent (habsent : ∀ i, table.keyAt i ≠ some key)
    {e : UInt32} (hrun : table.setItemLoop key table.m_size (hash64 key) = some e) :
    table.keyAt e.toNat = some 0 := by
  obtain ⟨old, hold, hcase⟩ := entry_of_setItemLoop hrun
  have hat : table.keyAt e.toNat = some old.m_key := by
    rw [keyAt, hold]
    rfl
  rcases hcase with hzero | hsame
  · rw [hat, hzero]
  · exact absurd (hat.trans (by rw [hsame])) (habsent _)

/-! ## §4 Runs of calls -/

/-- One call on the table.  `removeAt` comes with the key that the index was returned for. -/
inductive Operation (β : Type) where
  | setItem (key : UInt64) (value : β)
  | getOrSetItem (key : UInt64) (value : β)
  | getItem (key : UInt64)
  | removeItem (key : UInt64)
  | removeAt (idx : UInt32) (key : UInt64)
  deriving DecidableEq, Repr

/-- A table, and for each key the value most recently stored, if it was not removed since. -/
structure Usage (β : Type) where
  table : ConcurrentHashTable β
  stored : UInt64 → Option β

namespace Usage

/-- The table after a call, and the map after it: `setItem` stores unless it reports a full table
    for a key that is not there, `getOrSetItem` stores unless the key is there or it reports a
    full table. -/
def perform (s : Usage β) : Operation β → Usage β
  | .setItem key value =>
    let (id, table) := s.table.setItem key value
    ⟨table, if (s.stored key).isSome ∨ id ≠ COMMUTIL_INVALID_CHT_ENTRY_ID then
      Function.update s.stored key (some value) else s.stored⟩
  | .getOrSetItem key value =>
    let ((id, _), table) := s.table.getOrSetItem key value
    ⟨table, if (s.stored key).isNone ∧ id ≠ COMMUTIL_INVALID_CHT_ENTRY_ID then
      Function.update s.stored key (some value) else s.stored⟩
  | .getItem _ => s
  | .removeItem key => ⟨(s.table.removeItem key).2, Function.update s.stored key none⟩
  | .removeAt idx key => ⟨s.table.removeAt idx, Function.update s.stored key none⟩

/-- The calls of the contract: keys are not zero, and an index is removed while it holds the key
    that it was returned for. -/
def Allowed (s : Usage β) : Operation β → Prop
  | .setItem key _ | .getOrSetItem key _ | .getItem key | .removeItem key => key ≠ 0
  | .removeAt idx key => key ≠ 0 ∧ s.table.keyAt idx.toNat = some key

/-- The calls that store a shadowed key. -/
def StoresShadowed (s : Usage β) : Operation β → Prop
  | .setItem key _ | .getOrSetItem key _ => s.table.Shadowed key
  | _ => False

instance (s : Usage β) : ∀ op : Operation β, Decidable (s.Allowed op)
  | .setItem key _ | .getOrSetItem key _ | .getItem key | .removeItem key =>
    inferInstanceAs (Decidable (key ≠ 0))
  | .removeAt idx key =>
    inferInstanceAs (Decidable (key ≠ 0 ∧ s.table.keyAt idx.toNat = some key))

instance (s : Usage β) : ∀ op : Operation β, Decidable (s.StoresShadowed op)
  | .setItem key _ | .getOrSetItem key _ => inferInstanceAs (Decidable (s.table.Shadowed key))
  | .getItem _ | .removeItem _ | .removeAt _ _ => .isFalse id

/-- A new table, in which nothing is stored. -/
def start (size : Nat) (garbage : β) : Usage β := ⟨initTable size garbage, fun _ => none⟩

/-- The table is the map: no key is in two entries, and `getItem` returns the value most recently
    stored. -/
structure IsMap (s : Usage β) : Prop where
  unique : s.table.Unique
  getItem_eq : ∀ key, key ≠ 0 → (s.table.getItem key).map Prod.snd = s.stored key

variable {s : Usage β}

theorem IsMap.stored_eq_none_iff (h : s.IsMap) (hs : s.table.Sized) (hkey : key ≠ 0) :
    s.stored key = none ↔ ∀ i, s.table.keyAt i ≠ some key := by
  rw [← h.getItem_eq key hkey, Option.map_eq_none_iff, hs.getItem_eq_none_iff]

theorem IsMap.exists_of_stored (h : s.IsMap) (hkey : key ≠ 0)
    (hsome : (s.stored key).isSome) : ∃ e : UInt32, s.table.keyAt e.toNat = some key := by
  rw [← h.getItem_eq key hkey, Option.isSome_map] at hsome
  obtain ⟨found, hfound⟩ := Option.isSome_iff_exists.mp hsome
  exact ⟨found.1, keyAt_of_getItem hfound⟩

/-- A write of the key into the entry that holds it, or into a hole if no entry does. -/
private theorem IsMap.write (h : s.IsMap) {value : β} {e : UInt32} (hkey : key ≠ 0)
    (hrun : s.table.setItemLoop key s.table.m_size (hash64 key) = some e)
    (hs : s.table.Sized) (hother : ∀ i, i ≠ e.toNat → s.table.keyAt i ≠ some key) :
    IsMap ⟨s.table.store e ⟨key, value⟩, Function.update s.stored key (some value)⟩ := by
  have hset : s.table.setItem key value = (e, s.table.store e ⟨key, value⟩) := by
    rw [setItem, hrun]
  obtain ⟨old, hold, -⟩ := entry_of_setItemLoop hrun
  have hvalid : e ≠ COMMUTIL_INVALID_CHT_ENTRY_ID :=
    hs.ne_invalid (keyAt_eq_some.mpr ⟨old, hold, rfl⟩)
  refine ⟨h.unique.store (fun j hj _ => hother j hj), fun key' hkey' => ?_⟩
  dsimp only
  by_cases heq : key' = key
  · subst heq
    have hself := getItem_setItem_self s.table key' value (by rw [hset]; exact hvalid)
    rw [hset] at hself
    rw [hself, Function.update_self]
    rfl
  · have hne := getItem_setItem_ne s.table value heq hkey'
    rw [hset] at hne
    rw [hne, Function.update_of_ne heq, h.getItem_eq key' hkey']

/-- A store of a shadowed key puts the key into a second entry. -/
private theorem not_unique_of_shadowed (hs : s.table.Sized) (hu : s.table.Unique)
    (hkey : key ≠ 0) (hsh : s.table.Shadowed key) (value : β) :
    ∃ e, s.table.setItemLoop key s.table.m_size (hash64 key) = some e ∧
      s.table.keyAt e.toNat ≠ some key ∧ ¬ Unique (s.table.store e ⟨key, value⟩) := by
  obtain ⟨e, j, hrun, hhole, hat⟩ := hs.setItemLoop_of_shadowed hu hkey hsh
  have hne : e.toNat ≠ j := by
    intro heq
    rw [heq, hat] at hhole
    exact hkey (Option.some.inj hhole)
  refine ⟨e, hrun, ?_, fun hdup => hne ?_⟩
  · rw [hhole]
    exact fun heq => hkey (Option.some.inj heq).symm
  · refine hdup _ _ key hkey (keyAt_store_self (lt_of_keyAt hhole)) ?_
    rw [keyAt_store_ne hne]
    exact hat

theorem IsMap.other (h : s.IsMap) (hkey : key ≠ 0) {e : UInt32}
    (hat : s.table.keyAt e.toNat = some key) :
    ∀ i, i ≠ e.toNat → s.table.keyAt i ≠ some key :=
  fun _ hi hat' => hi (h.unique _ _ key hkey hat' hat)

/-- `setItem` keeps the map exactly if its key is not shadowed. -/
private theorem perform_setItem_iff (hs : s.table.Sized) (h : s.IsMap) (hkey : key ≠ 0)
    (value : β) : IsMap (s.perform (.setItem key value)) ↔ ¬ s.table.Shadowed key := by
  constructor
  · intro hmap hsh
    obtain ⟨e, hrun, -, hdup⟩ := not_unique_of_shadowed hs h.unique hkey hsh value
    have hu := hmap.unique
    simp only [perform, setItem, hrun] at hu
    exact hdup hu
  intro hclear
  cases hstored : s.stored key with
  | some old =>
    -- present: the entry that holds the key is overwritten
    obtain ⟨e, hat⟩ := h.exists_of_stored hkey (by rw [hstored]; rfl)
    have hrun := hs.setItemLoop_of_present h.unique hkey hat hclear
    simp only [perform, setItem, hrun, hstored, Option.isSome_some, true_or, if_true]
    exact h.write hkey hrun hs (h.other hkey hat)
  | none =>
    have habsent := (h.stored_eq_none_iff hs hkey).mp hstored
    cases hrun : s.table.setItemLoop key s.table.m_size (hash64 key) with
    | none =>
      simp only [perform, setItem, hrun, hstored, Option.isSome_none, Bool.false_eq_true, ne_eq,
        not_true_eq_false, or_self, if_false]
      exact h
    | some e =>
      have hvalid := hs.ne_invalid (setItemLoop_of_absent habsent hrun)
      simp only [perform, setItem, hrun, ne_eq, hvalid, not_false_eq_true, or_true, if_true]
      exact h.write hkey hrun hs (fun i _ => habsent i)

/-- `getOrSetItem` keeps the map exactly if its key is not shadowed. -/
private theorem perform_getOrSetItem_iff (hs : s.table.Sized) (h : s.IsMap) (hkey : key ≠ 0)
    (value : β) : IsMap (s.perform (.getOrSetItem key value)) ↔ ¬ s.table.Shadowed key := by
  constructor
  · intro hmap hsh
    obtain ⟨e, hrun, hmiss, hdup⟩ := not_unique_of_shadowed hs h.unique hkey hsh value
    have hu := hmap.unique
    simp only [perform, getOrSetItem, getOrSetItemLoop_eq, hrun, hmiss, Option.map_some,
      decide_false] at hu
    exact hdup hu
  intro hclear
  cases hstored : s.stored key with
  | some old =>
    -- present: nothing is written
    obtain ⟨e, hat⟩ := h.exists_of_stored hkey (by rw [hstored]; rfl)
    have hrun := hs.setItemLoop_of_present h.unique hkey hat hclear
    simp only [perform, getOrSetItem, getOrSetItemLoop_eq, hrun, hat, Option.map_some,
      decide_true, hstored, Option.isNone_some, Bool.false_eq_true, false_and, if_false]
    exact h
  | none =>
    have habsent := (h.stored_eq_none_iff hs hkey).mp hstored
    cases hrun : s.table.setItemLoop key s.table.m_size (hash64 key) with
    | none =>
      simp only [perform, getOrSetItem, getOrSetItemLoop_eq, hrun, Option.map_none, hstored, ne_eq,
        not_true_eq_false, and_false, if_false]
      exact h
    | some e =>
      have hvalid := hs.ne_invalid (setItemLoop_of_absent habsent hrun)
      simp only [perform, getOrSetItem, getOrSetItemLoop_eq, hrun, Option.map_some, habsent,
        decide_false, hstored, Option.isNone_none, ne_eq, hvalid, not_false_eq_true, and_self,
        if_true]
      exact h.write hkey hrun hs (fun i _ => habsent i)

/-- Removing the entry that holds a key removes the key from the map. -/
private theorem IsMap.removeAt (hs : s.table.Sized) (h : s.IsMap) (hkey : key ≠ 0) {e : UInt32}
    (hat : s.table.keyAt e.toNat = some key) :
    IsMap ⟨s.table.removeAt e, Function.update s.stored key none⟩ := by
  have hfound := hs.found_of_unique h.unique
  obtain ⟨entry, hentry, rfl⟩ := keyAt_eq_some.mp hat
  refine ⟨h.unique.removeAt e, fun key' hkey' => ?_⟩
  dsimp only
  by_cases heq : key' = entry.m_key
  · subst heq
    have hget := hfound e (hs.ne_invalid hat) entry hentry hkey
    rw [hfound.getItem_removeAt_self hget hkey, Function.update_self]
    rfl
  · rw [getItem_removeAt_ne hentry (Ne.symm heq) hkey', Function.update_of_ne heq,
      h.getItem_eq key' hkey']

private theorem perform_removeItem (hs : s.table.Sized) (h : s.IsMap) (hkey : key ≠ 0) :
    IsMap (s.perform (.removeItem key)) := by
  have hloop : s.table.removeItemLoop key s.table.m_size (hash64 key) =
      (s.table.getItem key).map Prod.fst := by
    rw [removeItemLoop_eq, hs.getItem_eq_loop]
  cases hget : s.table.getItem key with
  | none =>
    have hnone : s.stored key = none := by
      rw [← h.getItem_eq key hkey, hget]
      rfl
    have hupdate : Function.update s.stored key none = s.stored := by
      rw [← hnone, Function.update_eq_self]
    simp only [perform, removeItem, hloop, hget, Option.map_none, hupdate]
    exact h
  | some found =>
    simp only [perform, removeItem, hloop, hget, Option.map_some]
    exact h.removeAt hs hkey (keyAt_of_getItem hget)

/-- One call keeps the map exactly if it stores no shadowed key. -/
theorem perform_isMap_iff (hs : s.table.Sized) (h : s.IsMap) {op : Operation β}
    (hop : s.Allowed op) : IsMap (s.perform op) ↔ ¬ s.StoresShadowed op := by
  cases op with
  | setItem key value => exact perform_setItem_iff hs h hop value
  | getOrSetItem key value => exact perform_getOrSetItem_iff hs h hop value
  | getItem key => exact ⟨fun _ hno => hno, fun _ => h⟩
  | removeItem key => exact ⟨fun _ hno => hno, fun _ => perform_removeItem hs h hop⟩
  | removeAt idx key => exact ⟨fun _ hno => hno, fun _ => h.removeAt hs hop.1 hop.2⟩

/-! ## §5 When the table is a map -/

private theorem size2pow_eq {size : Nat} (hsize : size ≤ 2 ^ 31) :
    ∀ (left j : Nat), j ≤ 31 → ∃ k ≤ 31, size2pow size left (2 ^ j) = 2 ^ k := by
  intro left
  induction left with
  | zero => exact fun j hj => ⟨j, hj, rfl⟩
  | succ left ih =>
    intro j hj
    rw [size2pow]
    split
    · rename_i hlt
      have hj31 : j < 31 := (Nat.pow_lt_pow_iff_right (by decide)).mp (Nat.lt_of_lt_of_le hlt hsize)
      obtain ⟨k, hk, heq⟩ := ih (j + 1) hj31
      exact ⟨k, hk, by rw [← heq, Nat.pow_succ']⟩
    · exact ⟨j, hj, rfl⟩

theorem initTable_sized {size : Nat} (hsize : size ≤ 2 ^ 31) (garbage : β) :
    Sized (initTable size garbage) := by
  obtain ⟨k, hk, heq⟩ := size2pow_eq hsize 64 0 (Nat.zero_le _)
  refine ⟨k, hk, ?_⟩
  rw [m_size, initTable, List.length_replicate]
  exact heq

theorem start_isMap {size : Nat} (hsize : size ≤ 2 ^ 31) (garbage : β) :
    IsMap (start size garbage) := by
  have hzero : ∀ i k, k ≠ 0 → (initTable size garbage).keyAt i ≠ some k := by
    intro i k hk hat
    obtain ⟨entry, hentry, rfl⟩ := keyAt_eq_some.mp hat
    have hget := (List.getElem?_eq_some_iff.mp hentry).2
    simp only [initTable, List.getElem_replicate] at hget
    rw [← hget] at hk
    exact hk rfl
  refine ⟨fun i j k hk hi _ => absurd hi (hzero i k hk), fun key hkey => ?_⟩
  have hnone := (initTable_sized hsize garbage).getItem_eq_none_iff.mpr
    (fun i => hzero i key hkey)
  simp only [start, hnone, Option.map_none]

private theorem m_size_removeAt (table : ConcurrentHashTable β) (idx : UInt32) :
    (table.removeAt idx).m_size = table.m_size := by
  unfold ConcurrentHashTable.removeAt
  split
  · rfl
  · exact m_size_store _ _

theorem perform_sized (hs : s.table.Sized) (op : Operation β) : (s.perform op).table.Sized := by
  have hsize : (s.perform op).table.m_size = s.table.m_size := by
    cases op with
    | setItem key value =>
      simp only [perform, setItem]
      split
      · rfl
      · exact m_size_store _ _
    | getOrSetItem key value =>
      simp only [perform, getOrSetItem]
      split
      · rfl
      · rfl
      · exact m_size_store _ _
    | getItem key => rfl
    | removeItem key =>
      simp only [perform, removeItem]
      split
      · rfl
      · exact m_size_removeAt _ _
    | removeAt idx key => exact m_size_removeAt _ _
  obtain ⟨k, hk, heq⟩ := hs
  exact ⟨k, hk, hsize.trans heq⟩

/-- **The hash table as a map**: in a run of calls on a new table, the table is the map of what
    was stored in every state exactly if no call stores a key that lies behind a hole. -/
theorem hash_table_is_map_iff {size : Nat} (hsize : size ≤ 2 ^ 31) (garbage : β)
    {ops : List (Operation β)} (hops : EachStep perform Allowed (start size garbage) ops) :
    Throughout perform IsMap (start size garbage) ops ↔
      EachStep perform (fun s op => ¬ s.StoresShadowed op) (start size garbage) ops :=
  @throughout_iff_eachStep _ _ perform _ _ IsMap (fun s => s.table.Sized) Allowed _
    (fun _ op hs _ => perform_sized hs op)
    (fun _ _ hs hmap hop => perform_isMap_iff hs hmap hop)
    (initTable_sized hsize garbage) (start_isMap hsize garbage) hops

/-- Keys 3 and 7 collide in a table of four entries.  Key 7 is removed before key 3, so that no
    store meets a hole. -/
theorem hash_table_is_map_colliding :
    Throughout perform IsMap (start 4 (0 : Nat))
      [.setItem 3 10, .setItem 7 20, .setItem 7 21, .removeAt 2 7, .getItem 7, .removeItem 3,
        .getOrSetItem 7 22] :=
  (hash_table_is_map_iff (by decide) 0 (by decide +kernel)).mpr (by decide +kernel)

/-- With the colliding key 3 removed first, key 7 lies behind a hole.  Setting it stores it a second
    time, and after it is removed a search returns the value that was overwritten. -/
theorem removed_key_comes_back :
    EachStep perform Allowed (start 4 (0 : Nat))
        [.setItem 3 10, .setItem 7 20, .removeItem 3, .setItem 7 30, .removeItem 7] ∧
      let s := [Operation.setItem 3 10, .setItem 7 20, .removeItem 3, .setItem 7 30].foldl perform
        (start 4 0)
      s.table.keyAt 1 = some 7 ∧ s.table.keyAt 2 = some 7 ∧
        (s.perform (.removeItem 7)).stored 7 = none ∧
        (s.perform (.removeItem 7)).table.getItem 7 = some (2, 20) := by
  decide +kernel

end Usage

end Commutil.Common.ConcurrentHashTable
