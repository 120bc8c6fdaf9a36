import Commutil.Common.HashTableMap
import Mathlib.Data.List.Nodup

/-!
# What a Probe of the Hash Table Covers

Each probe loop of a `ConcurrentHashTable` masks its index before it looks at an entry and
increments it afterwards.  `visits` is that walk on its own.  Over a table of `2 ^ k` entries a
full walk visits every entry once, from every start and across the wrap of the 32-bit index
(`Sized.visits_perm`), and each loop stops at the first entry of the walk that it is looking for.

`probing_covers_table` puts together what follows for the operations, whatever the entries hold.
-/

namespace Commutil.Common.ConcurrentHashTable

variable {β : Type} {table : ConcurrentHashTable β} {key : UInt64}

/-! ## §1 The size of a table -/

/-- `n` is the smallest power of two that is not below `size`. -/
structure LeastPow (size n : Nat) : Prop where
  pow : ∃ k, n = 2 ^ k
  le : size ≤ n
  least : ∀ k, size ≤ 2 ^ k → n ≤ 2 ^ k

/-- The loop of `initialize` at `2 ^ j`, where no smaller power is large enough. -/
theorem size2pow_least {size : Nat} :
    ∀ (left j : Nat), size ≤ 2 ^ (j + left) → (∀ i < j, 2 ^ i < size) →
      LeastPow size (size2pow size left (2 ^ j)) := by
  have hstop : ∀ j, size ≤ 2 ^ j → (∀ i < j, 2 ^ i < size) → LeastPow size (2 ^ j) := by
    intro j hle hsmaller
    refine ⟨⟨j, rfl⟩, hle, fun k hk => ?_⟩
    rcases Nat.lt_or_ge k j with hlt | hge
    · exact absurd (hsmaller k hlt) (Nat.not_lt.mpr hk)
    · exact Nat.pow_le_pow_right (by decide) hge
  intro left
  induction left with
  | zero => exact hstop
  | succ left ih =>
    intro j hfuel hsmaller
    rw [size2pow]
    split
    · rename_i hlt
      rw [← Nat.pow_succ']
      apply ih (j + 1)
      · rwa [show j + 1 + left = j + (left + 1) by omega]
      · intro i hi
        rcases Nat.lt_succ_iff_lt_or_eq.mp hi with hij | rfl
        · exact hsmaller i hij
        · exact hlt
    · rename_i hge
      exact hstop j (Nat.not_lt.mp hge) hsmaller

theorem initTable_least {size : Nat} (hsize : size ≤ 2 ^ 31) (garbage : β) :
    LeastPow size (initTable size garbage).m_size := by
  rw [m_size, initTable, List.length_replicate]
  apply size2pow_least 64 0
  · exact Nat.le_trans hsize (by decide)
  · exact fun i hi => absurd hi (Nat.not_lt_zero i)

theorem LeastPow.sized {size : Nat} (h : LeastPow size table.m_size) (hsize : size ≤ 2 ^ 31) :
    table.Sized := by
  obtain ⟨k, hk⟩ := h.pow
  have hle := h.least 31 hsize
  rw [hk] at hle
  exact ⟨k, (Nat.pow_le_pow_iff_right (by decide)).mp hle, hk⟩

/-! ## §2 The walk of a probe loop -/

/-- The entries that a probe loop looks at if nothing stops it. -/
def visits (table : ConcurrentHashTable β) : (left : Nat) → (idx : UInt32) → List UInt32
  | 0, _ => []
  | left + 1, idx =>
    let idx := table.mask idx
    idx :: table.visits left (idx + 1)

theorem Sized.visits_eq (h : table.Sized) :
    ∀ (left : Nat) (idx : UInt32),
      (table.visits left idx).map UInt32.toNat = (List.range left).map (table.probe idx) := by
  intro left
  induction left with
  | zero => exact fun _ => rfl
  | succ left ih =>
    intro idx
    have hhere : (table.mask idx).toNat = table.probe idx 0 := h.mask_toNat idx
    have hrest : table.probe (table.mask idx + 1) = fun n => table.probe idx (n + 1) :=
      funext fun n => h.probe_succ idx n
    simp only [visits, List.map_cons, ih, hrest, hhere, List.range_succ_eq_map, List.map_map]
    rfl

/-- **A full walk visits every entry exactly once.** -/
theorem Sized.visits_perm (h : table.Sized) (start : UInt32) :
    ((table.visits table.m_size start).map UInt32.toNat).Perm (List.range table.m_size) := by
  have hnodup : ((List.range table.m_size).map (table.probe start)).Nodup := by
    apply List.Nodup.map_on
    · intro n hn m hm heq
      exact probe_inj (List.mem_range.mp hn) (List.mem_range.mp hm) heq
    · exact List.nodup_range
  rw [h.visits_eq, List.perm_ext_iff_of_nodup hnodup List.nodup_range]
  intro i
  rw [List.mem_map, List.mem_range]
  constructor
  · rintro ⟨n, -, rfl⟩
    exact h.probe_lt start n
  · intro hi
    obtain ⟨n, hn, hprobe⟩ := h.exists_probe start hi
    exact ⟨n, List.mem_range.mpr hn, hprobe⟩

theorem Sized.exists_visit (h : table.Sized) (start : UInt32) {i : Nat} {k : UInt64}
    (hi : table.keyAt i = some k) : ∃ e ∈ table.visits table.m_size start, e.toNat = i :=
  List.mem_map.mp ((h.visits_perm start).mem_iff.mpr (List.mem_range.mpr (lt_of_keyAt hi)))

/-- There is an entry at each masked index. -/
theorem Sized.exists_entry (h : table.Sized) (idx : UInt32) :
    ∃ entry, table.m_entries[(table.mask idx).toNat]? = some entry ∧
      table.keyAt (table.mask idx).toNat = some entry.m_key := by
  have hlt : (table.mask idx).toNat < table.m_size := by
    rw [h.mask_toNat]
    exact Nat.mod_lt _ h.pos
  obtain ⟨k, hk⟩ := keyAt_of_lt hlt
  obtain ⟨entry, hentry, rfl⟩ := keyAt_eq_some.mp hk
  exact ⟨entry, hentry, hk⟩

/-- `removeItem` looks for the first entry of the walk that holds the key. -/
theorem Sized.removeItemLoop_eq_find (h : table.Sized) (key : UInt64) :
    ∀ (left : Nat) (idx : UInt32), table.removeItemLoop key left idx =
      (table.visits left idx).find? fun e => table.keyAt e.toNat = some key := by
  intro left
  induction left with
  | zero => exact fun _ => rfl
  | succ left ih =>
    intro idx
    obtain ⟨entry, hentry, hk⟩ := h.exists_entry idx
    simp only [removeItemLoop, visits, hentry, List.find?_cons, hk, ih]
    by_cases hkey : entry.m_key = key
    · simp [hkey]
    · simp [hkey]

/-- `setItem` looks for the first entry of the walk that holds the key or is vacant. -/
theorem Sized.setItemLoop_eq_find (h : table.Sized) (key : UInt64) :
    ∀ (left : Nat) (idx : UInt32), table.setItemLoop key left idx =
      (table.visits left idx).find? fun e =>
        table.keyAt e.toNat = some key ∨ table.keyAt e.toNat = some 0 := by
  intro left
  induction left with
  | zero => exact fun _ => rfl
  | succ left ih =>
    intro idx
    obtain ⟨entry, hentry, hk⟩ := h.exists_entry idx
    simp only [setItemLoop, visits, hentry, List.find?_cons, hk, ih]
    by_cases hkey : entry.m_key = key
    · simp [hkey]
    · by_cases hzero : entry.m_key = 0
      · simp [hzero]
      · simp [hkey, hzero]

/-! ## §3 What the operations find -/

/-- Every entry holds a key, and another one. -/
def HoldsOthers (table : ConcurrentHashTable β) (key : UInt64) : Prop :=
  ∀ i < table.m_size, ∃ k, table.keyAt i = some k ∧ k ≠ 0 ∧ k ≠ key

theorem Sized.getItem_isSome_iff (h : table.Sized) :
    (table.getItem key).isSome ↔ ∃ i, table.keyAt i = some key := by
  rw [← not_iff_not, Option.not_isSome_iff_eq_none, h.getItem_eq_none_iff, not_exists]

theorem Sized.setItemLoop_eq_none_iff (h : table.Sized) (start : UInt32) :
    table.setItemLoop key table.m_size start = none ↔ table.HoldsOthers key := by
  rw [h.setItemLoop_eq_find, List.find?_eq_none]
  constructor
  · intro hnone i hi
    obtain ⟨k, hk⟩ := keyAt_of_lt hi
    obtain ⟨e, he, rfl⟩ := h.exists_visit start hk
    have hother := hnone e he
    rw [hk, decide_eq_true_eq, not_or] at hother
    refine ⟨k, hk, ?_, ?_⟩
    · rintro rfl
      exact hother.2 rfl
    · rintro rfl
      exact hother.1 rfl
  · intro hothers e he
    have hlt : e.toNat < table.m_size :=
      List.mem_range.mp ((h.visits_perm start).mem_iff.mp (List.mem_map_of_mem he))
    obtain ⟨k, hk, hzero, hne⟩ := hothers e.toNat hlt
    rw [hk, decide_eq_true_eq, not_or]
    exact ⟨fun heq => hne (Option.some.inj heq), fun heq => hzero (Option.some.inj heq)⟩

/-- The entry at which a storing search stops is an entry of the table. -/
theorem Sized.setItemLoop_ne_invalid (h : table.Sized) {left : Nat} {idx e : UInt32}
    (hrun : table.setItemLoop key left idx = some e) : e ≠ COMMUTIL_INVALID_CHT_ENTRY_ID := by
  obtain ⟨old, hold, -⟩ := entry_of_setItemLoop hrun
  exact h.ne_invalid (keyAt_eq_some.mpr ⟨old, hold, rfl⟩)

theorem Sized.setItem_invalid_iff (h : table.Sized) (value : β) :
    (table.setItem key value).1 = COMMUTIL_INVALID_CHT_ENTRY_ID ↔ table.HoldsOthers key := by
  rw [← h.setItemLoop_eq_none_iff (hash64 key), setItem]
  cases hrun : table.setItemLoop key table.m_size (hash64 key) with
  | none => exact iff_of_true rfl rfl
  | some e =>
    refine iff_of_false (h.setItemLoop_ne_invalid hrun) ?_
    rintro ⟨⟩

theorem Sized.getOrSetItem_invalid_iff (h : table.Sized) (value : β) :
    (table.getOrSetItem key value).1.1 = COMMUTIL_INVALID_CHT_ENTRY_ID ↔
      table.HoldsOthers key := by
  rw [← h.setItemLoop_eq_none_iff (hash64 key), getOrSetItem, getOrSetItemLoop_eq]
  cases hrun : table.setItemLoop key table.m_size (hash64 key) with
  | none => exact iff_of_true rfl rfl
  | some e =>
    refine iff_of_false ?_ (by rintro ⟨⟩)
    by_cases hhit : table.keyAt e.toNat = some key
    · simpa [hhit] using h.setItemLoop_ne_invalid hrun
    · simpa [hhit] using h.setItemLoop_ne_invalid hrun

/-- `removeItem` vacates one entry that holds the key, and nothing else. -/
theorem Sized.removeItem_cases (h : table.Sized) (key : UInt64) :
    (∃ e entry, table.m_entries[e.toNat]? = some entry ∧ entry.m_key = key ∧
      e ≠ COMMUTIL_INVALID_CHT_ENTRY_ID ∧
      table.removeItem key = (e, ⟨table.m_entries.set e.toNat { entry with m_key := 0 }⟩)) ∨
    ((∀ i, table.keyAt i ≠ some key) ∧
      table.removeItem key = (COMMUTIL_INVALID_CHT_ENTRY_ID, table)) := by
  unfold removeItem
  rw [h.removeItemLoop_eq_find]
  cases hfind : (table.visits table.m_size (hash64 key)).find?
      fun e => table.keyAt e.toNat = some key with
  | none =>
    refine .inr ⟨fun i hi => ?_, rfl⟩
    obtain ⟨e, he, rfl⟩ := h.exists_visit (hash64 key) hi
    exact List.find?_eq_none.mp hfind e he (decide_eq_true hi)
  | some e =>
    have hat : table.keyAt e.toNat = some key := by simpa using List.find?_some hfind
    obtain ⟨entry, hentry, hkey⟩ := keyAt_eq_some.mp hat
    refine .inl ⟨e, entry, hentry, hkey, h.ne_invalid hat, ?_⟩
    simp only [removeAt, hentry, store]

/-- **Probing covers the table**: `initialize` chooses the smallest power of two, each probe loop
    stops at the first entry it looks for in a walk over every entry, and so the operations find
    a key, a vacant entry or neither exactly if that is what the entries hold. -/
theorem probing_covers_table {size : Nat} (hsize : size ≤ 2 ^ 31) (garbage : β)
    (table : ConcurrentHashTable β) (htable : table.m_size = (initTable size garbage).m_size)
    (key : UInt64) :
    LeastPow size table.m_size ∧
    (∀ start, ((table.visits table.m_size start).map UInt32.toNat).Perm
        (List.range table.m_size) ∧
      ((table.getItemLoop key table.m_size start).map Prod.fst =
        (table.visits table.m_size start).find? fun e => table.keyAt e.toNat = some key) ∧
      (table.removeItemLoop key table.m_size start =
        (table.visits table.m_size start).find? fun e => table.keyAt e.toNat = some key) ∧
      (table.setItemLoop key table.m_size start =
        (table.visits table.m_size start).find? fun e =>
          table.keyAt e.toNat = some key ∨ table.keyAt e.toNat = some 0) ∧
      ((table.getOrSetItemLoop key table.m_size start).map Prod.fst =
        (table.visits table.m_size start).find? fun e =>
          table.keyAt e.toNat = some key ∨ table.keyAt e.toNat = some 0)) ∧
    ((table.getItem key).isSome ↔ ∃ i, table.keyAt i = some key) ∧
    (∀ e value, table.getItem key = some (e, value) →
      table.m_entries[e.toNat]? = some ⟨key, value⟩) ∧
    (∀ value, (table.setItem key value).1 = COMMUTIL_INVALID_CHT_ENTRY_ID ↔
      table.HoldsOthers key) ∧
    (∀ value, (table.getOrSetItem key value).1.1 = COMMUTIL_INVALID_CHT_ENTRY_ID ↔
      table.HoldsOthers key) ∧
    ((∃ e entry, table.m_entries[e.toNat]? = some entry ∧ entry.m_key = key ∧
        e ≠ COMMUTIL_INVALID_CHT_ENTRY_ID ∧
        table.removeItem key = (e, ⟨table.m_entries.set e.toNat { entry with m_key := 0 }⟩)) ∨
      ((∀ i, table.keyAt i ≠ some key) ∧
        table.removeItem key = (COMMUTIL_INVALID_CHT_ENTRY_ID, table))) := by
  have hleast : LeastPow size table.m_size := htable ▸ initTable_least hsize garbage
  have h : table.Sized := hleast.sized hsize
  refine ⟨hleast, fun start => ⟨h.visits_perm start, ?_, ?_, ?_, ?_⟩, h.getItem_isSome_iff,
    fun e value hget => (entry_of_getItem hget).2, h.setItem_invalid_iff,
    h.getOrSetItem_invalid_iff, h.removeItem_cases key⟩
  · rw [← removeItemLoop_eq, h.removeItemLoop_eq_find]
  · exact h.removeItemLoop_eq_find key _ start
  · exact h.setItemLoop_eq_find key _ start
  · rw [getOrSetItemLoop_eq, Option.map_map]
    rw [← h.setItemLoop_eq_find]
    exact Option.map_id'

/-- A table with a hole before and behind the key. -/
def holed : ConcurrentHashTable Nat := ⟨[⟨5, 1⟩, ⟨0, 0⟩, ⟨7, 2⟩, ⟨0, 0⟩]⟩

theorem probing_covers_holed :
    LeastPow 3 4 ∧ (holed.getItem 7).isSome ∧
      (holed.setItem 7 9).1 ≠ COMMUTIL_INVALID_CHT_ENTRY_ID := by
  obtain ⟨hleast, -, hget, -, hset, -⟩ :=
    probing_covers_table (show 3 ≤ 2 ^ 31 by decide) 0 holed (by decide) 7
  refine ⟨hleast, hget.mpr ⟨2, rfl⟩, fun hinvalid => ?_⟩
  obtain ⟨k, hk, hzero, -⟩ := (hset 9).mp hinvalid 1 (by decide)
  cases hk
  exact hzero rfl

end Commutil.Common.ConcurrentHashTable
