import Mathlib.Tactic.Common

/-!
# The Concurrent Hash Table

`concurrent_hash_table.h`: open addressing over an array whose size is a power of two.
A zero key marks a vacant entry, an entry is removed by storing a zero key, and a
search goes on over vacant entries.

The operations are performed one after another here.  A probe visits at most as many
entries as there are; the model does not have the table of `2 ^ 32` entries, for which
the 32-bit count of the source would wrap around.  `Found` is the invariant that the
callers rely on: what is stored is what a search for its key finds.
-/

namespace Commutil.Common

/-- `COMMUTIL_INVALID_CHT_ENTRY_ID`. -/
def COMMUTIL_INVALID_CHT_ENTRY_ID : UInt32 := 0xFFFFFFFF

/-! ## §1 The table -/

/-- `struct Entry`. -/
structure Entry (β : Type) where
  m_key : UInt64
  m_value : β
  deriving DecidableEq, Repr

/-- `class ConcurrentHashTable`; `m_size` is the length of the array. -/
structure ConcurrentHashTable (β : Type) where
  m_entries : List (Entry β)
  deriving DecidableEq, Repr

namespace ConcurrentHashTable

variable {β : Type}

/-- `m_size`. -/
def m_size (table : ConcurrentHashTable β) : Nat := table.m_entries.length

/-- The loop of `initialize`: doubles as long as the size is too small. -/
def size2pow (size : Nat) : (left : Nat) → (acc : Nat) → Nat
  | 0, acc => acc
  | left + 1, acc => if acc < size then size2pow size left (2 * acc) else acc

/-- `initialize`; `garbage` is the value that an entry happens to hold before one is stored. -/
def initTable (size : Nat) (garbage : β) : ConcurrentHashTable β :=
  ⟨List.replicate (size2pow size 64 1) ⟨0, garbage⟩⟩

/-- One round of the loop in `hash64`, for four bytes of the key. -/
def hashRound (h k : UInt32) : UInt32 :=
  let m : UInt32 := 0x5bd1e995
  let k := k * m
  let k := k ^^^ (k >>> 24)
  let k := k * m
  (h * m) ^^^ k

/-- `hash64` with its default seed, on a little-endian machine. -/
def hash64 (key : UInt64) : UInt32 :=
  let m : UInt32 := 0x5bd1e995
  let h : UInt32 := 0xd92e493e ^^^ 8
  let h := hashRound h key.toUInt32
  let h := hashRound h (key >>> 32).toUInt32
  let h := h ^^^ (h >>> 13)
  let h := h * m
  h ^^^ (h >>> 15)

/-- `idx &= m_size - 1`. -/
def mask (table : ConcurrentHashTable β) (idx : UInt32) : UInt32 :=
  UInt32.ofNat (idx.toNat &&& (table.m_size - 1))

/-- The loop of `getItem`, with the number of entries that are left to visit. -/
def getItemLoop (table : ConcurrentHashTable β) (key : UInt64) :
    (left : Nat) → (idx : UInt32) → Option (UInt32 × β)
  | 0, _ => none
  | left + 1, idx =>
    let idx := table.mask idx
    match table.m_entries[idx.toNat]? with
    | none => none
    | some entry =>
      if entry.m_key = key then some (idx, entry.m_value)
      else getItemLoop table key left (idx + 1)

/-- What a caller makes of an entry id: the invalid one says that nothing was found. -/
def validId (found : UInt32 × β) : Option (UInt32 × β) :=
  if found.1 = COMMUTIL_INVALID_CHT_ENTRY_ID then none else some found

/-- `getItem`: the entry id and the value. -/
def getItem (table : ConcurrentHashTable β) (key : UInt64) : Option (UInt32 × β) :=
  (table.getItemLoop key table.m_size (hash64 key)).bind validId

/-- An entry written. -/
def store (table : ConcurrentHashTable β) (idx : UInt32) (entry : Entry β) :
    ConcurrentHashTable β :=
  ⟨table.m_entries.set idx.toNat entry⟩

/-- The loop of `setItem`: the first entry that is vacant or holds the key. -/
def setItemLoop (table : ConcurrentHashTable β) (key : UInt64) :
    (left : Nat) → (idx : UInt32) → Option UInt32
  | 0, _ => none
  | left + 1, idx =>
    let idx := table.mask idx
    match table.m_entries[idx.toNat]? with
    | none => none
    | some entry =>
      if entry.m_key ≠ key then
        if entry.m_key ≠ 0 then setItemLoop table key left (idx + 1)
        else some idx
      else some idx

/-- `setItem`: the entry id, invalid if the table is full, and the table. -/
def setItem (table : ConcurrentHashTable β) (key : UInt64) (value : β) :
    UInt32 × ConcurrentHashTable β :=
  match table.setItemLoop key table.m_size (hash64 key) with
  | none => (COMMUTIL_INVALID_CHT_ENTRY_ID, table)
  | some idx => (idx, table.store idx ⟨key, value⟩)

/-- The loop of `getOrSetItem`: the first entry that holds the key, with `true`, or is vacant. -/
def getOrSetItemLoop (table : ConcurrentHashTable β) (key : UInt64) :
    (left : Nat) → (idx : UInt32) → Option (UInt32 × Bool)
  | 0, _ => none
  | left + 1, idx =>
    let idx := table.mask idx
    match table.m_entries[idx.toNat]? with
    | none => none
    | some entry =>
      if entry.m_key = key then some (idx, true)
      else if entry.m_key ≠ 0 then getOrSetItemLoop table key left (idx + 1)
      else some (idx, false)

/-- `getOrSetItem`: the entry id, whether the key was found, and the table. -/
def getOrSetItem (table : ConcurrentHashTable β) (key : UInt64) (value : β) :
    (UInt32 × Bool) × ConcurrentHashTable β :=
  match table.getOrSetItemLoop key table.m_size (hash64 key) with
  | none => ((COMMUTIL_INVALID_CHT_ENTRY_ID, false), table)
  | some (idx, true) => ((idx, true), table)
  | some (idx, false) => ((idx, false), table.store idx ⟨key, value⟩)

/-- The loop of `removeItem`: the first entry that holds the key. -/
def removeItemLoop (table : ConcurrentHashTable β) (key : UInt64) :
    (left : Nat) → (idx : UInt32) → Option UInt32
  | 0, _ => none
  | left + 1, idx =>
    let idx := table.mask idx
    match table.m_entries[idx.toNat]? with
    | none => none
    | some entry =>
      if entry.m_key ≠ key then removeItemLoop table key left (idx + 1)
      else some idx

/-- `removeAt`. -/
def removeAt (table : ConcurrentHashTable β) (idx : UInt32) : ConcurrentHashTable β :=
  match table.m_entries[idx.toNat]? with
  | none => table
  | some entry => table.store idx { entry with m_key := 0 }

/-- `removeItem`: the entry id, invalid if the key is not found, and the table. -/
def removeItem (table : ConcurrentHashTable β) (key : UInt64) :
    UInt32 × ConcurrentHashTable β :=
  match table.removeItemLoop key table.m_size (hash64 key) with
  | none => (COMMUTIL_INVALID_CHT_ENTRY_ID, table)
  | some idx => (idx, table.removeAt idx)

/-! ## §2 Searching after a write -/

variable {table : ConcurrentHashTable β} {key : UInt64}

@[simp] theorem mask_store (idx idx' : UInt32) (entry : Entry β) :
    (table.store idx entry).mask idx' = table.mask idx' := by
  simp [mask, m_size, store]

@[simp] theorem m_size_store (idx : UInt32) (entry : Entry β) :
    (table.store idx entry).m_size = table.m_size := by
  simp [m_size, store]

/-- What the search finds is an entry with the key. -/
theorem entry_of_getItemLoop {left : Nat} {idx e : UInt32} {value : β}
    (h : table.getItemLoop key left idx = some (e, value)) :
    table.m_entries[e.toNat]? = some ⟨key, value⟩ := by
  induction left generalizing idx with
  | zero => cases h
  | succ left ih =>
    unfold getItemLoop at h
    dsimp only at h
    split at h
    · cases h
    · rename_i entry hentry
      split at h
      · rename_i hkey
        cases h
        rw [hentry, ← hkey]
      · exact ih h

/-- A write of another key, over an entry of another key, does not change the search. -/
theorem getItemLoop_store {left : Nat} {idx e : UInt32} {old new : Entry β}
    (hold : table.m_entries[e.toNat]? = some old) (hne : old.m_key ≠ key)
    (hne' : new.m_key ≠ key) :
    (table.store e new).getItemLoop key left idx = table.getItemLoop key left idx := by
  induction left generalizing idx with
  | zero => rfl
  | succ left ih =>
    simp only [getItemLoop, mask_store, ih]
    by_cases heq : e.toNat = (table.mask idx).toNat
    · have hlt := (List.getElem?_eq_some_iff.mp hold).1
      rw [← heq, hold, store, List.getElem?_set_self hlt]
      simp only [hne, hne', if_false]
    · rw [store, List.getElem?_set_ne heq]

/-- The entry that `setItem` chooses was vacant or held the key. -/
theorem entry_of_setItemLoop {left : Nat} {idx e : UInt32}
    (h : table.setItemLoop key left idx = some e) :
    ∃ old, table.m_entries[e.toNat]? = some old ∧ (old.m_key = 0 ∨ old.m_key = key) := by
  induction left generalizing idx with
  | zero => cases h
  | succ left ih =>
    unfold setItemLoop at h
    dsimp only at h
    split at h
    · cases h
    · rename_i entry hentry
      split at h
      · split at h
        · exact ih h
        · rename_i hvacant
          cases h
          exact ⟨entry, hentry, .inl (by simpa using hvacant)⟩
      · rename_i hkey
        cases h
        exact ⟨entry, hentry, .inr (by simpa using hkey)⟩

/-- The search finds what `setItem` has stored: the entries before it hold other keys. -/
theorem getItemLoop_setItemLoop {left : Nat} {idx e : UInt32} (value : β)
    (h : table.setItemLoop key left idx = some e) :
    (table.store e ⟨key, value⟩).getItemLoop key left idx = some (e, value) := by
  obtain ⟨old, hold, hvacant⟩ := entry_of_setItemLoop h
  have hlt := (List.getElem?_eq_some_iff.mp hold).1
  have hself : (table.store e ⟨key, value⟩).m_entries[e.toNat]? = some ⟨key, value⟩ :=
    List.getElem?_set_self hlt
  induction left generalizing idx with
  | zero => cases h
  | succ left ih =>
    unfold setItemLoop at h
    dsimp only at h
    unfold getItemLoop
    simp only [mask_store]
    split at h
    · cases h
    · rename_i entry hentry
      split at h
      · rename_i hother
        split at h
        · rename_i hused
          -- an entry that is passed over is not the one that is written
          have hne : e.toNat ≠ (table.mask idx).toNat := by
            intro heq
            rw [heq, hentry] at hold
            cases hold
            cases hvacant with
            | inl hzero => exact hused hzero
            | inr hkey => exact hother hkey
          have hpass : (table.store e ⟨key, value⟩).m_entries[(table.mask idx).toNat]? =
              some entry := by
            rw [store, List.getElem?_set_ne hne]
            exact hentry
          simp only [hpass, if_neg hother]
          exact ih h
        · cases h
          simp [hself]
      · cases h
        simp [hself]

/-! ## §3 What is stored is found -/

/-- Every entry in use is the one that a search for its key finds.  So no key is in two entries. -/
def Found (table : ConcurrentHashTable β) : Prop :=
  ∀ e : UInt32, e ≠ COMMUTIL_INVALID_CHT_ENTRY_ID → ∀ entry : Entry β,
    table.m_entries[e.toNat]? = some entry → entry.m_key ≠ 0 →
    table.getItem entry.m_key = some (e, entry.m_value)

theorem initTable_found (size : Nat) (garbage : β) : Found (initTable size garbage) := by
  intro e _ entry hentry hkey
  have hget := (List.getElem?_eq_some_iff.mp hentry).2
  simp only [initTable, List.getElem_replicate] at hget
  rw [← hget] at hkey
  exact absurd rfl hkey

/-- What `getItem` returns is stored under the key. -/
theorem entry_of_getItem {e : UInt32} {value : β} (h : table.getItem key = some (e, value)) :
    e ≠ COMMUTIL_INVALID_CHT_ENTRY_ID ∧ table.m_entries[e.toNat]? = some ⟨key, value⟩ := by
  unfold getItem at h
  obtain ⟨found, hloop, hvalid⟩ := Option.bind_eq_some_iff.mp h
  unfold validId at hvalid
  split at hvalid
  · cases hvalid
  · rename_i hid
    cases hvalid
    exact ⟨hid, entry_of_getItemLoop hloop⟩

/-- A write of another key, over an entry of another key, does not change what is found. -/
theorem getItem_store {e : UInt32} {old new : Entry β}
    (hold : table.m_entries[e.toNat]? = some old) (hne : old.m_key ≠ key)
    (hne' : new.m_key ≠ key) : (table.store e new).getItem key = table.getItem key := by
  simp only [getItem, m_size_store, getItemLoop_store hold hne hne']

/-- `setItem` leaves the other keys alone. -/
theorem getItem_setItem_ne (table : ConcurrentHashTable β) {key key' : UInt64} (value : β)
    (hne : key' ≠ key) (hzero : key' ≠ 0) :
    (table.setItem key value).2.getItem key' = table.getItem key' := by
  unfold setItem
  split
  · rfl
  · rename_i e hloop
    obtain ⟨old, hold, hvacant⟩ := entry_of_setItemLoop hloop
    apply getItem_store hold
    · intro heq
      cases hvacant with
      | inl hold0 => exact hzero (heq.symm.trans hold0)
      | inr hkey => exact hne (heq.symm.trans hkey)
    · exact Ne.symm hne

/-- `setItem` stores the value where a search finds it. -/
theorem getItem_setItem_self (table : ConcurrentHashTable β) (key : UInt64) (value : β)
    (hvalid : (table.setItem key value).1 ≠ COMMUTIL_INVALID_CHT_ENTRY_ID) :
    (table.setItem key value).2.getItem key = some ((table.setItem key value).1, value) := by
  revert hvalid
  unfold setItem
  split
  · intro hvalid
    exact absurd rfl hvalid
  · rename_i e hloop
    intro hvalid
    simp only [getItem, m_size_store, getItemLoop_setItemLoop value hloop, Option.bind_some,
      validId]
    exact if_neg hvalid

/-- A key that could not be set is not found. -/
theorem getItem_setItem_full (table : ConcurrentHashTable β) {key : UInt64} (value : β)
    (hnew : table.getItem key = none)
    (hfull : (table.setItem key value).1 = COMMUTIL_INVALID_CHT_ENTRY_ID) :
    (table.setItem key value).2.getItem key = none := by
  revert hfull
  unfold setItem
  split
  · intro _
    exact hnew
  · rename_i e hloop
    intro hfull
    simp only [getItem, m_size_store, getItemLoop_setItemLoop value hloop, Option.bind_some,
      validId]
    exact if_pos hfull

/-- Entries of other keys stay where they are when an item is set. -/
theorem entry_setItem {value : β} {e : UInt32} {entry : Entry β}
    (hentry : (table.setItem key value).2.m_entries[e.toNat]? = some entry)
    (hne : e ≠ (table.setItem key value).1) : table.m_entries[e.toNat]? = some entry := by
  revert hentry hne
  unfold setItem
  split
  · intro hentry _
    exact hentry
  · rename_i e' _
    intro hentry hne
    have hidx : e'.toNat ≠ e.toNat := fun heq => hne (UInt32.toNat_inj.mp heq.symm)
    rw [store, List.getElem?_set_ne hidx] at hentry
    exact hentry

/-- **A new key** is found after it was set, and everything else still is. -/
theorem Found.setItem (h : table.Found) (hnew : table.getItem key = none) (value : β) :
    Found (table.setItem key value).2 := by
  intro e hid entry hentry hkey
  by_cases heq : e = (table.setItem key value).1
  · have hself := getItem_setItem_self table key value (heq ▸ hid)
    have hstored := (entry_of_getItem hself).2
    rw [← heq, hentry] at hstored
    cases hstored
    rw [hself, heq]
  · have hold := h e hid entry (entry_setItem hentry heq) hkey
    have hne : entry.m_key ≠ key := by
      intro hsame
      rw [hsame, hnew] at hold
      cases hold
    rw [getItem_setItem_ne table value hne hkey, hold]

/-- **Removing** an entry leaves the other keys alone. -/
theorem getItem_removeAt_ne {e : UInt32} {entry : Entry β}
    (hentry : table.m_entries[e.toNat]? = some entry) (hne : entry.m_key ≠ key)
    (hzero : key ≠ 0) : (table.removeAt e).getItem key = table.getItem key := by
  unfold removeAt
  rw [hentry]
  exact getItem_store hentry hne (Ne.symm hzero)

/-- The entries in use after a removal were in use before, and are not the removed one. -/
theorem entry_removeAt {e e' : UInt32} {entry : Entry β}
    (hentry : (table.removeAt e).m_entries[e'.toNat]? = some entry) (hkey : entry.m_key ≠ 0) :
    e' ≠ e ∧ table.m_entries[e'.toNat]? = some entry := by
  unfold removeAt at hentry
  split at hentry
  · rename_i hnone
    refine ⟨?_, hentry⟩
    intro heq
    rw [heq, hnone] at hentry
    cases hentry
  · rename_i old hold
    have hlt := (List.getElem?_eq_some_iff.mp hold).1
    by_cases heq : e = e'
    · subst heq
      rw [store, List.getElem?_set_self hlt] at hentry
      cases hentry
      exact absurd rfl hkey
    · have hidx : e.toNat ≠ e'.toNat := fun hsame => heq (UInt32.toNat_inj.mp hsame)
      rw [store, List.getElem?_set_ne hidx] at hentry
      exact ⟨Ne.symm heq, hentry⟩

theorem Found.removeAt (h : table.Found) {e : UInt32} (hid : e ≠ COMMUTIL_INVALID_CHT_ENTRY_ID) :
    Found (table.removeAt e) := by
  intro e' hid' entry' hentry' hkey'
  obtain ⟨hne, hentry⟩ := entry_removeAt hentry' hkey'
  have hold := h e' hid' entry' hentry hkey'
  cases hremoved : table.m_entries[e.toNat]? with
  | none =>
    unfold ConcurrentHashTable.removeAt
    rw [hremoved]
    exact hold
  | some entry =>
    -- the removed entry held another key, or its key would be found in two places
    have hother : entry.m_key ≠ entry'.m_key := by
      intro hsame
      have hfirst := h e hid entry hremoved (hsame ▸ hkey')
      rw [hsame, hold] at hfirst
      exact hne (Prod.mk.inj (Option.some.inj hfirst)).1
    rw [getItem_removeAt_ne hremoved hother hkey', hold]

/-- A removed key is not found any more. -/
theorem Found.getItem_removeAt_self (h : table.Found) {e : UInt32} {value : β}
    (hfound : table.getItem key = some (e, value)) (hkey : key ≠ 0) :
    (table.removeAt e).getItem key = none := by
  cases hafter : (table.removeAt e).getItem key with
  | none => rfl
  | some found =>
    obtain ⟨hid, hentry⟩ := entry_of_getItem hafter
    obtain ⟨hne, hbefore⟩ := entry_removeAt hentry hkey
    have hsame := h found.1 hid _ hbefore hkey
    rw [hfound] at hsame
    cases hsame
    exact absurd rfl hne

end ConcurrentHashTable

end Commutil.Common
