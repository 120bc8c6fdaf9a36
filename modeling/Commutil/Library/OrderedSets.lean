import Mathlib.Data.List.Sort
import Mathlib.Data.List.TakeWhile

/-!
# Ordered Sets as Ordered Lists

An ordered set as the list of its elements in order: insertion of an element that
is not there yet, and the binary search for the first element that is not below a
bound.

The comparison may fail, as it does when an element refers to something that no
longer exists.  The order may also be out of date, and then an insertion still adds
one element and nothing else, and the search still returns what its loop computes.
-/

namespace Commutil.Library

/-! ## §1 Insertion -/

section Insertion

variable {α φ κ : Type} {less : α → α → Except φ Bool} {x : α} {l : List α}

/-- The place before the first greater element, unless an equivalent one is met before. -/
def insertPosition (less : α → α → Except φ Bool) (x : α) : List α → Except φ (Option Nat)
  | [] => .ok (some 0)
  | y :: ys =>
    match less x y, less y x with
    | .error fault, _ => .error fault
    | .ok true, _ => .ok (some 0)
    | .ok false, .error fault => .error fault
    | .ok false, .ok false => .ok none
    | .ok false, .ok true =>
      match insertPosition less x ys with
      | .error fault => .error fault
      | .ok none => .ok none
      | .ok (some position) => .ok (some (position + 1))

/-- Whatever the comparison is, the place is one of the list. -/
theorem insertPosition_le {position : Nat} (h : insertPosition less x l = .ok (some position)) :
    position ≤ l.length := by
  induction l generalizing position with
  | nil =>
    cases h
    exact le_rfl
  | cons y ys ih =>
    rw [insertPosition] at h
    split at h
    · cases h
    · cases h
      exact Nat.zero_le _
    · cases h
    · cases h
    · split at h
      · cases h
      · cases h
      · rename_i k hk
        cases h
        exact Nat.succ_le_succ (ih hk)

/-- **Insertion into an ordered list**: the comparison is that of a key, and no element has the key
    of the new one. -/
theorem insertPosition_eq [LinearOrder κ] (key : α → κ)
    (hless : ∀ y ∈ l, less x y = .ok (decide (key x < key y)) ∧
      less y x = .ok (decide (key y < key x)))
    (hnew : ∀ y ∈ l, key y ≠ key x) :
    ∃ position, insertPosition less x l = .ok (some position) ∧
      l.insertIdx position x = l.orderedInsert (fun a b => key a ≤ key b) x := by
  induction l with
  | nil => exact ⟨0, rfl, rfl⟩
  | cons y ys ih =>
    obtain ⟨hxy, hyx⟩ := hless y List.mem_cons_self
    have hne : key y ≠ key x := hnew y List.mem_cons_self
    rw [insertPosition, List.orderedInsert_cons, hxy, hyx]
    by_cases hlt : key x < key y
    · rw [if_pos hlt.le]
      exact ⟨0, by simp only [hlt, decide_true], rfl⟩
    · have hgt : key y < key x := lt_of_le_of_ne (not_lt.mp hlt) hne
      obtain ⟨k, hk, hinsert⟩ := ih (fun z hz => hless z (List.mem_cons_of_mem y hz))
        fun z hz => hnew z (List.mem_cons_of_mem y hz)
      rw [if_neg (not_le.mpr hgt), hk, ← hinsert]
      exact ⟨k + 1, by simp only [hlt, hgt, decide_false, decide_true], rfl⟩

/-- Insertion keeps a list in order. -/
theorem pairwise_orderedInsert [LinearOrder κ] (key : α → κ) (x : α)
    (h : l.Pairwise fun a b => key a ≤ key b) :
    (l.orderedInsert (fun a b => key a ≤ key b) x).Pairwise fun a b => key a ≤ key b := by
  have : Std.Total fun a b => key a ≤ key b := ⟨fun a b => le_total (key a) (key b)⟩
  have : IsTrans α fun a b => key a ≤ key b := ⟨fun _ _ _ => le_trans⟩
  exact List.Pairwise.orderedInsert x l h

end Insertion

/-! ## §2 Binary search -/

section Search

variable {α : Type} {below : α → Bool} {l : List α}

/-- The rounds of the search in the `len` elements from `first` on. -/
def lowerBoundLoop (below : α → Bool) (l : List α) : Nat → Nat → Nat → Nat
  | 0, first, _ => first
  | fuel + 1, first, len =>
    if len = 0 then first
    else
      let half := len / 2
      match l[first + half]? with
      | none => first
      | some x =>
        if below x then lowerBoundLoop below l fuel (first + half + 1) (len - half - 1)
        else lowerBoundLoop below l fuel first half

/-- The position of the first element that is not below the bound.  Every round shortens the range,
    so its length bounds the rounds. -/
def lowerBound (below : α → Bool) (l : List α) : Nat :=
  lowerBoundLoop below l l.length 0 l.length

/-- The search never leaves the list. -/
theorem lowerBoundLoop_eq {fuel first len k : Nat} (hfuel : len ≤ fuel)
    (hend : first + len ≤ l.length) (hfirst : first ≤ k) (hlast : k ≤ first + len)
    (hbelow : ∀ j < k, ∀ x, l[j]? = some x → below x = true)
    (habove : ∀ j, k ≤ j → ∀ x, l[j]? = some x → below x = false) :
    lowerBoundLoop below l fuel first len = k := by
  induction fuel generalizing first len with
  | zero =>
    unfold lowerBoundLoop
    omega
  | succ fuel ih =>
    rw [lowerBoundLoop]
    split
    · omega
    · rename_i hne
      have hmid : first + len / 2 < l.length := by omega
      simp only [List.getElem?_eq_getElem hmid]
      have hx := List.getElem?_eq_getElem hmid
      split
      · rename_i htrue
        have hk : first + len / 2 < k := by
          by_contra hle
          rw [habove _ (not_lt.mp hle) _ hx] at htrue
          cases htrue
        exact ih (by omega) (by omega) (by omega) (by omega)
      · rename_i hfalse
        have hk : k ≤ first + len / 2 := by
          by_contra hlt
          exact hfalse (hbelow _ (not_le.mp hlt) _ hx)
        exact ih (by omega) (by omega) (by omega) (by omega)

/-- **Search in a partitioned list**: the elements below the bound come first. -/
theorem lowerBound_append {l₁ l₂ : List α} (hbelow : ∀ x ∈ l₁, below x = true)
    (habove : ∀ x ∈ l₂, below x = false) : lowerBound below (l₁ ++ l₂) = l₁.length := by
  refine lowerBoundLoop_eq le_rfl (by omega) (Nat.zero_le _) (by simp) ?_ ?_
  · intro j hj x hx
    rw [List.getElem?_append_left hj] at hx
    exact hbelow x (List.mem_of_getElem? hx)
  · intro j hj x hx
    rw [List.getElem?_append_right hj] at hx
    exact habove x (List.mem_of_getElem? hx)

/-- Where nothing is below the bound, the search returns the beginning. -/
theorem lowerBound_eq_zero (h : ∀ x ∈ l, below x = false) : lowerBound below l = 0 := by
  have happend : lowerBound below ([] ++ l) = ([] : List α).length := lowerBound_append (nofun) h
  exact happend

/-- In a list where nothing below the bound comes after something that is not. -/
theorem below_eq_false_of_mem_dropWhile (h : l.Pairwise fun a b => below b = true → below a = true)
    {x : α} (hx : x ∈ l.dropWhile below) : below x = false := by
  have hpair := h.sublist (List.dropWhile_sublist below)
  cases hdrop : l.dropWhile below with
  | nil =>
    rw [hdrop] at hx
    cases hx
  | cons y ys =>
    have hy : below y = false := by
      have hhead := List.head?_dropWhile_not below l
      rw [hdrop] at hhead
      simpa using hhead
    rw [hdrop] at hx hpair
    rcases List.mem_cons.mp hx with rfl | hmem
    · exact hy
    · cases hbelow : below x with
      | false => rfl
      | true =>
        rw [(List.pairwise_cons.mp hpair).1 x hmem hbelow] at hy
        cases hy

/-- What the search skips in such a list. -/
theorem drop_lowerBound (h : l.Pairwise fun a b => below b = true → below a = true) :
    l.drop (lowerBound below l) = l.dropWhile below := by
  have hsplit := List.takeWhile_append_dropWhile (p := below) (l := l)
  have hposition : lowerBound below l = (l.takeWhile below).length := by
    conv_lhs => rw [← hsplit]
    exact lowerBound_append (fun x hx => List.mem_takeWhile_imp hx)
      fun x hx => below_eq_false_of_mem_dropWhile h hx
  rw [hposition]
  conv_lhs =>
    arg 2
    rw [← hsplit]
  exact List.drop_left

end Search

end Commutil.Library
