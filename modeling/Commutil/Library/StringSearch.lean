import Mathlib.Tactic.Common

/-!
# Occurrences and Borders

The combinatorics behind linear-time string search, over any alphabet.
Occurrences and partial matches are stated position by position, through
`List` lookups, which is the form in which a search loop compares characters.

A *border* of the prefix of length `k` is a proper prefix of it that is also a
suffix of it.  The two facts that a search needs are `IsBorder.of_shifted_match`
(a later occurrence that overlaps a partial match gives a border of the matched
part) and `IsBorder.match_shift` (shifting by a border keeps the border matched).
-/

namespace Commutil.Library

variable {α : Type}

/-! ## §1 Occurrences -/

/-- The first `j` characters of `p` lie in `t` from position `i` on. -/
def MatchesUpTo (p t : List α) (i j : Nat) : Prop :=
  ∀ m < j, t[i + m]? = p[m]?

/-- `p` occurs in `t` at position `i`. -/
def OccursAt (p t : List α) (i : Nat) : Prop :=
  MatchesUpTo p t i p.length

/-- `i` is the smallest position at which `p` occurs in `t`. -/
structure IsFirstOccurrence (p t : List α) (i : Nat) : Prop where
  occurs : OccursAt p t i
  first : ∀ k < i, ¬ OccursAt p t k

theorem matchesUpTo_zero (p t : List α) (i : Nat) : MatchesUpTo p t i 0 :=
  fun _ hm => absurd hm (Nat.not_lt_zero _)

theorem MatchesUpTo.succ {p t : List α} {i j : Nat} (h : MatchesUpTo p t i j)
    (hnext : t[i + j]? = p[j]?) : MatchesUpTo p t i (j + 1) := by
  intro m hm
  rcases Nat.lt_succ_iff_lt_or_eq.mp hm with hlt | rfl
  · exact h m hlt
  · exact hnext

/-- An occurrence lies inside the text. -/
theorem OccursAt.length_le {p t : List α} {i : Nat} (h : OccursAt p t i) (hp : p ≠ []) :
    i + p.length ≤ t.length := by
  have hpos : 0 < p.length := List.length_pos_iff.mpr hp
  have hlast := h (p.length - 1) (by omega)
  rw [List.getElem?_eq_getElem (show p.length - 1 < p.length by omega)] at hlast
  have := (List.getElem?_eq_some_iff.mp hlast).1
  omega

/-- Occurrence at a position, as a prefix of what is left of the text. -/
theorem occursAt_iff_drop {p t : List α} {i : Nat} : OccursAt p t i ↔ p <+: t.drop i := by
  rw [List.prefix_iff_getElem?]
  constructor
  · intro h m hm
    rw [List.getElem?_drop, h m hm, List.getElem?_eq_getElem hm]
  · intro h m hm
    have := h m hm
    rw [List.getElem?_drop] at this
    rw [this, List.getElem?_eq_getElem hm]

theorem IsFirstOccurrence.unique {p t : List α} {i k : Nat} (hi : IsFirstOccurrence p t i)
    (hk : IsFirstOccurrence p t k) : i = k := by
  rcases Nat.lt_trichotomy i k with h | h | h
  · exact absurd hi.occurs (hk.first i h)
  · exact h
  · exact absurd hk.occurs (hi.first k h)

/-- What occurs somewhere has a first occurrence. -/
theorem OccursAt.exists_first {p t : List α} {i : Nat} (h : OccursAt p t i) :
    ∃ k ≤ i, IsFirstOccurrence p t k := by
  induction i using Nat.strongRecOn with
  | ind i ih =>
    by_cases hearlier : ∃ k < i, OccursAt p t k
    · obtain ⟨k, hk, hocc⟩ := hearlier
      obtain ⟨m, hm, hfirst⟩ := ih k hk hocc
      exact ⟨m, by omega, hfirst⟩
    · exact ⟨i, Nat.le_refl i, h, fun k hk hocc => hearlier ⟨k, hk, hocc⟩⟩

/-- An occurrence in the first part of a text is one in the text. -/
theorem occursAt_append_left {p a b : List α} {i : Nat} (h : i + p.length ≤ a.length) :
    OccursAt p (a ++ b) i ↔ OccursAt p a i := by
  have hget : ∀ m < p.length, (a ++ b)[i + m]? = a[i + m]? := fun m hm =>
    List.getElem?_append_left (by omega)
  exact ⟨fun hocc m hm => (hget m hm).symm.trans (hocc m hm),
    fun hocc m hm => (hget m hm).trans (hocc m hm)⟩

/-- The empty pattern occurs first at the beginning. -/
theorem IsFirstOccurrence.eq_zero_of_nil {t : List α} {i : Nat}
    (h : IsFirstOccurrence [] t i) : i = 0 := by
  cases i with
  | zero => rfl
  | succ i => exact absurd (matchesUpTo_zero [] t 0) (h.first 0 (Nat.succ_pos i))

/-- An occurrence that starts in the second part of a text is one in that part. -/
theorem occursAt_append_right {p a b : List α} {i : Nat} (h : a.length ≤ i) :
    OccursAt p (a ++ b) i ↔ OccursAt p b (i - a.length) := by
  rw [occursAt_iff_drop, occursAt_iff_drop, List.drop_append, List.drop_eq_nil_of_le h,
    List.nil_append]

/-- A first occurrence behind the first part of a text is one in the second. -/
theorem IsFirstOccurrence.of_append {p a b : List α} {k : Nat}
    (h : IsFirstOccurrence p (a ++ b) (a.length + k)) : IsFirstOccurrence p b k := by
  have hocc : ∀ m, OccursAt p (a ++ b) (a.length + m) ↔ OccursAt p b m := by
    intro m
    rw [occursAt_append_right (Nat.le_add_right _ _), Nat.add_sub_cancel_left]
  exact ⟨(hocc k).mp h.occurs, fun m hm hearly =>
    h.first _ (Nat.add_lt_add_left hm _) ((hocc m).mpr hearly)⟩

/-- A first occurrence in the second part of a text is one in the whole, if none starts before. -/
theorem IsFirstOccurrence.append {p a b : List α} {k : Nat} (h : IsFirstOccurrence p b k)
    (hnone : ∀ m < a.length, ¬ OccursAt p (a ++ b) m) :
    IsFirstOccurrence p (a ++ b) (a.length + k) := by
  refine ⟨?_, fun m hm hocc => ?_⟩
  · rw [occursAt_append_right (Nat.le_add_right _ _), Nat.add_sub_cancel_left]
    exact h.occurs
  · by_cases hlt : m < a.length
    · exact hnone m hlt hocc
    · rw [occursAt_append_right (Nat.le_of_not_lt hlt)] at hocc
      exact h.first _ (by omega) hocc

/-! ## §2 Borders -/

/-- The prefix of `p` of length `b` is a proper prefix and a suffix of the one of length `k`. -/
structure IsBorder (p : List α) (k b : Nat) : Prop where
  lt : b < k
  eq : ∀ m < b, p[k - b + m]? = p[m]?

/-- `b` is the length of the longest border of the prefix of length `k`. -/
structure IsLongestBorder (p : List α) (k b : Nat) : Prop where
  border : IsBorder p k b
  longest : ∀ c, IsBorder p k c → c ≤ b

theorem isBorder_zero (p : List α) {k : Nat} (hk : 0 < k) : IsBorder p k 0 :=
  ⟨hk, fun _ hm => absurd hm (Nat.not_lt_zero _)⟩

/-- A border of a border is a border. -/
theorem IsBorder.trans {p : List α} {k b c : Nat} (hb : IsBorder p k b) (hc : IsBorder p b c) :
    IsBorder p k c := by
  refine ⟨Nat.lt_trans hc.lt hb.lt, fun m hm => ?_⟩
  have hbk := hb.lt
  have hcb := hc.lt
  have h := hb.eq (b - c + m) (by omega)
  rw [show k - b + (b - c + m) = k - c + m by omega] at h
  rw [h, hc.eq m hm]

/-- The shorter of two borders is a border of the longer one. -/
theorem IsBorder.of_lt {p : List α} {k b c : Nat} (hb : IsBorder p k b) (hc : IsBorder p k c)
    (hlt : c < b) : IsBorder p b c := by
  refine ⟨hlt, fun m hm => ?_⟩
  have hbk := hb.lt
  have h := hb.eq (b - c + m) (by omega)
  rw [show k - b + (b - c + m) = k - c + m by omega, hc.eq m hm] at h
  exact h.symm

/-- The non-empty borders of the next prefix are the borders that extend by one character. -/
theorem isBorder_succ_succ {p : List α} {k b : Nat} :
    IsBorder p (k + 1) (b + 1) ↔ IsBorder p k b ∧ p[k]? = p[b]? := by
  constructor
  · intro h
    have hlt := h.lt
    refine ⟨⟨by omega, fun m hm => ?_⟩, ?_⟩
    · have := h.eq m (by omega)
      rwa [show k + 1 - (b + 1) + m = k - b + m by omega] at this
    · have := h.eq b (by omega)
      rwa [show k + 1 - (b + 1) + b = k by omega] at this
  · rintro ⟨h, hk⟩
    have hlt := h.lt
    refine ⟨by omega, fun m hm => ?_⟩
    rcases Nat.lt_succ_iff_lt_or_eq.mp hm with hmb | rfl
    · rw [show k + 1 - (b + 1) + m = k - b + m by omega]
      exact h.eq m hmb
    · rw [show k + 1 - (m + 1) + m = k by omega]
      exact hk

/-- A border, as a prefix that is a suffix. -/
theorem isBorder_iff_suffix {p : List α} {k b : Nat} (hk : k ≤ p.length) :
    IsBorder p k b ↔ b < k ∧ p.take b <:+ p.take k := by
  have hlen : ∀ n ≤ p.length, (p.take n).length = n := fun n hn => List.length_take_of_le hn
  constructor
  · intro h
    refine ⟨h.lt, ?_⟩
    have hlt := h.lt
    rw [List.suffix_iff_eq_drop, hlen k hk, hlen b (by omega)]
    apply List.ext_getElem?
    intro m
    rw [List.getElem?_drop, List.getElem?_take, List.getElem?_take]
    by_cases hm : m < b
    · rw [if_pos hm, if_pos (by omega)]
      exact (h.eq m hm).symm
    · rw [if_neg hm, if_neg (by omega)]
  · rintro ⟨hlt, hsuffix⟩
    refine ⟨hlt, fun m hm => ?_⟩
    rw [List.suffix_iff_eq_drop, hlen k hk, hlen b (by omega)] at hsuffix
    have hget := congrArg (fun l => l[m]?) hsuffix
    simp only [List.getElem?_drop, List.getElem?_take] at hget
    rw [if_pos hm, if_pos (by omega)] at hget
    exact hget.symm

/-! ## §3 Borders and partial matches -/

/-- An occurrence that overlaps a partial match from the left gives a border of the
    matched part. -/
theorem IsBorder.of_shifted_match {p t : List α} {i j d : Nat} (hmatch : MatchesUpTo p t i j)
    (hlen : j ≤ p.length) (hd : 0 < d) (hdj : d ≤ j) (hocc : OccursAt p t (i + d)) :
    IsBorder p j (j - d) := by
  refine ⟨by omega, fun m hm => ?_⟩
  rw [show j - (j - d) + m = d + m by omega, ← hmatch (d + m) (by omega)]
  rw [show i + (d + m) = i + d + m by omega]
  exact hocc m (by omega)

/-- Shifting a partial match by a border of it keeps the border matched. -/
theorem IsBorder.match_shift {p t : List α} {i j b : Nat} (hmatch : MatchesUpTo p t i j)
    (hb : IsBorder p j b) : MatchesUpTo p t (i + (j - b)) b := by
  intro m hm
  have hlt := hb.lt
  rw [← hb.eq m hm, ← hmatch (j - b + m) (by omega)]
  congr 1
  omega

/-- No occurrence starts strictly between a partial match and its shift by the longest
    border. -/
theorem IsLongestBorder.no_occurrence_between {p t : List α} {i j b k : Nat}
    (hmatch : MatchesUpTo p t i j) (hlen : j ≤ p.length) (hb : IsLongestBorder p j b)
    (hlow : i < k) (hhigh : k < i + (j - b)) : ¬ OccursAt p t k := by
  intro hocc
  have hlt := hb.border.lt
  have hborder : IsBorder p j (j - (k - i)) := by
    apply IsBorder.of_shifted_match hmatch hlen (by omega) (by omega)
    rwa [show i + (k - i) = k by omega]
  have := hb.longest _ hborder
  omega

end Commutil.Library
