import Mathlib.Data.List.Basic
import Mathlib.Logic.Function.Basic

/-!
# Histories of First-In-First-Out Queues

Elements are pushed to one of several queues, named by `key`, and taken from the
front of their queue.  Two logs are kept: what was pushed and what was taken, each in
the order in which it happened, over all queues.

`Fifo` says how the logs and the queues fit together.  From it follows the order in
which the elements of a class are taken: a class that stays in one queue is taken in
push order, and so is a class over several queues as long as no element of it is
taken before its predecessors.
-/

namespace Commutil.Library

variable {α κ : Type} [DecidableEq κ]

/-- For every queue, what was taken from it and what waits in it is what was pushed to it. -/
def Fifo (key : α → κ) (pushed taken : List α) (waiting : κ → List α) : Prop :=
  ∀ q, taken.filter (key · = q) ++ waiting q = pushed.filter (key · = q)

namespace Fifo

variable {key : α → κ} {pushed taken : List α} {waiting : κ → List α} {p : α → Bool}

theorem nil (key : α → κ) : Fifo key [] [] fun _ => [] := by
  intro q
  rfl

/-- An element is pushed to the back of its queue. -/
theorem push (h : Fifo key pushed taken waiting) (a : α) :
    Fifo key (pushed ++ [a]) taken
      (Function.update waiting (key a) (waiting (key a) ++ [a])) := by
  intro q
  by_cases hq : key a = q
  · subst hq
    rw [Function.update_self, ← List.append_assoc, h]
    simp [List.filter_append]
  · rw [Function.update_of_ne (Ne.symm hq), h]
    simp [List.filter_append, hq]

theorem mem_pushed_of_waiting (h : Fifo key pushed taken waiting) {q : κ} {a : α}
    (ha : a ∈ waiting q) : a ∈ pushed ∧ key a = q := by
  have hmem : a ∈ pushed.filter (key · = q) := by
    rw [← h q]
    exact List.mem_append_right _ ha
  simpa using hmem

theorem mem_pushed_of_taken (h : Fifo key pushed taken waiting) {a : α} (ha : a ∈ taken) :
    a ∈ pushed := by
  have hmem : a ∈ pushed.filter (key · = key a) := by
    rw [← h (key a)]
    exact List.mem_append_left _ (by simpa using ha)
  exact (List.mem_filter.mp hmem).1

/-- The element at the front of a queue is taken. -/
theorem take (h : Fifo key pushed taken waiting) {q : κ} {a : α} {rest : List α}
    (hq : waiting q = a :: rest) :
    Fifo key pushed (taken ++ [a]) (Function.update waiting q rest) := by
  have hkey : key a = q := (h.mem_pushed_of_waiting (hq ▸ List.mem_cons_self)).2
  intro q'
  by_cases hne : q = q'
  · subst hne
    rw [Function.update_self, ← h q, hq]
    simp [List.filter_append, hkey]
  · have hother : key a ≠ q' := fun heq => hne (hkey.symm.trans heq)
    rw [Function.update_of_ne (Ne.symm hne), ← h q']
    simp [List.filter_append, hother]

/-- In a single queue a class is taken in push order. -/
theorem taken_prefix_of_key (h : Fifo key pushed taken waiting) (q : κ)
    (hkey : ∀ a ∈ pushed, p a → key a = q) : taken.filter p <+: pushed.filter p := by
  have hin : ∀ l : List α, (∀ a ∈ l, a ∈ pushed) →
      (l.filter (key · = q)).filter p = l.filter p := by
    intro l hl
    rw [List.filter_filter]
    apply List.filter_congr
    intro a ha
    cases hp : p a with
    | false => rfl
    | true => simp [hkey a (hl a ha) hp]
  rw [← hin pushed fun _ ha => ha, ← hin taken fun _ ha => h.mem_pushed_of_taken ha, ← h q,
    List.filter_append]
  exact List.prefix_append _ _

/-- What waits of a class that was taken in push order so far. -/
private theorem filter_rest (h : Fifo key pushed taken waiting) {rest : List α}
    (hrest : taken.filter p ++ rest = pushed.filter p) (q : κ) :
    rest.filter (key · = q) = (waiting q).filter p := by
  have hswap : ∀ l : List α, (l.filter p).filter (key · = q) = (l.filter (key · = q)).filter p := by
    intro l
    rw [List.filter_filter, List.filter_filter]
    apply List.filter_congr
    intro a _
    exact Bool.and_comm _ _
  have hboth := congrArg (List.filter (key · = q)) hrest
  rw [List.filter_append, hswap, hswap, ← h q, List.filter_append] at hboth
  exact List.append_cancel_left hboth

/-- Nothing of the class waits: all of it was taken. -/
theorem taken_eq_pushed (h : Fifo key pushed taken waiting)
    (hpre : taken.filter p <+: pushed.filter p) (hnone : ∀ q, ∀ a ∈ waiting q, p a = false) :
    taken.filter p = pushed.filter p := by
  obtain ⟨rest, hrest⟩ := hpre
  have hempty : rest = [] := by
    apply List.eq_nil_iff_forall_not_mem.mpr
    intro a ha
    have hin : a ∈ (waiting (key a)).filter p := by
      rw [← h.filter_rest hrest]
      simpa using ha
    obtain ⟨hwaits, hp⟩ := List.mem_filter.mp hin
    rw [hnone (key a) a hwaits] at hp
    cases hp
  rw [← hrest, hempty, List.append_nil]

/-- What was taken of a class is, by its rank, not later than what waits. -/
theorem rank_le_of_taken (h : Fifo key pushed taken waiting)
    (hpre : taken.filter p <+: pushed.filter p) (rank : α → Nat)
    (hsorted : (pushed.filter p).Pairwise fun a b => rank a ≤ rank b) {a b : α} {q : κ}
    (ha : a ∈ taken) (hpa : p a) (hb : b ∈ waiting q) (hpb : p b) : rank a ≤ rank b := by
  obtain ⟨rest, hrest⟩ := hpre
  have hb_rest : b ∈ rest := by
    have hin : b ∈ rest.filter (key · = q) := by
      rw [h.filter_rest hrest]
      exact List.mem_filter.mpr ⟨hb, hpb⟩
    exact (List.mem_filter.mp hin).1
  rw [← hrest] at hsorted
  exact (List.pairwise_append.mp hsorted).2.2 a (List.mem_filter.mpr ⟨ha, hpa⟩) b hb_rest

/-- **Overtaking.**  A class over several queues is still taken in push order after an element that
    is, by its rank, not later than any waiting element of the class.  Ranks do not decrease in push
    order, and elements of one rank share a queue. -/
theorem taken_prefix_of_rank (h : Fifo key pushed taken waiting)
    (hpre : taken.filter p <+: pushed.filter p) (rank : α → Nat)
    (hsorted : (pushed.filter p).Pairwise fun a b => rank a ≤ rank b)
    (hrank : ∀ a ∈ pushed, ∀ b ∈ pushed, p a → p b → rank a = rank b → key a = key b)
    {q : κ} {a : α} {tail : List α} (hq : waiting q = a :: tail)
    (hfirst : p a → ∀ q', ∀ b ∈ waiting q', p b → rank a ≤ rank b) :
    (taken ++ [a]).filter p <+: pushed.filter p := by
  cases hp : p a with
  | false => simpa [List.filter_append, hp] using hpre
  | true =>
    obtain ⟨rest, hrest⟩ := hpre
    have hwait := h.filter_rest hrest
    obtain ⟨hmem, hkey⟩ := h.mem_pushed_of_waiting (hq ▸ List.mem_cons_self : a ∈ waiting q)
    -- of its own queue `a` is the first that is not taken
    have hfront : rest.filter (key · = q) = a :: tail.filter p := by
      rw [hwait, hq, List.filter_cons_of_pos hp]
    cases rest with
    | nil => cases hfront
    | cons r rest' =>
      -- the head of the rest waits in some queue, and is not earlier than `a`
      have hr : r ∈ pushed ∧ p r := by
        have hmem : r ∈ pushed.filter p := by
          rw [← hrest]
          exact List.mem_append_right _ List.mem_cons_self
        exact List.mem_filter.mp hmem
      have hr_waits : r ∈ waiting (key r) := by
        have hin : r ∈ (waiting (key r)).filter p := by
          rw [← hwait]
          simp
        exact (List.mem_filter.mp hin).1
      -- the pushed list is sorted
      have hle : rank r ≤ rank a := by
        rw [← hrest] at hsorted
        have hpair := (List.pairwise_append.mp hsorted).2.1
        have ha : a ∈ r :: rest' := by
          have hin : a ∈ (r :: rest').filter (key · = q) := hfront ▸ List.mem_cons_self
          exact (List.mem_filter.mp hin).1
        cases List.mem_cons.mp ha with
        | inl heq => exact Nat.le_of_eq (by rw [heq])
        | inr htail => exact (List.pairwise_cons.mp hpair).1 a htail
      -- and `a` is not later than what waits
      have hge : rank a ≤ rank r := hfirst hp (key r) r hr_waits hr.2
      have hsame : key r = q :=
        (hrank r hr.1 a hmem hr.2 hp (Nat.le_antisymm hle hge)).trans hkey
      have heq : r = a := by
        rw [List.filter_cons_of_pos (by simpa using hsame)] at hfront
        exact (List.cons.inj hfront).1
      subst heq
      refine ⟨rest', ?_⟩
      rw [List.filter_append, List.filter_cons_of_pos hp, List.filter_nil, List.append_assoc]
      exact hrest

end Fifo

end Commutil.Library
