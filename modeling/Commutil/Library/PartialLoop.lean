import Mathlib.Order.WellFounded
import Mathlib.Tactic.Common

/-!
# Loops Whose Body May Fault or Never Leave

A `while` loop is given by the outcome of one pass through its body: go round
again, leave, or fault.  Nothing here bounds the number of passes, so the three
things a loop can do are three separate notions:

- `Ends`: some number of passes leaves the loop,
- `Faults`: some number of passes runs into a fault,
- `Diverges`: every number of passes is followed by another one.

The rules of the module are the ones the loops of a program need: an invariant
rule over the states at the loop head (`Visits`), a measure rule that turns
"every pass that is not stuck makes progress" into a trichotomy, and the
observation that a pass which changes nothing is passed forever.
-/

namespace Commutil.Library

/-- Outcome of one pass through a loop body. -/
inductive LoopStep (σ ε : Type) where
  /-- The loop condition held and the body ran: go round again. -/
  | next (s : σ)
  /-- The loop is left with this state. -/
  | done (s : σ)
  /-- The body did not complete. -/
  | fault (e : ε)

namespace LoopStep

variable {σ ε : Type}

/-! ## §1 Running a loop -/

/-- Run at most `n` passes; `none` means that the loop is still running. -/
def iterate (step : σ → LoopStep σ ε) : Nat → σ → Option (Except ε σ)
  | 0, _ => none
  | n + 1, s =>
    match step s with
    | .next s' => iterate step n s'
    | .done s' => some (.ok s')
    | .fault e => some (.error e)

/-- The loop started at `s` is left in state `r`. -/
def Ends (step : σ → LoopStep σ ε) (s r : σ) : Prop :=
  ∃ n, iterate step n s = some (.ok r)

/-- The loop started at `s` runs into the fault `e`. -/
def Faults (step : σ → LoopStep σ ε) (s : σ) (e : ε) : Prop :=
  ∃ n, iterate step n s = some (.error e)

/-- The loop started at `s` is never left. -/
def Diverges (step : σ → LoopStep σ ε) (s : σ) : Prop :=
  ∀ n, iterate step n s = none

/-- `t` is a state at the loop head, some passes after `s`. -/
inductive Visits (step : σ → LoopStep σ ε) : σ → σ → Prop where
  | refl (s : σ) : Visits step s s
  | pass {s s' t : σ} (hpass : step s = .next s') (hrest : Visits step s' t) :
      Visits step s t

variable {step : σ → LoopStep σ ε} {s s' t t' r r' : σ} {e : ε}

theorem iterate_succ_of_next (h : step s = .next s') (n : Nat) :
    iterate step (n + 1) s = iterate step n s' := by
  simp only [iterate, h]

/-- A result found with some number of passes is found with every larger one. -/
theorem iterate_mono {n m : Nat} {x : Except ε σ} (h : iterate step n s = some x)
    (hle : n ≤ m) : iterate step m s = some x := by
  induction n generalizing s m with
  | zero => simp [iterate] at h
  | succ n ih =>
    obtain ⟨m, rfl⟩ : ∃ k, m = k + 1 := ⟨m - 1, by omega⟩
    simp only [iterate] at h ⊢
    cases hstep : step s with
    | next s' =>
      rw [hstep] at h
      exact ih h (by omega)
    | done s' =>
      rw [hstep] at h
      exact h
    | fault e =>
      rw [hstep] at h
      exact h

/-- The outcome of a loop does not depend on the number of passes allowed. -/
theorem iterate_unique {n m : Nat} {x y : Except ε σ} (hx : iterate step n s = some x)
    (hy : iterate step m s = some y) : x = y := by
  have hx' := iterate_mono hx (Nat.le_max_left n m)
  have hy' := iterate_mono hy (Nat.le_max_right n m)
  rw [hx'] at hy'
  exact Option.some.inj hy'

theorem Ends.unique (h : Ends step s r) (h' : Ends step s r') : r = r' := by
  obtain ⟨n, hn⟩ := h
  obtain ⟨m, hm⟩ := h'
  exact Except.ok.inj (iterate_unique hn hm)

/-! ## §2 One pass at a time -/

theorem ends_iff_of_next (h : step s = .next s') : Ends step s r ↔ Ends step s' r := by
  constructor
  · rintro ⟨n, hn⟩
    cases n with
    | zero => simp [iterate] at hn
    | succ n => exact ⟨n, by rwa [iterate_succ_of_next h] at hn⟩
  · rintro ⟨n, hn⟩
    exact ⟨n + 1, by rwa [iterate_succ_of_next h]⟩

theorem ends_of_done (h : step s = .done r) : Ends step s r :=
  ⟨1, by simp only [iterate, h]⟩

theorem ends_iff_of_done (h : step s = .done r') : Ends step s r ↔ r = r' := by
  constructor
  · rintro ⟨n, hn⟩
    have h1 : iterate step 1 s = some (.ok r') := by simp only [iterate, h]
    exact Except.ok.inj (iterate_unique hn h1)
  · rintro rfl
    exact ends_of_done h

theorem faults_of_fault (h : step s = .fault e) : Faults step s e :=
  ⟨1, by simp only [iterate, h]⟩

theorem not_ends_of_fault (h : step s = .fault e) : ¬ Ends step s r := by
  rintro ⟨n, hn⟩
  have h1 : iterate step 1 s = some (.error e) := by simp only [iterate, h]
  cases iterate_unique hn h1

theorem not_ends_of_diverges (h : Diverges step s) : ¬ Ends step s r := by
  rintro ⟨n, hn⟩
  rw [h n] at hn
  cases hn

/-- A pass that changes nothing is passed forever. -/
theorem diverges_of_fixpoint (h : step s = .next s) : Diverges step s := by
  intro n
  induction n with
  | zero => rfl
  | succ n ih => rw [iterate_succ_of_next h, ih]

/-! ## §3 States at the loop head -/

theorem Visits.trans (h₁ : Visits step s s') (h₂ : Visits step s' t) : Visits step s t := by
  induction h₁ with
  | refl _ => exact h₂
  | pass hpass _ ih => exact .pass hpass (ih h₂)

theorem Visits.snoc (h₁ : Visits step s s') (h₂ : step s' = .next t) : Visits step s t :=
  h₁.trans (.pass h₂ (.refl t))

/-- What a loop visits, when its first pass is known. -/
theorem Visits.eq_or_of_next (h : Visits step s t) (hnext : step s = .next s') :
    t = s ∨ Visits step s' t := by
  cases h with
  | refl _ => exact .inl rfl
  | pass hpass hrest =>
    rw [hnext] at hpass
    cases hpass
    exact .inr hrest

/-- What happens after a visited state happens after the start. -/
theorem Visits.ends_iff (h : Visits step s t) : Ends step s r ↔ Ends step t r := by
  induction h with
  | refl _ => exact Iff.rfl
  | pass hpass _ ih => exact (ends_iff_of_next hpass).trans ih

theorem Visits.diverges (h : Visits step s t) (ht : Diverges step t) : Diverges step s := by
  induction h with
  | refl _ => exact ht
  | pass hpass _ ih =>
    intro n
    cases n with
    | zero => rfl
    | succ n => rw [iterate_succ_of_next hpass]; exact ih ht n

/-- The state after exactly `n` passes that are each followed by another one. -/
def passes (step : σ → LoopStep σ ε) : Nat → σ → Option σ
  | 0, s => some s
  | n + 1, s =>
    match step s with
    | .next s' => passes step n s'
    | _ => none

theorem visits_of_passes {n : Nat} (h : passes step n s = some t) : Visits step s t := by
  induction n generalizing s with
  | zero =>
    cases h
    exact .refl _
  | succ n ih =>
    unfold passes at h
    split at h
    · rename_i s' hstep
      exact .pass hstep (ih h)
    · cases h

theorem passes_succ_of_next {n : Nat} (h : passes step n s = some t) (hstep : step t = .next t') :
    passes step (n + 1) s = some t' := by
  induction n generalizing s with
  | zero =>
    cases h
    simp only [passes, hstep]
  | succ n ih =>
    unfold passes at h
    split at h
    · rename_i s' hs'
      unfold passes
      rw [hs']
      exact ih h
    · cases h

/-- A loop that is left after so many passes. -/
theorem iterate_of_passes {n : Nat} (h : passes step n s = some t) (hdone : step t = .done r) :
    iterate step (n + 1) s = some (.ok r) := by
  induction n generalizing s with
  | zero =>
    cases h
    simp only [iterate, hdone]
  | succ n ih =>
    unfold passes at h
    split at h
    · rename_i s' hs'
      rw [iterate_succ_of_next hs']
      exact ih h
    · cases h

/-- A loop that is still running after so many passes. -/
theorem iterate_eq_none_of_passes {n : Nat} (h : passes step n s = some t) :
    iterate step n s = none := by
  induction n generalizing s with
  | zero => rfl
  | succ n ih =>
    unfold passes at h
    split at h
    · rename_i s' hs'
      rw [iterate_succ_of_next hs']
      exact ih h
    · cases h

/-- **Invariant rule**: what every pass preserves holds at every visited state. -/
theorem Visits.invariant (Inv : σ → Prop) (h : Visits step s t)
    (hstep : ∀ a b, Inv a → step a = .next b → Inv b) (hs : Inv s) : Inv t := by
  induction h with
  | refl _ => exact hs
  | pass hpass _ ih => exact ih (hstep _ _ hs hpass)

/-- A loop that ends leaves from some visited state. -/
theorem Ends.exists_last (h : Ends step s r) : ∃ t, Visits step s t ∧ step t = .done r := by
  obtain ⟨n, hn⟩ := h
  induction n generalizing s with
  | zero => simp [iterate] at hn
  | succ n ih =>
    simp only [iterate] at hn
    cases hstep : step s with
    | next s' =>
      rw [hstep] at hn
      obtain ⟨t, hvis, hdone⟩ := ih hn
      exact ⟨t, .pass hstep hvis, hdone⟩
    | done s' =>
      rw [hstep] at hn
      simp only [Option.some.injEq, Except.ok.injEq] at hn
      exact ⟨s, .refl s, hn ▸ hstep⟩
    | fault e =>
      rw [hstep] at hn
      simp at hn

/-- A loop that faults does so in some visited state. -/
theorem Faults.exists_last (h : Faults step s e) : ∃ t, Visits step s t ∧ step t = .fault e := by
  obtain ⟨n, hn⟩ := h
  induction n generalizing s with
  | zero => simp [iterate] at hn
  | succ n ih =>
    simp only [iterate] at hn
    cases hstep : step s with
    | next s' =>
      rw [hstep] at hn
      obtain ⟨t, hvis, hfault⟩ := ih hn
      exact ⟨t, .pass hstep hvis, hfault⟩
    | done s' =>
      rw [hstep] at hn
      simp at hn
    | fault e' =>
      rw [hstep] at hn
      simp only [Option.some.injEq, Except.error.injEq] at hn
      exact ⟨s, .refl s, hn ▸ hstep⟩

/-- No state after the start of an ending loop faults. -/
theorem Ends.no_fault (h : Ends step s r) (hv : Visits step s t) : step t ≠ .fault e :=
  fun hf => not_ends_of_fault hf (hv.ends_iff.mp h)

/-! ## §4 Measure rule -/

section Measure

variable {α : Type} [LT α] [WellFoundedLT α] {μ : σ → α} {Stuck : σ → Prop}

/-- **Measure rule**: if every pass from a state that is not stuck lowers a well-founded
    measure, then the loop ends, faults, or visits a stuck state. -/
theorem ends_or_faults_or_stuck
    (hμ : ∀ a b, step a = .next b → ¬ Stuck a → μ b < μ a) (s : σ) :
    (∃ r, Ends step s r) ∨ (∃ t e, Visits step s t ∧ step t = .fault e) ∨
      ∃ t, Visits step s t ∧ Stuck t := by
  -- well-founded induction on the measure of the start state
  induction hn : μ s using WellFoundedLT.induction generalizing s with
  | ind m ih =>
    subst hn
    by_cases hstuck : Stuck s
    · exact .inr (.inr ⟨s, .refl s, hstuck⟩)
    cases hstep : step s with
    | done r => exact .inl ⟨r, ends_of_done hstep⟩
    | fault e => exact .inr (.inl ⟨s, e, .refl s, hstep⟩)
    | next s' =>
      rcases ih _ (hμ s s' hstep hstuck) s' rfl with ⟨r, hr⟩ | ⟨t, e, hv, he⟩ | ⟨t, hv, ht⟩
      · exact .inl ⟨r, (ends_iff_of_next hstep).mpr hr⟩
      · exact .inr (.inl ⟨t, e, .pass hstep hv, he⟩)
      · exact .inr (.inr ⟨t, .pass hstep hv, ht⟩)

/-- **Exact termination**: when stuck states are the ones a pass leaves unchanged, the loop
    ends exactly if it visits neither a stuck nor a faulting state. -/
theorem ends_iff_no_stuck
    (hμ : ∀ a b, step a = .next b → ¬ Stuck a → μ b < μ a)
    (hstuck : ∀ a, Stuck a → step a = .next a) (s : σ) :
    (∃ r, Ends step s r) ↔
      ∀ t, Visits step s t → ¬ Stuck t ∧ ∀ e, step t ≠ .fault e := by
  constructor
  · rintro ⟨r, hr⟩ t hv
    refine ⟨fun ht => ?_, fun e => hr.no_fault hv⟩
    exact not_ends_of_diverges (hv.diverges (diverges_of_fixpoint (hstuck t ht))) hr
  · intro hall
    rcases ends_or_faults_or_stuck hμ s with h | ⟨t, e, hv, he⟩ | ⟨t, hv, ht⟩
    · exact h
    · exact absurd he ((hall t hv).2 e)
    · exact absurd ht (hall t hv).1

/-- **Exact divergence**: under the same rules the loop runs forever exactly if it visits a
    stuck state. -/
theorem diverges_iff_stuck
    (hμ : ∀ a b, step a = .next b → ¬ Stuck a → μ b < μ a)
    (hstuck : ∀ a, Stuck a → step a = .next a) (s : σ) :
    Diverges step s ↔ ∃ t, Visits step s t ∧ Stuck t := by
  constructor
  · intro hdiv
    rcases ends_or_faults_or_stuck hμ s with ⟨r, hr⟩ | ⟨t, e, hv, he⟩ | h
    · exact absurd hr (not_ends_of_diverges hdiv)
    · exfalso
      induction hv with
      | refl a =>
        obtain ⟨n, hn⟩ := faults_of_fault he
        rw [hdiv n] at hn
        cases hn
      | pass hpass _ ih =>
        exact ih (fun n => by rw [← iterate_succ_of_next hpass]; exact hdiv (n + 1)) he
    · exact h
  · rintro ⟨t, hv, ht⟩
    exact hv.diverges (diverges_of_fixpoint (hstuck t ht))

end Measure

end LoopStep

end Commutil.Library
