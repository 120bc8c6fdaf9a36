import Mathlib.Data.List.Induction
import Mathlib.Logic.Function.Basic
import Mathlib.Tactic.Common

/-!
# Leases

A table of leases.  A lease lasts for a fixed period from its last renewal, and the
holder loses it at the first sweep after that time: between the sweeps a lease that has
run out is still held.

`run_eq_some_iff` reads the table off the events: a lease is held exactly if no sweep
since its last renewal came too late for it.
-/

namespace Commutil.Library

/-- What a table of leases is told, and when. -/
inductive LeaseEvent (κ : Type) where
  | renew (holder : κ) (now : Nat)
  | sweep (now : Nat)
  deriving DecidableEq, Repr

/-- The leases that are held, each with the time of its last renewal. -/
def Leases (κ : Type) : Type := κ → Option Nat

namespace Leases

variable {κ : Type} {period : Nat}

/-- Nobody holds a lease. -/
def none : Leases κ := fun _ => Option.none

/-- A sweep takes back the leases that have run out. -/
def sweep (period : Nat) (leases : Leases κ) (now : Nat) : Leases κ :=
  fun holder => (leases holder).filter fun t => decide (now < t + period)

theorem sweep_eq_some_iff {leases : Leases κ} {now t : Nat} {k : κ} :
    leases.sweep period now k = some t ↔ leases k = some t ∧ now < t + period := by
  simp [sweep, Option.filter_eq_some_iff]

/-- A lease that was swept is not changed by the same sweep. -/
theorem sweep_of_swept {leases swept : Leases κ} {now : Nat} {k : κ}
    (h : swept k = leases.sweep period now k) : swept.sweep period now k = swept k := by
  apply Option.ext
  intro t
  rw [sweep_eq_some_iff, h, sweep_eq_some_iff, and_assoc, and_self]

variable [DecidableEq κ]

/-- A lease is given, or lasts longer. -/
def renew (leases : Leases κ) (holder : κ) (now : Nat) : Leases κ :=
  Function.update leases holder (some now)

/-- One event. -/
def after (period : Nat) (leases : Leases κ) : LeaseEvent κ → Leases κ
  | .renew holder now => leases.renew holder now
  | .sweep now => leases.sweep period now

/-- The leases after some events. -/
def run (period : Nat) (events : List (LeaseEvent κ)) : Leases κ :=
  events.foldl (after period) none

@[simp] theorem renew_self (leases : Leases κ) (holder : κ) (now : Nat) :
    leases.renew holder now holder = some now :=
  Function.update_self ..

theorem renew_of_ne (leases : Leases κ) {holder k : κ} (h : k ≠ holder) (now : Nat) :
    leases.renew holder now k = leases k :=
  Function.update_of_ne h ..

theorem run_append (events more : List (LeaseEvent κ)) :
    run period (events ++ more) = more.foldl (after period) (run period events) := by
  simp [run, List.foldl_append]

/-- An event that neither renews the lease of `k` nor comes too late for it. -/
def Spares (period : Nat) (k : κ) (t : Nat) : LeaseEvent κ → Prop
  | .renew holder _ => holder ≠ k
  | .sweep now => now < t + period

/-- **One event** leaves a lease as it was, or has renewed it. -/
theorem after_eq_some_iff {leases : Leases κ} {e : LeaseEvent κ} {k : κ} {t : Nat} :
    leases.after period e k = some t ↔
      (leases k = some t ∧ Spares period k t e) ∨ e = .renew k t := by
  cases e with
  | sweep now => simp [after, sweep_eq_some_iff, Spares]
  | renew holder now =>
    by_cases hself : holder = k
    · subst hself
      simp [after, Spares]
    · simp [after, Spares, renew_of_ne _ (Ne.symm hself), hself]

/-- **What is held**: a lease whose last renewal was followed by events that spare it. -/
theorem run_eq_some_iff {events : List (LeaseEvent κ)} {k : κ} {t : Nat} :
    run period events k = some t ↔
      ∃ before later,
        events = before ++ .renew k t :: later ∧ ∀ e ∈ later, Spares period k t e := by
  induction events using List.reverseRecOn with
  | nil => simp [run, none]
  | append_singleton events e ih =>
    rw [run_append, List.foldl_cons, List.foldl_nil, after_eq_some_iff]
    constructor
    · intro h
      rcases h with ⟨hheld, hspares⟩ | rfl
      · obtain ⟨before, later, rfl, hlater⟩ := ih.mp hheld
        refine ⟨before, later ++ [e], by simp, ?_⟩
        intro e' he'
        rcases List.mem_append.mp he' with hold | hnew
        · exact hlater e' hold
        · rw [List.mem_singleton.mp hnew]
          exact hspares
      · exact ⟨events, [], rfl, nofun⟩
    · intro ⟨before, later, heq, hlater⟩
      rcases List.eq_nil_or_concat later with rfl | ⟨later', last, rfl⟩
      · exact .inr (List.singleton_inj.mp (List.append_inj' heq rfl).2)
      · rw [List.concat_eq_append, ← List.cons_append, ← List.append_assoc] at heq
        obtain ⟨hevents, hlast⟩ := List.append_inj' heq rfl
        obtain rfl := List.singleton_inj.mp hlast
        refine .inl ⟨ih.mpr ⟨before, later', hevents, ?_⟩, hlater e (by simp)⟩
        exact fun e' he' => hlater e' (by simp [he'])

end Leases

end Commutil.Library
