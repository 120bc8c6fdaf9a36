import Mathlib.Tactic.Common

/-!
# Runs of a Transition System

Finite runs of a labelled transition system, each step of which meets a condition,
and the invariant rule for them.

A system is given by its step relation.  Where the steps are computed by a partial
function, `runWhere` computes a whole run, so that a concrete run is an evaluation.

Where every event has one outcome, a run is given by its events: `Throughout` says
that a property holds in each of its states, `EachStep` that a condition is met at
each of its steps.
-/

namespace Commutil.Library

variable {σ ε : Type}

/-- A run by some events, with the condition `P` met before every step. -/
inductive RunsWith (step : σ → ε → σ → Prop) (P : σ → ε → Prop) : σ → List ε → σ → Prop where
  | nil (s : σ) : RunsWith step P s [] s
  | cons {s t u : σ} {e : ε} {es : List ε} :
      P s e → step s e t → RunsWith step P t es u → RunsWith step P s (e :: es) u

namespace RunsWith

variable {step : σ → ε → σ → Prop} {P : σ → ε → Prop} {s t u : σ} {es es' : List ε}

/-- **Invariant rule**: what every step that meets the condition preserves holds in the end. -/
theorem invariant (Inv : σ → Prop) (hstep : ∀ s e t, Inv s → P s e → step s e t → Inv t)
    (h : RunsWith step P s es t) (hs : Inv s) : Inv t := by
  induction h with
  | nil s => exact hs
  | cons hP hst _ ih => exact ih (hstep _ _ _ hs hP hst)

theorem append (h : RunsWith step P s es t) (h' : RunsWith step P t es' u) :
    RunsWith step P s (es ++ es') u := by
  induction h with
  | nil s => exact h'
  | cons hP hst _ ih => exact .cons hP hst (ih h')

/-- More steps, more runs. -/
theorem mono {step' : σ → ε → σ → Prop} (hstep : ∀ s e t, step s e t → step' s e t)
    (h : RunsWith step P s es t) : RunsWith step' P s es t := by
  induction h with
  | nil s => exact .nil s
  | cons hP hst _ ih => exact .cons hP (hstep _ _ _ hst) ih

/-- Steps that meet a condition meet a weaker one. -/
theorem imp {Q : σ → ε → Prop} (hQ : ∀ s e, P s e → Q s e) (h : RunsWith step P s es t) :
    RunsWith step Q s es t := by
  induction h with
  | nil s => exact .nil s
  | cons hP hst _ ih => exact .cons (hQ _ _ hP) hst ih

/-- **Exact conditions** for the steps of a run: if a step does what it should exactly where the
    condition is met, the steps of a run all do so exactly if all meet the condition.  `Inv` is
    kept by the steps that do what they should. -/
theorem each_iff {Q : σ → ε → σ → Prop} {C : σ → ε → Prop} (Inv : σ → Prop)
    (hinv : ∀ s e t, Inv s → P s e → step s e t → Q s e t → Inv t)
    (hstep : ∀ s e t, Inv s → P s e → step s e t → (Q s e t ↔ C s e)) (hs : Inv s) :
    RunsWith (fun s e t => step s e t ∧ Q s e t) P s es t ↔
      RunsWith step (fun s e => P s e ∧ C s e) s es t := by
  constructor
  · intro h
    induction h with
    | nil s => exact .nil s
    | cons hP hst _ ih =>
      exact .cons ⟨hP, (hstep _ _ _ hs hP hst.1).mp hst.2⟩ hst.1 (ih (hinv _ _ _ hs hP hst.1 hst.2))
  · intro h
    induction h with
    | nil s => exact .nil s
    | cons hP hst _ ih =>
      have hQ := (hstep _ _ _ hs hP.1 hst).mpr hP.2
      exact .cons hP.1 ⟨hst, hQ⟩ (ih (hinv _ _ _ hs hP.1 hst hQ))

end RunsWith

/-- A step relation computed by a partial function. -/
def stepOf (f : σ → ε → Option σ) (s : σ) (e : ε) (t : σ) : Prop := f s e = some t

/-- The run by some events, if every step is possible and meets the condition. -/
def runWhere (f : σ → ε → Option σ) (P : σ → ε → Prop) [∀ s e, Decidable (P s e)] :
    σ → List ε → Option σ
  | s, [] => some s
  | s, e :: es =>
    if P s e then
      match f s e with
      | some t => runWhere f P t es
      | none => none
    else none

/-- What is computed is a run. -/
theorem runsWith_of_runWhere {f : σ → ε → Option σ} {P : σ → ε → Prop}
    [∀ s e, Decidable (P s e)] {s t : σ} {es : List ε} (h : runWhere f P s es = some t) :
    RunsWith (stepOf f) P s es t := by
  induction es generalizing s with
  | nil =>
    obtain rfl : s = t := Option.some.inj h
    exact .nil s
  | cons e es ih =>
    unfold runWhere at h
    split at h
    · rename_i hP
      split at h
      · rename_i s' hs'
        exact .cons hP hs' (ih h)
      · cases h
    · cases h

/-- Where the steps may fail with an error, the steps that do not fail make the run. -/
theorem runsWith_of_runWhere_except {φ : Type} {f : σ → ε → Except φ σ} {P : σ → ε → Prop}
    [∀ s e, Decidable (P s e)] {s t : σ} {es : List ε}
    (h : runWhere (fun s e => (f s e).toOption) P s es = some t) :
    RunsWith (fun s e t => f s e = .ok t) P s es t := by
  refine (runsWith_of_runWhere h).mono fun s e t hstep => ?_
  simp only [stepOf] at hstep
  cases hf : f s e with
  | error fault =>
    rw [hf] at hstep
    cases hstep
  | ok t' =>
    rw [hf] at hstep
    exact congrArg Except.ok (Option.some.inj hstep)

/-! ## Deterministic systems -/

section Deterministic

variable {f : σ → ε → σ} {s : σ} {es : List ε}

/-- The property holds in every state of the run, from the first to the last. -/
def Throughout (f : σ → ε → σ) (Q : σ → Prop) : σ → List ε → Prop
  | s, [] => Q s
  | s, e :: es => Q s ∧ Throughout f Q (f s e) es

/-- The condition is met at every step of the run. -/
def EachStep (f : σ → ε → σ) (P : σ → ε → Prop) : σ → List ε → Prop
  | _, [] => True
  | s, e :: es => P s e ∧ EachStep f P (f s e) es

instance decidableThroughout (Q : σ → Prop) [∀ s, Decidable (Q s)] :
    ∀ (s : σ) (es : List ε), Decidable (Throughout f Q s es)
  | s, [] => inferInstanceAs (Decidable (Q s))
  | s, e :: es =>
    have := decidableThroughout Q (f s e) es
    inferInstanceAs (Decidable (_ ∧ _))

instance decidableEachStep (P : σ → ε → Prop) [∀ s e, Decidable (P s e)] :
    ∀ (s : σ) (es : List ε), Decidable (EachStep f P s es)
  | _, [] => .isTrue trivial
  | s, e :: es =>
    have := decidableEachStep P (f s e) es
    inferInstanceAs (Decidable (_ ∧ _))

theorem Throughout.first {Q : σ → Prop} (h : Throughout f Q s es) : Q s := by
  cases es with
  | nil => exact h
  | cons e es => exact h.1

theorem eachStep_true (f : σ → ε → σ) (s : σ) (es : List ε) :
    EachStep f (fun _ _ => True) s es := by
  induction es generalizing s with
  | nil => trivial
  | cons e es ih => exact ⟨trivial, ih (f s e)⟩

/-- **Invariant rule** for a run given by its events. -/
theorem throughout_of_eachStep {Q : σ → Prop} {P : σ → ε → Prop}
    (hstep : ∀ s e, Q s → P s e → Q (f s e)) (hQ : Q s) (hP : EachStep f P s es) :
    Throughout f Q s es := by
  induction es generalizing s with
  | nil => exact hQ
  | cons e es ih => exact ⟨hQ, ih (hstep s e hQ hP.1) hP.2⟩

/-- **Exact conditions**: if a step keeps the property where the condition is met and breaks it
    where it is not, the property holds throughout exactly the runs that always meet it.  `Inv`
    is what is known of every state anyway. -/
theorem throughout_iff_eachStep {Q Inv : σ → Prop} {P C : σ → ε → Prop}
    (hinv : ∀ s e, Inv s → P s e → Inv (f s e))
    (hstep : ∀ s e, Inv s → Q s → P s e → (Q (f s e) ↔ C s e))
    (hI : Inv s) (hQ : Q s) (hP : EachStep f P s es) :
    Throughout f Q s es ↔ EachStep f C s es := by
  induction es generalizing s with
  | nil => exact ⟨fun _ => trivial, fun _ => hQ⟩
  | cons e es ih =>
    obtain ⟨hPe, hrest⟩ := hP
    constructor
    · rintro ⟨-, hthen⟩
      exact ⟨(hstep s e hI hQ hPe).mp hthen.first,
        (ih (hinv s e hI hPe) hthen.first hrest).mp hthen⟩
    · rintro ⟨hC, hthen⟩
      have hQ' := (hstep s e hI hQ hPe).mpr hC
      exact ⟨hQ, (ih (hinv s e hI hPe) hQ' hrest).mpr hthen⟩

/-- **Exact conditions** where what is known of a state rests on the property: `Inv` is kept by the
    steps after which the property holds. -/
theorem throughout_iff_eachStep_of_kept {Q Inv : σ → Prop} {C : σ → ε → Prop}
    (hinv : ∀ s e, Inv s → Q s → Q (f s e) → Inv (f s e))
    (hstep : ∀ s e, Inv s → Q s → (Q (f s e) ↔ C s e)) (hI : Inv s) (hQ : Q s) :
    Throughout f Q s es ↔ EachStep f C s es := by
  induction es generalizing s with
  | nil => exact ⟨fun _ => trivial, fun _ => hQ⟩
  | cons e es ih =>
    constructor
    · rintro ⟨-, hthen⟩
      have hQ' := hthen.first
      exact ⟨(hstep s e hI hQ).mp hQ', (ih (hinv s e hI hQ hQ') hQ').mp hthen⟩
    · rintro ⟨hC, hthen⟩
      have hQ' := (hstep s e hI hQ).mpr hC
      exact ⟨hQ, (ih (hinv s e hI hQ hQ') hQ').mpr hthen⟩

end Deterministic

end Commutil.Library
