import Mathlib.Tactic.Common

/-!
# Refinement of Call Sequences

An object is given by the outcome of one call: an answer and the object
afterwards, or a fault.  A specification of it is a machine whose calls always
answer, with a precondition on each call.

`run_refines` lifts a simulation of single calls to call sequences: as long as
every call meets the precondition, the object does not fault, gives the
specification's answers and stays related to the specification's state.
`run_refines_meeting` does so for calls that meet a condition on the object itself.
-/

namespace Commutil.Library

variable {ι ο σ τ ε : Type}

/-- The answers of a sequence of calls and the object afterwards. -/
def runCalls (call : σ → ι → Except ε (ο × σ)) : σ → List ι → Except ε (List ο × σ)
  | s, [] => .ok ([], s)
  | s, i :: is =>
    match call s i with
    | .error fault => .error fault
    | .ok (o, s') =>
      match runCalls call s' is with
      | .error fault => .error fault
      | .ok (os, s'') => .ok (o :: os, s'')

/-- The answers of a specification and its state afterwards. -/
def runSpec (spec : τ → ι → ο × τ) : τ → List ι → List ο × τ
  | t, [] => ([], t)
  | t, i :: is =>
    let r := runSpec spec (spec t i).2 is
    ((spec t i).1 :: r.1, r.2)

/-- Every call of the sequence meets the precondition at the state it is made in. -/
def AdmissibleCalls (pre : τ → ι → Prop) (spec : τ → ι → ο × τ) : τ → List ι → Prop
  | _, [] => True
  | t, i :: is => pre t i ∧ AdmissibleCalls pre spec (spec t i).2 is

instance decidableAdmissibleCalls (pre : τ → ι → Prop) [∀ t i, Decidable (pre t i)]
    (spec : τ → ι → ο × τ) : ∀ (t : τ) (is : List ι), Decidable (AdmissibleCalls pre spec t is)
  | _, [] => .isTrue trivial
  | t, i :: is =>
    have := decidableAdmissibleCalls pre spec (spec t i).2 is
    inferInstanceAs (Decidable (_ ∧ _))

/-- A sequence that answers answers its first call, and the other calls after it. -/
theorem runCalls_cons_iff {call : σ → ι → Except ε (ο × σ)} {s s'' : σ} {i : ι} {is : List ι}
    {os : List ο} :
    runCalls call s (i :: is) = .ok (os, s'') ↔
      ∃ o s' os', call s i = .ok (o, s') ∧ runCalls call s' is = .ok (os', s'') ∧
        os = o :: os' := by
  constructor
  · intro h
    rw [runCalls] at h
    split at h
    · cases h
    · rename_i o s' hcall
      split at h
      · cases h
      · rename_i os' s₂ hrun
        cases h
        exact ⟨o, s', os', hcall, hrun, rfl⟩
  · rintro ⟨o, s', os', hcall, hrun, rfl⟩
    simp only [runCalls, hcall, hrun]

theorem runCalls_cons {call : σ → ι → Except ε (ο × σ)} {s s' s'' : σ} {i : ι} {is : List ι}
    {o : ο} {os : List ο} (hcall : call s i = .ok (o, s'))
    (hrest : runCalls call s' is = .ok (os, s'')) :
    runCalls call s (i :: is) = .ok (o :: os, s'') :=
  runCalls_cons_iff.mpr ⟨o, s', os, hcall, hrest, rfl⟩

/-- One sequence of calls after another. -/
theorem runCalls_append {call : σ → ι → Except ε (ο × σ)} {s s' s'' : σ} {is is' : List ι}
    {os os' : List ο} (h : runCalls call s is = .ok (os, s'))
    (h' : runCalls call s' is' = .ok (os', s'')) :
    runCalls call s (is ++ is') = .ok (os ++ os', s'') := by
  induction is generalizing s os with
  | nil =>
    cases h
    exact h'
  | cons i is ih =>
    obtain ⟨o, s₁, os₁, hfirst, hrest, rfl⟩ := runCalls_cons_iff.mp h
    exact runCalls_cons hfirst (ih hrest)

/-- **Refinement rule**: a simulation of single calls is a simulation of call sequences. -/
theorem run_refines {call : σ → ι → Except ε (ο × σ)} {spec : τ → ι → ο × τ}
    {pre : τ → ι → Prop} {R : σ → τ → Prop}
    (hcall : ∀ s t i, R s t → pre t i →
      ∃ s', call s i = .ok ((spec t i).1, s') ∧ R s' (spec t i).2)
    {s : σ} {t : τ} (hR : R s t) {is : List ι} (hadm : AdmissibleCalls pre spec t is) :
    ∃ s', runCalls call s is = .ok ((runSpec spec t is).1, s') ∧ R s' (runSpec spec t is).2 := by
  induction is generalizing s t with
  | nil => exact ⟨s, rfl, hR⟩
  | cons i is ih =>
    obtain ⟨hpre, hrest⟩ := hadm
    obtain ⟨s₁, hs₁, hR₁⟩ := hcall s t i hR hpre
    obtain ⟨s₂, hs₂, hR₂⟩ := ih hR₁ hrest
    refine ⟨s₂, ?_, hR₂⟩
    simp only [runCalls, hs₁, hs₂, runSpec]

/-- Every call of the sequence meets a condition on the object that it is made on. -/
def MeetsEach (call : σ → ι → Except ε (ο × σ)) (cond : σ → ι → Prop) : σ → List ι → Prop
  | _, [] => True
  | s, i :: is => cond s i ∧ ∀ o s', call s i = .ok (o, s') → MeetsEach call cond s' is

/-- **Refinement rule** for a simulation that depends on the object. -/
theorem run_refines_meeting {call : σ → ι → Except ε (ο × σ)} {spec : τ → ι → ο × τ}
    {cond : σ → ι → Prop} {R : σ → τ → Prop}
    (hcall : ∀ s t i, R s t → cond s i →
      ∃ s', call s i = .ok ((spec t i).1, s') ∧ R s' (spec t i).2)
    {s : σ} {t : τ} (hR : R s t) {is : List ι} (hmeets : MeetsEach call cond s is) :
    ∃ s', runCalls call s is = .ok ((runSpec spec t is).1, s') ∧ R s' (runSpec spec t is).2 := by
  induction is generalizing s t with
  | nil => exact ⟨s, rfl, hR⟩
  | cons i is ih =>
    obtain ⟨hcond, hrest⟩ := hmeets
    obtain ⟨s₁, hs₁, hR₁⟩ := hcall s t i hR hcond
    obtain ⟨s₂, hs₂, hR₂⟩ := ih hR₁ (hrest _ _ hs₁)
    refine ⟨s₂, ?_, hR₂⟩
    simp only [runCalls, hs₁, hs₂, runSpec]

/-- **Invariant rule**: what every call that answers preserves holds after a call sequence. -/
theorem runCalls_invariant {call : σ → ι → Except ε (ο × σ)} (Inv : σ → Prop)
    (hcall : ∀ s i o s', Inv s → call s i = .ok (o, s') → Inv s') {s s' : σ} {is : List ι}
    {os : List ο} (h : runCalls call s is = .ok (os, s')) (hs : Inv s) : Inv s' := by
  induction is generalizing s os with
  | nil =>
    cases h
    exact hs
  | cons i is ih =>
    obtain ⟨o, s₁, os', hfirst, hrest, -⟩ := runCalls_cons_iff.mp h
    exact ih hrest (hcall s i o s₁ hs hfirst)

end Commutil.Library
