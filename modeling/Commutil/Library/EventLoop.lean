import Mathlib.Logic.Function.Basic
import Mathlib.Tactic.Common

/-!
# The Handles of an Event Loop

An event loop works on handles that lie in the memory of its user.  It is told of a
handle when the handle is initialized, and knows it until the end of the turn in which
it is closed; only then a place may be used for something else.

`Within` says that all handles lie in memory that is allocated.  What it takes to keep
this is said for each operation.
-/

namespace Commutil.Library

/-- What a loop is to do with a handle. -/
inductive HandleState where
  | quiet
  /-- The callback is to be called. -/
  | due
  /-- The handle is closed when the turn ends, and its place freed by the callback of that or not. -/
  | closing (frees : Bool)
  deriving DecidableEq, Repr

/-- The handle is being closed. -/
def HandleState.isClosing : HandleState → Bool
  | .closing _ => true
  | .quiet | .due => false

/-- What a loop knows of each place. -/
abbrev EventLoop (κ : Type) : Type := κ → Option HandleState

namespace EventLoop

variable {κ : Type}

/-- No handles. -/
def empty : EventLoop κ := fun _ => none

/-- Every handle lies in memory that is allocated. -/
def Within (loop : EventLoop κ) (memory : κ → Prop) : Prop :=
  ∀ place, loop place ≠ none → memory place

theorem within_empty (memory : κ → Prop) : (empty : EventLoop κ).Within memory :=
  fun _ h => absurd rfl h

/-- Memory that is allocated in addition does no harm. -/
theorem Within.mono {loop : EventLoop κ} {memory memory' : κ → Prop} (h : loop.Within memory)
    (hmono : ∀ place, memory place → memory' place) : loop.Within memory' :=
  fun place hknown => hmono place (h place hknown)

/-- Close all handles that are not being closed already. -/
def closeAll (loop : EventLoop κ) : EventLoop κ :=
  fun place => (loop place).map fun state => if state.isClosing then state else .closing false

/-- The end of a turn. -/
def turn (loop : EventLoop κ) : EventLoop κ :=
  fun place => (loop place).filter fun state => !state.isClosing

/-- A turn that ends frees what the callbacks free. -/
theorem Within.turn {loop : EventLoop κ} {memory : κ → Prop} (h : loop.Within memory) :
    loop.turn.Within fun place => memory place ∧ loop place ≠ some (.closing true) := by
  intro place hknown
  obtain ⟨state, hstate⟩ := Option.ne_none_iff_exists'.mp hknown
  obtain ⟨hloop, hopen⟩ := Option.filter_eq_some_iff.mp hstate
  refine ⟨h place (by simp [hloop]), fun hclosing => ?_⟩
  rw [hclosing] at hloop
  obtain rfl := Option.some.inj hloop
  simp [HandleState.isClosing] at hopen

/-- After the handles are closed and the turn has ended, nothing is left. -/
theorem turn_closeAll (loop : EventLoop κ) : loop.closeAll.turn = empty := by
  funext place
  rw [turn, closeAll, empty, Option.filter_eq_none_iff]
  simp only [Option.map_eq_some_iff, forall_exists_index, and_imp]
  rintro _ state - rfl
  cases state <;> simp [HandleState.isClosing]

variable [DecidableEq κ]

/-- A handle is initialized. -/
def register (loop : EventLoop κ) (place : κ) : EventLoop κ :=
  Function.update loop place (some .quiet)

/-- The callback of a handle is asked for. -/
def send (loop : EventLoop κ) (place : κ) : EventLoop κ :=
  Function.update loop place ((loop place).map fun state => if state.isClosing then state else .due)

/-- A handle is closed; it is not called any more. -/
def close (loop : EventLoop κ) (place : κ) (frees : Bool) : EventLoop κ :=
  Function.update loop place ((loop place).map fun _ => .closing frees)

section Lookups

variable (loop : EventLoop κ) {place k : κ} (frees : Bool)

@[simp] theorem register_self : loop.register place place = some .quiet :=
  Function.update_self ..

theorem register_of_ne (h : k ≠ place) : loop.register place k = loop k :=
  Function.update_of_ne h ..

theorem send_self : loop.send place place =
    (loop place).map fun state => if state.isClosing then state else .due :=
  Function.update_self ..

theorem send_of_ne (h : k ≠ place) : loop.send place k = loop k :=
  Function.update_of_ne h ..

theorem close_self : loop.close place frees place = (loop place).map fun _ => .closing frees :=
  Function.update_self ..

theorem close_of_ne (h : k ≠ place) : loop.close place frees k = loop k :=
  Function.update_of_ne h ..

end Lookups

variable {loop : EventLoop κ} {memory : κ → Prop} {place : κ}

/-- A handle must be allocated before it is initialized. -/
theorem within_register_iff (h : loop.Within memory) :
    (loop.register place).Within memory ↔ memory place := by
  constructor
  · intro hafter
    exact hafter place (by simp)
  · intro hplace k hknown
    by_cases hk : k = place
    · rw [hk]
      exact hplace
    · rw [register_of_ne loop hk] at hknown
      exact h k hknown

/-- Which handles the loop knows does not change when it is told of their callbacks. -/
theorem send_eq_none_iff {k : κ} : loop.send place k = none ↔ loop k = none := by
  by_cases hk : k = place
  · rw [hk, send_self, Option.map_eq_none_iff]
  · rw [send_of_ne loop hk]

theorem close_eq_none_iff {k : κ} (frees : Bool) :
    loop.close place frees k = none ↔ loop k = none := by
  by_cases hk : k = place
  · rw [hk, close_self, Option.map_eq_none_iff]
  · rw [close_of_ne loop frees hk]

theorem within_send_iff : (loop.send place).Within memory ↔ loop.Within memory := by
  simp only [Within, ne_eq, send_eq_none_iff]

theorem within_close_iff (frees : Bool) :
    (loop.close place frees).Within memory ↔ loop.Within memory := by
  simp only [Within, ne_eq, close_eq_none_iff]

end EventLoop

end Commutil.Library
