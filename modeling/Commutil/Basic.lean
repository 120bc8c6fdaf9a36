import Mathlib.Algebra.GroupWithZero.Nat
import Mathlib.Algebra.Ring.Int.Defs
import Mathlib.Tactic.Common

/-!
# Result Codes, Byte Orders and Faults

The result codes and byte orders of `comm_util_err.h` and `io_def.h`, the width
constants of the code's machine integers, and the ways a run of the code can
leave the defined behaviour of the language.

A function that returns a code returns an `ErrorCode`; a function that can
follow a null pointer, read or write outside an object, or touch freed memory
returns `Except Fault`, and the fault ends the run.
-/

namespace Commutil

/-! ## §1 Result codes -/

/-- `enum class ErrorCode`. -/
inductive ErrorCode where
  | ok
  | nomem
  | invalidArgument
  | invalidState
  | resourceLimit
  | ioCanceled
  | concurrentModification
  | systemFailure
  | notFound
  | internalError
  | eof
  | alreadyExists
  | inProgress
  | netError
  | endOfStream
  | protocolError
  | serverError
  | notImplemented
  | invalidConnection
  | sessionNotFound
  | sessionStale
  | aborted
  | dataCorrupt
  | transportError
  | timedOut
  deriving DecidableEq, Repr

/-- `enum class ByteOrder`; the host is little-endian. -/
inductive ByteOrder where
  | hostOrder
  | networkOrder
  deriving DecidableEq, Repr

/-! ## §2 Faults -/

/-- How a run leaves the defined behaviour of the language. -/
inductive Fault where
  /-- A null node or object pointer is followed. -/
  | nullDereference
  /-- Bytes outside an object are read. -/
  | outOfBounds
  /-- Bytes outside a heap object are written. -/
  | heapOverflow
  /-- A freed message is read. -/
  | useAfterFree
  /-- A freed message is freed again. -/
  | doubleFree
  /-- An integer is divided by zero. -/
  | divideByZero
  /-- An exception is thrown that the library does not catch. -/
  | uncaughtException
  /-- A bounded loop of the model used up its bound. -/
  | outOfFuel
  deriving DecidableEq, Repr

/-- An action that succeeds hands its value to the next one. -/
theorem bind_of_ok {ε α β : Type} {x : Except ε α} {a : α} (h : x = .ok a)
    (next : α → Except ε β) : (x >>= next) = next a := by
  rw [h]
  rfl

/-- Both of two actions that succeed one after the other do. -/
theorem of_bind_ok {ε α β : Type} {x : Except ε α} {next : α → Except ε β} {r : β}
    (h : (x >>= next) = .ok r) : ∃ a, x = .ok a ∧ next a = .ok r := by
  cases x with
  | error fault => cases h
  | ok a => exact ⟨a, rfl, h⟩

/-- One of two actions that fail one after the other does. -/
theorem of_bind_error {ε α β : Type} {x : Except ε α} {next : α → Except ε β} {e : ε}
    (h : (x >>= next) = .error e) : x = .error e ∨ ∃ a, x = .ok a ∧ next a = .error e := by
  cases x with
  | error e' =>
    cases h
    exact .inl rfl
  | ok a => exact .inr ⟨a, rfl, h⟩

/-- A result that is mapped comes from a result. -/
theorem of_map_ok {ε α β : Type} {x : Except ε α} {f : α → β} {r : β} (h : x.map f = .ok r) :
    ∃ a, x = .ok a ∧ f a = r := by
  cases x with
  | error _ => cases h
  | ok a => exact ⟨a, rfl, Except.ok.inj h⟩

/-! ## §3 Machine arithmetic -/

/-- `a + b` in `uint32_t`. -/
def add32 (a b : Nat) : Nat := (a + b) % 2 ^ 32

/-- `a - b` in `uint32_t`. -/
def sub32 (a b : Nat) : Nat := (a + 2 ^ 32 - b % 2 ^ 32) % 2 ^ 32

/-- `a + b` in `uint64_t`. -/
def add64 (a b : Nat) : Nat := (a + b) % 2 ^ 64

/-- `a - b` in `uint64_t`. -/
def sub64 (a b : Nat) : Nat := (a + 2 ^ 64 - b % 2 ^ 64) % 2 ^ 64

theorem add32_eq {a b : Nat} (h : a + b < 2 ^ 32) : add32 a b = a + b :=
  Nat.mod_eq_of_lt h

theorem sub32_eq {a b : Nat} (hle : b ≤ a) (ha : a < 2 ^ 32) : sub32 a b = a - b := by
  simp only [sub32]
  omega

theorem add32_le (a b : Nat) : add32 a b ≤ a + b :=
  Nat.mod_le _ _

theorem sub64_eq {a b : Nat} (hle : b ≤ a) (ha : a < 2 ^ 64) : sub64 a b = a - b := by
  simp only [sub64]
  omega

end Commutil
