import Mathlib.Tactic.Common

/-!
# Writing over a Part of a Memory

A memory is a list of cells.  `overwrite` stores a block of cells from an index on; what lies
before and behind the block stays as it was.
-/

namespace Commutil.Library

variable {α : Type}

/-- `block` stored over `mem` from index `i` on. -/
def overwrite (mem : List α) (i : Nat) (block : List α) : List α :=
  mem.take i ++ (block ++ mem.drop (i + block.length))

variable {mem block : List α} {i n : Nat}

theorem overwrite_length (h : i + block.length ≤ mem.length) :
    (overwrite mem i block).length = mem.length := by
  simp only [overwrite, List.length_append, List.length_take, List.length_drop]
  omega

/-- What lies before the block. -/
theorem take_overwrite (hn : n ≤ i) (hi : i ≤ mem.length) :
    (overwrite mem i block).take n = mem.take n := by
  have hlength : n ≤ (mem.take i).length := by
    rw [List.length_take_of_le hi]
    exact hn
  rw [overwrite, List.take_append_of_le_length hlength, List.take_take, Nat.min_eq_left hn]

/-- What lies before the end of the first `n` cells of the block. -/
theorem take_overwrite_add (hi : i ≤ mem.length) (hn : n ≤ block.length) :
    (overwrite mem i block).take (i + n) = mem.take i ++ block.take n := by
  have hlength : (mem.take i).length = i := List.length_take_of_le hi
  rw [overwrite, List.take_append, hlength, Nat.add_sub_cancel_left,
    List.take_append_of_le_length hn, List.take_of_length_le (by omega)]

/-- What lies behind the block. -/
theorem drop_overwrite (hi : i ≤ mem.length) (hn : i + block.length ≤ n) :
    (overwrite mem i block).drop n = mem.drop n := by
  have hlength : (mem.take i).length = i := List.length_take_of_le hi
  rw [overwrite, List.drop_append, hlength, List.drop_eq_nil_of_le (by omega), List.nil_append,
    List.drop_append, List.drop_eq_nil_of_le (by omega), List.nil_append, List.drop_drop]
  congr 1
  omega

/-- A cell of the block. -/
theorem getElem?_overwrite_add (hi : i ≤ mem.length) (hn : n < block.length) :
    (overwrite mem i block)[i + n]? = block[n]? := by
  have hlength : (mem.take i).length = i := List.length_take_of_le hi
  rw [overwrite, List.getElem?_append_right (by omega), hlength, Nat.add_sub_cancel_left,
    List.getElem?_append_left hn]

/-- Two blocks, one behind the other. -/
theorem overwrite_append {a b : List α} (h : i + a.length + b.length ≤ mem.length) :
    overwrite (overwrite mem i a) (i + a.length) b = overwrite mem i (a ++ b) := by
  have hfirst : (overwrite mem i a).take (i + a.length) = mem.take i ++ a := by
    rw [take_overwrite_add (by omega) (Nat.le_refl _), List.take_length]
  have hbehind := drop_overwrite (show i ≤ mem.length by omega)
    (show i + a.length ≤ i + a.length + b.length by omega)
  rw [overwrite, hfirst, hbehind, overwrite, List.length_append, List.append_assoc,
    List.append_assoc, Nat.add_assoc]

end Commutil.Library
