import Mathlib.Tactic.Common

/-!
# Items in a Sequence

`Embeds encode items bytes`: the encodings of the items lie in the sequence, in order and
without an overlap, with anything before, between and behind them.
-/

namespace Commutil.Library

variable {α β : Type} {encode : α → List β}

/-- The sequence is made of the encodings of the items and of elements in between. -/
inductive Embeds (encode : α → List β) : List α → List β → Prop where
  | nil : Embeds encode [] []
  | skip (b : β) {items : List α} {bytes : List β} :
      Embeds encode items bytes → Embeds encode items (b :: bytes)
  | item (a : α) {items : List α} {bytes : List β} :
      Embeds encode items bytes → Embeds encode (a :: items) (encode a ++ bytes)

namespace Embeds

variable {items items' : List α} {bytes bytes' : List β}

/-- Without items any sequence will do. -/
theorem noItems (encode : α → List β) (bytes : List β) : Embeds encode [] bytes := by
  induction bytes with
  | nil => exact .nil
  | cons b bytes ih => exact .skip b ih

theorem append (h : Embeds encode items bytes) (h' : Embeds encode items' bytes') :
    Embeds encode (items ++ items') (bytes ++ bytes') := by
  induction h with
  | nil => exact h'
  | skip b _ ih => exact .skip b ih
  | item a _ ih =>
    rw [List.append_assoc]
    exact .item a ih

/-- The encoding of a single item. -/
theorem single (encode : α → List β) (a : α) : Embeds encode [a] (encode a) := by
  have h : Embeds encode [a] (encode a ++ []) := .item a .nil
  simpa using h

end Embeds

end Commutil.Library
