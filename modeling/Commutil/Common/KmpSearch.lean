import Commutil.Basic
import Commutil.Library.StringSearch

/-!
# The Pattern Search of `commutil_common.cpp`

`kmp_borders`, `kmp_search` and `commutil_strnstr`, with every array access
checked, and what they compute.

The border table is correct for every needle (`kmpBorders_longest`).  The search
stops at the first zero byte of the haystack: it is the plain search in the part
of the haystack before that byte (`kmpSearch_plain`), although the comment on the
declaration promises a search on arbitrary bytes.  `commutilStrnstr_contract_iff`
says when the promise is kept.

The difference of the lengths is cast to `int`: from `2 ^ 31` on it is negative, and
the search looks at nothing.  The other `int` indices are integers here.  They stay
between `-1` and the length of the haystack, so they are the `int`s of the code where
`IndexInRange` holds.

Loop bounds: the model runs each loop on a counter that the loop cannot use up;
the specifications include that none of them does.
-/

namespace Commutil.Common

open Commutil.Library

/-! ## §1 The code -/

/-- Checked array access `xs[i]`. -/
def readAt {α : Type} (xs : List α) (i : Int) : Except Fault α :=
  if 0 ≤ i then
    match xs[i.toNat]? with
    | some x => .ok x
    | none => .error .outOfBounds
  else .error .outOfBounds

/-- `while (j >= 0 && needle[i] != needle[j]) j = borders[j];` -/
def kmpFallback (needle : List UInt8) (borders : List Int) (i : Int) :
    Nat → Int → Except Fault Int
  | 0, _ => .error .outOfFuel
  | fuel + 1, j =>
    if 0 ≤ j then do
      let a ← readAt needle i
      let b ← readAt needle j
      if a ≠ b then
        let next ← readAt borders j
        kmpFallback needle borders i fuel next
      else
        pure j
    else
      pure j

/-- The outer loop of `kmp_borders`.  Entries are stored at consecutive indices, so the
    written part of the table is a list and `borders[i] = j` appends to it. -/
def kmpBordersLoop (needle : List UInt8) :
    Nat → Int → Int → List Int → Except Fault (List Int)
  | 0, _, _, _ => .error .outOfFuel
  | fuel + 1, i, j, borders =>
    if i < needle.length then do
      let j ← kmpFallback needle borders i (needle.length + 1) j
      kmpBordersLoop needle fuel (i + 1) (j + 1) (borders ++ [j + 1])
    else
      pure borders

/-- `kmp_borders` (the table allocation succeeds). -/
def kmpBorders (needle : List UInt8) : Except Fault (List Int) :=
  kmpBordersLoop needle (needle.length + 1) 0 (-1) [-1]

/-- `while (j < needleLength && *haystack && needle[j] == *haystack)`; `pos` is the distance
    of `haystack` from `hayStart`. -/
def kmpMatchLoop (haystack needle : List UInt8) : Nat → Int → Nat → Except Fault (Int × Nat)
  | 0, _, _ => .error .outOfFuel
  | fuel + 1, j, pos =>
    if j < needle.length then do
      let c ← readAt haystack pos
      if c ≠ 0 then
        let d ← readAt needle j
        if d = c then
          kmpMatchLoop haystack needle fuel (j + 1) (pos + 1)
        else
          pure (j, pos)
      else
        pure (j, pos)
    else
      pure (j, pos)

/-- `do { i += j - borders[j]; j = borders[j]; } while (j > 0 && needle[j] != *haystack);` -/
def kmpShiftLoop (haystack needle : List UInt8) (borders : List Int) (pos : Nat) :
    Nat → Int → Int → Except Fault (Int × Int)
  | 0, _, _ => .error .outOfFuel
  | fuel + 1, i, j => do
    let b ← readAt borders j
    if 0 < b then
      let d ← readAt needle b
      let c ← readAt haystack pos
      if d ≠ c then
        kmpShiftLoop haystack needle borders pos fuel (i + (j - b)) b
      else
        pure (i + (j - b), b)
    else
      pure (i + (j - b), b)

/-- The outer loop of `kmp_search`. -/
def kmpSearchLoop (haystack needle : List UInt8) (borders : List Int) (maxIndex : Int) :
    Nat → Int → Int → Nat → Except Fault Int
  | 0, _, _, _ => .error .outOfFuel
  | fuel + 1, i, j, pos =>
    if i ≤ maxIndex then do
      let (j, pos) ← kmpMatchLoop haystack needle (needle.length + 1) j pos
      if j = needle.length then
        pure (pos - needle.length)
      else
        let c ← readAt haystack pos
        if c = 0 then
          pure (-1)
        else if j = 0 then
          kmpSearchLoop haystack needle borders maxIndex fuel (i + 1) j (pos + 1)
        else
          let (i, j) ← kmpShiftLoop haystack needle borders pos (needle.length + 1) i j
          kmpSearchLoop haystack needle borders maxIndex fuel i j pos
    else
      pure (-1)

/-- `(int)` of a length: its low 32 bits as a signed number. -/
def castInt (n : Int) : Int := Int.bmod n (2 ^ 32)

/-- `kmp_search`. -/
def kmpSearch (haystack needle : List UInt8) (borders : List Int) : Except Fault Int :=
  let max_index := castInt (haystack.length - needle.length)
  kmpSearchLoop haystack needle borders max_index (haystack.length + 2) 0 0 0

/-- `commutil_strnstr` on non-null arguments. -/
def commutilStrnstr (haystack needle : List UInt8) : Except Fault Int :=
  if haystack.length < needle.length then
    pure (-1)
  else do
    let borders ← kmpBorders needle
    kmpSearch haystack needle borders

theorem readAt_eq_ok {α : Type} {xs : List α} {k : Nat} {x : α} (h : xs[k]? = some x) :
    readAt xs (k : Int) = .ok x := by
  simp [readAt, h]

/-! ## §2 The border table -/

/-- The first `n + 1` entries of the table are right. -/
structure BorderTable (needle : List UInt8) (borders : List Int) (n : Nat) : Prop where
  length_eq : borders.length = n + 1
  zero : borders[0]? = some (-1)
  entry : ∀ k, 1 ≤ k → k ≤ n →
    ∃ b : Nat, borders[k]? = some (b : Int) ∧ IsLongestBorder needle k b

/-- `j` is `-1` or the length of a border of the prefix of length `i`. -/
def BorderOrNone (needle : List UInt8) (i : Nat) (j : Int) : Prop :=
  j = -1 ∨ ∃ b : Nat, j = b ∧ IsBorder needle i b

private theorem table_at_border {needle : List UInt8} {borders : List Int} {i b : Nat}
    (htab : BorderTable needle borders i) (hb : IsBorder needle i b) :
    ∃ next : Int, borders[b]? = some next ∧ next < b ∧ -1 ≤ next ∧
      BorderOrNone needle i next ∧ ∀ c, IsBorder needle b c → (c : Int) ≤ next := by
  have hlt := hb.lt
  rcases Nat.eq_zero_or_pos b with rfl | hpos
  · refine ⟨-1, htab.zero, by omega, by omega, .inl rfl, fun c hc => ?_⟩
    have := hc.lt
    omega
  · obtain ⟨b', hentry, hlong⟩ := htab.entry b hpos (by omega)
    have hlt' := hlong.border.lt
    refine ⟨b', hentry, by omega, by omega, .inr ⟨b', rfl, hb.trans hlong.border⟩, ?_⟩
    intro c hc
    have := hlong.longest c hc
    omega

/-- The inner loop walks down the borders to the longest one that can be extended. -/
theorem kmpFallback_spec {needle : List UInt8} {borders : List Int} {i : Nat}
    (htab : BorderTable needle borders i) (hi : i < needle.length) :
    ∀ (fuel : Nat) (j : Int), BorderOrNone needle i j → j + 1 < fuel → -1 ≤ j →
      (∀ c : Nat, IsBorder needle i c → needle[i]? = needle[c]? → (c : Int) ≤ j) →
      ∃ r, kmpFallback needle borders i fuel j = .ok r ∧
        (r = -1 ∨ ∃ b : Nat, r = b ∧ IsBorder needle i b ∧ needle[i]? = needle[b]?) ∧
        ∀ c : Nat, IsBorder needle i c → needle[i]? = needle[c]? → (c : Int) ≤ r := by
  intro fuel
  induction fuel with
  | zero =>
    intro j _ hfuel hlow _
    omega
  | succ fuel ih =>
    intro j hj hfuel hlow hmax
    rcases hj with rfl | ⟨b, rfl, hb⟩
    · -- `j = -1`: the loop condition fails
      refine ⟨-1, ?_, .inl rfl, hmax⟩
      simp [kmpFallback, pure, Except.pure]
    · have hlt := hb.lt
      have hai : needle[i]? = some needle[i] := List.getElem?_eq_getElem hi
      have hbi : needle[b]? = some needle[b] := List.getElem?_eq_getElem (by omega)
      have hra : readAt needle (i : Int) = .ok needle[i] := readAt_eq_ok hai
      have hrb : readAt needle (b : Int) = .ok needle[b] := readAt_eq_ok hbi
      by_cases hEq : needle[i] = needle[b]
      · -- the border extends: the loop stops here
        refine ⟨b, ?_, .inr ⟨b, rfl, hb, by rw [hai, hbi, hEq]⟩, hmax⟩
        simp [kmpFallback, hra, hrb, hEq, bind, Except.bind, pure, Except.pure]
      · obtain ⟨next, hnext, hnlt, hnlow, hnb, hnmax⟩ := table_at_border htab hb
        have hrn : readAt borders (b : Int) = .ok next := readAt_eq_ok hnext
        have hmax' : ∀ c : Nat, IsBorder needle i c → needle[i]? = needle[c]? →
            (c : Int) ≤ next := by
          intro c hc hext
          have hcb := hmax c hc hext
          have hne : c ≠ b := by
            rintro rfl
            rw [hai, hbi] at hext
            exact hEq (Option.some.inj hext)
          exact hnmax c (hb.of_lt hc (by omega))
        obtain ⟨r, hr, hr₁, hr₂⟩ := ih next hnb (by omega) hnlow hmax'
        refine ⟨r, ?_, hr₁, hr₂⟩
        rw [← hr]
        simp [kmpFallback, hra, hrb, hEq, hrn, bind, Except.bind]

/-- Extending the longest extensible border gives the longest border of the next prefix. -/
private theorem longest_border_succ {needle : List UInt8} {i : Nat} {r : Int}
    (hr : r = -1 ∨ ∃ b : Nat, r = b ∧ IsBorder needle i b ∧ needle[i]? = needle[b]?)
    (hmax : ∀ c : Nat, IsBorder needle i c → needle[i]? = needle[c]? → (c : Int) ≤ r) :
    ∃ b : Nat, r + 1 = b ∧ IsLongestBorder needle (i + 1) b := by
  -- every border of the next prefix is empty or extends a border of this one
  have hle : ∀ c, IsBorder needle (i + 1) c → (c : Int) ≤ r + 1 := by
    intro c hc
    cases c with
    | zero => rcases hr with rfl | ⟨b, rfl, _⟩ <;> omega
    | succ c =>
      obtain ⟨hc', hext⟩ := isBorder_succ_succ.mp hc
      have := hmax c hc' hext
      omega
  rcases hr with rfl | ⟨b, rfl, hb, hext⟩
  · exact ⟨0, by omega, isBorder_zero _ (by omega), fun c hc => by have := hle c hc; omega⟩
  · refine ⟨b + 1, by omega, isBorder_succ_succ.mpr ⟨hb, hext⟩, fun c hc => ?_⟩
    have := hle c hc
    omega

/-- One pass of the outer loop extends a right table by one right entry. -/
private theorem BorderTable.snoc {needle : List UInt8} {borders : List Int} {i b : Nat}
    (htab : BorderTable needle borders i) (hb : IsLongestBorder needle (i + 1) b) :
    BorderTable needle (borders ++ [(b : Int)]) (i + 1) := by
  have hlen := htab.length_eq
  refine ⟨by simp [hlen], ?_, fun k h1 hk => ?_⟩
  · rw [List.getElem?_append_left (by omega)]
    exact htab.zero
  · rcases Nat.lt_or_ge k (i + 1) with hlt | hge
    · obtain ⟨c, hc, hlong⟩ := htab.entry k h1 (by omega)
      exact ⟨c, by rw [List.getElem?_append_left (by omega)]; exact hc, hlong⟩
    · obtain rfl : k = i + 1 := by omega
      refine ⟨b, ?_, hb⟩
      rw [List.getElem?_append_right (by omega)]
      simp [hlen]

private theorem kmpBordersLoop_spec {needle : List UInt8} :
    ∀ (fuel i : Nat) (j : Int) (borders : List Int), i ≤ needle.length →
      needle.length < fuel + i → BorderTable needle borders i →
      (borders[i]? = some j) →
      ∃ table, kmpBordersLoop needle fuel i j borders = .ok table ∧
        BorderTable needle table needle.length := by
  intro fuel
  induction fuel with
  | zero => intro i j borders hi hfuel; omega
  | succ fuel ih =>
    intro i j borders hi hfuel htab hj
    by_cases hlt : i < needle.length
    · -- what the loop knows about `j`: it is the last entry of the table
      have hjb : BorderOrNone needle i j ∧ -1 ≤ j ∧ j + 1 < needle.length + 1 ∧
          ∀ c : Nat, IsBorder needle i c → (c : Int) ≤ j := by
        rcases Nat.eq_zero_or_pos i with rfl | hpos
        · rw [htab.zero] at hj
          obtain rfl := Option.some.inj hj
          refine ⟨.inl rfl, by omega, by omega, fun c hc => ?_⟩
          have := hc.lt
          omega
        · obtain ⟨b, hb, hlong⟩ := htab.entry i hpos (Nat.le_refl i)
          rw [hb] at hj
          obtain rfl := Option.some.inj hj
          have := hlong.border.lt
          refine ⟨.inr ⟨b, rfl, hlong.border⟩, by omega, by omega, fun c hc => ?_⟩
          have := hlong.longest c hc
          omega
      obtain ⟨hbn, hlow, hfu, hmax⟩ := hjb
      -- the fallback finds the longest border that the next byte extends
      obtain ⟨r, hr, hr₁, hr₂⟩ :=
        kmpFallback_spec htab hlt (needle.length + 1) j hbn (by omega) hlow
          (fun c hc _ => hmax c hc)
      obtain ⟨b, hrb, hlong⟩ := longest_border_succ hr₁ hr₂
      have htab' := htab.snoc hlong
      obtain ⟨table, htable, hok⟩ := ih (i + 1) (r + 1) (borders ++ [r + 1]) hlt (by omega)
        (by rw [hrb]; exact htab')
        (by rw [List.getElem?_append_right (by have := htab.length_eq; omega)]
            simp [htab.length_eq])
      refine ⟨table, ?_, hok⟩
      rw [← htable]
      simp only [kmpBordersLoop]
      rw [if_pos (by exact_mod_cast hlt), hr]
      simp [bind, Except.bind]
    · -- the table is complete
      obtain rfl : i = needle.length := by omega
      refine ⟨borders, ?_, htab⟩
      simp only [kmpBordersLoop]
      rw [if_neg (by omega)]
      rfl

/-- **The border table is right**: the computation ends without an access outside the needle
    or the written part of the table, entry 0 is `-1`, and entry `k` is the length of the
    longest border of the prefix of length `k`. -/
theorem kmpBorders_spec (needle : List UInt8) :
    ∃ table, kmpBorders needle = .ok table ∧ BorderTable needle table needle.length := by
  have hstart : BorderTable needle [-1] 0 :=
    ⟨rfl, rfl, fun k h1 h0 => absurd h1 (by omega)⟩
  exact kmpBordersLoop_spec (needle.length + 1) 0 (-1) [-1] (Nat.zero_le _) (by omega) hstart rfl

/-! ## §3 The search -/

/-- No zero byte lies before position `k`. -/
def ZeroFreeUpTo (haystack : List UInt8) (k : Nat) : Prop :=
  ∀ m < k, haystack[m]? ≠ some 0

/-- What the outer loop of the search knows at its head. -/
structure SearchInv (haystack needle : List UInt8) (i j pos : Nat) : Prop where
  pos_eq : pos = i + j
  matched : MatchesUpTo needle haystack i j
  zeroFree : ZeroFreeUpTo haystack pos
  earlier : ∀ k < i, ¬ OccursAt needle haystack k

private theorem ZeroFreeUpTo.succ {haystack : List UInt8} {k : Nat}
    (h : ZeroFreeUpTo haystack k) (hk : haystack[k]? ≠ some 0) :
    ZeroFreeUpTo haystack (k + 1) := by
  intro m hm
  rcases Nat.lt_succ_iff_lt_or_eq.mp hm with hlt | rfl
  · exact h m hlt
  · exact hk

/-- The matching loop extends the match until the needle is exhausted, a zero byte is
    reached or the characters differ. -/
private theorem kmpMatchLoop_spec {haystack needle : List UInt8} {i : Nat}
    (hroom : i + needle.length ≤ haystack.length) :
    ∀ (fuel j pos : Nat), needle.length < fuel + j → j ≤ needle.length →
      SearchInv haystack needle i j pos →
      ∃ j' pos' : Nat, kmpMatchLoop haystack needle fuel j pos = .ok ((j' : Int), pos') ∧
        j' ≤ needle.length ∧ SearchInv haystack needle i j' pos' ∧
        (j' < needle.length →
          haystack[pos']? = some 0 ∨ haystack[pos']? ≠ needle[j']?) := by
  intro fuel
  -- induction on the fuel, which the length of the needle bounds
  induction fuel with
  | zero => intro j pos hfuel hj; omega
  | succ fuel ih =>
    intro j pos hfuel hj hinv
    rcases Nat.lt_or_ge j needle.length with hlt | hge
    · have hpos : pos < haystack.length := by have := hinv.pos_eq; omega
      have hc : haystack[pos]? = some haystack[pos] := List.getElem?_eq_getElem hpos
      have hd : needle[j]? = some needle[j] := List.getElem?_eq_getElem hlt
      have hrc : readAt haystack (pos : Int) = .ok haystack[pos] := readAt_eq_ok hc
      have hrd : readAt needle (j : Int) = .ok needle[j] := readAt_eq_ok hd
      by_cases hzero : haystack[pos] = 0
      · -- a zero byte ends the search
        refine ⟨j, pos, ?_, hj, hinv, fun _ => .inl (by rw [hc, hzero])⟩
        simp [kmpMatchLoop, hlt, hrc, hzero, bind, Except.bind, pure, Except.pure]
      by_cases hEq : needle[j] = haystack[pos]
      · -- the byte matches, and one more is compared
        have hinv' : SearchInv haystack needle i (j + 1) (pos + 1) := by
          have hp := hinv.pos_eq
          refine ⟨by omega, hinv.matched.succ ?_, hinv.zeroFree.succ ?_, hinv.earlier⟩
          · rw [← hp, hc, hd, hEq]
          · rw [hc]
            exact fun h => hzero (Option.some.inj h)
        obtain ⟨j', pos', hrun, hrest⟩ := ih (j + 1) (pos + 1) (by omega) hlt hinv'
        refine ⟨j', pos', ?_, hrest⟩
        rw [← hrun]
        simp [kmpMatchLoop, hlt, hrc, hrd, hzero, hEq, bind, Except.bind]
      · -- the byte does not match, and the loop is left
        refine ⟨j, pos, ?_, hj, hinv, fun _ => .inr ?_⟩
        · simp [kmpMatchLoop, hlt, hrc, hrd, hzero, hEq, bind, Except.bind, pure, Except.pure]
        · rw [hc, hd]
          exact fun h => hEq (Option.some.inj h).symm
    · obtain rfl : j = needle.length := by omega
      -- the needle is matched to its end
      refine ⟨needle.length, pos, ?_, Nat.le_refl _, hinv, fun h => absurd h (by omega)⟩
      simp [kmpMatchLoop, pure, Except.pure]

/-- A mismatch rules out the current position, so nothing occurs before the shifted one. -/
private theorem SearchInv.shift {haystack needle : List UInt8} {i j pos b : Nat}
    (hinv : SearchInv haystack needle i j pos) (hj : j < needle.length)
    (hmis : haystack[pos]? ≠ needle[j]?) (hb : IsLongestBorder needle j b) :
    SearchInv haystack needle (i + (j - b)) b pos := by
  have hlt := hb.border.lt
  have hp := hinv.pos_eq
  refine ⟨by omega, hb.border.match_shift hinv.matched, hinv.zeroFree, fun k hk hocc => ?_⟩
  rcases Nat.lt_trichotomy k i with hki | rfl | hki
  · exact hinv.earlier k hki hocc
  · apply hmis
    rw [hp]
    exact hocc j hj
  · exact hb.no_occurrence_between hinv.matched (Nat.le_of_lt hj) hki hk hocc

/-- The shifting loop moves the start forward to the next candidate. -/
private theorem kmpShiftLoop_spec {haystack needle : List UInt8} {borders : List Int}
    (htab : BorderTable needle borders needle.length) {pos : Nat}
    (hpos : pos < haystack.length) :
    ∀ (fuel i j : Nat), j < fuel → 0 < j → j < needle.length →
      SearchInv haystack needle i j pos → haystack[pos]? ≠ needle[j]? →
      ∃ i' j' : Nat, kmpShiftLoop haystack needle borders pos fuel i j =
          .ok ((i' : Int), (j' : Int)) ∧
        i < i' ∧ j' < needle.length ∧ SearchInv haystack needle i' j' pos := by
  intro fuel
  -- induction on the fuel; each shift goes to a shorter border
  induction fuel with
  | zero => intro i j hfuel; omega
  | succ fuel ih =>
    intro i j hfuel hj0 hj hinv hmis
    obtain ⟨b, hentry, hlong⟩ := htab.entry j hj0 (by omega)
    have hlt := hlong.border.lt
    have hrb : readAt borders (j : Int) = .ok (b : Int) := readAt_eq_ok hentry
    have hinv' := hinv.shift hj hmis hlong
    have hcast : (i : Int) + ((j : Int) - (b : Int)) = ((i + (j - b) : Nat) : Int) := by omega
    by_cases hb0 : 0 < b
    · have hc : haystack[pos]? = some haystack[pos] := List.getElem?_eq_getElem hpos
      have hd : needle[b]? = some needle[b] := List.getElem?_eq_getElem (by omega)
      have hrc : readAt haystack (pos : Int) = .ok haystack[pos] := readAt_eq_ok hc
      have hrd : readAt needle (b : Int) = .ok needle[b] := readAt_eq_ok hd
      by_cases hEq : needle[b] = haystack[pos]
      · -- the border goes on with the byte at hand
        refine ⟨i + (j - b), b, ?_, by omega, by omega, hinv'⟩
        rw [← hcast]
        simp [kmpShiftLoop, hrb, hb0, hrc, hrd, hEq, bind, Except.bind, pure, Except.pure]
      · -- the border does not continue either: shift again
        have hmis' : haystack[pos]? ≠ needle[b]? := by
          rw [hc, hd]
          exact fun h => hEq (Option.some.inj h).symm
        obtain ⟨i', j', hrun, hi', hrest⟩ :=
          ih (i + (j - b)) b (by omega) hb0 (by omega) hinv' hmis'
        refine ⟨i', j', ?_, by omega, hrest⟩
        rw [← hrun, ← hcast]
        simp [kmpShiftLoop, hrb, hb0, hrc, hrd, hEq, bind, Except.bind]
    · obtain rfl : b = 0 := by omega
      -- no border is left: the search starts again at this byte
      refine ⟨i + (j - 0), 0, ?_, by omega, by omega, hinv'⟩
      rw [← hcast]
      simp [kmpShiftLoop, hrb, bind, Except.bind, pure, Except.pure]

/-- An occurrence at `k` is one that the search sees: `max_index` is not negative, and no zero
    byte lies before its end. -/
def Visible (haystack needle : List UInt8) (k : Nat) : Prop :=
  haystack.length - needle.length < 2 ^ 31 ∧ ZeroFreeUpTo haystack (k + needle.length)

/-- No `int` of a search in so many bytes leaves its range: there are fewer than the needle has,
    or fewer than `2 ^ 31`, or `max_index` is negative and the loop is not entered. -/
def IndexInRange (haystackLength needleLength : Nat) : Prop :=
  haystackLength < needleLength ∨ haystackLength < 2 ^ 31 ∨
    2 ^ 31 ≤ haystackLength - needleLength

instance (haystackLength needleLength : Nat) :
    Decidable (IndexInRange haystackLength needleLength) :=
  inferInstanceAs (Decidable (_ ∨ _ ∨ _))

/-- The first occurrence is at `k`, and the search sees it. -/
def Seen (haystack needle : List UInt8) (k : Nat) : Prop :=
  IsFirstOccurrence needle haystack k ∧ Visible haystack needle k

/-- The search sees no occurrence. -/
def Unseen (haystack needle : List UInt8) : Prop :=
  ∀ k, k + needle.length ≤ haystack.length → OccursAt needle haystack k →
    ¬ Visible haystack needle k

theorem Seen.not_unseen {haystack needle : List UInt8} {k : Nat} (h : Seen haystack needle k) :
    ¬ Unseen haystack needle := by
  obtain ⟨hfirst, hvisible⟩ := h
  intro hunseen
  refine hunseen k ?_ hfirst.occurs hvisible
  rcases eq_or_ne needle [] with rfl | hne
  · rw [hfirst.eq_zero_of_nil]
    exact Nat.zero_le _
  · exact hfirst.occurs.length_le hne

/-- What a search result says: the first occurrence, which the search sees, or `-1` when it sees
    none. -/
def SearchResult (haystack needle : List UInt8) (r : Int) : Prop :=
  (∃ k : Nat, r = k ∧ Seen haystack needle k) ∨ (r = -1 ∧ Unseen haystack needle)

/-- With `max_index` as the code means it, the loop ends with the answer. -/
private theorem kmpSearchLoop_spec {haystack needle : List UInt8} {borders : List Int}
    (htab : BorderTable needle borders needle.length)
    (hindex : haystack.length - needle.length < 2 ^ 31) :
    ∀ (fuel i j pos : Nat), haystack.length + 1 - (i + needle.length) < fuel →
      j ≤ needle.length → SearchInv haystack needle i j pos →
      ∃ r, kmpSearchLoop haystack needle borders (haystack.length - needle.length)
          fuel i j pos = .ok r ∧ SearchResult haystack needle r := by
  intro fuel
  induction fuel with
  | zero => intro i j pos hfuel; omega
  | succ fuel ih =>
    intro i j pos hfuel hj hinv
    by_cases hin : i + needle.length ≤ haystack.length
    · have hguard : (i : Int) ≤ (haystack.length : Int) - (needle.length : Int) := by omega
      obtain ⟨j', pos', hrun, hj', hinv', hstop⟩ :=
        kmpMatchLoop_spec hin (needle.length + 1) j pos (by omega) hj hinv
      have hp := hinv'.pos_eq
      rcases Nat.lt_or_ge j' needle.length with hlt | hge
      · have hpos' : pos' < haystack.length := by omega
        have hc : haystack[pos']? = some haystack[pos'] := List.getElem?_eq_getElem hpos'
        have hrc : readAt haystack (pos' : Int) = .ok haystack[pos'] := readAt_eq_ok hc
        have hne : ¬ (j' : Int) = (needle.length : Int) := by omega
        by_cases hzero : haystack[pos'] = 0
        · -- a zero byte: every remaining occurrence would have to cross it
          refine ⟨-1, ?_, .inr ⟨rfl, fun k hk hocc hvisible => ?_⟩⟩
          · simp [kmpSearchLoop, hguard, hrun, hne, hrc, hzero, bind, Except.bind, pure,
              Except.pure]
          · rcases Nat.lt_or_ge k i with hki | hki
            · exact hinv'.earlier k hki hocc
            · exact hvisible.2 pos' (by omega) (by rw [hc, hzero])
        · have hmis : haystack[pos']? ≠ needle[j']? := by
            rcases hstop hlt with h | h
            · rw [hc] at h
              exact absurd (Option.some.inj h) hzero
            · exact h
          rcases Nat.eq_zero_or_pos j' with rfl | hj0
          · -- nothing matched: move both the start and the reading position
            have hnext : SearchInv haystack needle (i + 1) 0 (pos' + 1) := by
              refine ⟨by omega, matchesUpTo_zero _ _ _, hinv'.zeroFree.succ ?_, ?_⟩
              · rw [hc]
                exact fun h => hzero (Option.some.inj h)
              · intro k hk hocc
                rcases Nat.lt_succ_iff_lt_or_eq.mp hk with hki | rfl
                · exact hinv'.earlier k hki hocc
                · apply hmis
                  rw [hp]
                  exact hocc 0 hlt
            obtain ⟨r, hr, hres⟩ := ih (i + 1) 0 (pos' + 1) (by omega) (by omega) hnext
            refine ⟨r, ?_, hres⟩
            rw [← hr]
            have hne0 : ¬ (0 : Int) = (needle.length : Int) := by omega
            have hrun0 : kmpMatchLoop haystack needle (needle.length + 1) j pos =
                .ok (0, pos') := by rw [hrun]; rfl
            simp [kmpSearchLoop, hguard, hrun0, hne0, hrc, hzero, bind, Except.bind]
          · obtain ⟨i', j'', hshift, hi', hj'', hnext⟩ :=
              kmpShiftLoop_spec htab hpos' (needle.length + 1) i j' (by omega) hj0 hlt hinv' hmis
            obtain ⟨r, hr, hres⟩ := ih i' j'' pos' (by omega) (by omega) hnext
            refine ⟨r, ?_, hres⟩
            rw [← hr]
            have hne0 : j' ≠ 0 := by omega
            simp [kmpSearchLoop, hguard, hrun, hne, hrc, hzero, hne0, hshift, bind, Except.bind]
      · -- the whole needle is matched
        obtain rfl : j' = needle.length := by omega
        refine ⟨i, ?_, .inl ⟨i, rfl, ⟨hinv'.matched, hinv'.earlier⟩, hindex, ?_⟩⟩
        · have hres : ((pos' : Nat) : Int) - (needle.length : Int) = i := by omega
          simp [kmpSearchLoop, hguard, hrun, hres, bind, Except.bind, pure, Except.pure]
        · rw [← hp]
          exact hinv'.zeroFree
    · -- no room left for the needle
      have hguard : ¬ (i : Int) ≤ (haystack.length : Int) - (needle.length : Int) := by omega
      refine ⟨-1, ?_, .inr ⟨rfl, fun k hk hocc _ => ?_⟩⟩
      · simp [kmpSearchLoop, hguard, pure, Except.pure]
      · exact hinv.earlier k (by omega) hocc

theorem castInt_eq {n : Nat} (h : n < 2 ^ 31) : castInt n = n :=
  Int.bmod_eq_of_le (by omega) (by omega)

theorem castInt_neg {n : Nat} (hlow : 2 ^ 31 ≤ n) (hhigh : n < 2 ^ 32) : castInt n < 0 := by
  have hshift : castInt n = (n : Int) - 2 ^ 32 := by
    unfold castInt
    rw [← Int.sub_bmod_right]
    exact Int.bmod_eq_of_le (by omega) (by omega)
  omega

/-- With a negative `max_index` the answer is `-1` at once. -/
theorem kmpSearch_of_large {haystack needle : List UInt8} {borders : List Int}
    (hlarge : 2 ^ 31 ≤ haystack.length - needle.length) (hlength : haystack.length < 2 ^ 32) :
    kmpSearch haystack needle borders = .ok (-1) := by
  have hindex : castInt ((haystack.length : Int) - needle.length) < 0 := by
    rw [← Int.ofNat_sub (by omega)]
    exact castInt_neg hlarge (by omega)
  unfold kmpSearch
  rw [kmpSearchLoop, if_neg (by omega)]
  rfl

/-- `kmp_search` with a right table. -/
theorem kmpSearch_spec {haystack needle : List UInt8} {borders : List Int}
    (htable : BorderTable needle borders needle.length) (hle : needle.length ≤ haystack.length)
    (hlength : haystack.length < 2 ^ 32) :
    ∃ r, kmpSearch haystack needle borders = .ok r ∧ SearchResult haystack needle r := by
  by_cases hindex : haystack.length - needle.length < 2 ^ 31
  · have hstart : SearchInv haystack needle 0 0 0 :=
      ⟨rfl, matchesUpTo_zero _ _ _, fun m hm => absurd hm (Nat.not_lt_zero m),
        fun k hk => absurd hk (Nat.not_lt_zero k)⟩
    have hcast : castInt ((haystack.length : Int) - needle.length) =
        haystack.length - needle.length := by
      rw [← Int.ofNat_sub hle]
      exact castInt_eq hindex
    unfold kmpSearch
    rw [hcast]
    exact kmpSearchLoop_spec htable hindex (haystack.length + 2) 0 0 0 (by omega) (by omega) hstart
  · have hlarge : 2 ^ 31 ≤ haystack.length - needle.length := Nat.le_of_not_lt hindex
    exact ⟨-1, kmpSearch_of_large hlarge hlength,
      .inr ⟨rfl, fun _ _ _ hvisible => hindex hvisible.1⟩⟩

/-- **What `commutil_strnstr` computes** on fewer than `2 ^ 32` bytes: it returns, and the result
    is the first occurrence of the needle if that is one the search sees, and `-1` if it sees
    none. -/
theorem commutilStrnstr_spec (haystack needle : List UInt8) (hlength : haystack.length < 2 ^ 32) :
    ∃ r, commutilStrnstr haystack needle = .ok r ∧ SearchResult haystack needle r := by
  by_cases hlt : haystack.length < needle.length
  · refine ⟨-1, ?_, .inr ⟨rfl, fun k hk _ => absurd hk (by omega)⟩⟩
    simp [commutilStrnstr, hlt, pure, Except.pure]
  · obtain ⟨table, htable, htab⟩ := kmpBorders_spec needle
    obtain ⟨r, hr, hres⟩ := kmpSearch_spec htab (Nat.le_of_not_lt hlt) hlength
    refine ⟨r, ?_, hres⟩
    simp only [commutilStrnstr, hlt, if_false, htable]
    exact hr

theorem commutilStrnstr_eq_neg_iff {haystack needle : List UInt8}
    (hlength : haystack.length < 2 ^ 32) :
    commutilStrnstr haystack needle = .ok (-1) ↔ Unseen haystack needle := by
  obtain ⟨r, hrun, ⟨k, rfl, hseen⟩ | ⟨rfl, hunseen⟩⟩ :=
    commutilStrnstr_spec haystack needle hlength
  · refine iff_of_false (fun h => ?_) hseen.not_unseen
    rw [hrun] at h
    have := Except.ok.inj h
    omega
  · exact iff_of_true hrun hunseen

/-! ## §4 The contract -/

/-- What the comment on the declaration promises: the first occurrence, `-1` if there is none. -/
def FirstOrNone (text needle : List UInt8) (r : Int) : Prop :=
  (∃ k : Nat, r = k ∧ IsFirstOccurrence needle text k) ∨ (r = -1 ∧ ∀ k, ¬ OccursAt needle text k)

/-- The part of the haystack before its first zero byte. -/
def beforeZero (haystack : List UInt8) : List UInt8 := haystack.takeWhile (· ≠ 0)

theorem beforeZero_length_le (haystack : List UInt8) :
    (beforeZero haystack).length ≤ haystack.length :=
  (List.takeWhile_prefix _).length_le

theorem zeroFreeUpTo_iff {haystack : List UInt8} {k : Nat} (hk : k ≤ haystack.length) :
    ZeroFreeUpTo haystack k ↔ k ≤ (beforeZero haystack).length := by
  induction haystack generalizing k with
  | nil =>
    obtain rfl : k = 0 := by simpa using hk
    exact iff_of_true (fun m hm => absurd hm (Nat.not_lt_zero m)) (Nat.zero_le _)
  | cons c haystack ih =>
    cases k with
    | zero => exact iff_of_true (fun m hm => absurd hm (Nat.not_lt_zero m)) (Nat.zero_le _)
    | succ k =>
      by_cases hc : c = 0
      · subst hc
        refine iff_of_false (fun hfree => hfree 0 (Nat.succ_pos k) rfl) ?_
        simp [beforeZero]
      · have htail : (beforeZero (c :: haystack)).length = (beforeZero haystack).length + 1 := by
          simp [beforeZero, hc]
        rw [htail, Nat.add_le_add_iff_right, ← ih (by simpa using hk)]
        constructor
        · intro hfree m hm
          exact hfree (m + 1) (by omega)
        · intro hfree m hm
          cases m with
          | zero => simpa using hc
          | succ m => exact hfree m (by omega)

/-- Inside the part before the first zero byte the occurrences are those of the haystack. -/
theorem occursAt_beforeZero {haystack needle : List UInt8} {k : Nat}
    (h : k + needle.length ≤ (beforeZero haystack).length) :
    OccursAt needle (beforeZero haystack) k ↔ OccursAt needle haystack k := by
  have hsplit := List.takeWhile_append_dropWhile (p := (· ≠ 0)) (l := haystack)
  rw [← occursAt_append_left h]
  exact iff_of_eq (congrArg (fun t => OccursAt needle t k) hsplit)

/-- The search is the plain search in the part before the first zero byte. -/
theorem SearchResult.firstOrNone {haystack needle : List UInt8} {r : Int}
    (h : SearchResult haystack needle r)
    (hindex : haystack.length - needle.length < 2 ^ 31) :
    FirstOrNone (beforeZero haystack) needle r := by
  rcases h with ⟨k, rfl, hfirst, -, hfree⟩ | ⟨rfl, hnone⟩
  · have hroom : k + needle.length ≤ haystack.length := by
      rcases eq_or_ne needle [] with rfl | hne
      · rw [hfirst.eq_zero_of_nil]
        exact Nat.zero_le _
      · exact hfirst.occurs.length_le hne
    have hbefore := (zeroFreeUpTo_iff hroom).mp hfree
    refine .inl ⟨k, rfl, (occursAt_beforeZero hbefore).mpr hfirst.occurs, fun m hm hocc => ?_⟩
    exact hfirst.first m hm ((occursAt_beforeZero (by omega)).mp hocc)
  · refine .inr ⟨rfl, fun k hocc => ?_⟩
    -- an empty needle would have been found at the beginning
    rcases eq_or_ne needle [] with rfl | hne
    · exact hnone 0 (Nat.zero_le _) (matchesUpTo_zero _ _ _)
        ⟨hindex, fun m hm => absurd hm (Nat.not_lt_zero m)⟩
    · have hbefore := hocc.length_le hne
      have hroom := Nat.le_trans hbefore (beforeZero_length_le haystack)
      exact hnone k hroom ((occursAt_beforeZero hbefore).mp hocc)
        ⟨hindex, (zeroFreeUpTo_iff hroom).mpr hbefore⟩

/-- **The border table**: the computation ends without an access outside the needle or the
    table, entry 0 is `-1`, and entry `k` is the length of the longest proper prefix of the
    first `k` characters that is a suffix of them. -/
theorem kmpBorders_longest (needle : List UInt8) :
    ∃ borders, kmpBorders needle = .ok borders ∧ borders.length = needle.length + 1 ∧
      borders[0]? = some (-1) ∧
      ∀ k, 1 ≤ k → k ≤ needle.length → ∃ b : Nat, borders[k]? = some (b : Int) ∧
        (b < k ∧ needle.take b <:+ needle.take k) ∧
        ∀ c < k, needle.take c <:+ needle.take k → c ≤ b := by
  obtain ⟨borders, hrun, htable⟩ := kmpBorders_spec needle
  refine ⟨borders, hrun, htable.length_eq, htable.zero, fun k hpos hk => ?_⟩
  obtain ⟨b, hentry, hlong⟩ := htable.entry k hpos hk
  refine ⟨b, hentry, (isBorder_iff_suffix hk).mp hlong.border, fun c hc hsuffix => ?_⟩
  exact hlong.longest c ((isBorder_iff_suffix hk).mpr ⟨hc, hsuffix⟩)

/-- **The search** with the table of its needle, in fewer than `2 ^ 31` bytes, ends without an
    access outside the haystack, the needle or the table, and is the plain search in the part of
    the haystack before its first zero byte. -/
theorem kmpSearch_plain (haystack needle : List UInt8) (hle : needle.length ≤ haystack.length)
    (hlength : haystack.length < 2 ^ 31) :
    ∃ borders r, kmpBorders needle = .ok borders ∧ kmpSearch haystack needle borders = .ok r ∧
      FirstOrNone (beforeZero haystack) needle r := by
  obtain ⟨borders, hborders, htable⟩ := kmpBorders_spec needle
  obtain ⟨r, hrun, hresult⟩ := kmpSearch_spec htable hle (by omega)
  exact ⟨borders, r, hborders, hrun, hresult.firstOrNone (by omega)⟩

/-- A search that shifts by a border of its needle. -/
theorem kmpSearch_plain_shifted :
    ∃ borders r, kmpBorders [1, 2, 1, 3] = .ok borders ∧
      kmpSearch [1, 2, 1, 2, 1, 3, 0] [1, 2, 1, 3] borders = .ok r ∧
      FirstOrNone (beforeZero [1, 2, 1, 2, 1, 3, 0]) [1, 2, 1, 3] r :=
  kmpSearch_plain [1, 2, 1, 2, 1, 3, 0] [1, 2, 1, 3] (by decide) (by decide)

/-- **Binary data**: in fewer than `2 ^ 31` bytes, `commutil_strnstr` keeps its promise exactly if
    a needle that occurs in the haystack occurs before the first zero byte of it. -/
theorem commutilStrnstr_contract_iff (haystack needle : List UInt8)
    (hlength : haystack.length < 2 ^ 31) :
    (∃ r, commutilStrnstr haystack needle = .ok r ∧ FirstOrNone haystack needle r) ↔
      ((∃ k, OccursAt needle haystack k) → ∃ k, OccursAt needle (beforeZero haystack) k) := by
  obtain ⟨r, hrun, hresult⟩ := commutilStrnstr_spec haystack needle (by omega)
  have hplain := hresult.firstOrNone (by omega)
  constructor
  · rintro ⟨r', hrun', hcontract⟩ ⟨k, hocc⟩
    obtain rfl : r = r' := Except.ok.inj (hrun.symm.trans hrun')
    rcases hplain with ⟨k', -, hfirst⟩ | ⟨rfl, -⟩
    · exact ⟨k', hfirst.occurs⟩
    · -- the result says that there is no occurrence
      rcases hcontract with ⟨k', hk', -⟩ | ⟨-, hnone⟩
      · omega
      · exact absurd hocc (hnone k)
  · intro hbefore
    refine ⟨r, hrun, ?_⟩
    rcases hresult with ⟨k, rfl, hfirst, -⟩ | ⟨rfl, -⟩
    · exact .inl ⟨k, rfl, hfirst⟩
    · refine .inr ⟨rfl, fun k hocc => ?_⟩
      obtain ⟨k', hocc'⟩ := hbefore ⟨k, hocc⟩
      rcases hplain with ⟨_, hk, -⟩ | ⟨-, hnone⟩
      · omega
      · exact hnone k' hocc'

/-- A haystack with a zero byte behind the needle. -/
theorem commutilStrnstr_contract_before_zero :
    (∃ r, commutilStrnstr [5, 1, 2, 0, 1] [1, 2] = .ok r ∧
        FirstOrNone [5, 1, 2, 0, 1] [1, 2] r) ↔
      ((∃ k, OccursAt [1, 2] [(5 : UInt8), 1, 2, 0, 1] k) →
        ∃ k, OccursAt [1, 2] (beforeZero [5, 1, 2, 0, 1]) k) :=
  commutilStrnstr_contract_iff [5, 1, 2, 0, 1] [1, 2] (by decide)

/-- A needle behind a zero byte is not found. -/
theorem needle_behind_zero_missed :
    ¬ ∃ r, commutilStrnstr [0, 1] [1] = .ok r ∧ FirstOrNone [0, 1] [1] r := by
  rintro ⟨r, hrun, hcontract⟩
  have hmissed : commutilStrnstr [0, 1] [1] = .ok (-1) := by decide
  obtain rfl : -1 = r := Except.ok.inj (hmissed.symm.trans hrun)
  have hocc : OccursAt [1] [(0 : UInt8), 1] 1 := by
    intro m hm
    obtain rfl : m = 0 := by simpa using hm
    rfl
  rcases hcontract with ⟨k, hk, -⟩ | ⟨-, hnone⟩
  · omega
  · exact hnone 1 hocc

end Commutil.Common
