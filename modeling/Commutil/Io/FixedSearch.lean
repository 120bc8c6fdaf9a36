import Commutil.Common.KmpSearch
import Commutil.Io.Streams

/-!
# The Search of a Fixed Stream

`FixedInputStream::searchBytes`.  The search starts at the beginning of the buffer, not at the
read position, and looks at as many bytes as are unread.  What it finds there is skipped from
the read position.  Without a find everything is skipped: the suffix that could begin the
pattern is computed, but it is not what the skip gets.  With `2 ^ 31` bytes more than the
pattern has, nothing is found.

`fixed_search_contract_iff` says for which buffers the contract of `fixed_input_stream.h` is
met nevertheless.
-/

namespace Commutil.Io.FixedInputStream

open Commutil.Common Commutil.Library

/-! ## §1 The code -/

/-- The loop over the last `length` bytes of the searched part, from `offset` on with `left`
    bytes to go. -/
def partialMatchOffset (is : FixedInputStream) (pattern : List UInt8) :
    (left : Nat) → (offset : Nat) → Except Fault Nat
  | 0, offset => .ok offset
  | left + 1, offset => do
    if ← strncmpEq (is.m_buf.drop offset) pattern (left + 1) then pure offset
    else is.partialMatchOffset pattern left (offset + 1)

/-- `FixedInputStream::searchBytes`. -/
def searchBytes (is : FixedInputStream) (pattern : List UInt8) :
    Except Fault (ErrorCode × FixedInputStream) :=
  let bufLen := is.size
  if bufLen < pattern.length then
    pure (.endOfStream, is)
  else do
    let res ← commutilStrnstr (is.m_buf.take bufLen) pattern
    if 0 ≤ res then
      let (rc, is) := is.skipBytes (res % 2 ^ 32).toNat
      if rc ≠ .ok then pure (.internalError, is) else pure (.ok, is)
    else
      let _offset ← is.partialMatchOffset pattern pattern.length (bufLen - pattern.length)
      -- `(uint32_t)res` once more, and not the offset
      let (rc, is) := is.skipBytes (res % 2 ^ 32).toNat
      if rc ≠ .ok then pure (.internalError, is) else pure (.endOfStream, is)

/-! ## §2 The contract -/

/-- The bytes from `n` on are the longest suffix that is a proper prefix of the pattern. -/
structure LongestPartial (pattern text : List UInt8) (n : Nat) : Prop where
  le : n ≤ text.length
  begins : text.drop n <+: pattern
  proper : text.length - n < pattern.length
  longest : ∀ m < n, text.length - m < pattern.length → ¬ text.drop m <+: pattern

/-- The search answers `E_OK` at the first occurrence in the unread bytes, or, if there is none,
    `E_END_OF_STREAM` with the longest suffix that begins the pattern. -/
def MeetsContract (is : FixedInputStream) (pattern : List UInt8) : Prop :=
  ∃ rc is', is.searchBytes pattern = .ok (rc, is') ∧
    ((∃ k, IsFirstOccurrence pattern is.unread k ∧ rc = .ok ∧ is' = is.advance k) ∨
      (∀ k, ¬ OccursAt pattern is.unread k) ∧ rc = .endOfStream ∧
        ∃ n, LongestPartial pattern is.unread n ∧ is' = is.advance n)

/-- The part of the buffer in which the search finds something: as many bytes from its beginning
    as are unread, up to a zero byte, and none of them when `max_index` is negative. -/
def searched (is : FixedInputStream) (pattern : List UInt8) : List UInt8 :=
  if is.size - pattern.length < 2 ^ 31 then beforeZero (is.m_buf.take is.size) else []

/-- The unread bytes look to the search as they are. -/
def SearchFits (is : FixedInputStream) (pattern : List UInt8) : Prop :=
  if is.size < pattern.length then
    is.unread <+: pattern
  else
    (∃ k, IsFirstOccurrence pattern (is.searched pattern) k ∧ IsFirstOccurrence pattern is.unread k) ∨
      (∀ k, ¬ OccursAt pattern (is.searched pattern) k) ∧ (∀ k, ¬ OccursAt pattern is.unread k) ∧
        ∀ m < is.size, is.size - m < pattern.length → ¬ is.unread.drop m <+: pattern

/-! ## §3 What the search does -/

variable {is : FixedInputStream} {pattern : List UInt8}

theorem advance_inj {m n : Nat} (h : is.advance m = is.advance n) : m = n :=
  Nat.add_left_cancel (congrArg m_offset h)

/-- A pattern that is not empty does not occur in fewer bytes than it has. -/
theorem not_occursAt_of_short {text : List UInt8} (hne : pattern ≠ [])
    (hshort : text.length < pattern.length) (k : Nat) : ¬ OccursAt pattern text k := by
  intro hocc
  have := hocc.length_le hne
  omega

/-- The comparisons stay within the bytes that are there. -/
theorem partialMatchOffset_total (is : FixedInputStream) {pattern : List UInt8} (left : Nat)
    (offset : Nat) (hbuf : offset + left ≤ is.m_buf.length) (hleft : left ≤ pattern.length) :
    ∃ o, is.partialMatchOffset pattern left offset = .ok o := by
  induction left generalizing offset with
  | zero => exact ⟨offset, rfl⟩
  | succ left ih =>
    obtain ⟨r, hr⟩ := @strncmpEq_total (is.m_buf.drop offset) pattern (left + 1)
      (by rw [List.length_drop]; omega) hleft
    obtain ⟨o, ho⟩ := ih (offset + 1) (by omega) (by omega)
    simp only [partialMatchOffset, hr, ho, bind, Except.bind, pure, Except.pure]
    cases r with
    | true => exact ⟨offset, rfl⟩
    | false => exact ⟨o, rfl⟩

/-- The searched bytes, whether `max_index` is negative or not. -/
theorem firstOrNone_searched {res : Int} (hne : pattern ≠ [])
    (hsize : is.size ≤ is.m_buf.length)
    (h : SearchResult (is.m_buf.take is.size) pattern res) :
    FirstOrNone (is.searched pattern) pattern res := by
  have hlength : (is.m_buf.take is.size).length = is.size := List.length_take_of_le hsize
  unfold FixedInputStream.searched
  split
  · rename_i hindex
    exact h.firstOrNone (by rw [hlength]; exact hindex)
  · rename_i hindex
    rcases h with ⟨k, -, -, hvisible, -⟩ | ⟨rfl, -⟩
    · rw [hlength] at hvisible
      exact absurd hvisible hindex
    · refine .inr ⟨rfl, fun k => not_occursAt_of_short hne ?_ k⟩
      exact List.length_pos_iff.mpr hne

theorem searchBytes_short (hshort : is.size < pattern.length) :
    is.searchBytes pattern = .ok (.endOfStream, is) :=
  if_pos hshort

theorem searched_length_le : (is.searched pattern).length ≤ is.size := by
  unfold searched
  split
  · exact Nat.le_trans (beforeZero_length_le _) (List.length_take_le _ _)
  · exact Nat.zero_le _

/-- With enough bytes the answer is the one for the searched part; a find is skipped to, and
    without one everything is skipped. -/
theorem searchBytes_cases (hbuf : is.m_buf.length < 2 ^ 32) (hne : pattern ≠ [])
    (henough : ¬ is.size < pattern.length) :
    (∃ k, IsFirstOccurrence pattern (is.searched pattern) k ∧
      is.searchBytes pattern = .ok (.ok, is.advance k)) ∨
    ((∀ k, ¬ OccursAt pattern (is.searched pattern) k) ∧
      is.searchBytes pattern = .ok (.endOfStream, is.advance is.size)) := by
  have hpos : 0 < pattern.length := List.length_pos_iff.mpr hne
  have hsize : is.size ≤ is.m_buf.length := Nat.sub_le _ _
  obtain ⟨res, hrun, hresult⟩ := commutilStrnstr_spec (is.m_buf.take is.size) pattern
    (by rw [List.length_take_of_le hsize]; omega)
  obtain ⟨o, ho⟩ := @partialMatchOffset_total is pattern pattern.length
    (is.size - pattern.length) (by omega) (Nat.le_refl _)
  have hskip : ∀ n, is.skipBytes n = (.ok, is.advance (min n is.size)) :=
    fun n => if_neg (by omega)
  unfold searchBytes
  simp only [if_neg henough, hrun, ho, bind, Except.bind, hskip, ne_eq, not_true, if_false]
  rcases firstOrNone_searched hne hsize hresult with ⟨k, rfl, hfirst⟩ | ⟨rfl, hnone⟩
  · have hroom := hfirst.occurs.length_le hne
    have hlength := @searched_length_le is pattern
    have hcast : ((k : Int) % 2 ^ 32).toNat = k := by omega
    refine .inl ⟨k, hfirst, ?_⟩
    rw [if_pos (Int.natCast_nonneg k), hcast, Nat.min_eq_left (by omega)]
    rfl
  · have hcast : ((-1 : Int) % 2 ^ 32).toNat = 2 ^ 32 - 1 := rfl
    refine .inr ⟨hnone, ?_⟩
    rw [if_neg (by decide), hcast, Nat.min_eq_right (by omega)]
    rfl

/-- Nothing is left of the bytes exactly if no suffix of them begins the pattern. -/
theorem longestPartial_length_iff {text : List UInt8} (hne : pattern ≠ []) :
    LongestPartial pattern text text.length ↔
      ∀ m < text.length, text.length - m < pattern.length → ¬ text.drop m <+: pattern := by
  constructor
  · exact fun h => h.longest
  · intro hall
    refine ⟨Nat.le_refl _, ?_, ?_, hall⟩
    · rw [List.drop_length]
      exact List.nil_prefix
    · rw [Nat.sub_self]
      exact List.length_pos_iff.mpr hne

/-- **The search of a fixed stream** meets its contract exactly if the unread bytes look to it as
    they are: with fewer of them than the pattern has they begin the pattern; otherwise the
    searched part of the buffer has its first occurrence where they have theirs, or neither has
    one and no suffix of them begins the pattern.  The `int`s of the search are to stay in their
    range. -/
theorem fixed_search_contract_iff (is : FixedInputStream) (hbuf : is.m_buf.length < 2 ^ 32)
    (pattern : List UInt8) (hne : pattern ≠ []) (_hindex : IndexInRange is.size pattern.length) :
    is.MeetsContract pattern ↔ is.SearchFits pattern := by
  have hlength : is.unread.length = is.size := unread_length is
  unfold SearchFits
  by_cases hshort : is.size < pattern.length
  · -- fewer bytes than the pattern has: they are all left
    have hnone := not_occursAt_of_short hne (hlength ▸ hshort)
    rw [if_pos hshort]
    constructor
    · rintro ⟨rc, is', hrun, hanswer⟩
      rw [searchBytes_short hshort] at hrun
      cases hrun
      rcases hanswer with ⟨k, hfirst, -⟩ | ⟨-, -, n, hpartial, hn⟩
      · exact absurd hfirst.occurs (hnone k)
      · obtain rfl : 0 = n := advance_inj hn
        exact hpartial.begins
    · intro hbegins
      refine ⟨_, _, searchBytes_short hshort, .inr ⟨hnone, rfl, 0, ?_, rfl⟩⟩
      refine ⟨Nat.zero_le _, hbegins, ?_, fun m hm => absurd hm (Nat.not_lt_zero m)⟩
      rw [hlength]
      exact hshort
  · rw [if_neg hshort, ← hlength, ← longestPartial_length_iff hne]
    rcases searchBytes_cases hbuf hne hshort with ⟨k, hfound, hrun⟩ | ⟨hnone, hrun⟩
    · constructor
      · rintro ⟨rc, is', hrun', hanswer⟩
        rw [hrun] at hrun'
        cases hrun'
        rcases hanswer with ⟨k', hfirst, -, hk⟩ | ⟨-, hrc, -⟩
        · obtain rfl : k = k' := advance_inj hk
          exact .inl ⟨k, hfound, hfirst⟩
        · cases hrc
      · rintro (⟨k', hfound', hfirst⟩ | ⟨hnone, -⟩)
        · obtain rfl := hfound.unique hfound'
          exact ⟨_, _, hrun, .inl ⟨k, hfirst, rfl, rfl⟩⟩
        · exact absurd hfound.occurs (hnone k)
    · constructor
      · rintro ⟨rc, is', hrun', hanswer⟩
        rw [hrun] at hrun'
        cases hrun'
        rcases hanswer with ⟨k, -, hrc, -⟩ | ⟨hunread, -, n, hpartial, hn⟩
        · cases hrc
        · obtain rfl : is.size = n := advance_inj hn
          exact .inr ⟨hnone, hunread, hlength ▸ hpartial⟩
      · rintro (⟨k, hfound, -⟩ | ⟨-, hunread, hpartial⟩)
        · exact absurd hfound.occurs (hnone k)
        · exact ⟨_, _, hrun, .inr ⟨hunread, rfl, _, hpartial, by rw [hlength]⟩⟩

/-- A stream that has been read from, and looks to the search as it is. -/
theorem fixed_search_contract_repeated :
    MeetsContract ⟨.hostOrder, [1, 1, 2], 1⟩ [1] := by
  have hfirst : ∀ text : List UInt8, text[0]? = some 1 → IsFirstOccurrence [1] text 0 := by
    intro text htext
    refine ⟨fun m hm => ?_, fun k hk => absurd hk (Nat.not_lt_zero k)⟩
    obtain rfl : m = 0 := by simpa using hm
    exact htext
  refine (fixed_search_contract_iff _ (by decide) [1] (by decide) (by decide)).mpr ?_
  exact .inl ⟨0, hfirst _ (by decide), hfirst _ (by decide)⟩

/-- A pattern that has been read is found again, where it no longer is. -/
theorem read_pattern_found_again :
    ¬ MeetsContract ⟨.hostOrder, [1, 2], 1⟩ [1] := by
  rintro ⟨rc, is', hrun, hanswer⟩
  have hfound : (⟨.hostOrder, [1, 2], 1⟩ : FixedInputStream).searchBytes [1] =
      .ok (.ok, ⟨.hostOrder, [1, 2], 1⟩) := by decide
  rw [hfound] at hrun
  cases hrun
  rcases hanswer with ⟨k, hfirst, -, hk⟩ | ⟨-, hrc, -⟩
  · obtain rfl : k = 0 := Nat.add_left_cancel (congrArg m_offset hk).symm
    exact absurd (hfirst.occurs 0 (by decide)) (by decide)
  · cases hrc

end Commutil.Io.FixedInputStream
