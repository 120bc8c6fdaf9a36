import Commutil.Common.StringCopy
import Commutil.Library.Refinement

/-!
# The Log Buffer

`log_buffer.h` and `log_buffer.cpp`: a text in a fixed buffer that moves to a dynamic one when it
grows, with every access checked.

The room is checked for the characters of a text but not for its terminator, so that a text that
ends where the buffer ends is cut, refused or left without a terminator.  `reset` keeps the offset.
The copy out of the fixed buffer ends at the first zero byte.  `Careful` is what keeps a call away
from all this, and `log_buffer_lossless` says that such calls lose nothing.

Memory holds arbitrary bytes before it is written: `junk`.
-/

namespace Commutil.Logging

open Commutil.Common Commutil.Library

/-! ## §1 The code -/

/-- `COMMUTIL_LOG_BUFFER_SIZE`. -/
def COMMUTIL_LOG_BUFFER_SIZE : Nat := 1024

/-- `COMMUTIL_MAX_BUFFER_SIZE`. -/
def COMMUTIL_MAX_BUFFER_SIZE : Nat := 16 * 1024

/-- `class LogBuffer`. -/
structure LogBuffer where
  m_fixedBuffer : List UInt8
  m_dynamicBuffer : Option (List UInt8)
  m_bufferSize : Nat
  m_offset : Nat
  m_bufferFull : Bool
  deriving DecidableEq, Repr

/-- What new memory happens to hold. -/
def freshBytes (junk : Nat → UInt8) (size : Nat) : List UInt8 := (List.range size).map junk

/-- `realloc` to a larger size. -/
def realloc (junk : Nat → UInt8) (old : List UInt8) (size : Nat) : List UInt8 :=
  old ++ (freshBytes junk size).drop old.length

/-- `vsnprintf` of a formatted text: the length of the text, whatever was written of it. -/
def vsnprintf (mem : List UInt8) (dest size : Nat) (text : List UInt8) :
    Except Fault (Nat × List UInt8) :=
  -- nothing is written, not even a terminator
  if size = 0 then pure (text.length, mem)
  else do
    let mem ← storeBytes mem dest (text.take (size - 1) ++ [0])
    pure (text.length, mem)

/-- `while (actualNewSize < newSize) actualNewSize *= 2;` -/
def doubleTo (newSize : Nat) : (left : Nat) → (size : Nat) → Nat
  | 0, size => size
  | left + 1, size => if size < newSize then doubleTo newSize left (size * 2) else size

namespace LogBuffer

/-- A new buffer. -/
def new (junk : Nat → UInt8) : LogBuffer :=
  ⟨freshBytes junk COMMUTIL_LOG_BUFFER_SIZE, none, COMMUTIL_LOG_BUFFER_SIZE, 0, false⟩

/-- The memory behind `getRef`. -/
def getRef (b : LogBuffer) : List UInt8 := b.m_dynamicBuffer.getD b.m_fixedBuffer

/-- That memory after a write. -/
def setRef (b : LogBuffer) (mem : List UInt8) : LogBuffer :=
  match b.m_dynamicBuffer with
  | none => { b with m_fixedBuffer := mem }
  | some _ => { b with m_dynamicBuffer := some mem }

/-- `size() - m_offset`. -/
def sizeLeft (b : LogBuffer) : Nat := sub64 b.m_bufferSize b.m_offset

/-- `LogBuffer::resize`, with enough memory. -/
def resize (junk : Nat → UInt8) (b : LogBuffer) (newSize : Nat) :
    Except Fault (Bool × LogBuffer) :=
  if b.m_bufferSize < newSize then
    if COMMUTIL_MAX_BUFFER_SIZE < newSize then
      pure (false, b)
    else
      let actualNewSize := doubleTo newSize 64 b.m_bufferSize
      match b.m_dynamicBuffer with
      -- out of the fixed buffer: a copy of the string in it
      | none => do
        let (_, newBuffer) ←
          commutilStrncpy (freshBytes junk actualNewSize) 0 b.m_fixedBuffer b.m_bufferSize 0
        pure (true, { b with m_dynamicBuffer := some newBuffer, m_bufferSize := actualNewSize })
      -- a dynamic buffer grows in place, and keeps all of its bytes
      | some old =>
        pure (true, { b with
          m_dynamicBuffer := some (realloc junk old actualNewSize)
          m_bufferSize := actualNewSize })
  else
    pure (true, b)

/-- `LogBuffer::reset`. -/
def reset (b : LogBuffer) : LogBuffer :=
  { b with m_dynamicBuffer := none, m_bufferSize := COMMUTIL_LOG_BUFFER_SIZE }

/-- `LogBuffer::ensureBufferLength`. -/
def ensureBufferLength (junk : Nat → UInt8) (b : LogBuffer) (requiredBytes : Nat) :
    Except Fault (Bool × LogBuffer) :=
  if b.sizeLeft < requiredBytes then do
    -- the limit is checked against the offset as well
    let (res, b) ← b.resize junk (add64 b.m_offset requiredBytes)
    if res then pure (true, b) else pure (false, { b with m_bufferFull := true })
  else
    pure (true, b)

/-- `LogBuffer::appendV` of a formatted text. -/
def appendV (junk : Nat → UInt8) (b : LogBuffer) (text : List UInt8) :
    Except Fault (Bool × LogBuffer) :=
  if b.m_bufferFull then
    pure (false, b)
  else do
    let (res, mem) ← vsnprintf b.getRef b.m_offset b.sizeLeft text
    let first := b.setRef mem
    -- the text and its terminator fit at the first attempt
    if res < b.sizeLeft then
      pure (true, { first with m_offset := b.m_offset + res })
    else
      let (ok, b) ← first.ensureBufferLength junk res
      if ok then
        let (res, mem) ← vsnprintf b.getRef b.m_offset b.sizeLeft text
        let second := b.setRef mem
        -- `res` bytes were asked for, the terminator may not fit
        if b.sizeLeft ≤ res then pure (false, second)
        else pure (true, { second with m_offset := b.m_offset + res })
      else
        pure (false, b)

/-- `LogBuffer::append` of a string; `msg` is what can be read of it. -/
def append (junk : Nat → UInt8) (b : LogBuffer) (msg : List UInt8) (len : Nat) :
    Except Fault (Bool × LogBuffer) :=
  if b.m_bufferFull then
    pure (false, b)
  else do
    let len ← lengthOr msg len
    let (ok, b) ← b.ensureBufferLength junk len
    if ok then
      let (copied, mem) ← commutilStrncpy b.getRef b.m_offset msg b.sizeLeft len
      -- the offset counts what was copied
      pure (true, { b.setRef mem with m_offset := b.m_offset + copied })
    else
      pure (false, b)

/-- `LogBuffer::append` of a repeated character. -/
def appendChars (junk : Nat → UInt8) (b : LogBuffer) (count : Nat) (c : UInt8) :
    Except Fault (Bool × LogBuffer) :=
  if b.m_bufferFull then
    pure (false, b)
  else do
    let (ok, b) ← b.ensureBufferLength junk count
    if ok then
      -- no terminator is written
      let mem ← storeBytes b.getRef b.m_offset (List.replicate count c)
      pure (true, { b.setRef mem with m_offset := b.m_offset + count })
    else
      pure (false, b)

/-- `LogBuffer::assign`. -/
def assign (junk : Nat → UInt8) (b : LogBuffer) (msg : List UInt8) (len : Nat) :
    Except Fault (Bool × LogBuffer) :=
  if COMMUTIL_MAX_BUFFER_SIZE ≤ len then pure (false, b) else b.reset.append junk msg len

/-- `LogBuffer::finalize`. -/
def finalize (b : LogBuffer) : Except Fault LogBuffer :=
  if b.m_bufferFull then do
    -- the last byte of a full buffer
    let mem ← storeBytes b.getRef (b.m_bufferSize - 1) [0]
    pure (b.setRef mem)
  else
    pure b

/-- The buffer content up to `getOffset()`. -/
def content (b : LogBuffer) : List UInt8 := b.getRef.take b.m_offset

/-! ## §2 Storage -/

variable {junk : Nat → UInt8} {b : LogBuffer}

/-- The storage is as large as the buffer says: the fixed one, or a dynamic one of a doubled
    size. -/
structure Sound (b : LogBuffer) : Prop where
  fixed : b.m_fixedBuffer.length = 1024
  fixed_size : b.m_dynamicBuffer = none → b.m_bufferSize = 1024
  dynamic : ∀ d, b.m_dynamicBuffer = some d → d.length = b.m_bufferSize
  pow : ∃ k, b.m_bufferSize = 1024 * 2 ^ k
  le : b.m_bufferSize ≤ 16384

theorem freshBytes_length (junk : Nat → UInt8) (size : Nat) :
    (freshBytes junk size).length = size := by
  simp [freshBytes]

@[simp] theorem setRef_size (mem : List UInt8) : (b.setRef mem).m_bufferSize = b.m_bufferSize := by
  unfold setRef
  split <;> rfl

@[simp] theorem setRef_offset (mem : List UInt8) : (b.setRef mem).m_offset = b.m_offset := by
  unfold setRef
  split <;> rfl

@[simp] theorem setRef_full (mem : List UInt8) : (b.setRef mem).m_bufferFull = b.m_bufferFull := by
  unfold setRef
  split <;> rfl

@[simp] theorem getRef_setRef (mem : List UInt8) : (b.setRef mem).getRef = mem := by
  unfold setRef getRef
  split
  · rename_i hnone
    simp [hnone]
  · rfl

theorem new_sound (junk : Nat → UInt8) : Sound (new junk) := by
  refine ⟨?_, fun _ => rfl, nofun, ⟨0, rfl⟩, show 1024 ≤ 16384 by decide⟩
  rw [new, freshBytes_length]
  rfl

theorem reset_sound (h : Sound b) : Sound b.reset :=
  ⟨h.fixed, fun _ => rfl, nofun, ⟨0, rfl⟩, show 1024 ≤ 16384 by decide⟩

theorem Sound.getRef_length (h : Sound b) : b.getRef.length = b.m_bufferSize := by
  unfold getRef
  cases hd : b.m_dynamicBuffer with
  | none => exact h.fixed.trans (h.fixed_size hd).symm
  | some d => exact h.dynamic d hd

theorem Sound.setRef (h : Sound b) {mem : List UInt8} (hmem : mem.length = b.m_bufferSize) :
    Sound (b.setRef mem) := by
  unfold LogBuffer.setRef
  split
  · rename_i hnone
    exact ⟨hmem.trans (h.fixed_size hnone), h.fixed_size, h.dynamic, h.pow, h.le⟩
  · refine ⟨h.fixed, nofun, fun d hd => ?_, h.pow, h.le⟩
    rw [← Option.some.inj hd]
    exact hmem

theorem Sound.offset (h : Sound b) (offset : Nat) : Sound { b with m_offset := offset } :=
  ⟨h.fixed, h.fixed_size, h.dynamic, h.pow, h.le⟩

theorem Sound.full (h : Sound b) (full : Bool) : Sound { b with m_bufferFull := full } :=
  ⟨h.fixed, h.fixed_size, h.dynamic, h.pow, h.le⟩

theorem Sound.sizeLeft_eq (h : Sound b) (ho : b.m_offset ≤ b.m_bufferSize) :
    b.sizeLeft = b.m_bufferSize - b.m_offset :=
  sub64_eq ho (Nat.lt_of_le_of_lt h.le (by decide))

/-! ## §3 Growth -/

/-- Doubling stops at the first size that is large enough. -/
theorem doubleTo_spec {newSize : Nat} :
    ∀ (left size : Nat), 0 < size → size < newSize → newSize ≤ size * 2 ^ left →
      ∃ i, doubleTo newSize left size = size * 2 ^ i ∧ newSize ≤ size * 2 ^ i ∧
        size * 2 ^ i < 2 * newSize := by
  intro left
  induction left with
  | zero =>
    intro size _ hlt hfuel
    omega
  | succ left ih =>
    intro size hpos hlt hfuel
    rw [doubleTo, if_pos hlt]
    -- one more round, or this one was the last
    by_cases hagain : size * 2 < newSize
    · rw [Nat.pow_succ', ← Nat.mul_assoc] at hfuel
      obtain ⟨i, hi, hle, htight⟩ := ih (size * 2) (by omega) hagain hfuel
      rw [Nat.mul_assoc, ← Nat.pow_succ'] at hi hle htight
      exact ⟨i + 1, hi, hle, htight⟩
    · have hstop : doubleTo newSize left (size * 2) = size * 2 := by
        cases left with
        | zero => rfl
        | succ left => exact if_neg hagain
      exact ⟨1, hstop, by omega, by omega⟩

/-- The size that a buffer grows to. -/
theorem Sound.doubleTo_eq (h : Sound b) {newSize : Nat} (hlt : b.m_bufferSize < newSize)
    (hmax : newSize ≤ 16384) :
    ∃ k, doubleTo newSize 64 b.m_bufferSize = 1024 * 2 ^ k ∧ newSize ≤ 1024 * 2 ^ k ∧
      1024 * 2 ^ k < 2 * newSize ∧ 1024 * 2 ^ k ≤ 16384 := by
  obtain ⟨j, hj⟩ := h.pow
  have hpos : 0 < b.m_bufferSize := hj ▸ Nat.mul_pos (by decide) (Nat.two_pow_pos j)
  obtain ⟨i, hrun, hle, htight⟩ := doubleTo_spec 64 b.m_bufferSize hpos hlt (by omega)
  rw [hj, Nat.mul_assoc, ← Nat.pow_add] at hrun hle htight
  refine ⟨j + i, by rw [hj]; exact hrun, hle, htight, ?_⟩
  -- below `2 * 16384` only the powers up to `2 ^ 4` are left
  have hpow : j + i < 5 := (Nat.pow_lt_pow_iff_right (show 1 < 2 by decide)).mp (by omega)
  have hle4 : 2 ^ (j + i) ≤ 2 ^ 4 := Nat.pow_le_pow_right (by decide) (by omega)
  omega

/-- `b'` is `b` with larger storage.  Out of the fixed storage only what lies before a zero byte
    is carried over. -/
structure Grown (b b' : LogBuffer) : Prop where
  sound : Sound b'
  offset : b'.m_offset = b.m_offset
  full : b'.m_bufferFull = b.m_bufferFull
  kept : ∀ n < b.m_bufferSize, (b.m_dynamicBuffer = none → 0 ∉ b.m_fixedBuffer.take n) →
    b'.getRef.take n = b.getRef.take n

/-- The fixed storage copied into the dynamic one. -/
private theorem copy_fixed (h : Sound b) {mem : List UInt8} (hmem : 1024 ≤ mem.length)
    (hzero : 0 ∈ b.m_fixedBuffer) :
    ∃ copied mem', commutilStrncpy mem 0 b.m_fixedBuffer 1024 0 = .ok (copied, mem') ∧
      mem'.length = mem.length ∧
      ∀ n < 1024, 0 ∉ b.m_fixedBuffer.take n → mem'.take n = b.m_fixedBuffer.take n := by
  have hfixed := h.fixed
  obtain ⟨text, rest, hsplit, -, hlen⟩ := strlen_of_mem hzero
  obtain ⟨copied, hcopied⟩ : ∃ copied, copied = min text.length (1024 - 1) := ⟨_, rfl⟩
  obtain ⟨last, hrun⟩ : ∃ last, commutilStrncpy mem 0 b.m_fixedBuffer 1024 0 =
      .ok (copied, overwrite mem 0 (b.m_fixedBuffer.take copied ++ [last])) := by
    rw [hcopied]
    obtain ⟨last, -, hrun⟩ := @commutilStrncpy_spec mem b.m_fixedBuffer 0 1024 0 text.length hlen
      (by decide) (by decide) (by omega) (by omega)
    exact ⟨last, hrun⟩
  have hblock : (b.m_fixedBuffer.take copied).length = copied :=
    List.length_take_of_le (by omega)
  have hlength : (b.m_fixedBuffer.take copied ++ [last]).length = copied + 1 := by
    rw [List.length_append, hblock, List.length_singleton]
  refine ⟨_, _, hrun, overwrite_length (by omega), fun n hn hfree => ?_⟩
  -- what has no zero byte is not longer than the string
  have hle : n ≤ text.length := by
    by_contra hgt
    apply hfree
    obtain ⟨m, hm⟩ : ∃ m, n - text.length = m + 1 := ⟨n - text.length - 1, by omega⟩
    rw [hsplit, List.take_append, hm, List.take_succ_cons]
    exact List.mem_append_right _ List.mem_cons_self
  have htake : (overwrite mem 0 (b.m_fixedBuffer.take copied ++ [last])).take (0 + n) =
      mem.take 0 ++ (b.m_fixedBuffer.take copied ++ [last]).take n :=
    take_overwrite_add (Nat.zero_le _) (by omega)
  rw [Nat.zero_add, List.take_zero, List.nil_append, List.take_append_of_le_length (by omega),
    List.take_take, Nat.min_eq_left (by omega)] at htake
  exact htake

/-- **Growth**, with room below the limit and a string in the fixed storage. -/
theorem resize_grown (h : Sound b) {newSize : Nat} (hlt : b.m_bufferSize < newSize)
    (hmax : newSize ≤ 16384) (hzero : b.m_dynamicBuffer = none → 0 ∈ b.m_fixedBuffer) :
    ∃ b', b.resize junk newSize = .ok (true, b') ∧ Grown b b' ∧ newSize ≤ b'.m_bufferSize ∧
      b'.m_bufferSize < 2 * newSize := by
  obtain ⟨k, hk, hle, htight, hle'⟩ := h.doubleTo_eq hlt hmax
  have hlimit : ¬ COMMUTIL_MAX_BUFFER_SIZE < newSize := Nat.not_lt.mpr hmax
  unfold resize
  rw [if_pos hlt, if_neg hlimit]
  simp only [hk]
  cases hd : b.m_dynamicBuffer with
  | none =>
    have hsize := h.fixed_size hd
    have hfresh := freshBytes_length junk (1024 * 2 ^ k)
    obtain ⟨copied, mem', hrun, hlength, hkept⟩ :=
      copy_fixed h (show 1024 ≤ (freshBytes junk (1024 * 2 ^ k)).length by omega) (hzero hd)
    rw [hfresh] at hlength
    simp only [hsize, hrun, bind, Except.bind, pure, Except.pure]
    refine ⟨_, rfl, ⟨⟨h.fixed, nofun, fun d hd' => ?_, ⟨k, rfl⟩, hle'⟩, rfl, rfl, ?_⟩, hle, htight⟩
    · rw [← Option.some.inj hd']
      exact hlength
    · intro n hn hfree
      have hold : b.getRef = b.m_fixedBuffer := by rw [getRef, hd, Option.getD_none]
      rw [hold]
      exact hkept n (by omega) (hfree hd)
  | some old =>
    have hold := h.dynamic old hd
    refine ⟨_, rfl, ⟨⟨h.fixed, nofun, fun d hd' => ?_, ⟨k, rfl⟩, hle'⟩, rfl, rfl, ?_⟩, hle, htight⟩
    · rw [← Option.some.inj hd', realloc, List.length_append, List.length_drop, freshBytes_length]
      dsimp only
      omega
    · intro n hn _
      simp only [getRef, hd, Option.getD_some, realloc]
      exact List.take_append_of_le_length (by omega)

theorem resize_sound (h : Sound b) {newSize : Nat} {ok : Bool} {b' : LogBuffer}
    (hrun : b.resize junk newSize = .ok (ok, b')) : Sound b' := by
  by_cases hlt : b.m_bufferSize < newSize
  · by_cases hmax : COMMUTIL_MAX_BUFFER_SIZE < newSize
    · rw [resize, if_pos hlt, if_pos hmax] at hrun
      cases hrun
      exact h
    · by_cases hzero : b.m_dynamicBuffer = none → 0 ∈ b.m_fixedBuffer
      · obtain ⟨b₁, hrun₁, hgrown, -⟩ := resize_grown h hlt (Nat.not_lt.mp hmax) hzero
        rw [hrun₁] at hrun
        cases hrun
        exact hgrown.sound
      · -- without a zero byte the copy runs off the fixed storage
        rw [Classical.not_imp] at hzero
        rw [resize, if_pos hlt, if_neg hmax] at hrun
        simp only [hzero.1, commutilStrncpy, lengthOr, if_true, strlen_error hzero.2, bind,
          Except.bind] at hrun
        cases hrun
  · rw [resize, if_neg hlt] at hrun
    cases hrun
    exact h

/-- `n` more bytes do not go into the fixed storage that the text is still in. -/
def Leaves (b : LogBuffer) (n : Nat) : Prop :=
  b.m_dynamicBuffer = none ∧ b.m_bufferSize < b.m_offset + n

/-- `b'` is `b` with the storage that `n` more bytes need. -/
structure Room (b b' : LogBuffer) (n : Nat) : Prop where
  sound : Sound b'
  offset : b'.m_offset = b.m_offset
  full : b'.m_bufferFull = b.m_bufferFull
  room : b.m_offset + n ≤ b'.m_bufferSize
  tight : b'.m_bufferSize = b.m_bufferSize ∨ b'.m_bufferSize < 2 * (b.m_offset + n)
  content : (b.Leaves n → 0 ∉ b.content) → b'.content = b.content

theorem ensureBufferLength_room (junk : Nat → UInt8) (h : Sound b)
    (ho : b.m_offset < b.m_bufferSize) {n : Nat} (hmax : b.m_offset + n ≤ 16384)
    (hzero : b.Leaves n → 0 ∈ b.m_fixedBuffer) :
    ∃ b', b.ensureBufferLength junk n = .ok (true, b') ∧ Room b b' n := by
  have hadd : add64 b.m_offset n = b.m_offset + n :=
    Nat.mod_eq_of_lt (Nat.lt_of_le_of_lt hmax (by decide))
  unfold ensureBufferLength
  rw [h.sizeLeft_eq (Nat.le_of_lt ho), hadd]
  by_cases hroom : b.m_bufferSize - b.m_offset < n
  · have hlt : b.m_bufferSize < b.m_offset + n := by omega
    obtain ⟨b', hrun, hgrown, hle, htight⟩ := resize_grown h hlt hmax (fun hd => hzero ⟨hd, hlt⟩)
    rw [if_pos hroom, hrun]
    refine ⟨b', rfl, ⟨hgrown.sound, hgrown.offset, hgrown.full, hle, .inr htight, fun hfree => ?_⟩⟩
    rw [content, hgrown.offset]
    apply hgrown.kept _ ho
    intro hd
    have hfixed : b.content = b.m_fixedBuffer.take b.m_offset := by
      rw [content, getRef, hd, Option.getD_none]
    exact hfixed ▸ hfree ⟨hd, hlt⟩
  · rw [if_neg hroom]
    exact ⟨b, rfl, ⟨h, rfl, rfl, by omega, .inl rfl, fun _ => rfl⟩⟩

theorem ensureBufferLength_sound (h : Sound b) {n : Nat} {ok : Bool} {b' : LogBuffer}
    (hrun : b.ensureBufferLength junk n = .ok (ok, b')) : Sound b' := by
  unfold ensureBufferLength at hrun
  split at hrun
  · cases hresize : b.resize junk (add64 b.m_offset n) with
    | error fault =>
      rw [hresize] at hrun
      cases hrun
    | ok r =>
      obtain ⟨res, b₁⟩ := r
      have hsound := resize_sound h hresize
      rw [hresize] at hrun
      cases res with
      | true =>
        cases hrun
        exact hsound
      | false =>
        cases hrun
        exact hsound.full true
  · cases hrun
    exact h

/-! ## §4 Calls that lose nothing -/

/-- The buffer holds a text, and has room for its terminator. -/
structure Holds (b : LogBuffer) (text : List UInt8) : Prop where
  sound : Sound b
  offset : b.m_offset = text.length
  content : b.content = text
  lt : text.length < b.m_bufferSize
  notFull : b.m_bufferFull = false
  tight : b.m_bufferSize = 1024 ∨ b.m_bufferSize < 2 * text.length

/-- The characters of `msg` that are appended: those of the string, or the first `len`. -/
def textOf (msg : List UInt8) (len : Nat) : List UInt8 :=
  if len = 0 then msg.takeWhile (· ≠ 0) else msg.take len

/-- `n` more bytes stay below the limit and do not end where the storage ends; if they make the
    text leave the fixed storage there is no zero byte in it. -/
structure Fits (b : LogBuffer) (n : Nat) : Prop where
  below : b.m_offset + n < COMMUTIL_MAX_BUFFER_SIZE
  inside : ∀ k, b.m_offset + n ≠ 1024 * 2 ^ k
  string : b.Leaves n → 0 ∉ b.content

variable {text : List UInt8}

theorem new_holds (junk : Nat → UInt8) : Holds (new junk) [] :=
  ⟨new_sound junk, rfl, rfl, show 0 < 1024 by decide, rfl, .inl rfl⟩

/-- The storage ends behind a text that fits. -/
theorem Fits.lt {b' : LogBuffer} {n : Nat} (hfits : Fits b n) (hroom : Room b b' n) :
    b.m_offset + n < b'.m_bufferSize := by
  obtain ⟨k, hk⟩ := hroom.sound.pow
  have hne := hfits.inside k
  have hle := hroom.room
  omega

theorem Holds.room (h : Holds b text) (junk : Nat → UInt8) {n : Nat} (hfits : Fits b n)
    (hzero : b.Leaves n → 0 ∈ b.m_fixedBuffer) :
    ∃ b', b.ensureBufferLength junk n = .ok (true, b') ∧ Room b b' n := by
  apply ensureBufferLength_room junk h.sound _ (Nat.le_of_lt hfits.below) hzero
  rw [h.offset]
  exact h.lt

/-- A block written behind the text, of which the first `n` bytes belong to it. -/
theorem Holds.extend (h : Holds b text) {b' : LogBuffer} {n : Nat} (hroom : Room b b' n)
    (hfits : Fits b n) {block : List UInt8} (hn : n ≤ block.length)
    (hblock : b.m_offset + block.length ≤ b'.m_bufferSize) :
    Holds { b'.setRef (overwrite b'.getRef b'.m_offset block) with
      m_offset := b'.m_offset + n } (text ++ block.take n) := by
  have hlength := hroom.sound.getRef_length
  have hlt := hfits.lt hroom
  have hold : b'.getRef.take b.m_offset = text := by
    rw [← hroom.offset]
    exact (hroom.content hfits.string).trans h.content
  have hlen : (text ++ block.take n).length = b.m_offset + n := by
    rw [List.length_append, List.length_take_of_le hn, h.offset]
  rw [hroom.offset]
  refine ⟨Sound.offset (hroom.sound.setRef ?_) _, ?_, ?_, ?_, ?_, ?_⟩
  · rw [overwrite_length (by omega), hlength]
  · exact hlen.symm
  · show (b'.setRef _).getRef.take (b.m_offset + n) = _
    rw [getRef_setRef, take_overwrite_add (by omega) hn, hold]
  · rw [hlen]
    simpa using hlt
  · simpa using hroom.full.trans h.notFull
  · rw [hlen]
    have htext := h.offset
    show (b'.setRef _).m_bufferSize = 1024 ∨ (b'.setRef _).m_bufferSize < 2 * (b.m_offset + n)
    rw [setRef_size]
    rcases hroom.tight with hsame | htight
    · rcases h.tight with hfixed | htight
      · exact .inl (hsame.trans hfixed)
      · exact .inr (by omega)
    · exact .inr htight

theorem textOf_length_le (msg : List UInt8) (len : Nat) : (textOf msg len).length ≤ msg.length := by
  unfold textOf
  split
  · exact (List.takeWhile_prefix _).length_le
  · exact (List.take_prefix len msg).length_le

/-- The length that `append` finds, and that `commutil_strncpy` finds again. -/
theorem lengthOr_textOf {msg : List UInt8} {len : Nat} (hlen : len ≤ msg.length) :
    lengthOr (msg ++ [0]) len = .ok (textOf msg len).length ∧
      lengthOr (msg ++ [0]) (textOf msg len).length = .ok (textOf msg len).length := by
  by_cases hzero : len = 0
  · subst hzero
    have hfound : lengthOr (msg ++ [0]) 0 = .ok (textOf msg 0).length := strlen_terminated msg
    refine ⟨hfound, ?_⟩
    by_cases hempty : (textOf msg 0).length = 0
    · rw [hempty] at hfound ⊢
      exact hfound
    · exact if_neg hempty
  · have htext : (textOf msg len).length = len := by
      rw [textOf, if_neg hzero, List.length_take_of_le hlen]
    rw [htext]
    exact ⟨if_neg hzero, if_neg hzero⟩

/-- The characters that are copied. -/
theorem take_textOf {msg : List UInt8} {len : Nat} (hlen : len ≤ msg.length) :
    (msg ++ [0]).take (textOf msg len).length = textOf msg len := by
  unfold textOf
  split
  · have hstarts : msg.takeWhile (· ≠ 0) <+: msg ++ [0] :=
      (List.takeWhile_prefix _).trans (List.prefix_append _ _)
    exact (List.prefix_iff_eq_take.mp hstarts).symm
  · rw [List.length_take_of_le hlen]
    exact List.take_append_of_le_length hlen

/-- The text ends in a zero byte. -/
def Terminated (b : LogBuffer) : Prop := b.getRef[b.m_offset]? = some 0

/-- `len` is zero or the length of the string, or only one byte is left behind the text. -/
def Closed (b : LogBuffer) (msg : List UInt8) (len : Nat) : Prop :=
  (∃ k, b.m_offset + (textOf msg len).length + 1 = 1024 * 2 ^ k) ∨
    (msg ++ [0])[(textOf msg len).length]? = some 0

/-- A text with one byte left before a storage size has one byte left in the storage. -/
theorem Holds.last_byte (h : Holds b text) {k : Nat} (hk : text.length + 1 = 1024 * 2 ^ k) :
    b.m_bufferSize = text.length + 1 := by
  obtain ⟨j, hj⟩ := h.sound.pow
  have hlt := h.lt
  rcases Nat.lt_or_ge k j with hkj | hjk
  · -- the storage would be at least twice as large
    have hpow : 2 ^ (k + 1) ≤ 2 ^ j := Nat.pow_le_pow_right (by decide) hkj
    have hpos := Nat.two_pow_pos k
    rw [Nat.pow_succ] at hpow
    rcases h.tight with hfixed | htight
    · omega
    · omega
  · have hpow : 2 ^ j ≤ 2 ^ k := Nat.pow_le_pow_right (by decide) hjk
    omega

/-- **A string** that fits is appended, and its terminator. -/
theorem append_holds (h : Holds b text) {msg : List UInt8} {len : Nat} (hlen : len ≤ msg.length)
    (hfits : Fits b (textOf msg len).length)
    (hzero : b.Leaves (textOf msg len).length → 0 ∈ b.m_fixedBuffer) (hclosed : Closed b msg len) :
    ∃ b', b.append junk (msg ++ [0]) len = .ok (true, b') ∧ Holds b' (text ++ textOf msg len) ∧
      Terminated b' := by
  obtain ⟨hfound, hagain⟩ := lengthOr_textOf hlen
  have htake := take_textOf hlen
  have hle := textOf_length_le msg len
  unfold Closed at hclosed
  generalize htext : textOf msg len = added at *
  obtain ⟨b', hensure, hroom⟩ := h.room junk hfits hzero
  have hlt := hfits.lt hroom
  have hoffset := hroom.offset
  have hsize := hroom.sound.le
  have hlength := hroom.sound.getRef_length
  have hleft := hroom.sound.sizeLeft_eq (show b'.m_offset ≤ b'.m_bufferSize by omega)
  have hmin : min added.length (b'.sizeLeft - 1) = added.length := Nat.min_eq_left (by omega)
  -- the bytes are copied behind the text, and one more that ends it
  obtain ⟨last, hlast, hcopy⟩ := @commutilStrncpy_spec b'.getRef (msg ++ [0]) b'.m_offset
    b'.sizeLeft added.length added.length hagain (by omega) (by omega)
    (by rw [hmin, List.length_append]; exact Nat.lt_succ_of_le hle) (by omega)
  rw [hmin, htake] at hcopy
  have hblock : (added ++ [last]).length = added.length + 1 := by
    rw [List.length_append, List.length_singleton]
  have hextend := h.extend hroom hfits (show added.length ≤ (added ++ [last]).length by omega)
    (by omega)
  rw [List.take_append_of_le_length (Nat.le_refl _), List.take_length] at hextend
  refine ⟨_, ?_, hextend, ?_⟩
  · rw [append, h.notFull, if_neg Bool.false_ne_true, bind_of_ok hfound, bind_of_ok hensure]
    dsimp only
    rw [if_pos rfl, bind_of_ok hcopy]
    rfl
  · show (b'.setRef _).getRef[b'.m_offset + added.length]? = some 0
    rw [getRef_setRef, getElem?_overwrite_add (by omega) (by omega),
      List.getElem?_append_right (Nat.le_refl _), Nat.sub_self]
    -- the byte behind is the terminator, or it was copied from the message
    rcases hlast with rfl | ⟨hbehind, hbyte⟩
    · rfl
    · rcases hclosed with ⟨k, hk⟩ | hzero'
      · -- with one byte left the terminator is written
        have htexts : (text ++ added).length = b.m_offset + added.length := by
          rw [List.length_append, h.offset]
        have hone := hextend.last_byte (show (text ++ added).length + 1 = _ by rw [htexts, hk])
        rw [htexts] at hone
        have hsame : b'.m_bufferSize = b.m_offset + added.length + 1 := by
          rw [← hone]
          exact (setRef_size _).symm
        omega
      · rw [hbyte] at hzero'
        rw [Option.some.inj hzero']
        rfl

/-- The text that is read back from a terminated buffer. -/
theorem Holds.strlen (h : Holds b text) (hterminated : Terminated b) (hfree : 0 ∉ text) :
    Common.strlen b.getRef = .ok text.length ∧ b.getRef.take text.length = text := by
  have htake : b.getRef.take text.length = text := by
    rw [← h.offset]
    exact h.content
  obtain ⟨hlt, hzero⟩ := List.getElem?_eq_some_iff.mp hterminated
  have hsplit : b.getRef = text ++ 0 :: b.getRef.drop (b.m_offset + 1) := by
    calc b.getRef = b.getRef.take b.m_offset ++ b.getRef.drop b.m_offset :=
          (List.take_append_drop _ _).symm
      _ = text ++ 0 :: b.getRef.drop (b.m_offset + 1) := by
          rw [List.drop_eq_getElem_cons hlt, hzero, h.offset, htake]
  refine ⟨?_, htake⟩
  rw [hsplit]
  exact strlen_eq hfree

theorem vsnprintf_eq {mem : List UInt8} {dest size : Nat} (hpos : 0 < size)
    (hroom : dest + size ≤ mem.length) (added : List UInt8) :
    vsnprintf mem dest size added =
      .ok (added.length, overwrite mem dest (added.take (size - 1) ++ [0])) := by
  have hblock : (added.take (size - 1) ++ [(0 : UInt8)]).length ≤ size := by
    rw [List.length_append, List.length_take, List.length_singleton]
    omega
  rw [vsnprintf, if_neg (by omega), bind_of_ok (storeBytes_eq (by omega))]
  rfl

/-- A text that has room is printed behind the old one, and its terminator. -/
theorem Holds.print (h : Holds b text) {b' : LogBuffer} {added : List UInt8}
    (hroom : Room b b' added.length) (hfits : Fits b added.length) :
    ∃ mem, vsnprintf b'.getRef b'.m_offset b'.sizeLeft added = .ok (added.length, mem) ∧
      added.length < b'.sizeLeft ∧
      Holds { b'.setRef mem with m_offset := b'.m_offset + added.length } (text ++ added) ∧
      Terminated { b'.setRef mem with m_offset := b'.m_offset + added.length } := by
  have hlt := hfits.lt hroom
  have hoffset := hroom.offset
  have hlength := hroom.sound.getRef_length
  have hleft := hroom.sound.sizeLeft_eq (show b'.m_offset ≤ b'.m_bufferSize by omega)
  have hall : added.take (b'.sizeLeft - 1) = added := List.take_of_length_le (by omega)
  have hblock : (added ++ [(0 : UInt8)]).length = added.length + 1 := by
    rw [List.length_append, List.length_singleton]
  have hprint := @vsnprintf_eq b'.getRef b'.m_offset b'.sizeLeft (by omega) (by omega) added
  rw [hall] at hprint
  have hextend := h.extend hroom hfits
      (show added.length ≤ (added ++ [(0 : UInt8)]).length by omega)
    (by omega)
  rw [List.take_append_of_le_length (Nat.le_refl _), List.take_length] at hextend
  refine ⟨_, hprint, by omega, hextend, ?_⟩
  show (b'.setRef _).getRef[b'.m_offset + added.length]? = some 0
  rw [getRef_setRef, getElem?_overwrite_add (by omega) (by omega),
    List.getElem?_append_right (Nat.le_refl _), Nat.sub_self]
  rfl

/-- What is written behind the text does not touch it. -/
theorem Holds.scribble (h : Holds b text) {block : List UInt8}
    (hblock : b.m_offset + block.length ≤ b.m_bufferSize) :
    Holds (b.setRef (overwrite b.getRef b.m_offset block)) text := by
  have hlength := h.sound.getRef_length
  refine ⟨h.sound.setRef ?_, ?_, ?_, ?_, ?_, ?_⟩
  · rw [overwrite_length (by omega), hlength]
  · rw [setRef_offset, h.offset]
  · rw [LogBuffer.content, setRef_offset, getRef_setRef, take_overwrite (Nat.le_refl _) (by omega)]
    exact h.content
  · rw [setRef_size]
    exact h.lt
  · rw [setRef_full]
    exact h.notFull
  · rw [setRef_size]
    exact h.tight

theorem setRef_leaves {mem : List UInt8} {n : Nat} (hleaves : (b.setRef mem).Leaves n) :
    b.Leaves n ∧ (b.setRef mem).m_fixedBuffer = mem := by
  obtain ⟨hnone, hlt⟩ := hleaves
  rw [setRef_size, setRef_offset] at hlt
  unfold setRef at hnone ⊢
  split at hnone
  · rename_i hd
    exact ⟨⟨hd, hlt⟩, rfl⟩
  · cases hnone

/-- The first print of a text that is too long is cut, and terminates the fixed storage. -/
theorem Holds.cut (h : Holds b text) {added : List UInt8} (hlong : ¬ added.length < b.sizeLeft) :
    ∃ mem, vsnprintf b.getRef b.m_offset b.sizeLeft added = .ok (added.length, mem) ∧
      Holds (b.setRef mem) text ∧
      ∀ n, (b.setRef mem).Leaves n → 0 ∈ (b.setRef mem).m_fixedBuffer := by
  have hoffset := h.offset
  have hlt := h.lt
  have hlength := h.sound.getRef_length
  have hleft := h.sound.sizeLeft_eq (show b.m_offset ≤ b.m_bufferSize by omega)
  have hblock : (added.take (b.sizeLeft - 1) ++ [(0 : UInt8)]).length = b.sizeLeft := by
    rw [List.length_append, List.length_take_of_le (by omega), List.length_singleton]
    omega
  refine ⟨_, vsnprintf_eq (by omega) (by omega) added, h.scribble (by omega), fun n hleaves => ?_⟩
  rw [(setRef_leaves hleaves).2, overwrite]
  simp

/-- **A formatted text** that fits is appended, and its terminator. -/
theorem appendV_holds (junk : Nat → UInt8) (h : Holds b text) {added : List UInt8}
    (hfits : Fits b added.length) :
    ∃ b', b.appendV junk added = .ok (true, b') ∧ Holds b' (text ++ added) ∧ Terminated b' := by
  by_cases hshort : added.length < b.sizeLeft
  · have hoffset := h.offset
    have hlt := h.lt
    have hleft := h.sound.sizeLeft_eq (show b.m_offset ≤ b.m_bufferSize by omega)
    have hroom : Room b b added.length :=
      ⟨h.sound, rfl, rfl, by omega, .inl rfl, fun _ => rfl⟩
    obtain ⟨mem, hprint, -, hholds, hterminated⟩ := h.print hroom hfits
    refine ⟨_, ?_, hholds, hterminated⟩
    rw [appendV, h.notFull, if_neg Bool.false_ne_true, bind_of_ok hprint]
    dsimp only
    rw [if_pos hshort]
    rfl
  · obtain ⟨mem, hcut, hfirst, hzero⟩ := h.cut hshort
    have hfits' : Fits (b.setRef mem) added.length := by
      refine ⟨?_, ?_, fun hleaves => ?_⟩
      · rw [setRef_offset]
        exact hfits.below
      · rw [setRef_offset]
        exact hfits.inside
      · rw [hfirst.content, ← h.content]
        exact hfits.string (setRef_leaves hleaves).1
    obtain ⟨b', hensure, hroom⟩ := hfirst.room junk hfits' (hzero _)
    obtain ⟨mem', hprint, hroom', hholds, hterminated⟩ := hfirst.print hroom hfits'
    refine ⟨_, ?_, hholds, hterminated⟩
    rw [appendV, h.notFull, if_neg Bool.false_ne_true, bind_of_ok hcut]
    dsimp only
    rw [if_neg hshort, bind_of_ok hensure]
    dsimp only
    rw [if_pos rfl, bind_of_ok hprint]
    dsimp only
    rw [if_neg (Nat.not_le.mpr hroom')]
    rfl

/-- **A formatted text that ends where the storage ends** is refused by an empty buffer, which
    stays empty. -/
theorem appendV_fills (junk : Nat → UInt8) (h : Holds b []) {added : List UInt8}
    (hmax : added.length ≤ COMMUTIL_MAX_BUFFER_SIZE) {k : Nat} (hk : added.length = 1024 * 2 ^ k) :
    ∃ b', b.appendV junk added = .ok (false, b') ∧ Sound b' ∧ b'.m_offset = 0 ∧
      b'.m_bufferFull = false := by
  have hoffset : b.m_offset = 0 := h.offset
  have hsize : b.m_bufferSize = 1024 := h.tight.resolve_right (Nat.not_lt_zero _)
  have hleft := h.sound.sizeLeft_eq (show b.m_offset ≤ b.m_bufferSize by omega)
  have hpos := Nat.two_pow_pos k
  -- the text does not fit at first, so the buffer grows
  have hlong : ¬ added.length < b.sizeLeft := by omega
  obtain ⟨mem, hcut, hfirst, hzero⟩ := h.cut hlong
  have hempty : (b.setRef mem).m_offset = 0 := hfirst.offset
  obtain ⟨b', hensure, hroom⟩ := ensureBufferLength_room junk hfirst.sound
    (by rw [hempty]; exact hfirst.lt) (by rw [hempty, Nat.zero_add]; exact hmax)
    (hzero added.length)
  have hoffset' : b'.m_offset = 0 := hroom.offset.trans hempty
  -- the storage has grown to the length of the text, and no further
  have hfull : b'.m_bufferSize = added.length := by
    obtain ⟨j, hj⟩ := hroom.sound.pow
    have hle := hroom.room
    have htight := hroom.tight
    rw [hempty, Nat.zero_add] at hle htight
    rw [setRef_size, hsize] at htight
    rcases Nat.lt_or_ge k j with hkj | hjk
    · have hpow : 2 ^ (k + 1) ≤ 2 ^ j := Nat.pow_le_pow_right (by decide) hkj
      rw [Nat.pow_succ] at hpow
      omega
    · have hpow : 2 ^ j ≤ 2 ^ k := Nat.pow_le_pow_right (by decide) hjk
      omega
  have hleft' : b'.sizeLeft = added.length := by
    rw [hroom.sound.sizeLeft_eq (hoffset' ▸ Nat.zero_le _), hfull, hoffset', Nat.sub_zero]
  have hlength' := hroom.sound.getRef_length
  -- the second attempt has no room for the terminator, and the call fails
  obtain ⟨mem', hagain, hmem'⟩ : ∃ mem', vsnprintf b'.getRef b'.m_offset b'.sizeLeft added =
      .ok (added.length, mem') ∧ mem'.length = b'.m_bufferSize := by
    have hblock : (added.take (added.length - 1) ++ [(0 : UInt8)]).length = added.length := by
      rw [List.length_append, List.length_take_of_le (Nat.sub_le _ _), List.length_singleton]
      omega
    rw [hleft']
    refine ⟨_, vsnprintf_eq (by omega) (by omega) added, ?_⟩
    rw [overwrite_length (by omega), hlength']
  refine ⟨b'.setRef mem', ?_, hroom.sound.setRef hmem', ?_, ?_⟩
  · rw [appendV, h.notFull, if_neg Bool.false_ne_true, bind_of_ok hcut]
    dsimp only
    rw [if_neg hlong, bind_of_ok hensure]
    dsimp only
    rw [if_pos rfl, bind_of_ok hagain]
    dsimp only
    rw [if_pos (Nat.le_of_eq hleft')]
    rfl
  · rw [setRef_offset]
    exact hoffset'
  · rw [setRef_full]
    exact hroom.full.trans hfirst.notFull

/-- **A repeated character** that fits is appended. -/
theorem appendChars_holds (h : Holds b text) {count : Nat} (c : UInt8) (hfits : Fits b count)
    (hzero : b.Leaves count → 0 ∈ b.m_fixedBuffer) :
    ∃ b', b.appendChars junk count c = .ok (true, b') ∧
      Holds b' (text ++ List.replicate count c) := by
  obtain ⟨b', hensure, hroom⟩ := h.room junk hfits hzero
  have hlt := hfits.lt hroom
  have hoffset := hroom.offset
  have hlength := hroom.sound.getRef_length
  have hblock : (List.replicate count c).length = count := List.length_replicate
  have hextend := h.extend hroom hfits (show count ≤ (List.replicate count c).length by omega)
    (by omega)
  rw [List.take_of_length_le (by omega)] at hextend
  refine ⟨_, ?_, hextend⟩
  rw [appendChars, h.notFull, if_neg Bool.false_ne_true, bind_of_ok hensure]
  dsimp only
  rw [if_pos rfl, bind_of_ok (storeBytes_eq (by omega))]
  rfl

/-! ## §5 Sequences of calls -/

/-- A call on a log buffer.  A string comes with its terminator. -/
inductive Call where
  | append (msg : List UInt8) (len : Nat)
  | appendChars (count : Nat) (c : UInt8)
  | appendV (text : List UInt8)
  | assign (msg : List UInt8) (len : Nat)
  | reset
  deriving DecidableEq, Repr

/-- What a call returns, and the buffer afterwards. -/
def perform (junk : Nat → UInt8) (b : LogBuffer) : Call → Except Fault (Bool × LogBuffer)
  | .append msg len => b.append junk (msg ++ [0]) len
  | .appendChars count c => b.appendChars junk count c
  | .appendV text => b.appendV junk text
  | .assign msg len => b.assign junk (msg ++ [0]) len
  | .reset => pure (true, b.reset)

/-- The text that a call leaves, and whether it is a string that ends it. -/
def textAfter (text : List UInt8 × Bool) : Call → List UInt8 × Bool
  | .append msg len => (text.1 ++ textOf msg len, true)
  | .appendChars count c => (text.1 ++ List.replicate count c, false)
  | .appendV added => (text.1 ++ added, true)
  | .assign msg len => (textOf msg len, true)
  | .reset => ([], false)

/-- The string fits, and so does its terminator. -/
structure StringFits (b : LogBuffer) (msg : List UInt8) (len : Nat) : Prop where
  le : len ≤ msg.length
  fits : Fits b (textOf msg len).length
  string : b.Leaves (textOf msg len).length → 0 ∈ b.m_fixedBuffer
  closed : Closed b msg len

/-- The calls that lose nothing. -/
def Careful (b : LogBuffer) : Call → Prop
  | .append msg len => StringFits b msg len
  | .appendChars count _ => Fits b count ∧ (b.Leaves count → 0 ∈ b.m_fixedBuffer)
  | .appendV text => Fits b text.length
  | .assign msg len => b.m_offset = 0 ∧ b.m_bufferFull = false ∧ StringFits b.reset msg len
  | .reset => b.m_offset = 0

/-- A buffer that nothing has been written to is empty again after a reset. -/
theorem reset_holds (h : Sound b) (hoffset : b.m_offset = 0) (hfull : b.m_bufferFull = false) :
    Holds b.reset [] := by
  refine ⟨reset_sound h, hoffset, ?_, show 0 < 1024 by decide, hfull, .inl rfl⟩
  show b.reset.getRef.take b.m_offset = []
  rw [hoffset, List.take_zero]

/-- **`assign`** replaces what is not there. -/
theorem assign_holds (h : Sound b) {msg : List UInt8} {len : Nat}
    (hcareful : Careful b (.assign msg len)) :
    ∃ b', b.assign junk (msg ++ [0]) len = .ok (true, b') ∧ Holds b' (textOf msg len) ∧
      Terminated b' := by
  obtain ⟨hoffset, hfull, hstring⟩ := hcareful
  have hbelow := hstring.fits.below
  have hlimit : ¬ COMMUTIL_MAX_BUFFER_SIZE ≤ len := by
    by_cases hzero : len = 0
    · rw [hzero]
      exact show ¬ 16384 ≤ 0 by decide
    · rw [textOf, if_neg hzero, List.length_take_of_le hstring.le] at hbelow
      omega
  rw [assign, if_neg hlimit]
  exact append_holds (reset_holds h hoffset hfull) hstring.le hstring.fits hstring.string
    hstring.closed

/-- The buffer holds a text, and a terminator if it should. -/
def Tells (b : LogBuffer) (text : List UInt8 × Bool) : Prop :=
  Holds b text.1 ∧ (text.2 = true → Terminated b)

/-- **One careful call** does what it should. -/
theorem perform_tells {text : List UInt8 × Bool} (h : Tells b text) {call : Call}
    (hcareful : Careful b call) :
    ∃ b', b.perform junk call = .ok (true, b') ∧ Tells b' (textAfter text call) := by
  obtain ⟨hold, -⟩ := h
  cases call with
  | append msg len =>
    obtain ⟨b', hrun, hholds, hterminated⟩ :=
      append_holds hold hcareful.le hcareful.fits hcareful.string hcareful.closed
    exact ⟨b', hrun, hholds, fun _ => hterminated⟩
  | appendChars count c =>
    obtain ⟨b', hrun, hholds⟩ := appendChars_holds hold c hcareful.1 hcareful.2
    exact ⟨b', hrun, hholds, nofun⟩
  | appendV added =>
    obtain ⟨b', hrun, hholds, hterminated⟩ := appendV_holds junk hold hcareful
    exact ⟨b', hrun, hholds, fun _ => hterminated⟩
  | assign msg len =>
    obtain ⟨b', hrun, hholds, hterminated⟩ := assign_holds hold.sound hcareful
    exact ⟨b', hrun, hholds, fun _ => hterminated⟩
  | reset => exact ⟨b.reset, rfl, reset_holds hold.sound hcareful hold.notFull, nofun⟩

/-! ## §6 Every call keeps the storage -/

theorem vsnprintf_length {mem mem' added : List UInt8} {dest size n : Nat}
    (h : vsnprintf mem dest size added = .ok (n, mem')) : mem'.length = mem.length := by
  unfold vsnprintf at h
  split at h
  · cases h
    rfl
  · obtain ⟨mem₁, hstore, h⟩ := of_bind_ok h
    cases h
    exact storeBytes_length hstore

/-- A write that keeps the length of the memory, and an offset. -/
theorem Sound.write (h : Sound b) {mem : List UInt8} (hmem : mem.length = b.getRef.length)
    (offset : Nat) : Sound { b.setRef mem with m_offset := offset } :=
  Sound.offset (h.setRef (hmem.trans h.getRef_length)) offset

theorem append_sound (h : Sound b) {msg : List UInt8} {len : Nat} {ok : Bool} {b' : LogBuffer}
    (hrun : b.append junk msg len = .ok (ok, b')) : Sound b' := by
  unfold append at hrun
  split at hrun
  · cases hrun
    exact h
  · obtain ⟨n, -, hrun⟩ := of_bind_ok hrun
    obtain ⟨⟨room, b₁⟩, hensure, hrun⟩ := of_bind_ok hrun
    have hsound := ensureBufferLength_sound h hensure
    cases room with
    | false =>
      cases hrun
      exact hsound
    | true =>
      obtain ⟨⟨copied, mem⟩, hcopy, hrun⟩ := of_bind_ok hrun
      cases hrun
      exact hsound.write (commutilStrncpy_length hcopy) _

theorem appendChars_sound (h : Sound b) {count : Nat} {c : UInt8} {ok : Bool} {b' : LogBuffer}
    (hrun : b.appendChars junk count c = .ok (ok, b')) : Sound b' := by
  unfold appendChars at hrun
  split at hrun
  · cases hrun
    exact h
  · obtain ⟨⟨room, b₁⟩, hensure, hrun⟩ := of_bind_ok hrun
    have hsound := ensureBufferLength_sound h hensure
    cases room with
    | false =>
      cases hrun
      exact hsound
    | true =>
      obtain ⟨mem, hstore, hrun⟩ := of_bind_ok hrun
      cases hrun
      exact hsound.write (storeBytes_length hstore) _

theorem appendV_sound (h : Sound b) {added : List UInt8} {ok : Bool} {b' : LogBuffer}
    (hrun : b.appendV junk added = .ok (ok, b')) : Sound b' := by
  unfold appendV at hrun
  split at hrun
  · cases hrun
    exact h
  · obtain ⟨⟨n, mem⟩, hprint, hrun⟩ := of_bind_ok hrun
    have hfirst := h.setRef ((vsnprintf_length hprint).trans h.getRef_length)
    dsimp only at hrun
    split at hrun
    · cases hrun
      exact h.write (vsnprintf_length hprint) _
    · obtain ⟨⟨room, b₁⟩, hensure, hrun⟩ := of_bind_ok hrun
      have hsound := ensureBufferLength_sound hfirst hensure
      cases room with
      | false =>
        cases hrun
        exact hsound
      | true =>
        obtain ⟨⟨n', mem'⟩, hagain, hrun⟩ := of_bind_ok hrun
        dsimp only at hrun
        split at hrun
        · cases hrun
          exact hsound.setRef ((vsnprintf_length hagain).trans hsound.getRef_length)
        · cases hrun
          exact hsound.write (vsnprintf_length hagain) _

theorem assign_sound (h : Sound b) {msg : List UInt8} {len : Nat} {ok : Bool} {b' : LogBuffer}
    (hrun : b.assign junk msg len = .ok (ok, b')) : Sound b' := by
  unfold assign at hrun
  split at hrun
  · cases hrun
    exact h
  · exact append_sound (reset_sound h) hrun

theorem perform_sound (h : Sound b) {call : Call} {ok : Bool} {b' : LogBuffer}
    (hrun : b.perform junk call = .ok (ok, b')) : Sound b' := by
  cases call with
  | append msg len => exact append_sound h hrun
  | appendChars count c => exact appendChars_sound h hrun
  | appendV added => exact appendV_sound h hrun
  | assign msg len => exact assign_sound h hrun
  | reset =>
    cases hrun
    exact reset_sound h

/-! ## §7 Nothing is lost -/

/-- What a call should do: succeed, and leave its text. -/
def spec (text : List UInt8 × Bool) (call : Call) : Bool × (List UInt8 × Bool) :=
  (true, textAfter text call)

theorem runSpec_spec (calls : List Call) (text : List UInt8 × Bool) :
    runSpec spec text calls = (calls.map fun _ => true, calls.foldl textAfter text) := by
  induction calls generalizing text with
  | nil => rfl
  | cons call calls ih => simp only [runSpec, spec, ih, List.map_cons, List.foldl_cons]

/-- **Careful calls lose nothing**: on a new buffer each of them succeeds, the buffer holds the
    text that they leave, with room behind it, and a string that ends it is terminated.  After
    any calls at all a careful `assign` leaves exactly its string. -/
theorem log_buffer_lossless (junk : Nat → UInt8) :
    (∀ calls, MeetsEach (perform junk) Careful (new junk) calls →
      ∃ b, runCalls (perform junk) (new junk) calls = .ok (calls.map fun _ => true, b) ∧
        b.content = (calls.foldl textAfter ([], false)).1 ∧
        b.m_offset = (calls.foldl textAfter ([], false)).1.length ∧
        b.m_offset < b.m_bufferSize ∧
        ((calls.foldl textAfter ([], false)).2 = true → b.Terminated)) ∧
    (∀ calls answers b, runCalls (perform junk) (new junk) calls = .ok (answers, b) →
      ∀ msg len, Careful b (.assign msg len) →
        ∃ b', b.assign junk (msg ++ [0]) len = .ok (true, b') ∧ b'.content = textOf msg len) := by
  constructor
  · intro calls hcareful
    have hnew : Tells (new junk) ([], false) := ⟨new_holds junk, nofun⟩
    have hstep : ∀ b text call, Tells b text → Careful b call → ∃ b',
        b.perform junk call = .ok ((spec text call).1, b') ∧ Tells b' (spec text call).2 :=
      fun _ _ _ htells hcall => perform_tells htells hcall
    obtain ⟨b, hrun, hholds, hterminated⟩ := run_refines_meeting hstep hnew hcareful
    rw [runSpec_spec] at hrun hholds hterminated
    refine ⟨b, hrun, hholds.content, hholds.offset, ?_, hterminated⟩
    rw [hholds.offset]
    exact hholds.lt
  · intro calls answers b hrun msg len hcareful
    have hsound : Sound b := runCalls_invariant Sound
      (fun _ _ _ _ hs hcall => perform_sound hs hcall) hrun (new_sound junk)
    obtain ⟨b', hassign, hholds, -⟩ := assign_holds hsound hcareful
    exact ⟨b', hassign, hholds.content⟩

/-- The whole string. -/
theorem textOf_whole {msg : List UInt8} {len : Nat} (hlen : len = msg.length) :
    textOf msg len = msg := by
  subst hlen
  unfold textOf
  split
  · rename_i hnil
    rw [List.eq_nil_of_length_eq_zero hnil]
    rfl
  · exact List.take_length

/-- A whole string that fits behind one that ends the text is appended with care. -/
theorem Tells.careful_append {text msg : List UInt8} {len : Nat} (h : Tells b (text, true))
    (hfree : 0 ∉ text) (hlen : len = msg.length)
    (hbelow : text.length + len < COMMUTIL_MAX_BUFFER_SIZE)
    (hinside : ∀ k, text.length + len ≠ 1024 * 2 ^ k) : Careful b (.append msg len) := by
  obtain ⟨hholds, hterminated⟩ := h
  have hoffset : b.m_offset = text.length := hholds.offset
  refine ⟨Nat.le_of_eq hlen, ?_, ?_, .inr ?_⟩
  all_goals rw [textOf_whole hlen]
  · refine ⟨?_, ?_, fun _ => ?_⟩
    · rw [hoffset, ← hlen]
      exact hbelow
    · rw [hoffset, ← hlen]
      exact hinside
    · rw [hholds.content]
      exact hfree
  · -- the terminator is in the storage that the text leaves
    intro hleaves
    have hmem := List.mem_of_getElem? (hterminated rfl)
    rw [getRef, hleaves.1] at hmem
    exact hmem
  · rw [List.getElem?_append_right (Nat.le_refl _), Nat.sub_self]
    rfl

/-- A new buffer is assigned a string, grows out of its fixed storage with the next one, and takes a
    third. -/
theorem log_buffer_lossless_grown :
    ∃ b, runCalls (perform fun _ => 7) (new fun _ => 7)
        [.assign [97] 1, .append (List.replicate 1200 98) 1200, .append [99] 1] =
          .ok ([true, true, true], b) ∧
      b.content = [97] ++ List.replicate 1200 98 ++ [99] ∧ b.Terminated := by
  have hline : textOf (List.replicate 1200 98) 1200 = List.replicate 1200 98 :=
    textOf_whole List.length_replicate.symm
  have hnew : Tells (new fun _ => 7) ([], false) := ⟨new_holds _, nofun⟩
  have hassign : Careful (new fun _ => 7) (.assign [97] 1) := by
    refine ⟨rfl, rfl, Nat.le_refl 1, ⟨show 0 + 1 < 16384 by decide, fun k => ?_, fun hleaves => ?_⟩,
      fun hleaves => ?_, .inr rfl⟩
    · show 0 + 1 ≠ 1024 * 2 ^ k
      omega
    · exact absurd hleaves.2 (show ¬ 1024 < 0 + 1 by decide)
    · exact absurd hleaves.2 (show ¬ 1024 < 0 + 1 by decide)
  have hmeets : MeetsEach (perform fun _ => 7) Careful (new fun _ => 7)
      [.assign [97] 1, .append (List.replicate 1200 98) 1200, .append [99] 1] := by
    refine ⟨hassign, fun ok b₁ hb₁ => ?_⟩
    obtain ⟨b₁', hb₁', htells₁⟩ := perform_tells hnew hassign
    cases hb₁.symm.trans hb₁'
    have hgrows : Careful b₁ (.append (List.replicate 1200 98) 1200) := by
      refine htells₁.careful_append (by decide) List.length_replicate.symm ?_ fun k => ?_
      · exact show 1 + 1200 < 16384 by decide
      · show 1 + 1200 ≠ 1024 * 2 ^ k
        omega
    refine ⟨hgrows, fun ok b₂ hb₂ => ?_⟩
    obtain ⟨b₂', hb₂', htells₂⟩ := perform_tells htells₁ hgrows
    cases hb₂.symm.trans hb₂'
    simp only [textAfter, hline] at htells₂
    refine ⟨htells₂.careful_append ?_ rfl ?_ fun k => ?_, fun _ _ _ => trivial⟩
    · intro hmem
      rcases List.mem_append.mp hmem with hmem | hmem
      · exact absurd hmem (by decide)
      · exact absurd (List.eq_of_mem_replicate hmem) (by decide)
    · rw [List.length_append, List.length_replicate]
      exact show 1 + 1200 + 1 < 16384 by decide
    · rw [List.length_append, List.length_replicate]
      show 1 + 1200 + 1 ≠ 1024 * 2 ^ k
      omega
  obtain ⟨b, hrun, hcontent, -, -, hterminated⟩ := (log_buffer_lossless fun _ => 7).1 _ hmeets
  refine ⟨b, hrun, ?_, hterminated rfl⟩
  rw [hcontent]
  simp only [List.foldl_cons, List.foldl_nil, textAfter, hline]
  rfl

/-- On a buffer that is in use `assign` appends. -/
theorem assign_keeps_old_text :
    ∃ b, runCalls (perform fun _ => 0) (new fun _ => 0) [.append [97] 0, .assign [98] 0] =
        .ok ([true, true], b) ∧ b.content = [97, 98] ∧ b.content ≠ textOf [98] 0 := by
  have hrun : (runCalls (perform fun _ => 0) (new fun _ => 0)
      [.append [97] 0, .assign [98] 0]).map (fun r => (r.1, r.2.content)) =
        .ok ([true, true], [97, 98]) := by decide +kernel
  cases hcalls : runCalls (perform fun _ => 0) (new fun _ => 0)
      [.append [97] 0, .assign [98] 0] with
  | error fault =>
    rw [hcalls] at hrun
    cases hrun
  | ok r =>
    obtain ⟨answers, b⟩ := r
    rw [hcalls] at hrun
    obtain ⟨hanswers, hcontent⟩ := Prod.mk.inj (Except.ok.inj hrun)
    dsimp only at hanswers hcontent
    rw [hanswers]
    refine ⟨b, rfl, hcontent, ?_⟩
    rw [hcontent]
    decide

end LogBuffer

end Commutil.Logging
