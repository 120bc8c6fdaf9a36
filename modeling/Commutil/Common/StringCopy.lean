import Commutil.Basic
import Commutil.Library.Overwrite

/-!
# String Copies

`commutil_strncpy` of `commutil_common.cpp` and the functions of the C library it goes through,
with every access checked.

A copy takes as many characters as there is room for besides a terminator.  Where the string
leaves room for more than its terminator, the character behind it is copied along, whatever it is
(`commutilStrncpy_spec`).
-/

namespace Commutil.Common

open Commutil.Library

/-! ## §1 The code -/

/-- `strlen` of the string at the start of the readable bytes `src`. -/
def strlen (src : List UInt8) : Except Fault Nat :=
  match src.findIdx? (· = 0) with
  | some n => .ok n
  | none => .error .outOfBounds

/-- The first `n` of the readable bytes `src`. -/
def loadBytes (src : List UInt8) (n : Nat) : Except Fault (List UInt8) :=
  if n ≤ src.length then .ok (src.take n) else .error .outOfBounds

/-- Bytes stored in a memory from index `i` on. -/
def storeBytes (mem : List UInt8) (i : Nat) (bytes : List UInt8) : Except Fault (List UInt8) :=
  if i + bytes.length ≤ mem.length then .ok (overwrite mem i bytes) else .error .heapOverflow

/-- `srcLen`, or `strlen(src)` if it is zero. -/
def lengthOr (src : List UInt8) (srcLen : Nat) : Except Fault Nat :=
  if srcLen = 0 then strlen src else pure srcLen

/-- `commutil_strncpy` to the bytes from index `dest` of `mem` on.  Without room for a terminator
    `destLen - 1` wraps around. -/
def commutilStrncpy (mem : List UInt8) (dest : Nat) (src : List UInt8) (destLen srcLen : Nat) :
    Except Fault (Nat × List UInt8) := do
  let srcLen ← lengthOr src srcLen
  if srcLen + 1 < destLen then
    let bytes ← loadBytes src (srcLen + 1)
    let mem ← storeBytes mem dest bytes
    pure (srcLen, mem)
  else
    let copyLen := sub64 destLen 1
    let bytes ← loadBytes src copyLen
    let mem ← storeBytes mem dest bytes
    let mem ← storeBytes mem (dest + copyLen) [0]
    pure (copyLen, mem)

/-! ## §2 What is copied -/

private theorem findIdx_zero_eq_none {text : List UInt8} (h : 0 ∉ text) :
    text.findIdx? (· = 0) = none := by
  rw [List.findIdx?_eq_none_iff]
  intro c hc
  exact decide_eq_false fun hzero => h (hzero ▸ hc)

theorem strlen_eq {text rest : List UInt8} (h : 0 ∉ text) :
    strlen (text ++ 0 :: rest) = .ok text.length := by
  have hzero : (0 :: rest).findIdx? (· = (0 : UInt8)) = some 0 := rfl
  rw [strlen, List.findIdx?_append, findIdx_zero_eq_none h, hzero]
  simp

theorem strlen_error {src : List UInt8} (h : 0 ∉ src) : strlen src = .error .outOfBounds := by
  rw [strlen, findIdx_zero_eq_none h]

/-- The string in a terminated array. -/
theorem strlen_terminated (msg : List UInt8) :
    strlen (msg ++ [0]) = .ok (msg.takeWhile (· ≠ 0)).length := by
  have hfind : (msg ++ [0]).findIdx? (· = 0) = some (msg.takeWhile (· ≠ 0)).length := by
    induction msg with
    | nil => rfl
    | cons c msg ih =>
      rw [List.cons_append, List.findIdx?_cons, ih]
      by_cases hc : c = 0
      · simp [hc]
      · simp [hc]
  rw [strlen, hfind]

/-- The string that ends at the first zero byte. -/
theorem strlen_of_mem {src : List UInt8} (h : 0 ∈ src) :
    ∃ text rest, src = text ++ 0 :: rest ∧ 0 ∉ text ∧ strlen src = .ok text.length := by
  obtain ⟨text, rest, rfl, hfree⟩ := List.eq_append_cons_of_mem h
  exact ⟨text, rest, rfl, hfree, strlen_eq hfree⟩

theorem loadBytes_eq {src : List UInt8} {n : Nat} (h : n ≤ src.length) :
    loadBytes src n = .ok (src.take n) :=
  if_pos h

theorem storeBytes_eq {mem bytes : List UInt8} {i : Nat} (h : i + bytes.length ≤ mem.length) :
    storeBytes mem i bytes = .ok (overwrite mem i bytes) :=
  if_pos h

theorem storeBytes_length {mem mem' bytes : List UInt8} {i : Nat}
    (h : storeBytes mem i bytes = .ok mem') : mem'.length = mem.length := by
  unfold storeBytes at h
  split at h
  · rename_i hroom
    cases h
    exact overwrite_length hroom
  · cases h

theorem commutilStrncpy_length {mem mem' src : List UInt8} {dest destLen srcLen copied : Nat}
    (h : commutilStrncpy mem dest src destLen srcLen = .ok (copied, mem')) :
    mem'.length = mem.length := by
  unfold commutilStrncpy at h
  generalize sub64 destLen 1 = copyLen at h
  obtain ⟨n, -, h⟩ := of_bind_ok h
  split at h
  · obtain ⟨bytes, -, h⟩ := of_bind_ok h
    obtain ⟨mem₁, hstore, h⟩ := of_bind_ok h
    cases h
    exact storeBytes_length hstore
  · obtain ⟨bytes, -, h⟩ := of_bind_ok h
    obtain ⟨mem₁, hstore, h⟩ := of_bind_ok h
    obtain ⟨mem₂, hterminator, h⟩ := of_bind_ok h
    cases h
    exact (storeBytes_length hterminator).trans (storeBytes_length hstore)

/-- **The copy**: as many characters of the string as fit besides a terminator, and one byte more,
    which is the terminator or the byte behind the string. -/
theorem commutilStrncpy_spec {mem src : List UInt8} {dest destLen srcLen n : Nat}
    (hn : lengthOr src srcLen = .ok n) (hpos : 0 < destLen) (hlt : destLen < 2 ^ 64)
    (hsrc : min n (destLen - 1) < src.length) (hmem : dest + destLen ≤ mem.length) :
    ∃ last, (last = 0 ∨ n + 1 < destLen ∧ src[n]? = some last) ∧
      commutilStrncpy mem dest src destLen srcLen =
        .ok (min n (destLen - 1),
          overwrite mem dest (src.take (min n (destLen - 1)) ++ [last])) := by
  have hcopy : sub64 destLen 1 = destLen - 1 := sub64_eq hpos hlt
  unfold commutilStrncpy
  generalize sub64 destLen 1 = copyLen at hcopy
  subst hcopy
  simp only [hn, bind, Except.bind]
  by_cases hroom : n + 1 < destLen
  · -- the byte behind the string is copied along
    have hmin : min n (destLen - 1) = n := Nat.min_eq_left (by omega)
    rw [hmin] at hsrc ⊢
    have hall : n + 1 ≤ src.length := hsrc
    have hbytes : src.take (n + 1) = src.take n ++ [src[n]] := List.take_succ_eq_append_getElem hsrc
    have hlength : (src.take (n + 1)).length = n + 1 := List.length_take_of_le hall
    refine ⟨src[n], .inr ⟨hroom, List.getElem?_eq_getElem hsrc⟩, ?_⟩
    simp only [if_pos hroom, loadBytes_eq hall]
    rw [storeBytes_eq (by omega), hbytes]
    rfl
  · have hmin : min n (destLen - 1) = destLen - 1 := Nat.min_eq_right (by omega)
    rw [hmin] at hsrc ⊢
    have hload : loadBytes src (destLen - 1) = .ok (src.take (destLen - 1)) :=
      loadBytes_eq (Nat.le_of_lt hsrc)
    have hlength : (src.take (destLen - 1)).length = destLen - 1 :=
      List.length_take_of_le (by omega)
    generalize src.take (destLen - 1) = bytes at hload hlength ⊢
    have hstored : dest + bytes.length ≤ mem.length := by omega
    have hterminated : storeBytes (overwrite mem dest bytes) (dest + (destLen - 1)) [0] =
        .ok (overwrite mem dest (bytes ++ [0])) := by
      have hroom' : dest + bytes.length + [(0 : UInt8)].length ≤ mem.length := by
        rw [List.length_singleton]
        omega
      rw [← hlength, ← overwrite_append hroom', storeBytes_eq]
      rw [overwrite_length hstored]
      exact hroom'
    refine ⟨0, .inl rfl, ?_⟩
    simp only [if_neg hroom, hload, storeBytes_eq hstored, hterminated]
    rfl

end Commutil.Common
