import Mathlib.Algebra.Group.Nat.Defs
import Mathlib.Tactic.Common

/-!
# Memory Images of Unsigned Integers

On a little-endian machine an `n`-byte unsigned integer lies in memory with its
least significant byte first.  `leBytes` and `ofLeBytes` go from the value to
that image and back; `byteSwap` is the conversion between the little- and the
big-endian reading of the same bytes (`htons`, `htonl`, `htonll` and their
inverses, one function for all widths).
-/

namespace Commutil.Library

/-! ## §1 Images and values -/

/-- The `n` bytes of `v`, least significant first. -/
def leBytes : Nat → Nat → List UInt8
  | 0, _ => []
  | n + 1, v => UInt8.ofNat (v % 256) :: leBytes n (v / 256)

/-- The value of a byte string read least significant byte first. -/
def ofLeBytes : List UInt8 → Nat
  | [] => 0
  | b :: bs => b.toNat + 256 * ofLeBytes bs

/-- The value whose image is the reversed image of `v`. -/
def byteSwap (n v : Nat) : Nat := ofLeBytes (leBytes n v).reverse

@[simp] theorem leBytes_length (n v : Nat) : (leBytes n v).length = n := by
  induction n generalizing v with
  | zero => rfl
  | succ n ih => simp only [leBytes, List.length_cons, ih]

theorem ofLeBytes_lt (bs : List UInt8) : ofLeBytes bs < 256 ^ bs.length := by
  induction bs with
  | nil => simp [ofLeBytes]
  | cons b bs ih =>
    have hb := b.toNat_lt
    simp only [ofLeBytes, List.length_cons, Nat.pow_succ]
    omega

/-- Reading an image back gives the value, cut to the width of the image. -/
theorem ofLeBytes_leBytes (n v : Nat) (hv : v < 256 ^ n) : ofLeBytes (leBytes n v) = v := by
  induction n generalizing v with
  | zero =>
    simp only [Nat.pow_zero] at hv
    simp only [leBytes, ofLeBytes]
    omega
  | succ n ih =>
    have hdiv : v / 256 < 256 ^ n := by
      rw [Nat.pow_succ] at hv
      omega
    have hbyte : (UInt8.ofNat (v % 256)).toNat = v % 256 :=
      UInt8.toNat_ofNat_of_lt (Nat.mod_lt _ (by decide))
    simp only [leBytes, ofLeBytes, ih _ hdiv, hbyte]
    omega

/-- Every byte string of length `n` is the image of its value. -/
theorem leBytes_ofLeBytes (bs : List UInt8) : leBytes bs.length (ofLeBytes bs) = bs := by
  induction bs with
  | nil => rfl
  | cons b bs ih =>
    have hb := b.toNat_lt
    have hmod : (b.toNat + 256 * ofLeBytes bs) % 256 = b.toNat := by omega
    have hdiv : (b.toNat + 256 * ofLeBytes bs) / 256 = ofLeBytes bs := by omega
    simp only [List.length_cons, leBytes, ofLeBytes, hmod, hdiv, ih, UInt8.ofNat_toNat]

/-! ## §2 Byte swapping -/

theorem byteSwap_lt (n v : Nat) : byteSwap n v < 256 ^ n := by
  have h := ofLeBytes_lt (leBytes n v).reverse
  rwa [List.length_reverse, leBytes_length] at h

/-- The image of a swapped value is the reversed image. -/
theorem leBytes_byteSwap (n v : Nat) : leBytes n (byteSwap n v) = (leBytes n v).reverse := by
  have h := leBytes_ofLeBytes (leBytes n v).reverse
  rwa [List.length_reverse, leBytes_length] at h

/-- Swapping twice gives the value back. -/
theorem byteSwap_byteSwap (n v : Nat) (hv : v < 256 ^ n) : byteSwap n (byteSwap n v) = v := by
  rw [byteSwap, leBytes_byteSwap, List.reverse_reverse, ofLeBytes_leBytes n v hv]

end Commutil.Library
