import Commutil.Basic
import Commutil.Library.PartialLoop

/-!
# The gzip Wrapper

`gzip/compress.hpp` and `gzip/decompress.hpp`, the vendored wrapper over zlib.

zlib itself is a parameter.  Decompression is modelled call by call: the wrapper gives
`inflate` twice the size of the input to write to, and calls it again as long as it fills
that.  Three things follow that the callers do not expect: the wrapper throws when zlib
refuses the data, it throws when the pieces come to more than 1 GB, and for empty data it
gives `inflate` no room at all and never returns.
-/

namespace Commutil.Framing

open Commutil.Library

/-! ## §1 The code -/

def Z_OK : Int := 0

def Z_STREAM_END : Int := 1

def Z_BUF_ERROR : Int := -5

/-- zlib under the gzip wrapper. -/
structure Zlib where
  /-- What the calls of `deflate` write for the data, if `deflateInit2` succeeds. -/
  deflate : List UInt8 → Option (List UInt8)
  /-- The result of `inflateInit2`. -/
  inflateInit2 : Int
  /-- The result of call `n` of `inflate` for the data with `room` bytes to write to, and what it
      writes. -/
  inflate : (data : List UInt8) → (room n : Nat) → Int × List UInt8
  inflate_le : ∀ data room n, (inflate data room n).2.length ≤ room

namespace Zlib

/-- `gzip::Compressor::compress`, which refuses more than 2 GB. -/
def compress (z : Zlib) (data : List UInt8) : Except Fault (List UInt8) :=
  if 2000000000 < data.length then .error .uncaughtException
  else
    match z.deflate data with
    | none => .error .uncaughtException
    | some compressed => .ok compressed

/-- `Decompressor::max_`. -/
def maxBytes : Nat := 1000000000

/-- One pass of the loop of `decompress`: the output so far, and the calls of `inflate`. -/
def inflateStep (z : Zlib) (data : List UInt8) (s : List UInt8 × Nat) :
    LoopStep (List UInt8 × Nat) Fault :=
  let room := 2 * data.length
  let resize_to := s.1.length + room
  if maxBytes < resize_to then .fault .uncaughtException
  else
    let call := z.inflate data room s.2
    if call.1 ≠ Z_STREAM_END ∧ call.1 ≠ Z_OK ∧ call.1 ≠ Z_BUF_ERROR then .fault .uncaughtException
    else
      let avail_out := room - call.2.length
      if avail_out = 0 then .next (s.1 ++ call.2, s.2 + 1) else .done (s.1 ++ call.2, s.2 + 1)

/-- `gzip::Decompressor::decompress`.  Every pass adds twice the size of the data to the output or
    is the last one, so the limit bounds the passes, unless there is no data. -/
def decompress (z : Zlib) (data : List UInt8) : Except Fault (List UInt8) :=
  if z.inflateInit2 ≠ Z_OK then .error .uncaughtException
  else if maxBytes < data.length ∨ maxBytes < data.length * 2 then .error .uncaughtException
  else
    match LoopStep.iterate (z.inflateStep data) (maxBytes / (2 * data.length) + 2) ([], 0) with
    | none => .error .outOfFuel
    | some (.error fault) => .error fault
    | some (.ok output) => .ok output.1

/-! ## §2 The calls of `inflate` -/

/-- zlib goes on, or is at the end of the data. -/
def Accepted (ret : Int) : Prop := ret = Z_STREAM_END ∨ ret = Z_OK ∨ ret = Z_BUF_ERROR

/-- Call `n` of `inflate` fills the room. -/
def Fills (z : Zlib) (data : List UInt8) (n : Nat) : Prop :=
  Accepted (z.inflate data (2 * data.length) n).1 ∧
    (z.inflate data (2 * data.length) n).2.length = 2 * data.length

/-- Call `n` of `inflate` leaves some room. -/
def LeavesRoom (z : Zlib) (data : List UInt8) (n : Nat) : Prop :=
  Accepted (z.inflate data (2 * data.length) n).1 ∧
    (z.inflate data (2 * data.length) n).2.length < 2 * data.length

/-- zlib accepts the data, and one of the pieces in which it inflates, each of twice the size of the
    data, is not full, before they come to more than the limit. -/
def Decompresses (z : Zlib) (data : List UInt8) : Prop :=
  z.inflateInit2 = Z_OK ∧ ∃ n, 2 * data.length * (n + 1) ≤ maxBytes ∧
    (∀ k < n, z.Fills data k) ∧ z.LeavesRoom data n

variable {z : Zlib} {data out : List UInt8} {n : Nat}

theorem accepted_iff {ret : Int} :
    ¬ (ret ≠ Z_STREAM_END ∧ ret ≠ Z_OK ∧ ret ≠ Z_BUF_ERROR) ↔ Accepted ret := by
  unfold Accepted
  tauto

theorem inflateStep_limit (h : maxBytes < out.length + 2 * data.length) :
    z.inflateStep data (out, n) = .fault .uncaughtException := if_pos h

theorem inflateStep_refused (h : ¬ Accepted (z.inflate data (2 * data.length) n).1) :
    z.inflateStep data (out, n) = .fault .uncaughtException := by
  unfold inflateStep
  dsimp only
  rw [if_pos (not_not.mp fun hnot => h (accepted_iff.mp hnot)), ite_self]

theorem inflateStep_fills (hlimit : out.length + 2 * data.length ≤ maxBytes)
    (h : z.Fills data n) : z.inflateStep data (out, n) =
      .next (out ++ (z.inflate data (2 * data.length) n).2, n + 1) := by
  unfold inflateStep
  dsimp only
  rw [if_neg (not_lt.mpr hlimit), if_neg (accepted_iff.mpr h.1),
    if_pos (Nat.sub_eq_zero_of_le h.2.ge)]

theorem inflateStep_leavesRoom (hlimit : out.length + 2 * data.length ≤ maxBytes)
    (h : z.LeavesRoom data n) : z.inflateStep data (out, n) =
      .done (out ++ (z.inflate data (2 * data.length) n).2, n + 1) := by
  unfold inflateStep
  dsimp only
  rw [if_neg (not_lt.mpr hlimit), if_neg (accepted_iff.mpr h.1),
    if_neg (Nat.sub_ne_zero_of_lt h.2)]

/-- A pass throws, goes round again with a full piece more, or is the last one. -/
theorem inflateStep_cases (z : Zlib) (data out : List UInt8) (n : Nat) :
    z.inflateStep data (out, n) = .fault .uncaughtException ∨
    out.length + 2 * data.length ≤ maxBytes ∧ z.Fills data n ∧
      z.inflateStep data (out, n) =
        .next (out ++ (z.inflate data (2 * data.length) n).2, n + 1) ∨
    out.length + 2 * data.length ≤ maxBytes ∧ z.LeavesRoom data n ∧
      z.inflateStep data (out, n) =
        .done (out ++ (z.inflate data (2 * data.length) n).2, n + 1) := by
  rcases Nat.lt_or_ge maxBytes (out.length + 2 * data.length) with hlimit | hlimit
  · exact .inl (inflateStep_limit hlimit)
  by_cases haccepted : Accepted (z.inflate data (2 * data.length) n).1
  · rcases Nat.eq_or_lt_of_le (z.inflate_le data (2 * data.length) n) with hfull | hroom
    · exact .inr (.inl ⟨hlimit, ⟨haccepted, hfull⟩, inflateStep_fills hlimit ⟨haccepted, hfull⟩⟩)
    · exact .inr (.inr ⟨hlimit, ⟨haccepted, hroom⟩,
        inflateStep_leavesRoom hlimit ⟨haccepted, hroom⟩⟩)
  · exact .inl (inflateStep_refused haccepted)

/-! ## §3 When decompression returns -/

/-- Before every pass there are as many full pieces as there were calls. -/
theorem visits_inflateStep {s : List UInt8 × Nat}
    (h : LoopStep.Visits (z.inflateStep data) ([], 0) s) :
    s.1.length = 2 * data.length * s.2 ∧ ∀ k < s.2, z.Fills data k := by
  refine h.invariant (fun s => s.1.length = 2 * data.length * s.2 ∧ ∀ k < s.2, z.Fills data k) ?_
    ⟨rfl, nofun⟩
  rintro ⟨out, n⟩ b ⟨hlength, hfills⟩ hnext
  rcases z.inflateStep_cases data out n with hfault | ⟨-, hfull, hstep⟩ | ⟨-, -, hstep⟩
  · rw [hfault] at hnext
    cases hnext
  · rw [hstep] at hnext
    cases hnext
    refine ⟨?_, fun k hk => ?_⟩
    · rw [List.length_append, hlength, hfull.2, Nat.mul_succ]
    · rcases Nat.lt_succ_iff_lt_or_eq.mp hk with hlt | rfl
      · exact hfills k hlt
      · exact hfull
  · rw [hstep] at hnext
    cases hnext

theorem passes_of_fills (hfills : ∀ k < n, z.Fills data k)
    (hlimit : 2 * data.length * n ≤ maxBytes) :
    ∃ out, LoopStep.passes (z.inflateStep data) n ([], 0) = some (out, n) ∧
      out.length = 2 * data.length * n := by
  induction n with
  | zero => exact ⟨[], rfl, rfl⟩
  | succ n ih =>
    rw [Nat.mul_succ] at hlimit
    obtain ⟨out, hpasses, hlength⟩ := ih (fun k hk => hfills k (Nat.lt_succ_of_lt hk)) (by omega)
    have hfull := hfills n (Nat.lt_succ_self n)
    have hstep : z.inflateStep data (out, n) = .next _ :=
      inflateStep_fills (by rw [hlength]; exact hlimit) hfull
    refine ⟨_, LoopStep.passes_succ_of_next hpasses hstep, ?_⟩
    rw [List.length_append, hlength, hfull.2, Nat.mul_succ]

/-- Where full pieces go beyond the limit, the loop does not go on. -/
theorem iterate_returns {more : Nat}
    (hmore : maxBytes < 2 * data.length * (n + more)) (hlength : out.length = 2 * data.length * n) :
    ∃ r, LoopStep.iterate (z.inflateStep data) (more + 1) (out, n) = some r := by
  induction more generalizing n out with
  | zero =>
    rw [Nat.add_zero] at hmore
    have hfault : z.inflateStep data (out, n) = .fault .uncaughtException :=
      inflateStep_limit (by rw [hlength]; omega)
    exact ⟨.error .uncaughtException, by simp only [LoopStep.iterate, hfault]⟩
  | succ more ih =>
    rcases z.inflateStep_cases data out n with hfault | ⟨-, hfull, hstep⟩ | ⟨-, -, hstep⟩
    · exact ⟨.error .uncaughtException, by simp only [LoopStep.iterate, hfault]⟩
    · rw [LoopStep.iterate_succ_of_next hstep]
      refine ih ?_ ?_
      · rw [Nat.add_right_comm, Nat.add_assoc]
        exact hmore
      · rw [List.length_append, hlength, hfull.2, Nat.mul_succ]
    · exact ⟨.ok (_, _), by simp only [LoopStep.iterate, hstep]; rfl⟩

/-- **Decompression returns** exactly if zlib accepts the data and the output ends in time. -/
theorem decompress_ok_iff (z : Zlib) (data : List UInt8) :
    (∃ decompressed, z.decompress data = .ok decompressed) ↔ z.Decompresses data := by
  constructor
  · rintro ⟨decompressed, h⟩
    unfold decompress at h
    split at h
    · cases h
    rename_i hinit
    split at h
    · cases h
    split at h
    · cases h
    · cases h
    rename_i output hiterate
    -- the last pass is the one that left some room
    have hends : LoopStep.Ends (z.inflateStep data) ([], 0) output := ⟨_, hiterate⟩
    obtain ⟨⟨out, n⟩, hvisits, hdone⟩ := hends.exists_last
    obtain ⟨hlength, hfills⟩ := visits_inflateStep hvisits
    refine ⟨not_not.mp hinit, n, ?_, hfills, ?_⟩
    · rcases z.inflateStep_cases data out n with hfault | ⟨-, -, hstep⟩ | ⟨hlimit, -, -⟩
      · rw [hfault] at hdone
        cases hdone
      · rw [hstep] at hdone
        cases hdone
      · rw [hlength] at hlimit
        rw [Nat.mul_succ]
        exact hlimit
    · rcases z.inflateStep_cases data out n with hfault | ⟨-, -, hstep⟩ | ⟨-, hroom, -⟩
      · rw [hfault] at hdone
        cases hdone
      · rw [hstep] at hdone
        cases hdone
      · exact hroom
  · rintro ⟨hinit, n, hlimit, hfills, hroom⟩
    rw [Nat.mul_succ] at hlimit
    obtain ⟨out, hpasses, hlength⟩ := passes_of_fills hfills (by omega)
    have hdone := LoopStep.iterate_of_passes hpasses
      (inflateStep_leavesRoom (by rw [hlength]; exact hlimit) hroom)
    have hfuel : n + 1 ≤ maxBytes / (2 * data.length) + 2 := by
      have hpos : 0 < 2 * data.length := Nat.lt_of_le_of_lt (Nat.zero_le _) hroom.2
      have hle : n ≤ maxBytes / (2 * data.length) :=
        (Nat.le_div_iff_mul_le hpos).mpr (by rw [Nat.mul_comm]; omega)
      omega
    refine ⟨out ++ (z.inflate data (2 * data.length) n).2, ?_⟩
    unfold decompress
    rw [if_neg (not_not.mpr hinit), if_neg (by omega), LoopStep.iterate_mono hdone hfuel]

/-- **Otherwise it throws**, or there is no data and the loop is not left. -/
theorem decompress_error {fault : Fault} (h : z.decompress data = .error fault) :
    fault = .uncaughtException ∨ fault = .outOfFuel ∧ data = [] := by
  unfold decompress at h
  split at h
  · cases h
    exact .inl rfl
  split at h
  · cases h
    exact .inl rfl
  split at h
  · rename_i hiterate
    cases h
    refine .inr ⟨rfl, ?_⟩
    by_contra hdata
    have hpos : 0 < 2 * data.length := by
      have := List.length_pos_iff.mpr hdata
      omega
    obtain ⟨r, hr⟩ := @iterate_returns z data [] 0 (maxBytes / (2 * data.length) + 1)
      (by rw [Nat.zero_add]; exact Nat.lt_mul_div_succ _ hpos) rfl
    rw [hr] at hiterate
    cases hiterate
  · rename_i fault' hiterate
    cases h
    have hfaults : LoopStep.Faults (z.inflateStep data) ([], 0) fault := ⟨_, hiterate⟩
    obtain ⟨⟨out, n⟩, -, hfault⟩ := hfaults.exists_last
    rcases z.inflateStep_cases data out n with hthrows | ⟨-, -, hstep⟩ | ⟨-, -, hstep⟩
    · rw [hthrows] at hfault
      exact .inl (LoopStep.fault.inj hfault).symm
    · rw [hstep] at hfault
      cases hfault
    · rw [hstep] at hfault
      cases hfault
  · cases h

/-- **An empty payload** is never decompressed: while zlib accepts it, the loop goes on. -/
theorem decompress_nil_diverges (h : ∀ n, Accepted (z.inflate [] 0 n).1) :
    LoopStep.Diverges (z.inflateStep []) ([], 0) := by
  intro m
  have hfills : ∀ k < m, z.Fills [] k :=
    fun k _ => ⟨h k, Nat.le_zero.mp (z.inflate_le [] 0 k)⟩
  obtain ⟨out, hpasses, -⟩ := passes_of_fills hfills (by simp)
  exact LoopStep.iterate_eq_none_of_passes hpasses

/-- Data that is decompressed is at most half the limit. -/
theorem decompress_length {decompressed : List UInt8}
    (h : z.decompress data = .ok decompressed) : data.length * 2 ≤ 1000000000 := by
  unfold decompress at h
  split at h
  · cases h
  split at h
  · cases h
  · rename_i hlimit
    have hmax : maxBytes = 1000000000 := rfl
    omega

/-- zlib by what the data deflates and inflates to as a whole: each call of `inflate` writes as much
    of that as there is room for, and data that it does not know is refused. -/
def ofWhole (deflate inflate : List UInt8 → Option (List UInt8)) : Zlib where
  deflate := deflate
  inflateInit2 := Z_OK
  inflate data room n :=
    match inflate data with
    | none => (-3, [])
    | some whole => (if whole.length ≤ (n + 1) * room then Z_STREAM_END else Z_BUF_ERROR,
        (whole.drop (n * room)).take room)
  inflate_le data room n := by
    cases inflate data with
    | none => exact Nat.zero_le _
    | some whole => exact List.length_take_le _ _

end Zlib

end Commutil.Framing
