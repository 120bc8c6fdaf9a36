import Commutil.Io.SegmentedInputStream
import Commutil.Library.Refinement

/-!
# Interchangeable Streams

`input_stream.h` promises one behaviour for all input streams: the result codes,
the bytes and counts handed back, and the size that is left.  Here the promise is
a machine over the bytes that are left (`ByteQueue`), and the three streams of the
library are compared with it call by call: the fixed stream by reference, the
fixed stream that copies its buffer, and the segmented stream.

The fixed stream by reference is the machine.  The segmented stream follows a null
`m_head` when it is depleted, and the copying stream never copies.
-/

namespace Commutil.Io

open Commutil.Library

/-! ## §1 The interface -/

/-- `class InputStream` with `skipBytes`, which also reports how many bytes it skipped. -/
class SkippingStream (σ : Type) extends InputStream σ where
  skipBytes : σ → Nat → Except Fault (ErrorCode × Nat × σ)

instance : SkippingStream FixedInputStream where
  skipBytes is length :=
    .ok ((is.skipBytes length).1, if is.size = 0 then 0 else min length is.size,
      (is.skipBytes length).2)

instance : SkippingStream SegmentedInputStream where
  skipBytes := SegmentedInputStream.skipBytes

/-- The consumer of `readUntil`: whether it goes on, from the bytes it was given so far. -/
def Consumer : Type := List UInt8 → Bool

namespace InputStream

variable {σ : Type} [InputStream σ]

/-- The loop of `readUntil`, with a bound on the number of passes. -/
def readUntilLoop (f : Consumer) :
    Nat → List UInt8 → σ → Except Fault (ErrorCode × List UInt8 × σ)
  | 0, _, _ => .error .outOfFuel
  | fuel + 1, given, s =>
    match readBytes s 1 with
    | .error fault => .error fault
    | .ok (rc, bytes, s') =>
      if rc ≠ .ok then .ok (rc, given, s')
      else
        match bytes with
        | [] => .ok (.endOfStream, given, s')
        | byte :: _ =>
          if f (given ++ [byte]) then readUntilLoop f fuel (given ++ [byte]) s'
          else .ok (.ok, given ++ [byte], s')

/-- `InputStream::readUntil`: the result code, the bytes given to the consumer and the stream
    afterwards.  Every pass but the last one takes a byte. -/
def readUntil (f : Consumer) (s : σ) : Except Fault (ErrorCode × List UInt8 × σ) :=
  readUntilLoop f (size s + 1) [] s

end InputStream

/-- A call of the interface; `T` is a type of at least one byte. -/
inductive InputCall where
  | peekBytes (length : Nat)
  | readBytes (length : Nat)
  | skipBytes (length : Nat)
  | peek (sizeofT : Nat) (pos : 0 < sizeofT)
  | read (sizeofT : Nat) (pos : 0 < sizeofT)
  | readUntil (f : Consumer)

/-- What a call hands back: the result code, the bytes, their number, and the size of the stream
    afterwards. -/
structure InputAnswer where
  rc : ErrorCode
  bytes : List UInt8
  count : Nat
  size : Nat
  deriving DecidableEq, Repr

/-- The answer to a typed call. -/
def typedAnswer (value : Except ErrorCode (List UInt8)) (size : Nat) : InputAnswer :=
  match value with
  | .ok bytes => ⟨.ok, bytes, bytes.length, size⟩
  | .error rc => ⟨rc, [], 0, size⟩

/-- One call on a stream. -/
def SkippingStream.call {σ : Type} [SkippingStream σ] (s : σ) :
    InputCall → Except Fault (InputAnswer × σ)
  | .peekBytes length => do
    let (rc, bytes) ← InputStream.peekBytes s length
    pure (⟨rc, bytes, bytes.length, InputStream.size s⟩, s)
  | .readBytes length => do
    let (rc, bytes, s') ← InputStream.readBytes s length
    pure (⟨rc, bytes, bytes.length, InputStream.size s'⟩, s')
  | .skipBytes length => do
    let (rc, count, s') ← SkippingStream.skipBytes s length
    pure (⟨rc, [], count, InputStream.size s'⟩, s')
  | .peek n _ => do
    let value ← InputStream.peek s n
    pure (typedAnswer value (InputStream.size s), s)
  | .read n _ => do
    let (value, s') ← InputStream.read n s
    pure (typedAnswer value (InputStream.size s'), s')
  | .readUntil f => do
    let (rc, bytes, s') ← InputStream.readUntil f s
    pure (⟨rc, bytes, bytes.length, InputStream.size s'⟩, s')

namespace FixedInputStream

/-- A stream that is to hold a copy of the buffer: `m_buf.resize(bufferSize)` makes room for it,
    and nothing is copied there. -/
def newByCopy (buffer : List UInt8) (byteOrder : ByteOrder) : FixedInputStream :=
  ⟨byteOrder, List.replicate buffer.length 0, 0⟩

end FixedInputStream

/-! ## §2 The machine -/

namespace ByteQueue

/-- What a consumer is given of some bytes, what is left after it, and whether it stopped. -/
def giveUntil (f : Consumer) : List UInt8 → List UInt8 → List UInt8 × List UInt8 × Bool
  | given, [] => (given, [], false)
  | given, byte :: rest =>
    if f (given ++ [byte]) then giveUntil f (given ++ [byte]) rest
    else (given ++ [byte], rest, true)

/-- The answer to a call that asks for `n` bytes, of which some must be there. -/
def rawAnswer (u bytes : List UInt8) (count size : Nat) : InputAnswer :=
  if u = [] then ⟨.endOfStream, [], 0, 0⟩ else ⟨.ok, bytes, count, size⟩

/-- One call, as `input_stream.h` promises it, on the bytes that are left. -/
def call (u : List UInt8) : InputCall → InputAnswer × List UInt8
  | .peekBytes n => (rawAnswer u (u.take n) (u.take n).length u.length, u)
  | .readBytes n =>
    (rawAnswer u (u.take n) (u.take n).length (u.drop n).length, u.drop n)
  | .skipBytes n => (rawAnswer u [] (u.take n).length (u.drop n).length, u.drop n)
  | .peek n _ =>
    (if u.length < n then ⟨.endOfStream, [], 0, u.length⟩ else ⟨.ok, u.take n, n, u.length⟩, u)
  | .read n _ =>
    if u.length < n then (⟨.endOfStream, [], 0, u.length⟩, u)
    else (⟨.ok, u.take n, n, (u.drop n).length⟩, u.drop n)
  | .readUntil f =>
    let (given, rest, stopped) := giveUntil f [] u
    (⟨if stopped then .ok else .endOfStream, given, given.length, rest.length⟩, rest)

/-- The bytes that a call hands out. -/
def handedOut (u : List UInt8) : InputCall → List UInt8
  | .peekBytes n => u.take n
  | .readBytes n => u.take n
  | .skipBytes _ => []
  | .peek n _ => if u.length < n then [] else u.take n
  | .read n _ => if u.length < n then [] else u.take n
  | .readUntil f => (giveUntil f [] u).1

/-- The call is not made on a depleted stream and does not run into the end of the stream; the
    typed calls look at the size first. -/
def StaysInside (u : List UInt8) : InputCall → Prop
  | .peekBytes _ => u ≠ []
  | .readBytes _ => u ≠ []
  | .skipBytes _ => u ≠ []
  | .peek _ _ => True
  | .read _ _ => True
  | .readUntil f => (giveUntil f [] u).2.2 = true

instance (u : List UInt8) : (c : InputCall) → Decidable (StaysInside u c)
  | .peekBytes _ => inferInstanceAs (Decidable (u ≠ []))
  | .readBytes _ => inferInstanceAs (Decidable (u ≠ []))
  | .skipBytes _ => inferInstanceAs (Decidable (u ≠ []))
  | .peek _ _ => inferInstanceAs (Decidable True)
  | .read _ _ => inferInstanceAs (Decidable True)
  | .readUntil f => inferInstanceAs (Decidable ((giveUntil f [] u).2.2 = true))

/-- The call stays inside the stream, and the bytes that it hands out are zero. -/
def Unnoticed (u : List UInt8) (c : InputCall) : Prop :=
  StaysInside u c ∧ ∀ byte ∈ handedOut u c, byte = 0

instance (u : List UInt8) (c : InputCall) : Decidable (Unnoticed u c) :=
  inferInstanceAs (Decidable (_ ∧ _))

/-! ## §3 Streams that are byte queues -/

section Decoding

variable {σ : Type} {R : σ → List UInt8 → Prop}

/-- On a stream that goes on with the bytes, the action takes exactly them and returns the value,
    whatever follows. -/
def Decodes {α : Type} (R : σ → List UInt8 → Prop) (x : StreamM σ α) (bytes : List UInt8) (a : α) :
    Prop :=
  ∀ rest s, R s (bytes ++ rest) → ∃ s', x s = .ok (.ok a, s') ∧ R s' rest

theorem Decodes.pure {α : Type} (a : α) : Decodes R (Pure.pure a : StreamM σ α) [] a :=
  fun _ s hR => ⟨s, rfl, hR⟩

theorem Decodes.bind {α β : Type} {x : StreamM σ α} {g : α → StreamM σ β}
    {bytes more : List UInt8} {a : α} {b : β} (hx : Decodes R x bytes a)
    (hg : Decodes R (g a) more b) : Decodes R (x >>= g) (bytes ++ more) b := by
  intro rest s hR
  rw [List.append_assoc] at hR
  obtain ⟨s₁, hs₁, hR₁⟩ := hx _ s hR
  obtain ⟨s₂, hs₂, hR₂⟩ := hg rest s₁ hR₁
  exact ⟨s₂, by rw [StreamM.bind_ok hs₁, hs₂], hR₂⟩

/-- A value that is made of what was decoded. -/
theorem Decodes.map {α β : Type} {x : StreamM σ α} {bytes : List UInt8} {a : α} {b : β}
    {g : α → β} (hx : Decodes R x bytes a) (hg : g a = b) :
    Decodes R (do return g (← x)) bytes b := by
  intro rest s hR
  obtain ⟨s', hs', hR'⟩ := hx rest s hR
  exact ⟨s', by rw [StreamM.bind_ok hs', hg]; rfl, hR'⟩

end Decoding

section Streams

variable {σ : Type} [SkippingStream σ]

/-- A stream that stands for the bytes that are left, as long as there are any. -/
structure IsByteQueue (order : ByteOrder) (R : σ → List UInt8 → Prop) : Prop where
  byteOrder_eq : ∀ {s u}, R s u → InputStream.getByteOrder s = order
  size_eq : ∀ {s u}, R s u → InputStream.size s = u.length
  peekBytes_eq : ∀ {s u}, R s u → u ≠ [] → ∀ n,
    InputStream.peekBytes s n = .ok (.ok, u.take n)
  readBytes_eq : ∀ {s u}, R s u → u ≠ [] → ∀ n,
    ∃ s', InputStream.readBytes s n = .ok (.ok, u.take n, s') ∧ R s' (u.drop n)
  skipBytes_eq : ∀ {s u}, R s u → u ≠ [] → ∀ n,
    ∃ s', SkippingStream.skipBytes s n = .ok (.ok, (u.take n).length, s') ∧ R s' (u.drop n)

/-- A stream that reports its end. -/
structure ReportsEnd (R : σ → List UInt8 → Prop) : Prop where
  peekBytes_eq : ∀ {s}, R s [] → ∀ n, InputStream.peekBytes s n = .ok (.endOfStream, [])
  readBytes_eq : ∀ {s}, R s [] → ∀ n, InputStream.readBytes s n = .ok (.endOfStream, [], s)
  skipBytes_eq : ∀ {s}, R s [] → ∀ n, SkippingStream.skipBytes s n = .ok (.endOfStream, 0, s)

/-- A stream that follows a null pointer at its end. -/
structure FaultsAtEnd (R : σ → List UInt8 → Prop) : Prop where
  peekBytes_eq : ∀ {s}, R s [] → ∀ n, InputStream.peekBytes s n = .error .nullDereference
  readBytes_eq : ∀ {s}, R s [] → ∀ n, InputStream.readBytes s n = .error .nullDereference
  skipBytes_eq : ∀ {s}, R s [] → ∀ n, SkippingStream.skipBytes s n = .error .nullDereference

variable {order : ByteOrder} {R : σ → List UInt8 → Prop}

/-- A consumer that does not stop is given everything. -/
theorem giveUntil_of_not_stopped {f : Consumer} {given u : List UInt8}
    (h : (giveUntil f given u).2.2 = false) : giveUntil f given u = (given ++ u, [], false) := by
  induction u generalizing given with
  | nil => simp [giveUntil]
  | cons byte rest ih =>
    rw [giveUntil] at h ⊢
    split at h
    · rename_i hmore
      rw [if_pos hmore, ih h, List.append_assoc, List.singleton_append]
    · cases h

/-- **The loop of `readUntil`** gives the consumer the next bytes until it stops. -/
theorem IsByteQueue.readUntilLoop_stopped (hq : IsByteQueue order R) {f : Consumer}
    {u : List UInt8} :
    ∀ {given : List UInt8} {s : σ} {fuel : Nat}, R s u → u.length < fuel →
      (giveUntil f given u).2.2 = true →
      ∃ s', InputStream.readUntilLoop f fuel given s = .ok (.ok, (giveUntil f given u).1, s') ∧
        R s' (giveUntil f given u).2.1 := by
  induction u with
  | nil =>
    intro given s fuel _ _ hstop
    cases hstop
  | cons byte rest ih =>
    intro given s fuel hR hfuel hstop
    obtain ⟨fuel, rfl⟩ : ∃ k, fuel = k + 1 := ⟨fuel - 1, by omega⟩
    obtain ⟨s', hread, hR'⟩ := hq.readBytes_eq hR (List.cons_ne_nil _ _) 1
    rw [giveUntil] at hstop ⊢
    rw [InputStream.readUntilLoop, hread]
    simp only [ne_eq, not_true, if_false, List.take_succ_cons, List.take_zero]
    split at hstop
    · rename_i hmore
      rw [if_pos hmore, if_pos hmore]
      exact ih hR' (by simpa using hfuel) hstop
    · rename_i hend
      rw [if_neg hend, if_neg hend]
      exact ⟨s', rfl, hR'⟩

/-- A consumer that does not stop takes the loop to the end of the stream. -/
theorem IsByteQueue.readUntilLoop_end (hq : IsByteQueue order R) {f : Consumer} {u : List UInt8} :
    ∀ {given : List UInt8} {s : σ} {fuel : Nat}, R s u → u.length < fuel →
      (giveUntil f given u).2.2 = false →
      ∃ s' k, R s' [] ∧ InputStream.readUntilLoop f fuel given s =
        InputStream.readUntilLoop f (k + 1) (given ++ u) s' := by
  induction u with
  | nil =>
    intro given s fuel hR hfuel _
    exact ⟨s, fuel - 1, hR, by rw [List.append_nil, Nat.sub_add_cancel (by omega)]⟩
  | cons byte rest ih =>
    intro given s fuel hR hfuel hstop
    obtain ⟨fuel, rfl⟩ : ∃ k, fuel = k + 1 := ⟨fuel - 1, by omega⟩
    obtain ⟨s', hread, hR'⟩ := hq.readBytes_eq hR (List.cons_ne_nil _ _) 1
    rw [giveUntil] at hstop
    split at hstop
    · rename_i hmore
      obtain ⟨s'', k, hR'', hloop⟩ := ih hR' (by simpa using hfuel) hstop
      refine ⟨s'', k, hR'', ?_⟩
      rw [InputStream.readUntilLoop, hread]
      simp only [ne_eq, not_true, if_false, List.take_succ_cons, List.take_zero]
      rw [if_pos hmore, hloop, List.append_assoc, List.singleton_append]
    · cases hstop

theorem ReportsEnd.readUntil_eq (he : ReportsEnd R) (hq : IsByteQueue order R) {s : σ}
    {u : List UInt8}
    (hR : R s u) {f : Consumer} (hstop : (giveUntil f [] u).2.2 = false) :
    ∃ s', InputStream.readUntil f s = .ok (.endOfStream, u, s') ∧ R s' [] := by
  obtain ⟨s', k, hR', hloop⟩ := hq.readUntilLoop_end hR (Nat.lt_succ_self _) hstop
  refine ⟨s', ?_, hR'⟩
  unfold InputStream.readUntil
  rw [hq.size_eq hR, hloop, InputStream.readUntilLoop, he.readBytes_eq hR']
  simp

theorem FaultsAtEnd.readUntil_eq (he : FaultsAtEnd R) (hq : IsByteQueue order R) {s : σ}
    {u : List UInt8} (hR : R s u) {f : Consumer} (hstop : (giveUntil f [] u).2.2 = false) :
    InputStream.readUntil f s = .error .nullDereference := by
  obtain ⟨s', k, hR', hloop⟩ := hq.readUntilLoop_end hR (Nat.lt_succ_self _) hstop
  unfold InputStream.readUntil
  rw [hq.size_eq hR, hloop, InputStream.readUntilLoop, he.readBytes_eq hR']

/-- The typed peek looks at the size first, so it never runs into the end. -/
theorem IsByteQueue.peek_eq (hq : IsByteQueue order R) {s : σ} {u : List UInt8} (hR : R s u)
    {n : Nat}
    (hpos : 0 < n) : InputStream.peek s n =
      .ok (if u.length < n then .error .endOfStream else .ok (u.take n)) := by
  unfold InputStream.peek
  rw [hq.size_eq hR]
  by_cases hshort : u.length < n
  · rw [if_pos hshort, if_pos hshort]
  · have hne : u ≠ [] := List.length_pos_iff.mp (by omega)
    have hlen : ¬ (u.take n).length < n := by
      rw [List.length_take]
      omega
    rw [if_neg hshort, if_neg hshort, hq.peekBytes_eq hR hne]
    simp only [ne_eq, not_true, if_false]
    rw [if_neg hlen]

/-- The typed read looks at the size first, so it never runs into the end. -/
theorem IsByteQueue.read_eq (hq : IsByteQueue order R) {s : σ} {u : List UInt8} (hR : R s u)
    {n : Nat}
    (hpos : 0 < n) :
    if u.length < n then InputStream.read n s = .ok (.error .endOfStream, s)
    else ∃ s', InputStream.read n s = .ok (.ok (u.take n), s') ∧ R s' (u.drop n) := by
  unfold InputStream.read
  rw [hq.size_eq hR]
  split
  · rfl
  · rename_i hshort
    have hne : u ≠ [] := List.length_pos_iff.mp (by omega)
    have hlen : ¬ (u.take n).length < n := by
      rw [List.length_take]
      omega
    obtain ⟨s', hread, hR'⟩ := hq.readBytes_eq hR hne n
    refine ⟨s', ?_, hR'⟩
    rw [hread]
    simp only [ne_eq, not_true, if_false]
    rw [if_neg hlen]

/-- **A call that stays inside the stream** is answered as the machine answers it. -/
theorem IsByteQueue.call_eq (hq : IsByteQueue order R) {s : σ} {u : List UInt8} (hR : R s u)
    {c : InputCall} (hin : StaysInside u c) :
    ∃ s', SkippingStream.call s c = .ok ((call u c).1, s') ∧ R s' (call u c).2 := by
  cases c with
  | peekBytes n =>
    refine ⟨s, ?_, hR⟩
    simp only [SkippingStream.call, hq.peekBytes_eq hR hin, bind, Except.bind, pure, Except.pure,
      call, rawAnswer, if_neg hin, hq.size_eq hR]
  | readBytes n =>
    obtain ⟨s', hread, hR'⟩ := hq.readBytes_eq hR hin n
    refine ⟨s', ?_, hR'⟩
    simp only [SkippingStream.call, hread, bind, Except.bind, pure, Except.pure, call, rawAnswer,
      if_neg hin, hq.size_eq hR']
  | skipBytes n =>
    obtain ⟨s', hskip, hR'⟩ := hq.skipBytes_eq hR hin n
    refine ⟨s', ?_, hR'⟩
    simp only [SkippingStream.call, hskip, bind, Except.bind, pure, Except.pure, call, rawAnswer,
      if_neg hin, hq.size_eq hR']
  | peek n pos =>
    refine ⟨s, ?_, hR⟩
    simp only [SkippingStream.call, hq.peek_eq hR pos, bind, Except.bind, pure, Except.pure, call,
      hq.size_eq hR]
    split
    · rfl
    · rename_i hlen
      simp only [typedAnswer, List.length_take, Nat.min_eq_left (Nat.not_lt.mp hlen)]
  | read n pos =>
    have hread := hq.read_eq hR pos
    by_cases hshort : u.length < n
    · -- too few bytes: nothing is consumed
      rw [if_pos hshort] at hread
      refine ⟨s, ?_, ?_⟩
      · simp only [SkippingStream.call, hread, bind, Except.bind, pure, Except.pure, call,
          if_pos hshort, hq.size_eq hR, typedAnswer]
      · simpa only [call, if_pos hshort] using hR
    · rw [if_neg hshort] at hread
      obtain ⟨s', hread, hR'⟩ := hread
      refine ⟨s', ?_, ?_⟩
      · simp only [SkippingStream.call, hread, bind, Except.bind, pure, Except.pure, call,
          if_neg hshort, hq.size_eq hR', typedAnswer, List.length_take,
          Nat.min_eq_left (Nat.not_lt.mp hshort)]
      · simpa only [call, if_neg hshort] using hR'
  | readUntil f =>
    -- the loop ends by itself, so it does not run past the last byte
    have hstop : (giveUntil f [] u).2.2 = true := hin
    obtain ⟨s', hloop, hR'⟩ := hq.readUntilLoop_stopped hR (Nat.lt_succ_self _) hstop
    refine ⟨s', ?_, hR'⟩
    simp only [SkippingStream.call, InputStream.readUntil, hq.size_eq hR, hloop, bind, Except.bind,
      pure, Except.pure, call, hstop, if_true, hq.size_eq hR']

/-- A stream that reports its end answers every call as the machine does. -/
theorem ReportsEnd.call_eq (he : ReportsEnd R) (hq : IsByteQueue order R) {s : σ} {u : List UInt8}
    (hR : R s u) (c : InputCall) :
    ∃ s', SkippingStream.call s c = .ok ((call u c).1, s') ∧ R s' (call u c).2 := by
  by_cases hin : StaysInside u c
  · exact hq.call_eq hR hin
  cases c with
  | peekBytes n =>
    obtain rfl : u = [] := Decidable.of_not_not hin
    refine ⟨s, ?_, hR⟩
    simp [SkippingStream.call, he.peekBytes_eq hR, bind, Except.bind, pure, Except.pure, call,
      rawAnswer, hq.size_eq hR]
  | readBytes n =>
    obtain rfl : u = [] := Decidable.of_not_not hin
    refine ⟨s, ?_, by simpa [call] using hR⟩
    simp [SkippingStream.call, he.readBytes_eq hR, bind, Except.bind, pure, Except.pure, call,
      rawAnswer, hq.size_eq hR]
  | skipBytes n =>
    obtain rfl : u = [] := Decidable.of_not_not hin
    refine ⟨s, ?_, by simpa [call] using hR⟩
    simp [SkippingStream.call, he.skipBytes_eq hR, bind, Except.bind, pure, Except.pure, call,
      rawAnswer, hq.size_eq hR]
  | peek n pos => exact absurd trivial hin
  | read n pos => exact absurd trivial hin
  | readUntil f =>
    have hstop : (giveUntil f [] u).2.2 = false := Bool.eq_false_iff.mpr hin
    obtain ⟨s', hread, hR'⟩ := he.readUntil_eq hq hR hstop
    refine ⟨s', ?_, ?_⟩
    · simp [SkippingStream.call, hread, bind, Except.bind, pure, Except.pure, call,
        giveUntil_of_not_stopped hstop, hq.size_eq hR']
    · simpa [call, giveUntil_of_not_stopped hstop] using hR'

/-- A stream that does not report its end does not answer a call that runs into it. -/
theorem FaultsAtEnd.call_eq (he : FaultsAtEnd R) (hq : IsByteQueue order R) {s : σ} {u : List UInt8}
    (hR : R s u) {c : InputCall} (hout : ¬ StaysInside u c) :
    SkippingStream.call s c = .error .nullDereference := by
  cases c with
  | peekBytes n =>
    obtain rfl : u = [] := Decidable.of_not_not hout
    simp [SkippingStream.call, he.peekBytes_eq hR, bind, Except.bind]
  | readBytes n =>
    obtain rfl : u = [] := Decidable.of_not_not hout
    simp [SkippingStream.call, he.readBytes_eq hR, bind, Except.bind]
  | skipBytes n =>
    obtain rfl : u = [] := Decidable.of_not_not hout
    simp [SkippingStream.call, he.skipBytes_eq hR, bind, Except.bind]
  | peek n pos => exact absurd trivial hout
  | read n pos => exact absurd trivial hout
  | readUntil f =>
    have hstop : (giveUntil f [] u).2.2 = false := Bool.eq_false_iff.mpr hout
    simp [SkippingStream.call, he.readUntil_eq hq hR hstop, bind, Except.bind]

theorem IsByteQueue.decodes_read (hq : IsByteQueue order R) {bytes : List UInt8}
    (hne : bytes ≠ []) : Decodes R (InputStream.read bytes.length) bytes bytes := by
  intro rest s hR
  have hread := hq.read_eq hR (List.length_pos_iff.mpr hne)
  have hlen : ¬ (bytes ++ rest).length < bytes.length := by
    rw [List.length_append]
    omega
  rwa [if_neg hlen, List.take_left, List.drop_left] at hread

/-- **An integer** is decoded from its encoding. -/
theorem IsByteQueue.decodes_uint (hq : IsByteQueue order R) {n v : Nat} (hpos : 0 < n)
    (hv : v < 256 ^ n) : Decodes R (deserializeUInt n) (encodeUInt order n v) v := by
  have hlen : (encodeUInt order n v).length = n := encodeUInt_length _ _ _
  have hne : encodeUInt order n v ≠ [] := List.length_pos_iff.mp (by omega)
  intro rest s hR
  obtain ⟨s', hread, hR'⟩ := hq.decodes_read hne rest s hR
  rw [hlen] at hread
  refine ⟨s', ?_, hR'⟩
  unfold deserializeUInt
  rw [StreamM.bind_ok hread]
  have hdecode := decodeUInt_encodeUInt order n v hv
  rw [decodeUInt, hlen] at hdecode
  simp only [convertToHost, hq.byteOrder_eq hR', hdecode]

end Streams

/-! ## §4 Zero bytes in place of the buffer -/

/-- As many zero bytes. -/
def blank (u : List UInt8) : List UInt8 := List.replicate u.length 0

theorem take_blank {u : List UInt8} {n : Nat} (h : ∀ byte ∈ u.take n, byte = 0) :
    (blank u).take n = u.take n := by
  rw [List.eq_replicate_of_mem h, blank, List.take_replicate, List.length_take]

theorem drop_blank (u : List UInt8) (n : Nat) : (blank u).drop n = blank (u.drop n) := by
  rw [blank, blank, List.drop_replicate, List.length_drop]

theorem blank_eq_nil_iff {u : List UInt8} : blank u = [] ↔ u = [] := by
  rw [blank, List.replicate_eq_nil_iff, List.length_eq_zero_iff]

@[simp] theorem blank_length (u : List UInt8) : (blank u).length = u.length :=
  List.length_replicate

/-- A consumer does not notice the zero bytes, if it would be given zero bytes anyway. -/
theorem giveUntil_blank {f : Consumer} {u : List UInt8} :
    ∀ {given : List UInt8}, (∀ byte ∈ (giveUntil f given u).1, byte = 0) →
      giveUntil f given (blank u) =
        ((giveUntil f given u).1, blank (giveUntil f given u).2.1, (giveUntil f given u).2.2) := by
  induction u with
  | nil =>
    intro given _
    rfl
  | cons byte rest ih =>
    intro given hzero
    have hkeep : ∀ (v given : List UInt8) b, b ∈ given → b ∈ (giveUntil f given v).1 := by
      intro v
      induction v with
      | nil =>
        intro given b hb
        exact hb
      | cons c v ihv =>
        intro given b hb
        rw [giveUntil]
        split
        · exact ihv _ b (List.mem_append_left _ hb)
        · exact List.mem_append_left _ hb
    -- the next byte is among those that the consumer is given
    have hbyte : byte = 0 := by
      apply hzero
      rw [giveUntil]
      split
      · exact hkeep rest _ byte (by simp)
      · simp
    subst hbyte
    rw [giveUntil] at hzero
    have hblank : blank (0 :: rest) = 0 :: blank rest := rfl
    rw [hblank, giveUntil, giveUntil]
    split
    · rename_i hmore
      rw [if_pos hmore] at hzero
      exact ih hzero
    · rfl

theorem giveUntil_mem_blank {f : Consumer} {u : List UInt8} {byte : UInt8}
    (h : byte ∈ (giveUntil f [] (blank u)).1) : byte = 0 := by
  have hsub : ∀ (v given : List UInt8) b, b ∈ (giveUntil f given v).1 → b ∈ given ∨ b ∈ v := by
    intro v
    induction v with
    | nil =>
      intro given b hb
      exact .inl hb
    | cons c v ihv =>
      intro given b hb
      rw [giveUntil] at hb
      have hgiven : b ∈ given ++ [c] ∨ b ∈ v := by
        split at hb
        · exact ihv _ b hb
        · exact .inl hb
      rcases hgiven with hgiven | hv
      · rcases List.mem_append.mp hgiven with hg | hc
        · exact .inl hg
        · exact .inr (List.mem_cons.mpr (.inl (List.mem_singleton.mp hc)))
      · exact .inr (List.mem_cons_of_mem _ hv)
  rcases hsub _ _ _ h with h | h
  · cases h
  · exact List.eq_of_mem_replicate h

/-- The machine hands out the bytes it says it hands out. -/
theorem call_bytes (u : List UInt8) (c : InputCall) : (call u c).1.bytes = handedOut u c := by
  cases c with
  | peekBytes n =>
    by_cases h : u = [] <;> simp [call, rawAnswer, handedOut, h]
  | readBytes n =>
    by_cases h : u = [] <;> simp [call, rawAnswer, handedOut, h]
  | skipBytes n =>
    by_cases h : u = [] <;> simp [call, rawAnswer, handedOut, h]
  | peek n pos =>
    by_cases h : u.length < n <;> simp [call, handedOut, h]
  | read n pos =>
    by_cases h : u.length < n <;> simp [call, handedOut, h]
  | readUntil f => rfl

/-- Nothing but zero bytes is handed out of zero bytes. -/
theorem handedOut_blank (u : List UInt8) (c : InputCall) :
    ∀ byte ∈ handedOut (blank u) c, byte = 0 := by
  intro byte hmem
  have htake : ∀ n, byte ∈ (blank u).take n → byte = 0 := fun n h =>
    List.eq_of_mem_replicate (List.mem_of_mem_take h)
  cases c with
  | peekBytes n => exact htake n hmem
  | readBytes n => exact htake n hmem
  | skipBytes n => cases hmem
  | peek n pos =>
    simp only [handedOut] at hmem
    split at hmem
    · cases hmem
    · exact htake n hmem
  | read n pos =>
    simp only [handedOut] at hmem
    split at hmem
    · cases hmem
    · exact htake n hmem
  | readUntil f => exact giveUntil_mem_blank hmem

/-- **A call that hands out zero bytes** is answered alike on zero bytes. -/
theorem call_blank {u : List UInt8} {c : InputCall} (hzero : ∀ byte ∈ handedOut u c, byte = 0) :
    call (blank u) c = ((call u c).1, blank (call u c).2) := by
  cases c with
  | peekBytes n =>
    simp only [call, rawAnswer, blank_eq_nil_iff, blank_length, take_blank hzero]
  | readBytes n =>
    simp only [call, rawAnswer, blank_eq_nil_iff, take_blank hzero, drop_blank, blank_length]
  | skipBytes n =>
    simp only [call, rawAnswer, blank_eq_nil_iff, drop_blank, blank_length, List.length_take]
  | peek n pos =>
    simp only [handedOut] at hzero
    by_cases hshort : u.length < n
    · simp only [call, blank_length, if_pos hshort]
    · rw [if_neg hshort] at hzero
      simp only [call, blank_length, if_neg hshort, take_blank hzero]
  | read n pos =>
    simp only [handedOut] at hzero
    by_cases hshort : u.length < n
    · simp only [call, blank_length, if_pos hshort]
    · rw [if_neg hshort] at hzero
      simp only [call, blank_length, if_neg hshort, take_blank hzero, drop_blank]
  | readUntil f =>
    simp only [call, giveUntil_blank hzero, blank_length]

end ByteQueue

/-! ## §5 The streams of the library -/

open ByteQueue

/-- A fixed stream stands for what is unread of its buffer. -/
structure FixedInputStream.Holds (order : ByteOrder) (is : FixedInputStream) (u : List UInt8) :
    Prop where
  byteOrder_eq : is.m_byteOrder = order
  unread_eq : is.unread = u

/-- A segmented stream stands for what is unread of its segments. -/
structure SegmentedInputStream.Holds (order : ByteOrder) (s : SegmentedInputStream)
    (u : List UInt8) : Prop where
  inv : s.Inv
  byteOrder_eq : s.m_byteOrder = order
  unread_eq : s.unread = u

/-- Taking more than there is takes all. -/
private theorem drop_min_length (u : List UInt8) (n : Nat) :
    u.drop (min n u.length) = u.drop n := by
  rcases Nat.le_total n u.length with hle | hle
  · rw [Nat.min_eq_left hle]
  · rw [Nat.min_eq_right hle, List.drop_length, List.drop_eq_nil_of_le hle]

namespace FixedInputStream

variable {order : ByteOrder} {is : FixedInputStream} {u : List UInt8}

theorem Holds.size_eq (h : is.Holds order u) : is.size = u.length := by
  rw [← unread_length, h.unread_eq]

theorem Holds.size_ne (h : is.Holds order u) (hne : u ≠ []) : ¬ is.size = 0 := by
  rw [h.size_eq, List.length_eq_zero_iff]
  exact hne

/-- Reading and skipping stop at the end of the buffer. -/
theorem Holds.advance (h : is.Holds order u) (n : Nat) :
    (is.advance (min n is.size)).Holds order (u.drop n) := by
  refine ⟨h.byteOrder_eq, ?_⟩
  rw [advance_unread, h.size_eq, h.unread_eq, drop_min_length]

theorem Holds.readBytes_eq (h : is.Holds order u) (hne : u ≠ []) (n : Nat) :
    is.readBytes n = (.ok, u.take n, is.advance (min n is.size)) := by
  have htake : is.unread.take (min n is.size) = u.take n := by
    rw [h.unread_eq, h.size_eq, ← List.take_take, List.take_length]
  rw [← htake]
  unfold readBytes
  rw [if_neg (h.size_ne hne)]
  rfl

theorem Holds.skipBytes_eq (h : is.Holds order u) (hne : u ≠ []) (n : Nat) :
    is.skipBytes n = (.ok, is.advance (min n is.size)) := by
  unfold skipBytes
  rw [if_neg (h.size_ne hne)]
  rfl

/-- **The fixed stream** is a byte queue. -/
theorem isByteQueue (order : ByteOrder) : IsByteQueue order (FixedInputStream.Holds order) where
  byteOrder_eq h := h.byteOrder_eq
  size_eq h := h.size_eq
  peekBytes_eq := by
    intro is u h hne n
    simp only [InputStream.peekBytes, peekBytes, h.readBytes_eq hne]
  readBytes_eq := by
    intro is u h hne n
    refine ⟨is.advance (min n is.size), ?_, h.advance n⟩
    simp only [InputStream.readBytes, h.readBytes_eq hne]
  skipBytes_eq := by
    intro is u h hne n
    refine ⟨is.advance (min n is.size), ?_, h.advance n⟩
    rw [List.length_take, ← h.size_eq]
    simp only [SkippingStream.skipBytes, h.skipBytes_eq hne, if_neg (h.size_ne hne)]

/-- The fixed stream reports its end. -/
theorem reportsEnd (order : ByteOrder) : ReportsEnd (FixedInputStream.Holds order) where
  peekBytes_eq := by
    intro is h n
    have hsize : is.size = 0 := h.size_eq
    simp [InputStream.peekBytes, peekBytes, readBytes, hsize]
  readBytes_eq := by
    intro is h n
    have hsize : is.size = 0 := h.size_eq
    simp [InputStream.readBytes, readBytes, hsize]
  skipBytes_eq := by
    intro is h n
    have hsize : is.size = 0 := h.size_eq
    simp [SkippingStream.skipBytes, skipBytes, hsize]

end FixedInputStream

namespace SegmentedInputStream

variable {order : ByteOrder} {s s' : SegmentedInputStream} {u : List UInt8}

theorem Holds.consumed (h : s.Holds order u) {n : Nat}
    (hc : Consumed s (min s.unread.length n) s') : s'.Holds order (u.drop n) := by
  refine ⟨hc.inv, hc.byteOrder_eq.trans h.byteOrder_eq, ?_⟩
  rw [hc.unread_eq, Nat.min_comm, drop_min_length, h.unread_eq]

/-- **The segmented stream** is a byte queue. -/
theorem isByteQueue (order : ByteOrder) :
    IsByteQueue order (SegmentedInputStream.Holds order) where
  byteOrder_eq h := h.byteOrder_eq
  size_eq := by
    intro s u h
    rw [← h.unread_eq]
    exact h.inv.size_eq
  peekBytes_eq := by
    intro s u h hne n
    rw [← h.unread_eq] at hne ⊢
    exact peekBytes_spec h.inv hne n
  readBytes_eq := by
    intro s u h hne n
    rw [← h.unread_eq] at hne
    obtain ⟨s', hread, hcons⟩ := readBytes_spec h.inv hne n
    rw [h.unread_eq] at hread
    exact ⟨s', hread, h.consumed hcons⟩
  skipBytes_eq := by
    intro s u h hne n
    rw [← h.unread_eq] at hne
    obtain ⟨s', hskip, hcons⟩ := skipBytes_spec h.inv hne n
    rw [h.unread_eq, Nat.min_comm, ← List.length_take] at hskip
    exact ⟨s', hskip, h.consumed hcons⟩

/-- **The segmented stream does not report its end**: there `m_head` is null, and it is
    followed. -/
theorem faultsAtEnd (order : ByteOrder) : FaultsAtEnd (SegmentedInputStream.Holds order) where
  peekBytes_eq := by
    intro s h n
    show s.peekBytes n = _
    unfold peekBytes
    rw [h.inv.nodes_eq_nil_iff.mpr h.unread_eq]
    rfl
  readBytes_eq := by
    intro s h n
    show s.readBytes n = _
    unfold readBytes copyBytes
    rw [h.inv.nodes_eq_nil_iff.mpr h.unread_eq]
    rfl
  skipBytes_eq := by
    intro s h n
    show s.skipBytes n = _
    unfold skipBytes copyBytes
    rw [h.inv.nodes_eq_nil_iff.mpr h.unread_eq]
    rfl

end SegmentedInputStream

/-! ## §6 When the streams are interchangeable -/

/-- The three streams give one and the same sequence of answers, and none of them faults. -/
def AnswerAlike (fixed copy : FixedInputStream) (s : SegmentedInputStream)
    (calls : List InputCall) : Prop :=
  ∃ answers fixed' copy' s',
    runCalls SkippingStream.call fixed calls = .ok (answers, fixed') ∧
    runCalls SkippingStream.call copy calls = .ok (answers, copy') ∧
    runCalls SkippingStream.call s calls = .ok (answers, s')

/-- **Interchangeable streams, from any position**: a stream over its buffer, one over as many zero
    bytes and a segmented one answer alike exactly if no call is noticed. -/
theorem answerAlike_iff {calls : List InputCall} :
    ∀ {order : ByteOrder} {fixed copy : FixedInputStream} {s : SegmentedInputStream}
      {u : List UInt8}, fixed.Holds order u → copy.Holds order (blank u) → s.Holds order u →
      (AnswerAlike fixed copy s calls ↔ AdmissibleCalls Unnoticed ByteQueue.call u calls) := by
  induction calls with
  | nil =>
    intro order fixed copy s u _ _ _
    exact ⟨fun _ => trivial, fun _ => ⟨[], fixed, copy, s, rfl, rfl, rfl⟩⟩
  | cons c calls ih =>
    intro order fixed copy s u hfixed hcopy hs
    obtain ⟨fixed₁, hf, hfixed₁⟩ :=
      (FixedInputStream.reportsEnd order).call_eq (FixedInputStream.isByteQueue order) hfixed c
    obtain ⟨copy₁, hc, hcopy₁⟩ :=
      (FixedInputStream.reportsEnd order).call_eq (FixedInputStream.isByteQueue order) hcopy c
    constructor
    · rintro ⟨answers, fixed', copy', s', hrunf, hrunc, hruns⟩
      obtain ⟨o, fixed₂, os, hf₂, hrestf, rfl⟩ := runCalls_cons_iff.mp hrunf
      obtain ⟨o', copy₂, os', hc₂, hrestc, hos⟩ := runCalls_cons_iff.mp hrunc
      obtain ⟨o'', s₂, os'', hs₂, hrests, hos'⟩ := runCalls_cons_iff.mp hruns
      obtain ⟨rfl, rfl⟩ := List.cons.inj hos
      obtain ⟨rfl, rfl⟩ := List.cons.inj hos'
      cases hf.symm.trans hf₂
      -- the segmented stream does not fault, so the call stays inside
      have hin : StaysInside u c := by
        apply Decidable.byContradiction
        intro hout
        rw [(SegmentedInputStream.faultsAtEnd order).call_eq
          (SegmentedInputStream.isByteQueue order) hs hout] at hs₂
        cases hs₂
      -- the copy hands out zero bytes, and so does the stream over the buffer
      have hanswer : (ByteQueue.call (blank u) c).1 = (ByteQueue.call u c).1 := by
        rw [hc] at hc₂
        exact (Prod.mk.inj (Except.ok.inj hc₂)).1
      have hzero : ∀ byte ∈ handedOut u c, byte = 0 := by
        rw [← call_bytes, ← hanswer, call_bytes]
        exact handedOut_blank u c
      obtain ⟨s₁, hs₁, hs₁'⟩ := (SegmentedInputStream.isByteQueue order).call_eq hs hin
      cases hs₁.symm.trans hs₂
      rw [call_blank hzero] at hc hcopy₁
      cases hc.symm.trans hc₂
      exact ⟨⟨hin, hzero⟩, (ih hfixed₁ hcopy₁ hs₁').mp
        ⟨os, fixed', copy', s', hrestf, hrestc, hrests⟩⟩
    · rintro ⟨⟨hin, hzero⟩, hrest⟩
      rw [call_blank hzero] at hc hcopy₁
      obtain ⟨s₁, hs₁, hs₁'⟩ := (SegmentedInputStream.isByteQueue order).call_eq hs hin
      obtain ⟨answers, fixed', copy', s', hrunf, hrunc, hruns⟩ :=
        (ih hfixed₁ hcopy₁ hs₁').mpr hrest
      exact ⟨(ByteQueue.call u c).1 :: answers, fixed', copy', s',
        runCalls_cons_iff.mpr ⟨_, _, _, hf, hrunf, rfl⟩,
        runCalls_cons_iff.mpr ⟨_, _, _, hc, hrunc, rfl⟩,
        runCalls_cons_iff.mpr ⟨_, _, _, hs₁, hruns, rfl⟩⟩

/-- **Interchangeable streams.**  Over any bytes in any segmentation, and for any sequence of
    calls, the fixed stream by reference, the fixed stream by copy and the segmented stream give
    the same result codes, bytes, counts and sizes without a fault, if and only if no call on the
    bytes that are left at its time is made on a depleted stream or runs into the end (the typed
    calls apart, which look at the size), and all bytes that the calls hand out are zero. -/
theorem streams_interchangeable_iff {bytes : List UInt8} (hlen : bytes.length < 2 ^ 32)
    {segments : List Buffer} (hsplits : SegmentedInputStream.Splits segments bytes)
    (order : ByteOrder) (base : Nat) (log : List Buffer) (calls : List InputCall) :
    ∃ s, (SegmentedInputStream.new order base log).appendBuffers segments = .ok s ∧
      (AnswerAlike (.new bytes order) (.newByCopy bytes order) s calls ↔
        AdmissibleCalls Unnoticed ByteQueue.call bytes calls) := by
  obtain ⟨s, hs, hinv, horder, hunread⟩ := hsplits.appendBuffers_new hlen order base log
  exact ⟨s, hs, answerAlike_iff ⟨rfl, rfl⟩ ⟨rfl, rfl⟩ ⟨hinv, horder, hunread⟩⟩

/-- Zero bytes in two segments are read alike across the border. -/
theorem streams_interchangeable_zeros :
    ∃ s, (SegmentedInputStream.new .hostOrder 0 []).appendBuffers
        [⟨100, [0, 0], by decide⟩, ⟨200, [0], by decide⟩] = .ok s ∧
      AnswerAlike (.new [0, 0, 0] .hostOrder) (.newByCopy [0, 0, 0] .hostOrder) s
        [.peekBytes 9, .readBytes 0, .skipBytes 1, .read 2 (by decide), .peek 4 (by decide)] := by
  obtain ⟨s, hs, hiff⟩ := @streams_interchangeable_iff [0, 0, 0] (by decide)
    [⟨100, [0, 0], by decide⟩, ⟨200, [0], by decide⟩] ⟨by decide, by decide⟩ .hostOrder 0 []
    [.peekBytes 9, .readBytes 0, .skipBytes 1, .read 2 (by decide), .peek 4 (by decide)]
  exact ⟨s, hs, hiff.mpr (by decide +kernel)⟩

/-- The byte 1 is read off a copy as 0.  And when it has been skipped, a read of no bytes at all is
    the end of the stream for the fixed streams, and follows a null pointer in the segmented one. -/
theorem streams_not_interchangeable :
    ∃ s, (SegmentedInputStream.new .hostOrder 0 []).appendBuffers [⟨100, [1], by decide⟩] = .ok s ∧
      ¬ AnswerAlike (.new [1] .hostOrder) (.newByCopy [1] .hostOrder) s [.readBytes 1] ∧
      ¬ AnswerAlike (.new [1] .hostOrder) (.newByCopy [1] .hostOrder) s
        [.skipBytes 1, .readBytes 0] := by
  have hsplits : SegmentedInputStream.Splits [⟨100, [1], by decide⟩] [1] :=
    ⟨by decide, by decide⟩
  obtain ⟨s, hs, hinv, horder, hunread⟩ :=
    hsplits.appendBuffers_new (by decide) .hostOrder 0 []
  have hiff : ∀ calls, AnswerAlike (.new [1] .hostOrder) (.newByCopy [1] .hostOrder) s calls →
      AdmissibleCalls Unnoticed ByteQueue.call [1] calls := fun calls =>
    (@answerAlike_iff calls .hostOrder _ _ s [1] ⟨rfl, rfl⟩ ⟨rfl, rfl⟩
      ⟨hinv, horder, hunread⟩).mp
  exact ⟨s, hs, fun halike => absurd (hiff _ halike) (by decide +kernel),
    fun halike => absurd (hiff _ halike) (by decide +kernel)⟩

end Commutil.Io
