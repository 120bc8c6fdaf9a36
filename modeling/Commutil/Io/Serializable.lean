import Mathlib.Data.List.TakeWhile
import Commutil.Io.InterchangeableStreams

/-!
# The Serialization Macros

The `COMM_SERIALIZE_*` and `COMM_DESERIALIZE_*` macros of `serializable.h` over
sequences of typed fields.  A macro returns from the function around it when the
stream reports an error, so a sequence of macros is an action that stops there.

A field that was written is read back in three ways: exactly, cut at an embedded
zero (`std::string`), or not at all, since a string or a buffer that is empty and
comes last is read from a depleted stream.  The main result says when the macros
are the invertible format they are meant to be.
-/

namespace Commutil.Io

open Commutil.Library ByteQueue

/-! ## §1 Fields -/

/-- The kinds of fields that have a pair of macros. -/
inductive FieldType where
  | uint8
  | int8
  | uint16
  | int16
  | uint32
  | int32
  | uint64
  | int64
  | bool
  | string
  | ntString
  | buffer
  deriving DecidableEq, Repr

/-- A value of each kind.  A `std::string` holds any bytes; a null-terminated string has no zero
    byte before its end. -/
inductive Field where
  | uint8 (value : UInt8)
  | int8 (value : Int8)
  | uint16 (value : UInt16)
  | int16 (value : Int16)
  | uint32 (value : UInt32)
  | int32 (value : Int32)
  | uint64 (value : UInt64)
  | int64 (value : Int64)
  | bool (value : Bool)
  | string (value : List UInt8)
  | ntString (value : List UInt8) (nonzero : ∀ byte ∈ value, byte ≠ 0)
  | buffer (value : List UInt8)
  deriving DecidableEq, Repr

namespace Field

/-- The kind of a field. -/
def type : Field → FieldType
  | uint8 _ => .uint8
  | int8 _ => .int8
  | uint16 _ => .uint16
  | int16 _ => .int16
  | uint32 _ => .uint32
  | int32 _ => .int32
  | uint64 _ => .uint64
  | int64 _ => .int64
  | bool _ => .bool
  | string _ => .string
  | ntString _ _ => .ntString
  | buffer _ => .buffer

/-- A `std::string` without embedded zeros, or a field of another kind. -/
def NoEmbeddedZero : Field → Prop
  | .string value => ∀ byte ∈ value, byte ≠ 0
  | _ => True

instance : (field : Field) → Decidable field.NoEmbeddedZero
  | .string value => inferInstanceAs (Decidable (∀ byte ∈ value, byte ≠ 0))
  | .uint8 _ | .int8 _ | .uint16 _ | .int16 _ | .uint32 _ | .int32 _ | .uint64 _ | .int64 _
  | .bool _ | .ntString _ _ | .buffer _ => .isTrue trivial

/-- The number of bytes after the length, for a string or a buffer. -/
def contentLength? : Field → Option Nat
  | .string value => some value.length
  | .buffer value => some value.length
  | _ => none

end Field

/-! ## §2 Serialization -/

namespace FixedOutputStream

/-- `COMM_SERIALIZE_UINT8`. -/
def serializeUInt8 (os : FixedOutputStream) (value : UInt8) : Except ErrorCode FixedOutputStream :=
  os.writeBytes [value]

/-- `COMM_SERIALIZE_BOOL`. -/
def serializeBool (os : FixedOutputStream) (value : Bool) : Except ErrorCode FixedOutputStream :=
  os.writeBytes [if value then 1 else 0]

/-- `COMM_SERIALIZE_STRING`. -/
def serializeString (os : FixedOutputStream) (value : List UInt8) :
    Except ErrorCode FixedOutputStream :=
  os.serializeLengthPrepended value

/-- `COMM_SERIALIZE_NT_STRING` with the length of the string. -/
def serializeNtString (os : FixedOutputStream) (value : List UInt8) :
    Except ErrorCode FixedOutputStream := do
  let os ← os.writeBytes value
  os.serializeUInt8 0

/-- The macro for a field. -/
def serializeField (os : FixedOutputStream) : Field → Except ErrorCode FixedOutputStream
  | .uint8 value => os.serializeUInt8 value
  | .int8 value => os.serializeUInt8 value.toUInt8
  | .uint16 value => os.serializeUInt 2 value.toNat
  | .int16 value => os.serializeUInt 2 value.toUInt16.toNat
  | .uint32 value => os.serializeUInt 4 value.toNat
  | .int32 value => os.serializeUInt 4 value.toUInt32.toNat
  | .uint64 value => os.serializeUInt 8 value.toNat
  | .int64 value => os.serializeUInt 8 value.toUInt64.toNat
  | .bool value => os.serializeBool value
  | .string value => os.serializeString value
  | .ntString value _ => os.serializeNtString value
  | .buffer value => os.serializeBuffer value

/-- The macros for a sequence of fields. -/
def serializeFields (os : FixedOutputStream) (fields : List Field) :
    Except ErrorCode FixedOutputStream :=
  fields.foldlM serializeField os

end FixedOutputStream

/-! ## §3 Deserialization -/

section Deserialization

variable {σ : Type} [InputStream σ]

/-- `COMM_DESERIALIZE_INT8`, for both signs. -/
def deserializeInt8 : StreamM σ UInt8 := do
  let bytes ← InputStream.read 1
  pure (.ofNat (ofLeBytes bytes))

/-- `COMM_DESERIALIZE_BOOL`. -/
def deserializeBool : StreamM σ Bool := do
  let value8 ← deserializeInt8
  pure (value8 != 0)

/-- `rc = is.readBytes(&buf[0], length); if (rc != E_OK) return rc;` into `capacity` bytes. -/
def readInto (capacity length : Nat) : StreamM σ (List UInt8) := fun s =>
  match InputStream.readBytes s length with
  | .error fault => .error fault
  | .ok (rc, bytes, s') =>
    if capacity < bytes.length then .error .heapOverflow
    else if rc ≠ .ok then .ok (.error rc, s')
    else .ok (.ok bytes, s')

/-- `COMM_DESERIALIZE_STRING`: into a zeroed vector that has room for a terminator, of which the
    string is taken up to the first zero. -/
def deserializeString : StreamM σ (List UInt8) := do
  let length ← deserializeUInt 4
  let buf ← readInto (add32 length 1) length
  pure (buf.takeWhile (· != 0))

/-- `COMM_DESERIALIZE_NT_STRING` into an empty string, which grows by every byte but the zero that
    stops the consumer. -/
def deserializeNtString : StreamM σ (List UInt8) := fun s =>
  match InputStream.readUntil (fun given => given.getLast? != some 0) s with
  | .error fault => .error fault
  | .ok (rc, given, s') =>
    if rc ≠ .ok then .ok (.error rc, s')
    else .ok (.ok (given.filter (· != 0)), s')

/-- `COMM_DESERIALIZE_BUFFER`: into a vector of zeros of the length. -/
def deserializeBuffer : StreamM σ (List UInt8) := do
  let length ← deserializeUInt 4
  let bytes ← readInto length length
  pure (bytes ++ List.replicate (length - bytes.length) 0)

/-- The value of a null-terminated string, which has no zero byte. -/
def ofNtString (value : List UInt8) : Field :=
  .ntString (value.filter (· != 0)) (by
    intro byte hmem
    exact bne_iff_ne.mp (List.mem_filter.mp hmem).2)

/-- The macro for a kind of field. -/
def deserializeField : FieldType → StreamM σ Field
  | .uint8 => do return .uint8 (← deserializeInt8)
  | .int8 => do return .int8 (← deserializeInt8).toInt8
  | .uint16 => do return .uint16 (.ofNat (← deserializeUInt 2))
  | .int16 => do return .int16 (UInt16.ofNat (← deserializeUInt 2)).toInt16
  | .uint32 => do return .uint32 (.ofNat (← deserializeUInt 4))
  | .int32 => do return .int32 (UInt32.ofNat (← deserializeUInt 4)).toInt32
  | .uint64 => do return .uint64 (.ofNat (← deserializeUInt 8))
  | .int64 => do return .int64 (UInt64.ofNat (← deserializeUInt 8)).toInt64
  | .bool => do return .bool (← deserializeBool)
  | .string => do return .string (← deserializeString)
  | .ntString => do return ofNtString (← deserializeNtString)
  | .buffer => do return .buffer (← deserializeBuffer)

/-- The macros for a sequence of kinds. -/
def deserializeFields : List FieldType → StreamM σ (List Field)
  | [] => pure []
  | type :: types => do
    let field ← deserializeField type
    let fields ← deserializeFields types
    pure (field :: fields)

end Deserialization

/-! ## §4 What is written -/

/-- The bytes of a field. -/
def fieldBytes (order : ByteOrder) : Field → List UInt8
  | .uint8 value => [value]
  | .int8 value => [value.toUInt8]
  | .uint16 value => encodeUInt order 2 value.toNat
  | .int16 value => encodeUInt order 2 value.toUInt16.toNat
  | .uint32 value => encodeUInt order 4 value.toNat
  | .int32 value => encodeUInt order 4 value.toUInt32.toNat
  | .uint64 value => encodeUInt order 8 value.toNat
  | .int64 value => encodeUInt order 8 value.toUInt64.toNat
  | .bool value => [if value then 1 else 0]
  | .string value => lengthPrepended order value
  | .ntString value _ => value ++ [0]
  | .buffer value => lengthPrepended order value

/-- The bytes of a sequence of fields. -/
def fieldsBytes (order : ByteOrder) (fields : List Field) : List UInt8 :=
  (fields.map (fieldBytes order)).flatten

@[simp] theorem fieldsBytes_nil (order : ByteOrder) : fieldsBytes order [] = [] := rfl

@[simp] theorem fieldsBytes_cons (order : ByteOrder) (field : Field) (fields : List Field) :
    fieldsBytes order (field :: fields) = fieldBytes order field ++ fieldsBytes order fields := rfl

/-- Every field takes at least one byte. -/
theorem fieldBytes_ne_nil (order : ByteOrder) (field : Field) : fieldBytes order field ≠ [] := by
  apply List.length_pos_iff.mp
  cases field <;> simp +arith [fieldBytes, lengthPrepended]

/-- A string or a buffer takes four bytes more than its content. -/
theorem fieldBytes_length_of_content (order : ByteOrder) {field : Field} {n : Nat}
    (h : field.contentLength? = some n) : (fieldBytes order field).length = 4 + n := by
  cases field with
  | string value =>
    obtain rfl := Option.some.inj h
    simp [fieldBytes, lengthPrepended]
  | buffer value =>
    obtain rfl := Option.some.inj h
    simp [fieldBytes, lengthPrepended]
  | _ => cases h

namespace FixedOutputStream

private theorem serializeNtString_eq {os : FixedOutputStream} {value : List UInt8}
    (hroom : os.m_buffer.length + (value.length + 1) ≤ os.m_bufferSize) :
    os.serializeNtString value = .ok { os with m_buffer := os.m_buffer ++ (value ++ [0]) } := by
  unfold serializeNtString serializeUInt8
  rw [writeBytes_ok (by omega)]
  simp only [bind, Except.bind]
  rw [writeBytes_ok (by simp only [List.length_append, List.length_singleton]; omega)]
  simp only [List.append_assoc]

/-- **A field is written as its bytes** if there is room for them. -/
theorem serializeField_eq {os : FixedOutputStream} {field : Field}
    (hlen : (fieldBytes os.m_byteOrder field).length < 2 ^ 32)
    (hroom : os.m_buffer.length + (fieldBytes os.m_byteOrder field).length ≤ os.m_bufferSize) :
    os.serializeField field =
      .ok { os with m_buffer := os.m_buffer ++ fieldBytes os.m_byteOrder field } := by
  cases field with
  | uint8 value => exact writeBytes_ok hroom
  | int8 value => exact writeBytes_ok hroom
  | uint16 value => exact writeBytes_ok hroom
  | int16 value => exact writeBytes_ok hroom
  | uint32 value => exact writeBytes_ok hroom
  | int32 value => exact writeBytes_ok hroom
  | uint64 value => exact writeBytes_ok hroom
  | int64 value => exact writeBytes_ok hroom
  | bool value => exact writeBytes_ok hroom
  | string value =>
    simp only [fieldBytes, lengthPrepended, List.length_append, encodeUInt_length] at hlen hroom
    exact serializeLengthPrepended_eq (by omega) hroom
  | ntString value nonzero =>
    simp only [fieldBytes, List.length_append, List.length_singleton] at hroom
    exact serializeNtString_eq hroom
  | buffer value =>
    simp only [fieldBytes, lengthPrepended, List.length_append, encodeUInt_length] at hlen hroom
    exact serializeLengthPrepended_eq (by omega) hroom

/-- A sequence of fields is written as their bytes, one after the other. -/
theorem serializeFields_eq {fields : List Field} :
    ∀ {os : FixedOutputStream}, (fieldsBytes os.m_byteOrder fields).length < 2 ^ 32 →
      os.m_buffer.length + (fieldsBytes os.m_byteOrder fields).length ≤ os.m_bufferSize →
      os.serializeFields fields =
        .ok { os with m_buffer := os.m_buffer ++ fieldsBytes os.m_byteOrder fields } := by
  induction fields with
  | nil =>
    intro os _ _
    simp [serializeFields, pure, Except.pure]
  | cons field fields ih =>
    intro os hlen hroom
    simp only [fieldsBytes_cons, List.length_append] at hlen hroom
    have hfield := @serializeField_eq os field (by omega) (by omega)
    unfold serializeFields at ih ⊢
    rw [List.foldlM_cons, hfield]
    simp only [bind, Except.bind]
    rw [ih (by simp only; omega) (by simp only [List.length_append]; omega)]
    simp only [fieldsBytes_cons, List.append_assoc]

end FixedOutputStream

/-! ## §5 What is read back -/

/-- On exactly these bytes the action returns an error code. -/
def Rejects {σ α : Type} (R : σ → List UInt8 → Prop) (x : StreamM σ α) (bytes : List UInt8) :
    Prop :=
  ∀ s, R s bytes → ∃ rc s', x s = .ok (.error rc, s')

theorem Rejects.bind {σ α β : Type} {R : σ → List UInt8 → Prop} {x : StreamM σ α}
    {bytes : List UInt8} (hx : Rejects R x bytes) (g : α → StreamM σ β) :
    Rejects R (x >>= g) bytes := by
  intro s hR
  obtain ⟨rc, s', hs'⟩ := hx s hR
  exact ⟨rc, s', StreamM.bind_error hs'⟩

/-- A string without zero bytes loses nothing when its zero bytes are left out. -/
theorem filter_nonzero {value : List UInt8} (nonzero : ∀ byte ∈ value, byte ≠ 0) :
    value.filter (· != 0) = value :=
  List.filter_eq_self.mpr fun byte hmem => bne_iff_ne.mpr (nonzero byte hmem)

section Queue

variable {σ : Type} [SkippingStream σ] {order : ByteOrder} {R : σ → List UInt8 → Prop}

theorem rejects_read (hq : IsByteQueue order R) {n : Nat} {bytes : List UInt8}
    (hshort : bytes.length < n) : Rejects R (InputStream.read n) bytes := by
  intro s hR
  have hread := hq.read_eq hR (show 0 < n by omega)
  rw [if_pos hshort] at hread
  exact ⟨_, _, hread⟩

theorem rejects_uint (hq : IsByteQueue order R) {n : Nat} {bytes : List UInt8}
    (hshort : bytes.length < n) : Rejects R (deserializeUInt n) bytes :=
  (rejects_read hq hshort).bind _

theorem decodes_int8 (hq : IsByteQueue order R) (value : UInt8) :
    Decodes R deserializeInt8 [value] value := by
  have hread := hq.decodes_read (List.cons_ne_nil value [])
  apply Decodes.map hread
  simp [ofLeBytes]

theorem decodes_bool (hq : IsByteQueue order R) (value : Bool) :
    Decodes R deserializeBool [if value then 1 else 0] value := by
  apply Decodes.map (decodes_int8 hq _)
  cases value <;> rfl

/-- Reading into a buffer with room for the bytes: they are taken as far as they are there. -/
theorem readInto_eq (hq : IsByteQueue order R) {s : σ} {u : List UInt8} (hR : R s u) (hne : u ≠ [])
    {capacity length : Nat} (hroom : length ≤ capacity) :
    ∃ s', readInto capacity length s = .ok (.ok (u.take length), s') ∧ R s' (u.drop length) := by
  obtain ⟨s', hread, hR'⟩ := hq.readBytes_eq hR hne length
  have hfits : ¬ capacity < (u.take length).length := by
    rw [List.length_take]
    omega
  refine ⟨s', ?_, hR'⟩
  unfold readInto
  rw [hread]
  simp only [if_neg hfits, ne_eq, not_true, if_false]

theorem readInto_end (he : ReportsEnd R) {s : σ} (hR : R s []) (capacity length : Nat) :
    readInto capacity length s = .ok (.error .endOfStream, s) := by
  unfold readInto
  rw [he.readBytes_eq hR]
  simp

/-- What `deserializeString` makes of the bytes it was given. -/
def cString (bytes : List UInt8) : List UInt8 := bytes.takeWhile (· != 0)

theorem cString_eq {bytes : List UInt8} (h : ∀ byte ∈ bytes, byte ≠ 0) : cString bytes = bytes := by
  apply List.takeWhile_eq_self_iff.mpr
  intro byte hmem
  exact bne_iff_ne.mpr (h byte hmem)

/-- **Length-prepended bytes** off a stream that goes on after the length: they are handed on as far
    as they are there. -/
theorem lengthPrepended_eq {α : Type} (hq : IsByteQueue order R) {n : Nat} (hn : n < 2 ^ 32)
    (capacity : Nat → Nat) (hroom : n ≤ capacity n) (g : Nat → List UInt8 → α) {s : σ}
    {u : List UInt8} (hR : R s (encodeUInt order 4 n ++ u)) (hne : u ≠ []) :
    ∃ s', (do
        let length ← deserializeUInt 4
        let buf ← readInto (capacity length) length
        pure (g length buf) : StreamM σ α) s = .ok (.ok (g n (u.take n)), s') ∧
      R s' (u.drop n) := by
  obtain ⟨s₁, hlength, hR₁⟩ := hq.decodes_uint (by decide) (show n < 256 ^ 4 by omega) u s hR
  obtain ⟨s₂, hcontent, hR₂⟩ := readInto_eq hq hR₁ hne hroom
  refine ⟨s₂, ?_, hR₂⟩
  rw [StreamM.bind_ok hlength, StreamM.bind_ok hcontent]
  rfl

/-- Where nothing follows the length, it is the end of the stream, whatever the length. -/
theorem rejects_bare {α : Type} (hq : IsByteQueue order R) (he : ReportsEnd R) {n : Nat}
    (hn : n < 2 ^ 32) (capacity : Nat → Nat) (g : Nat → List UInt8 → α) :
    Rejects R (do
      let length ← deserializeUInt 4
      let buf ← readInto (capacity length) length
      pure (g length buf) : StreamM σ α) (encodeUInt order 4 n) := by
  intro s hR
  obtain ⟨s₁, hlength, hR₁⟩ := hq.decodes_uint (by decide) (show n < 256 ^ 4 by omega) [] s
    (by rwa [List.append_nil])
  refine ⟨.endOfStream, s₁, ?_⟩
  rw [StreamM.bind_ok hlength]
  exact StreamM.bind_error (readInto_end he hR₁ _ _)

/-- A null-terminated string is taken with its terminator. -/
theorem decodes_ntString (hq : IsByteQueue order R) {value : List UInt8}
    (nonzero : ∀ byte ∈ value, byte ≠ 0) :
    Decodes R deserializeNtString (value ++ [0]) value := by
  intro rest s hR
  have hgive : ∀ (v given : List UInt8), (∀ byte ∈ v, byte ≠ 0) →
      giveUntil (fun given => given.getLast? != some 0) given (v ++ [0] ++ rest) =
        (given ++ v ++ [0], rest, true) := by
    intro v
    induction v with
    | nil =>
      intro given _
      simp [giveUntil]
    | cons byte v ih =>
      intro given hv
      have hbyte := hv byte List.mem_cons_self
      have hrest := ih (given ++ [byte]) fun b hb => hv b (List.mem_cons_of_mem _ hb)
      have hmore : ((given ++ [byte]).getLast? != some 0) = true := by simpa using hbyte
      show giveUntil (fun given => given.getLast? != some 0) given
        (byte :: (v ++ [0] ++ rest)) = _
      simp only [giveUntil, hmore, if_true, hrest]
      simp
  have hstop := hgive value [] nonzero
  obtain ⟨s', hloop, hR'⟩ := hq.readUntilLoop_stopped hR (Nat.lt_succ_self _)
    (show (giveUntil (fun given => given.getLast? != some 0) [] (value ++ [0] ++ rest)).2.2 = true
      by rw [hstop])
  rw [hstop] at hloop hR'
  refine ⟨s', ?_, hR'⟩
  have hfilter : ([] ++ value ++ [0]).filter (· != 0) = value := by
    rw [List.nil_append, List.filter_append, filter_nonzero nonzero]
    simp
  unfold deserializeNtString InputStream.readUntil
  rw [hq.size_eq hR, hloop]
  simp only [ne_eq, not_true, if_false, hfilter]

/-! ## §6 One field -/

/-- **A field is read back** from its bytes, unless it is a string with an embedded zero, or an
    empty string or buffer that nothing follows. -/
theorem deserializeField_eq (hq : IsByteQueue order R) {field : Field}
    (hzero : field.NoEmbeddedZero) (hlen : (fieldBytes order field).length < 2 ^ 32)
    {rest : List UInt8} (hmore : field.contentLength? = some 0 → rest ≠ []) {s : σ}
    (hR : R s (fieldBytes order field ++ rest)) :
    ∃ s', deserializeField field.type s = .ok (.ok field, s') ∧ R s' rest := by
  cases field with
  | uint8 value => exact Decodes.map (decodes_int8 hq value) rfl rest s hR
  | int8 value => exact Decodes.map (decodes_int8 hq value.toUInt8) (by simp) rest s hR
  | uint16 value =>
    exact Decodes.map (hq.decodes_uint (by decide) value.toNat_lt) (by simp) rest s hR
  | int16 value =>
    exact Decodes.map (hq.decodes_uint (by decide) value.toUInt16.toNat_lt) (by simp) rest s hR
  | uint32 value =>
    exact Decodes.map (hq.decodes_uint (by decide) value.toNat_lt) (by simp) rest s hR
  | int32 value =>
    exact Decodes.map (hq.decodes_uint (by decide) value.toUInt32.toNat_lt) (by simp) rest s hR
  | uint64 value =>
    exact Decodes.map (hq.decodes_uint (by decide) value.toNat_lt) (by simp) rest s hR
  | int64 value =>
    exact Decodes.map (hq.decodes_uint (by decide) value.toUInt64.toNat_lt) (by simp) rest s hR
  | bool value => exact Decodes.map (decodes_bool hq value) rfl rest s hR
  -- without zero bytes the terminator is the first
  | ntString value nonzero =>
    refine Decodes.map (decodes_ntString hq nonzero) ?_ rest s hR
    simp only [ofNtString, filter_nonzero nonzero]
  -- a string leaves room for its terminator
  | string value =>
    simp only [fieldBytes, lengthPrepended, List.length_append, encodeUInt_length] at hlen
    simp only [fieldBytes, lengthPrepended, List.append_assoc] at hR
    have hne : value ++ rest ≠ [] := by
      intro hnil
      obtain ⟨rfl, rfl⟩ := List.append_eq_nil_iff.mp hnil
      exact hmore rfl rfl
    have hroom : value.length ≤ add32 value.length 1 := by
      rw [add32_eq (by omega)]
      omega
    obtain ⟨s', hs', hR'⟩ := lengthPrepended_eq hq (by omega) (fun n => add32 n 1) hroom
      (fun _ buf => cString buf) hR hne
    rw [List.take_left, cString_eq hzero] at hs'
    rw [List.drop_left] at hR'
    exact ⟨s', StreamM.bind_ok hs', hR'⟩
  -- a buffer is read into storage of its own length
  | buffer value =>
    simp only [fieldBytes, lengthPrepended, List.length_append, encodeUInt_length] at hlen
    simp only [fieldBytes, lengthPrepended, List.append_assoc] at hR
    have hne : value ++ rest ≠ [] := by
      intro hnil
      obtain ⟨rfl, rfl⟩ := List.append_eq_nil_iff.mp hnil
      exact hmore rfl rfl
    obtain ⟨s', hs', hR'⟩ := lengthPrepended_eq hq (by omega) (fun n => n) (Nat.le_refl _)
      (fun n bytes => bytes ++ List.replicate (n - bytes.length) 0) hR hne
    rw [List.take_left, Nat.sub_self, List.replicate_zero, List.append_nil] at hs'
    rw [List.drop_left] at hR'
    exact ⟨s', StreamM.bind_ok hs', hR'⟩

/-- A string or a buffer that is cut after its length is read without an error as long as one byte
    of it is there. -/
theorem deserializeField_cut (hq : IsByteQueue order R) {field : Field} {n : Nat}
    (hcontent : field.contentLength? = some n)
    (hlen : (fieldBytes order field).length < 2 ^ 32) {k : Nat} (hlow : 4 < k) (hhigh : k < 4 + n)
    {s : σ} (hR : R s ((fieldBytes order field).take k)) :
    ∃ value s', deserializeField field.type s = .ok (.ok value, s') ∧ R s' [] := by
  have hcut : ∀ value : List UInt8, value.length = n →
      (lengthPrepended order value).take k = encodeUInt order 4 n ++ value.take (k - 4) ∧
        value.take (k - 4) ≠ [] ∧ (value.take (k - 4)).drop n = [] := by
    intro value hvalue
    refine ⟨?_, ?_, ?_⟩
    · rw [lengthPrepended, List.take_append, encodeUInt_length, hvalue,
        List.take_of_length_le (by rw [encodeUInt_length]; omega)]
    · apply List.length_pos_iff.mp
      rw [List.length_take]
      omega
    · apply List.drop_eq_nil_of_le
      rw [List.length_take]
      omega
  cases field with
  | string value =>
    have hvalue := Option.some.inj hcontent
    simp only [fieldBytes, lengthPrepended, List.length_append, encodeUInt_length] at hlen
    simp only [fieldBytes, (hcut value hvalue).1] at hR
    have hroom : n ≤ add32 n 1 := by
      rw [add32_eq (by omega)]
      omega
    obtain ⟨s', hs', hR'⟩ := lengthPrepended_eq hq (by omega) (fun n => add32 n 1) hroom
      (fun _ buf => cString buf) hR (hcut value hvalue).2.1
    rw [(hcut value hvalue).2.2] at hR'
    exact ⟨_, s', StreamM.bind_ok hs', hR'⟩
  | buffer value =>
    have hvalue := Option.some.inj hcontent
    simp only [fieldBytes, lengthPrepended, List.length_append, encodeUInt_length] at hlen
    simp only [fieldBytes, (hcut value hvalue).1] at hR
    obtain ⟨s', hs', hR'⟩ := lengthPrepended_eq hq (by omega) (fun n => n) (Nat.le_refl _)
      (fun n bytes => bytes ++ List.replicate (n - bytes.length) 0) hR (hcut value hvalue).2.1
    rw [(hcut value hvalue).2.2] at hR'
    exact ⟨_, s', StreamM.bind_ok hs', hR'⟩
  | _ => cases hcontent

/-- A string and a buffer of which less than the length is there, or exactly the length. -/
theorem rejects_prepended {α : Type} (hq : IsByteQueue order R) (he : ReportsEnd R)
    (value : List UInt8) (hlen : value.length < 2 ^ 32) {k : Nat} (hk : k ≤ 4)
    (capacity : Nat → Nat) (g : Nat → List UInt8 → α) :
    Rejects R (do
      let length ← deserializeUInt 4
      let buf ← readInto (capacity length) length
      pure (g length buf) : StreamM σ α) ((lengthPrepended order value).take k) := by
  rw [lengthPrepended, List.take_append_of_le_length (by rw [encodeUInt_length]; exact hk)]
  rcases Nat.lt_or_eq_of_le hk with hlt | rfl
  · apply Rejects.bind
    apply rejects_uint hq
    rw [List.length_take, encodeUInt_length]
    omega
  · rw [List.take_of_length_le (by rw [encodeUInt_length])]
    exact rejects_bare hq he hlen capacity g

/-- An empty string and an empty buffer that nothing follows. -/
theorem rejects_empty (hq : IsByteQueue order R) (he : ReportsEnd R) {field : Field}
    (hcontent : field.contentLength? = some 0) :
    Rejects R (deserializeField field.type) (fieldBytes order field) := by
  have hbytes : (lengthPrepended order ([] : List UInt8)).take 4 = lengthPrepended order [] :=
    List.take_of_length_le (by simp [lengthPrepended])
  cases field with
  | string value =>
    obtain rfl : value = [] := List.length_eq_zero_iff.mp (Option.some.inj hcontent)
    have hrej := rejects_prepended hq he [] (by decide) (Nat.le_refl 4)
      (fun n => add32 n 1) fun _ buf => cString buf
    rw [hbytes] at hrej
    exact hrej.bind _
  | buffer value =>
    obtain rfl : value = [] := List.length_eq_zero_iff.mp (Option.some.inj hcontent)
    have hrej := rejects_prepended hq he [] (by decide) (Nat.le_refl 4)
      (fun n => n) fun n bytes => bytes ++ List.replicate (n - bytes.length) 0
    rw [hbytes] at hrej
    exact hrej.bind _
  | _ => cases hcontent

/-- What is cut off before a byte of the content is there is rejected: an integer that is not there
    in full, a null-terminated string without its terminator, a length alone. -/
theorem rejects_field (hq : IsByteQueue order R) (he : ReportsEnd R) {field : Field}
    (hlen : (fieldBytes order field).length < 2 ^ 32) {k : Nat}
    (hcut : k < (fieldBytes order field).length)
    (hcontent : ∀ n, field.contentLength? = some n → k ≤ 4) :
    Rejects R (deserializeField field.type) ((fieldBytes order field).take k) := by
  have hshort : ((fieldBytes order field).take k).length < (fieldBytes order field).length := by
    rw [List.length_take]
    omega
  have huint : ∀ n, (fieldBytes order field).length = n →
      Rejects R (deserializeUInt n) ((fieldBytes order field).take k) := by
    rintro n rfl
    exact rejects_uint hq hshort
  have hint8 : (fieldBytes order field).length = 1 →
      Rejects R deserializeInt8 ((fieldBytes order field).take k) := by
    intro hone
    exact (rejects_read hq (by omega)).bind _
  -- a number of fixed size is read as a whole or not at all
  cases field with
  | uint8 value => exact (hint8 rfl).bind _
  | int8 value => exact (hint8 rfl).bind _
  | uint16 value => exact (huint 2 (encodeUInt_length _ _ _)).bind _
  | int16 value => exact (huint 2 (encodeUInt_length _ _ _)).bind _
  | uint32 value => exact (huint 4 (encodeUInt_length _ _ _)).bind _
  | int32 value => exact (huint 4 (encodeUInt_length _ _ _)).bind _
  | uint64 value => exact (huint 8 (encodeUInt_length _ _ _)).bind _
  | int64 value => exact (huint 8 (encodeUInt_length _ _ _)).bind _
  | bool value => exact ((hint8 rfl).bind _).bind _
  -- a string may be cut only in its length
  | string value =>
    simp only [fieldBytes, lengthPrepended, List.length_append, encodeUInt_length] at hlen
    exact (rejects_prepended hq he value (by omega) (hcontent _ rfl) (fun n => add32 n 1)
      fun _ buf => cString buf).bind _
  | buffer value =>
    simp only [fieldBytes, lengthPrepended, List.length_append, encodeUInt_length] at hlen
    exact (rejects_prepended hq he value (by omega) (hcontent _ rfl) (fun n => n)
      fun n bytes => bytes ++ List.replicate (n - bytes.length) 0).bind _
  | ntString value nonzero =>
    apply Rejects.bind
    intro s hR
    -- no zero is there to stop the consumer
    have hk : k ≤ value.length := by
      simp only [fieldBytes, List.length_append, List.length_singleton] at hcut
      omega
    rw [fieldBytes, List.take_append_of_le_length hk] at hR
    have hstop : ∀ (v given : List UInt8), (∀ byte ∈ v, byte ≠ 0) →
        (giveUntil (fun given => given.getLast? != some 0) given v).2.2 = false := by
      intro v
      induction v with
      | nil =>
        intro given _
        rfl
      | cons byte v ih =>
        intro given hv
        have hbyte := hv byte List.mem_cons_self
        have hmore : ((given ++ [byte]).getLast? != some 0) = true := by simpa using hbyte
        simp only [giveUntil, hmore, if_true]
        exact ih _ fun b hb => hv b (List.mem_cons_of_mem _ hb)
    obtain ⟨s', hread, -⟩ := he.readUntil_eq hq hR
      (hstop _ [] fun byte hmem => nonzero byte (List.mem_of_mem_take hmem))
    refine ⟨.endOfStream, s', ?_⟩
    unfold deserializeNtString
    rw [hread]
    simp

/-- No field is read from a depleted stream. -/
theorem rejects_depleted (hq : IsByteQueue order R) (he : ReportsEnd R) (type : FieldType) :
    Rejects R (deserializeField type) [] := by
  have hint8 : Rejects R deserializeInt8 [] := (rejects_read hq (by decide)).bind _
  have huint : ∀ n, 0 < n → Rejects R (deserializeUInt n) [] := fun n hn => rejects_uint hq hn
  cases type with
  | uint8 => exact hint8.bind _
  | int8 => exact hint8.bind _
  | uint16 => exact (huint 2 (by decide)).bind _
  | int16 => exact (huint 2 (by decide)).bind _
  | uint32 => exact (huint 4 (by decide)).bind _
  | int32 => exact (huint 4 (by decide)).bind _
  | uint64 => exact (huint 8 (by decide)).bind _
  | int64 => exact (huint 8 (by decide)).bind _
  | bool => exact (hint8.bind _).bind _
  | string => exact ((huint 4 (by decide)).bind _).bind _
  | buffer => exact ((huint 4 (by decide)).bind _).bind _
  | ntString =>
    apply Rejects.bind
    intro s hR
    obtain ⟨s', hread, -⟩ :=
      he.readUntil_eq (f := fun given => given.getLast? != some 0) hq hR rfl
    refine ⟨.endOfStream, s', ?_⟩
    unfold deserializeNtString
    rw [hread]
    simp

/-! ## §7 A sequence of fields -/

/-- The fields before other bytes are read back, and the macros after them are left with what
    follows: with their fields, or with their error. -/
theorem deserializeFields_then (hq : IsByteQueue order R) {fields : List Field} :
    ∀ {rest : List UInt8} {s : σ}, (∀ field ∈ fields, field.NoEmbeddedZero) →
      (fieldsBytes order fields).length < 2 ^ 32 → rest ≠ [] →
      R s (fieldsBytes order fields ++ rest) →
      ∃ s', R s' rest ∧ ∀ types,
        (∀ more s'', deserializeFields types s' = .ok (.ok more, s'') →
          deserializeFields (fields.map Field.type ++ types) s = .ok (.ok (fields ++ more), s'')) ∧
        (∀ rc s'', deserializeFields types s' = .ok (.error rc, s'') →
          deserializeFields (fields.map Field.type ++ types) s = .ok (.error rc, s'')) := by
  induction fields with
  | nil =>
    intro rest s _ _ _ hR
    exact ⟨s, hR, fun types => ⟨fun _ _ h => h, fun _ _ h => h⟩⟩
  | cons field fields ih =>
    intro rest s hzero hlen hne hR
    simp only [fieldsBytes_cons, List.length_append, List.append_assoc] at hlen hR
    have hmore : fieldsBytes order fields ++ rest ≠ [] :=
      List.append_ne_nil_of_right_ne_nil _ hne
    obtain ⟨s₁, hfield, hR₁⟩ := deserializeField_eq hq (hzero field List.mem_cons_self)
      (by omega) (fun _ => hmore) hR
    obtain ⟨s₂, hR₂, hfields⟩ := ih (fun f hf => hzero f (List.mem_cons_of_mem _ hf)) (by omega)
      hne hR₁
    refine ⟨s₂, hR₂, fun types => ⟨?_, ?_⟩⟩
    · intro more s'' htypes
      rw [List.map_cons, List.cons_append, deserializeFields, StreamM.bind_ok hfield,
        StreamM.bind_ok ((hfields types).1 more s'' htypes)]
      rfl
    · intro rc s'' htypes
      rw [List.map_cons, List.cons_append, deserializeFields, StreamM.bind_ok hfield]
      exact StreamM.bind_error ((hfields types).2 rc s'' htypes)

/-- A macro that is alone. -/
theorem deserializeFields_singleton {type : FieldType} {s s' : σ} {r : Except ErrorCode Field}
    (h : deserializeField type s = .ok (r, s')) :
    deserializeFields [type] s = .ok (r.map ([·]), s') := by
  cases r with
  | ok field =>
    rw [deserializeFields, StreamM.bind_ok h]
    rfl
  | error rc => exact StreamM.bind_error h

/-- No zero byte is in a string that was read. -/
theorem noEmbeddedZero_of_deserialized {type : FieldType} {s s' : σ} {field : Field}
    (h : deserializeField type s = .ok (.ok field, s')) : field.NoEmbeddedZero := by
  cases type with
  | string =>
    obtain ⟨value, s₁, hvalue, hpure⟩ := StreamM.bind_eq_ok h
    cases hpure
    obtain ⟨n, s₂, -, hcontent⟩ := StreamM.bind_eq_ok hvalue
    obtain ⟨buf, s₃, -, hpure⟩ := StreamM.bind_eq_ok hcontent
    cases hpure
    intro byte hmem
    exact bne_iff_ne.mp (List.mem_takeWhile_imp (p := fun byte => byte != 0) hmem)
  | _ =>
    obtain ⟨value, s₁, -, hpure⟩ := StreamM.bind_eq_ok h
    cases hpure
    trivial

theorem noEmbeddedZero_of_fields {types : List FieldType} :
    ∀ {s s' : σ} {fields : List Field}, deserializeFields types s = .ok (.ok fields, s') →
      ∀ field ∈ fields, field.NoEmbeddedZero := by
  induction types with
  | nil =>
    intro s s' fields h field hmem
    cases h
    cases hmem
  | cons type types ih =>
    intro s s' fields h field hmem
    obtain ⟨first, s₁, hfirst, hrest⟩ := StreamM.bind_eq_ok h
    obtain ⟨others, s₂, hothers, hpure⟩ := StreamM.bind_eq_ok hrest
    cases hpure
    rcases List.mem_cons.mp hmem with rfl | hmem
    · exact noEmbeddedZero_of_deserialized hfirst
    · exact ih hothers field hmem

/-- **Truncated input is rejected**: whatever is cut off the bytes of the fields, if a string or a
    buffer that comes last has one byte. -/
theorem rejects_fields (hq : IsByteQueue order R) (he : ReportsEnd R) {fields : List Field} :
    ∀ {k : Nat}, (∀ field ∈ fields, field.NoEmbeddedZero) →
      (∀ field ∈ fields.getLast?, ∀ n, field.contentLength? = some n → n = 1) →
      (fieldsBytes order fields).length < 2 ^ 32 → k < (fieldsBytes order fields).length →
      Rejects R (deserializeFields (fields.map Field.type))
        ((fieldsBytes order fields).take k) := by
  induction fields with
  | nil =>
    intro k _ _ _ hk
    cases hk
  | cons field fields ih =>
    intro k hzero hlast hlen hk
    have hfirst := hzero field List.mem_cons_self
    have hothers := fun f hf => hzero f (List.mem_cons_of_mem field hf)
    simp only [fieldsBytes_cons, List.length_append] at hlen hk ⊢
    rw [List.map_cons, deserializeFields]
    by_cases hcut : k < (fieldBytes order field).length
    · -- the cut is inside this field
      rw [List.take_append_of_le_length (by omega)]
      by_cases hrej : ∀ n, field.contentLength? = some n → k ≤ 4
      · exact (rejects_field hq he (by omega) hcut hrej).bind _
      · -- some of its content is there, so another field follows, and nothing is left for it
        simp only [not_forall, Nat.not_le] at hrej
        obtain ⟨n, hcontent, hlow⟩ := hrej
        have hsize := fieldBytes_length_of_content order hcontent
        intro s hR
        obtain ⟨value, s', hvalue, hR'⟩ :=
          deserializeField_cut hq hcontent (by omega) hlow (by omega) hR
        cases fields with
        | nil =>
          have hone := hlast field rfl n hcontent
          omega
        | cons next others =>
          obtain ⟨rc, s'', hnext⟩ := rejects_depleted hq he next.type s' hR'
          refine ⟨rc, s'', ?_⟩
          rw [StreamM.bind_ok hvalue, List.map_cons, deserializeFields]
          exact StreamM.bind_error (StreamM.bind_error hnext)
    · -- the cut is after this field
      have hsplit : (fieldBytes order field ++ fieldsBytes order fields).take k =
          fieldBytes order field ++
            (fieldsBytes order fields).take (k - (fieldBytes order field).length) := by
        rw [List.take_append, List.take_of_length_le (by omega)]
      rw [hsplit]
      by_cases hbare : field.contentLength? = some 0 ∧
          (fieldsBytes order fields).take (k - (fieldBytes order field).length) = []
      · rw [hbare.2, List.append_nil]
        exact (rejects_empty hq he hbare.1).bind _
      · intro s hR
        obtain ⟨s', hfield, hR'⟩ := deserializeField_eq hq hfirst (by omega)
          (fun hcontent hnil => hbare ⟨hcontent, hnil⟩) hR
        have hlast' : ∀ f ∈ fields.getLast?, ∀ n, f.contentLength? = some n → n = 1 := by
          intro f hf
          apply hlast f
          rw [List.getLast?_cons, Option.mem_def.mp hf]
          rfl
        obtain ⟨rc, s'', hrest⟩ := ih hothers hlast' (by omega) (by omega) s' hR'
        refine ⟨rc, s'', ?_⟩
        rw [StreamM.bind_ok hfield]
        exact StreamM.bind_error hrest

end Queue

/-! ## §8 The format -/

/-- On exactly these bytes the macros give back the fields, and nothing is left. -/
def Restores (order : ByteOrder) (fields : List Field) (bytes : List UInt8) : Prop :=
  ∃ is', deserializeFields (fields.map Field.type) (FixedInputStream.new bytes order) =
    .ok (.ok fields, is') ∧ is'.size = 0

/-- On whatever is cut off these bytes some macro returns an error. -/
def RejectsTruncated (order : ByteOrder) (fields : List Field) (bytes : List UInt8) : Prop :=
  ∀ cut, cut <+: bytes → cut ≠ bytes → ∃ rc is',
    deserializeFields (fields.map Field.type)
        (FixedInputStream.new cut order) = .ok (.error rc, is')

/-- No string has an embedded zero, and a string or buffer that comes last has one byte. -/
structure Invertible (fields : List Field) : Prop where
  noEmbeddedZero : ∀ field ∈ fields, field.NoEmbeddedZero
  last_one : ∀ field ∈ fields.getLast?, ∀ n, field.contentLength? = some n → n = 1

section Format

variable {order : ByteOrder} {fields : List Field}

private theorem new_holds (order : ByteOrder) (bytes : List UInt8) :
    (FixedInputStream.new bytes order).Holds order bytes := ⟨rfl, rfl⟩

/-- What restores the fields also restores those before the last one, with what is left of the bytes
    for the last one. -/
private theorem deserialize_last {init : List Field} {last : Field}
    (hzero : ∀ field ∈ init, field.NoEmbeddedZero) {tail : List UInt8}
    (hlen : (fieldsBytes order init).length < 2 ^ 32) (hne : tail ≠ []) :
    ∃ is, is.Holds order tail ∧ ∀ r is', deserializeField last.type is = .ok (r, is') →
      deserializeFields ((init ++ [last]).map Field.type)
        (FixedInputStream.new (fieldsBytes order init ++ tail) order) =
          .ok (r.map fun field => init ++ [field], is') := by
  obtain ⟨is, his, hthen⟩ := deserializeFields_then (FixedInputStream.isByteQueue order) hzero hlen
    hne (new_holds order (fieldsBytes order init ++ tail))
  refine ⟨is, his, fun r is' hlast => ?_⟩
  have hone := deserializeFields_singleton hlast
  rw [List.map_append]
  cases r with
  | ok field => exact (hthen [last.type]).1 [field] is' hone
  | error rc => exact (hthen [last.type]).2 rc is' hone

theorem fieldsBytes_append (order : ByteOrder) (fields more : List Field) :
    fieldsBytes order (fields ++ more) = fieldsBytes order fields ++ fieldsBytes order more := by
  simp [fieldsBytes]

/-- The fields are restored where the macros are invertible. -/
theorem Invertible.restores (h : Invertible fields)
    (hlen : (fieldsBytes order fields).length < 2 ^ 32) :
    Restores order fields (fieldsBytes order fields) := by
  rcases List.eq_nil_or_concat fields with rfl | ⟨init, last, rfl⟩
  · exact ⟨_, rfl, rfl⟩
  · rw [List.concat_eq_append] at h hlen ⊢
    have hlast : last.contentLength? ≠ some 0 := fun h0 =>
      absurd (h.last_one last (by simp) 0 h0) (by decide)
    have hbytes : fieldsBytes order (init ++ [last]) =
        fieldsBytes order init ++ fieldBytes order last := by
      rw [fieldsBytes_append, fieldsBytes_cons, fieldsBytes_nil, List.append_nil]
    rw [hbytes, List.length_append] at hlen
    obtain ⟨is, his, hrun⟩ := @deserialize_last order init last
      (fun f hf => h.noEmbeddedZero f (List.mem_append_left _ hf)) _ (by omega)
      (fieldBytes_ne_nil order last)
    obtain ⟨is', hfield, his'⟩ := deserializeField_eq (FixedInputStream.isByteQueue order)
      (h.noEmbeddedZero last (by simp)) (by omega) (fun h0 => absurd h0 hlast)
      (show is.Holds order (fieldBytes order last ++ []) by rwa [List.append_nil])
    unfold Restores
    rw [hbytes]
    exact ⟨is', hrun _ _ hfield, his'.size_eq⟩

/-- The macros are invertible where the fields are restored and truncated input is rejected. -/
theorem Restores.invertible (h : Restores order fields (fieldsBytes order fields))
    (hrejects : RejectsTruncated order fields (fieldsBytes order fields))
    (hlen : (fieldsBytes order fields).length < 2 ^ 32) : Invertible fields := by
  obtain ⟨is', hrun, -⟩ := h
  have hzero := noEmbeddedZero_of_fields hrun
  refine ⟨hzero, ?_⟩
  rcases List.eq_nil_or_concat fields with rfl | ⟨init, last, rfl⟩
  · intro field hmem
    cases hmem
  rw [List.concat_eq_append] at *
  intro field hmem n hcontent
  obtain rfl : last = field := by simpa using hmem
  have hbytes : fieldsBytes order (init ++ [last]) =
      fieldsBytes order init ++ fieldBytes order last := by
    rw [fieldsBytes_append, fieldsBytes_cons, fieldsBytes_nil, List.append_nil]
  have hsize := fieldBytes_length_of_content order hcontent
  rw [hbytes] at hrejects hrun
  rw [hbytes, List.length_append] at hlen
  have hinit := fun f hf => hzero f (List.mem_append_left [last] hf)
  rcases Nat.lt_trichotomy n 1 with hempty | hone | hmore
  · -- an empty content: the last macro returns an error
    obtain rfl : n = 0 := by omega
    obtain ⟨is, his, hthen⟩ := @deserialize_last order init last hinit _ (by omega)
      (fieldBytes_ne_nil order last)
    obtain ⟨rc, is'', hrej⟩ := rejects_empty (FixedInputStream.isByteQueue order)
      (FixedInputStream.reportsEnd order) hcontent is his
    rw [hthen _ _ hrej] at hrun
    cases hrun
  · exact hone
  · -- two bytes of content: without the last one the macro still returns no error
    have hcut : (fieldBytes order last).take (4 + n - 1) ≠ [] := by
      apply List.length_pos_iff.mp
      rw [List.length_take]
      omega
    obtain ⟨is, his, hthen⟩ := @deserialize_last order init last hinit _ (by omega) hcut
    obtain ⟨value, is'', hvalue, -⟩ := deserializeField_cut (FixedInputStream.isByteQueue order)
      hcontent (by omega) (by omega) (by omega) his
    obtain ⟨rc, is₃, hrej⟩ := hrejects
      (fieldsBytes order init ++ (fieldBytes order last).take (4 + n - 1))
      ((List.prefix_append_right_inj _).mpr (List.take_prefix _ _)) (by
        intro heq
        have hlen' := congrArg List.length (List.append_cancel_left heq)
        rw [List.length_take] at hlen'
        omega)
    rw [hthen _ _ hvalue] at hrej
    cases hrej

/-- **The macros as a format.**  Any fields are written to a stream with room for them, in either
    order.  They are restored from exactly these bytes with nothing left, and every strict prefix
    is rejected, if and only if no `std::string` has an embedded zero and a string or a buffer that
    comes last has exactly one byte. -/
theorem serializable_invertible_iff (order : ByteOrder) (fields : List Field) {bufferSize : Nat}
    (hsize : bufferSize < 2 ^ 32) (hroom : (fieldsBytes order fields).length ≤ bufferSize) :
    ∃ os, (FixedOutputStream.new bufferSize order).serializeFields fields = .ok os ∧
      (Restores order fields os.m_buffer ∧ RejectsTruncated order fields os.m_buffer ↔
        Invertible fields) := by
  have hlen : (fieldsBytes order fields).length < 2 ^ 32 := by omega
  have hwrite := @FixedOutputStream.serializeFields_eq fields
    (FixedOutputStream.new bufferSize order) hlen (by simpa [FixedOutputStream.new] using hroom)
  refine ⟨_, hwrite, ?_⟩
  show Restores order fields ([] ++ fieldsBytes order fields) ∧
    RejectsTruncated order fields ([] ++ fieldsBytes order fields) ↔ Invertible fields
  rw [List.nil_append]
  constructor
  · rintro ⟨hrestores, hrejects⟩
    exact hrestores.invertible hrejects hlen
  · intro hinv
    refine ⟨hinv.restores hlen, ?_⟩
    intro cut hcut hne
    have htake := List.prefix_iff_eq_take.mp hcut
    have hlt : cut.length < (fieldsBytes order fields).length := by
      rcases Nat.lt_or_eq_of_le hcut.length_le with hlt | heq
      · exact hlt
      · exact absurd (hcut.eq_of_length heq) hne
    rw [htake]
    exact rejects_fields (FixedInputStream.isByteQueue order) (FixedInputStream.reportsEnd order)
      hinv.noEmbeddedZero hinv.last_one hlen hlt _ (new_holds order _)

end Format

/-- A string, an empty buffer and a negative integer in network order. -/
theorem serializable_three_fields :
    ∃ os, (FixedOutputStream.new 64 .networkOrder).serializeFields
        [.string [97, 98], .buffer [], .int16 (-2)] = .ok os ∧
      Restores .networkOrder [.string [97, 98], .buffer [], .int16 (-2)] os.m_buffer ∧
      RejectsTruncated .networkOrder [.string [97, 98], .buffer [], .int16 (-2)] os.m_buffer := by
  obtain ⟨os, hwrite, hiff⟩ := serializable_invertible_iff .networkOrder
    [.string [97, 98], .buffer [], .int16 (-2)] (show 64 < 2 ^ 32 by decide) (by decide)
  exact ⟨os, hwrite, hiff.mpr ⟨by decide +kernel, by
    intro field hmem n hcontent
    obtain rfl := Option.some.inj hmem
    cases hcontent⟩⟩

/-- A string with an embedded zero is cut at it; a buffer that is empty and comes last is the end of
    the stream; and a buffer of two bytes that comes last is read without an error when its last
    byte is missing. -/
theorem serializable_not_invertible :
    ¬ Restores .hostOrder [.string [97, 0, 98], .uint8 1]
        [3, 0, 0, 0, 97, 0, 98, 1] ∧
    ¬ Restores .hostOrder [.buffer []] [0, 0, 0, 0] ∧
    ¬ RejectsTruncated .hostOrder [.buffer [5, 6]] [2, 0, 0, 0, 5, 6] := by
  have hstring : (deserializeFields [.string, .uint8]
      (FixedInputStream.new [3, 0, 0, 0, 97, 0, 98, 1] .hostOrder)).map Prod.fst =
        .ok (.ok [.string [97], .uint8 1]) := by rfl
  have hempty : (deserializeFields [.buffer]
      (FixedInputStream.new [0, 0, 0, 0] .hostOrder)).map Prod.fst =
        .ok (.error .endOfStream) := by rfl
  have hcut : (deserializeFields [.buffer]
      (FixedInputStream.new [2, 0, 0, 0, 5] .hostOrder)).map Prod.fst =
        .ok (.ok [.buffer [5, 0]]) := by rfl
  refine ⟨?_, ?_, ?_⟩
  · rintro ⟨is', hrun, -⟩
    have heq := hstring.symm.trans (congrArg (Except.map Prod.fst) hrun)
    exact absurd (Except.ok.inj (Except.ok.inj heq)) (by decide)
  · rintro ⟨is', hrun, -⟩
    have heq := hempty.symm.trans (congrArg (Except.map Prod.fst) hrun)
    cases Except.ok.inj heq
  · intro hrejects
    obtain ⟨rc, is', hrun⟩ := hrejects [2, 0, 0, 0, 5] (by decide) (by decide)
    have heq := hcut.symm.trans (congrArg (Except.map Prod.fst) hrun)
    cases Except.ok.inj heq

end Commutil.Io
