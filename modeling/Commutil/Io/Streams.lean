import Commutil.Basic
import Commutil.Library.LittleEndian

/-!
# Input and Output Streams

The abstract interface of `input_stream.h` with its typed readers, the fixed
streams of `fixed_output_stream.h` and `fixed_input_stream.h`, the integer
macros of `serializable.h` that go through them, and `strncmp`, with which the
streams search.

A reader is a `StreamM` action: it returns a value or an error code together with
the stream it leaves behind, unless it faults.  `return rc;` inside a
deserialization macro is the error case of the action.
-/

namespace Commutil.Io

open Commutil.Library

/-! ## §1 Input streams -/

/-- `class InputStream`, restricted to what the typed readers go through. -/
class InputStream (σ : Type) where
  size : σ → Nat
  getByteOrder : σ → ByteOrder
  peekBytes : σ → Nat → Except Fault (ErrorCode × List UInt8)
  readBytes : σ → Nat → Except Fault (ErrorCode × List UInt8 × σ)

/-- An action on a stream: a value or an error code, and the stream afterwards. -/
def StreamM (σ α : Type) : Type := σ → Except Fault (Except ErrorCode α × σ)

namespace StreamM

variable {σ α β : Type}

instance : Monad (StreamM σ) where
  pure a := fun s => .ok (.ok a, s)
  bind x f := fun s =>
    match x s with
    | .error fault => .error fault
    | .ok (.error rc, s') => .ok (.error rc, s')
    | .ok (.ok a, s') => f a s'

/-- An action that succeeds hands its value and its stream to the next one. -/
theorem bind_ok {x : StreamM σ α} {f : α → StreamM σ β} {s s' : σ} {a : α}
    (h : x s = .ok (.ok a, s')) : (x >>= f) s = f a s' := by
  show (match x s with
    | .error fault => .error fault
    | .ok (.error rc, s') => .ok (.error rc, s')
    | .ok (.ok a, s') => f a s') = f a s'
  rw [h]

/-- An action that fails hands on its code. -/
theorem bind_error {x : StreamM σ α} {f : α → StreamM σ β} {s s' : σ} {rc : ErrorCode}
    (h : x s = .ok (.error rc, s')) : (x >>= f) s = .ok (.error rc, s') := by
  show (match x s with
    | .error fault => .error fault
    | .ok (.error rc, s') => .ok (.error rc, s')
    | .ok (.ok a, s') => f a s' : Except Fault (Except ErrorCode β × σ)) = .ok (.error rc, s')
  rw [h]

/-- Two actions succeed one after the other exactly if each of them does. -/
theorem bind_eq_ok {x : StreamM σ α} {f : α → StreamM σ β} {s s'' : σ} {b : β}
    (h : (x >>= f) s = .ok (.ok b, s'')) :
    ∃ a s', x s = .ok (.ok a, s') ∧ f a s' = .ok (.ok b, s'') := by
  simp only [bind] at h
  split at h
  · cases h
  · cases h
  · rename_i a s' hx
    exact ⟨a, s', hx, h⟩

end StreamM

namespace InputStream

variable {σ : Type} [InputStream σ]

/-- `InputStream::empty`. -/
def empty (s : σ) : Bool := size s == 0

/-- `InputStream::isNetworkOrder`. -/
def isNetworkOrder (s : σ) : Bool := getByteOrder s == .networkOrder

/-- `InputStream::peek` of a value of `n` bytes. -/
def peek (s : σ) (n : Nat) : Except Fault (Except ErrorCode (List UInt8)) :=
  if size s < n then
    .ok (.error .endOfStream)
  else
    match peekBytes s n with
    | .error fault => .error fault
    | .ok (rc, bytes) =>
      if rc ≠ .ok then .ok (.error rc)
      else if bytes.length < n then .ok (.error .endOfStream)
      else .ok (.ok bytes)

/-- `InputStream::read` of a value of `n` bytes. -/
def read (n : Nat) : StreamM σ (List UInt8) := fun s =>
  if size s < n then
    .ok (.error .endOfStream, s)
  else
    match readBytes s n with
    | .error fault => .error fault
    | .ok (rc, bytes, s') =>
      if rc ≠ .ok then .ok (.error rc, s')
      else if bytes.length < n then .ok (.error .endOfStream, s')
      else .ok (.ok bytes, s')

end InputStream

/-! ## §2 Integers on streams -/

/-- `ntohs`, `ntohl`, `ntohll` on a stream in network order, nothing otherwise. -/
def toHostOrder (order : ByteOrder) (n v : Nat) : Nat :=
  match order with
  | .hostOrder => v
  | .networkOrder => byteSwap n v

/-- The value of the `n` bytes of an integer that arrived in the given order. -/
def decodeUInt (order : ByteOrder) (bytes : List UInt8) : Nat :=
  toHostOrder order bytes.length (ofLeBytes bytes)

/-- The `n` bytes that `os.write(os.isNetworkOrder() ? hton(value) : value)` puts out. -/
def encodeUInt (order : ByteOrder) (n v : Nat) : List UInt8 :=
  leBytes n (toHostOrder order n v)

/-- `if (is.isNetworkOrder()) value = ntoh(value);` -/
def convertToHost {σ : Type} [InputStream σ] (n : Nat) (bytes : List UInt8) : StreamM σ Nat :=
  fun s => .ok (.ok (toHostOrder (InputStream.getByteOrder s) n (ofLeBytes bytes)), s)

/-- `COMM_DESERIALIZE_UINT16`, `COMM_DESERIALIZE_UINT32` and `COMM_DESERIALIZE_UINT64`. -/
def deserializeUInt {σ : Type} [InputStream σ] (n : Nat) : StreamM σ Nat := do
  let bytes ← InputStream.read n
  convertToHost n bytes

@[simp] theorem encodeUInt_length (order : ByteOrder) (n v : Nat) :
    (encodeUInt order n v).length = n :=
  leBytes_length _ _

/-- Decoding inverts encoding on values of the width. -/
theorem decodeUInt_encodeUInt (order : ByteOrder) (n v : Nat) (hv : v < 256 ^ n) :
    decodeUInt order (encodeUInt order n v) = v := by
  cases order with
  | hostOrder =>
    simp only [decodeUInt, encodeUInt, toHostOrder]
    exact ofLeBytes_leBytes n v hv
  -- the bytes are swapped on the way out and on the way in
  | networkOrder =>
    simp only [decodeUInt, encodeUInt, toHostOrder, leBytes_length]
    rw [ofLeBytes_leBytes n _ (byteSwap_lt n v)]
    exact byteSwap_byteSwap n v hv

/-- Encoding inverts decoding on images of the width. -/
theorem encodeUInt_decodeUInt (order : ByteOrder) (bytes : List UInt8) :
    encodeUInt order bytes.length (decodeUInt order bytes) = bytes := by
  cases order with
  | hostOrder => exact leBytes_ofLeBytes bytes
  | networkOrder =>
    simp only [decodeUInt, encodeUInt, toHostOrder]
    rw [byteSwap_byteSwap _ _ (ofLeBytes_lt bytes), leBytes_ofLeBytes]

theorem decodeUInt_lt (order : ByteOrder) (bytes : List UInt8) :
    decodeUInt order bytes < 256 ^ bytes.length := by
  cases order with
  | hostOrder => exact ofLeBytes_lt bytes
  | networkOrder => exact byteSwap_lt _ _

/-- Some bytes after their length. -/
def lengthPrepended (order : ByteOrder) (bytes : List UInt8) : List UInt8 :=
  encodeUInt order 4 bytes.length ++ bytes

@[simp] theorem lengthPrepended_length (order : ByteOrder) (bytes : List UInt8) :
    (lengthPrepended order bytes).length = 4 + bytes.length := by
  rw [lengthPrepended, List.length_append, encodeUInt_length]

/-! ## §3 Fixed output streams -/

/-- `class FixedOutputStream`; `m_offset` is the number of bytes written. -/
structure FixedOutputStream where
  m_byteOrder : ByteOrder
  m_bufferSize : Nat
  m_buffer : List UInt8
  deriving DecidableEq, Repr

namespace FixedOutputStream

/-- A stream over an empty buffer of the given size. -/
def new (bufferSize : Nat) (byteOrder : ByteOrder) : FixedOutputStream :=
  ⟨byteOrder, bufferSize, []⟩

/-- `FixedOutputStream::writeBytes`. -/
def writeBytes (os : FixedOutputStream) (bytes : List UInt8) :
    Except ErrorCode FixedOutputStream :=
  if os.m_bufferSize - os.m_buffer.length < bytes.length then
    .error .nomem
  else
    .ok { os with m_buffer := os.m_buffer ++ bytes }

/-- `COMM_SERIALIZE_UINT16`, `COMM_SERIALIZE_UINT32` and `COMM_SERIALIZE_UINT64`. -/
def serializeUInt (os : FixedOutputStream) (n v : Nat) : Except ErrorCode FixedOutputStream :=
  os.writeBytes (encodeUInt os.m_byteOrder n v)

theorem writeBytes_ok {os : FixedOutputStream} {bytes : List UInt8}
    (h : os.m_buffer.length + bytes.length ≤ os.m_bufferSize) :
    os.writeBytes bytes = .ok { os with m_buffer := os.m_buffer ++ bytes } := by
  simp only [writeBytes]
  rw [if_neg (by omega)]

/-- The length of some bytes as a `uint32_t`, and the bytes. -/
def serializeLengthPrepended (os : FixedOutputStream) (bytes : List UInt8) :
    Except ErrorCode FixedOutputStream := do
  let os ← os.serializeUInt 4 (bytes.length % 2 ^ 32)
  os.writeBytes (bytes.take (bytes.length % 2 ^ 32))

/-- `COMM_SERIALIZE_BUFFER`. -/
def serializeBuffer (os : FixedOutputStream) (buffer : List UInt8) :
    Except ErrorCode FixedOutputStream :=
  os.serializeLengthPrepended buffer

/-- Bytes for which there is room are appended after their length. -/
theorem serializeLengthPrepended_eq {os : FixedOutputStream} {bytes : List UInt8}
    (hlen : bytes.length < 2 ^ 32)
    (hroom : os.m_buffer.length + (4 + bytes.length) ≤ os.m_bufferSize) :
    os.serializeLengthPrepended bytes =
      .ok { os with m_buffer := os.m_buffer ++ lengthPrepended os.m_byteOrder bytes } := by
  unfold serializeLengthPrepended serializeUInt
  rw [Nat.mod_eq_of_lt hlen, List.take_length,
    writeBytes_ok (by rw [encodeUInt_length]; omega)]
  simp only [bind, Except.bind]
  rw [writeBytes_ok (by simp only [List.length_append, encodeUInt_length]; omega)]
  simp only [lengthPrepended, List.append_assoc]

end FixedOutputStream

/-! ## §4 Fixed input streams -/

/-- `class FixedInputStream`, by reference to its buffer; `m_size` is the length of the buffer. -/
structure FixedInputStream where
  m_byteOrder : ByteOrder
  m_buf : List UInt8
  m_offset : Nat
  deriving DecidableEq, Repr

namespace FixedInputStream

/-- A stream over a buffer. -/
def new (buffer : List UInt8) (byteOrder : ByteOrder) : FixedInputStream := ⟨byteOrder, buffer, 0⟩

/-- `FixedInputStream::size`. -/
def size (is : FixedInputStream) : Nat := is.m_buf.length - is.m_offset

/-- `FixedInputStream::readBytes`. -/
def readBytes (is : FixedInputStream) (length : Nat) : ErrorCode × List UInt8 × FixedInputStream :=
  if is.size = 0 then
    -- also for a read of no bytes at all
    (.endOfStream, [], is)
  else
    let bytesRead := min length is.size
    (.ok, (is.m_buf.drop is.m_offset).take bytesRead,
      { is with m_offset := is.m_offset + bytesRead })

/-- `FixedInputStream::peekBytes`. -/
def peekBytes (is : FixedInputStream) (length : Nat) : ErrorCode × List UInt8 :=
  let (rc, bytes, _) := is.readBytes length
  (rc, bytes)

/-- `FixedInputStream::skipBytes`. -/
def skipBytes (is : FixedInputStream) (length : Nat) : ErrorCode × FixedInputStream :=
  if is.size = 0 then
    (.endOfStream, is)
  else
    (.ok, { is with m_offset := is.m_offset + min length is.size })

instance : InputStream FixedInputStream where
  size := size
  getByteOrder := m_byteOrder
  peekBytes is length := .ok (is.peekBytes length)
  readBytes is length := .ok (is.readBytes length)

/-- The bytes that have not been read. -/
def unread (is : FixedInputStream) : List UInt8 := is.m_buf.drop is.m_offset

@[simp] theorem unread_length (is : FixedInputStream) : is.unread.length = is.size :=
  List.length_drop

/-- The stream `n` bytes further on. -/
def advance (is : FixedInputStream) (n : Nat) : FixedInputStream :=
  { is with m_offset := is.m_offset + n }

@[simp] theorem advance_unread (is : FixedInputStream) (n : Nat) :
    (is.advance n).unread = is.unread.drop n := by
  simp [unread, advance]

@[simp] theorem advance_size (is : FixedInputStream) (n : Nat) :
    (is.advance n).size = is.size - n := by
  simp only [size, advance]
  omega

/-- Reading bytes that are there. -/
theorem readBytes_eq {is : FixedInputStream} {n : Nat} (hsize : 0 < is.size) (h : n ≤ is.size) :
    is.readBytes n = (.ok, is.unread.take n, is.advance n) := by
  unfold readBytes
  rw [if_neg (by omega), Nat.min_eq_left h]
  rfl

/-- **An integer off a fixed stream**, if its bytes are there. -/
theorem deserializeUInt_eq {is : FixedInputStream} {n : Nat} (hpos : 0 < n) (h : n ≤ is.size) :
    deserializeUInt n is =
      .ok (.ok (toHostOrder is.m_byteOrder n (ofLeBytes (is.unread.take n))), is.advance n) := by
  have hlen : ¬ (is.unread.take n).length < n := by
    rw [List.length_take, unread_length]
    omega
  -- the size is looked at before the read, so the read gets all it asks for
  have hread : InputStream.read n is = .ok (.ok (is.unread.take n), is.advance n) := by
    have hsize : ¬ InputStream.size is < n := Nat.not_lt.mpr h
    unfold InputStream.read
    rw [if_neg hsize]
    simp only [InputStream.readBytes, readBytes_eq (by omega) h, ne_eq, not_true, if_false]
    rw [if_neg hlen]
  unfold deserializeUInt
  rw [StreamM.bind_ok hread]
  rfl

/-- An integer that is not there in full. -/
theorem deserializeUInt_short {is : FixedInputStream} {n : Nat} (h : is.size < n) :
    deserializeUInt n is = .ok (.error .endOfStream, is) := by
  have hread : InputStream.read n is = .ok (.error .endOfStream, is) := by
    have hsize : InputStream.size is < n := h
    unfold InputStream.read
    rw [if_pos hsize]
  unfold deserializeUInt
  exact StreamM.bind_error hread

/-- The stream that has read the first part of its buffer. -/
def past (order : ByteOrder) (before after : List UInt8) : FixedInputStream :=
  ⟨order, before ++ after, before.length⟩

theorem past_size (order : ByteOrder) (before after : List UInt8) :
    (past order before after).size = after.length := by
  simp only [past, size, List.length_append]
  omega

/-- Reading what comes next in the buffer moves the stream past it. -/
theorem readBytes_past (order : ByteOrder) (before : List UInt8) {bytes : List UInt8}
    (hne : bytes ≠ []) (after : List UInt8) :
    (past order before (bytes ++ after)).readBytes bytes.length =
      (.ok, bytes, past order (before ++ bytes) after) := by
  have hpos : 0 < bytes.length := List.length_pos_iff.mpr hne
  have hsize : (past order before (bytes ++ after)).size ≠ 0 := by
    rw [past_size, List.length_append]
    omega
  unfold readBytes
  rw [if_neg hsize, past_size, List.length_append, Nat.min_eq_left (by omega)]
  simp [past]

/-- Skipping what comes next in the buffer moves the stream past it. -/
theorem skipBytes_past (order : ByteOrder) (before : List UInt8) {bytes : List UInt8}
    (hne : bytes ≠ []) (after : List UInt8) :
    (past order before (bytes ++ after)).skipBytes bytes.length =
      (.ok, past order (before ++ bytes) after) := by
  have hpos : 0 < bytes.length := List.length_pos_iff.mpr hne
  have hsize : (past order before (bytes ++ after)).size ≠ 0 := by
    rw [past_size, List.length_append]
    omega
  unfold skipBytes
  rw [if_neg hsize, past_size, List.length_append, Nat.min_eq_left (by omega)]
  simp [past]

/-- **An integer off a fixed stream** is decoded from the bytes that come next. -/
theorem deserializeUInt_past (order : ByteOrder) (before : List UInt8) {bytes : List UInt8}
    (hne : bytes ≠ []) (after : List UInt8) :
    deserializeUInt bytes.length (past order before (bytes ++ after)) =
      .ok (.ok (decodeUInt order bytes), past order (before ++ bytes) after) := by
  have hsize : ¬ InputStream.size (past order before (bytes ++ after)) < bytes.length := by
    show ¬ (past order before (bytes ++ after)).size < bytes.length
    rw [past_size, List.length_append]
    omega
  have hread : InputStream.read bytes.length (past order before (bytes ++ after)) =
      .ok (.ok bytes, past order (before ++ bytes) after) := by
    unfold InputStream.read
    rw [if_neg hsize]
    simp only [InputStream.readBytes, readBytes_past order before hne after]
    simp
  unfold deserializeUInt
  rw [StreamM.bind_ok hread]
  rfl

end FixedInputStream

/-! ## §5 Comparing bytes -/

/-- `strncmp(a, b, n) == 0`. -/
def strncmpEq : List UInt8 → List UInt8 → Nat → Except Fault Bool
  | _, _, 0 => .ok true
  | a :: as, b :: bs, n + 1 =>
    if a ≠ b then .ok false
    -- both strings end here
    else if a = 0 then .ok true
    else strncmpEq as bs n
  | _, _, _ + 1 => .error .outOfBounds

theorem strncmpEq_total {a b : List UInt8} {n : Nat} (ha : n ≤ a.length) (hb : n ≤ b.length) :
    ∃ r, strncmpEq a b n = .ok r := by
  induction n generalizing a b with
  | zero => exact ⟨true, by simp [strncmpEq]⟩
  | succ n ih =>
    obtain ⟨x, a, rfl⟩ := List.exists_cons_of_length_pos (l := a) (by omega)
    obtain ⟨y, b, rfl⟩ := List.exists_cons_of_length_pos (l := b) (by omega)
    simp only [List.length_cons, Nat.add_le_add_iff_right] at ha hb
    rw [strncmpEq]
    split
    · exact ⟨false, rfl⟩
    split
    · exact ⟨true, rfl⟩
    · exact ih ha hb

/-- Comparing with a pattern that has no zero byte is comparing for equality. -/
theorem strncmpEq_spec {a b : List UInt8} {n : Nat} (hb : 0 ∉ b) (ha : n ≤ a.length)
    (hn : n ≤ b.length) : strncmpEq a b n = .ok (decide (a.take n = b.take n)) := by
  induction n generalizing a b with
  | zero => simp [strncmpEq]
  | succ n ih =>
    obtain ⟨x, a, rfl⟩ := List.exists_cons_of_length_pos (l := a) (by omega)
    obtain ⟨y, b, rfl⟩ := List.exists_cons_of_length_pos (l := b) (by omega)
    simp only [List.mem_cons, not_or] at hb
    simp only [List.length_cons] at ha hn
    rw [strncmpEq]
    by_cases hxy : x = y
    · subst hxy
      rw [if_neg (by simp), if_neg (Ne.symm hb.1), ih hb.2 (by omega) (by omega)]
      simp
    · rw [if_pos hxy]
      simp [hxy]

end Commutil.Io
