import Commutil.Io.SegmentedInputStream
import Commutil.Library.Refinement

/-!
# The Segmented Stream Is a Byte Queue

What the segmented input stream is for: a queue of bytes that grows at one end by
whole buffers and shrinks at the other end by any number of bytes.  `FlatQueue` is
that queue, with the buffers handed to it and the number of bytes taken from it.

The stream refines the queue over every sequence of calls that appends non-empty
buffers, keeps the unread bytes below 2^32 and reads only from a non-empty stream
(`stream_refines_flatQueue`).
-/

namespace Commutil.Io

open Commutil.Library

/-! ## §1 Calls -/

/-- A call on a stream. -/
inductive StreamCall where
  | appendBuffer (buffer : Buffer)
  | peekBytes (length : Nat)
  | readBytes (length : Nat)
  | skipBytes (length : Nat)
  deriving DecidableEq, Repr

/-- What a call hands back: the result code, the bytes written to the caller's buffer and the
    number reported through the out parameter. -/
structure StreamAnswer where
  rc : ErrorCode
  bytes : List UInt8
  count : Nat
  deriving DecidableEq, Repr

/-- One call on the segmented stream. -/
def SegmentedInputStream.call (s : SegmentedInputStream) :
    StreamCall → Except Fault (StreamAnswer × SegmentedInputStream)
  | .appendBuffer buffer => do
    let s' ← s.appendBuffer buffer
    pure (⟨.ok, [], 0⟩, s')
  | .peekBytes length => do
    let (rc, bytes) ← s.peekBytes length
    pure (⟨rc, bytes, bytes.length⟩, s)
  | .readBytes length => do
    let (rc, bytes, s') ← s.readBytes length
    pure (⟨rc, bytes, bytes.length⟩, s')
  | .skipBytes length => do
    let (rc, n, s') ← s.skipBytes length
    pure (⟨rc, [], n⟩, s')

/-! ## §2 The queue -/

/-- A byte queue that remembers its history. -/
structure FlatQueue where
  unread : List UInt8
  /-- The buffers appended so far, in order. -/
  appended : List Buffer
  /-- The number of bytes taken out so far. -/
  consumed : Nat
  deriving DecidableEq, Repr

namespace FlatQueue

def empty : FlatQueue := ⟨[], [], 0⟩

/-- Take `n` bytes out. -/
def take (q : FlatQueue) (n : Nat) : FlatQueue :=
  { q with unread := q.unread.drop n, consumed := q.consumed + n }

/-- One call on the queue. -/
def call (q : FlatQueue) : StreamCall → StreamAnswer × FlatQueue
  | .appendBuffer buffer =>
    (⟨.ok, [], 0⟩, { q with
      unread := q.unread ++ buffer.m_bytes
      appended := q.appended ++ [buffer] })
  | .peekBytes length =>
    (⟨.ok, q.unread.take (min length q.unread.length), min length q.unread.length⟩, q)
  | .readBytes length =>
    (⟨.ok, q.unread.take (min length q.unread.length), min length q.unread.length⟩,
      q.take (min length q.unread.length))
  | .skipBytes length =>
    (⟨.ok, [], min length q.unread.length⟩, q.take (min length q.unread.length))

/-- When a call may be made: buffers are non-empty and fit, and only a non-empty queue is
    read from. -/
def MayCall (q : FlatQueue) : StreamCall → Prop
  | .appendBuffer buffer =>
    buffer.m_bytes ≠ [] ∧ q.unread.length + buffer.m_bytes.length < 2 ^ 32
  | .peekBytes _ => q.unread ≠ []
  | .readBytes _ => q.unread ≠ []
  | .skipBytes _ => q.unread ≠ []

instance (q : FlatQueue) : (c : StreamCall) → Decidable (q.MayCall c)
  | .appendBuffer _ => inferInstanceAs (Decidable (_ ∧ _))
  | .peekBytes _ => inferInstanceAs (Decidable (q.unread ≠ []))
  | .readBytes _ => inferInstanceAs (Decidable (q.unread ≠ []))
  | .skipBytes _ => inferInstanceAs (Decidable (q.unread ≠ []))

end FlatQueue

/-- The buffers all of whose bytes are among the first `n` bytes of a sequence of buffers. -/
def whollyConsumed : List Buffer → Nat → List Buffer
  | [], _ => []
  | buffer :: rest, n =>
    if buffer.m_bytes.length ≤ n then
      buffer :: whollyConsumed rest (n - buffer.m_bytes.length)
    else []

/-- How a stream represents a queue. -/
structure RepresentsQueue (s : SegmentedInputStream) (q : FlatQueue) : Prop where
  unread_eq : s.unread = q.unread
  size_eq : s.m_size = q.unread.length
  offset_lt : ∀ head ∈ s.m_nodes.head?, s.m_offset < head.m_length
  tail_eq : s.m_tail = s.m_nodes.getLast?.map BufferNode.m_addr
  deallocated_eq : s.m_deallocated = whollyConsumed q.appended q.consumed

/-! ## §3 Deallocation -/

/-- What ties the deallocations of a stream to the history of its queue. -/
private structure Accounts (s : SegmentedInputStream) (q : FlatQueue) : Prop where
  inv : s.Inv
  unread_eq : s.unread = q.unread
  buffers_eq : s.m_deallocated ++ s.m_nodes.map BufferNode.m_buffer = q.appended
  balance : (q.appended.map fun b => b.m_bytes.length).sum = q.consumed + q.unread.length

/-- A prefix of buffers followed by one that is not used up is the wholly consumed part. -/
private theorem whollyConsumed_append {done rest : List Buffer} {n : Nat}
    (hdone : (done.map fun b => b.m_bytes.length).sum ≤ n)
    (hrest : ∀ b ∈ rest.head?, n < (done.map fun b => b.m_bytes.length).sum + b.m_bytes.length) :
    whollyConsumed (done ++ rest) n = done := by
  induction done generalizing n with
  | nil =>
    cases rest with
    | nil => rfl
    | cons b rest =>
      have hlt := hrest b rfl
      simp only [List.map_nil, List.sum_nil, Nat.zero_add] at hlt
      rw [List.nil_append, whollyConsumed, if_neg (by omega)]
  | cons b done ih =>
    simp only [List.map_cons, List.sum_cons] at hdone hrest
    rw [List.cons_append, whollyConsumed, if_pos (by omega), ih (by omega)]
    intro c hc
    have := hrest c hc
    omega

private theorem chainBytes_length (nodes : List BufferNode) :
    (SegmentedInputStream.chainBytes nodes).length =
      ((nodes.map BufferNode.m_buffer).map fun b => b.m_bytes.length).sum := by
  induction nodes with
  | nil => rfl
  | cons head rest ih => simp [ih]

private theorem Accounts.represents {s : SegmentedInputStream} {q : FlatQueue}
    (h : Accounts s q) : RepresentsQueue s q := by
  refine ⟨h.unread_eq, by rw [h.inv.size_eq, h.unread_eq], h.inv.offset_lt, h.inv.tail_eq, ?_⟩
  -- the bytes consumed are those of the deallocated buffers and `m_offset` bytes of the head
  have hsum := h.balance
  rw [← h.buffers_eq, List.map_append, List.sum_append, ← chainBytes_length, ← h.unread_eq,
    SegmentedInputStream.unread, List.length_drop] at hsum
  rw [← h.buffers_eq]
  symm
  cases hn : s.m_nodes with
  | nil =>
    rw [hn, h.inv.offset_nil hn] at hsum
    simp only [SegmentedInputStream.chainBytes_nil, List.length_nil] at hsum
    exact whollyConsumed_append (by omega) (fun b hb => by cases hb)
  | cons head rest =>
    have hlt := (h.inv.unread_cons hn).1
    unfold BufferNode.m_length at hlt
    rw [hn, SegmentedInputStream.chainBytes_cons, List.length_append] at hsum
    apply whollyConsumed_append
    · omega
    · intro b hb
      cases hb
      omega

/-! ## §4 Refinement -/

private theorem Accounts.consume {s s' : SegmentedInputStream} {q : FlatQueue}
    (h : Accounts s q) {length : Nat}
    (hc : SegmentedInputStream.Consumed s (min s.unread.length length) s') :
    Accounts s' (q.take (min length q.unread.length)) := by
  have hmin : min s.unread.length length = min length q.unread.length := by
    rw [h.unread_eq, Nat.min_comm]
  rw [hmin] at hc
  refine ⟨hc.inv, ?_, hc.deallocated_eq.trans h.buffers_eq, ?_⟩
  · rw [hc.unread_eq, h.unread_eq]
    rfl
  · have hbal := h.balance
    simp only [FlatQueue.take, List.length_drop]
    omega

private theorem Accounts.call {s : SegmentedInputStream} {q : FlatQueue} {c : StreamCall}
    (h : Accounts s q) (hmay : q.MayCall c) :
    ∃ s', s.call c = .ok ((q.call c).1, s') ∧ Accounts s' (q.call c).2 := by
  cases c with
  | appendBuffer buffer =>
    obtain ⟨hne, hroom⟩ := hmay
    rw [← h.unread_eq] at hroom
    obtain ⟨s', hs', happ⟩ := SegmentedInputStream.appendBuffer_spec h.inv buffer hne hroom
    refine ⟨s', ?_, happ.inv, ?_, ?_, ?_⟩
    · simp [SegmentedInputStream.call, FlatQueue.call, hs', bind, Except.bind, pure, Except.pure]
    · rw [happ.unread_eq, h.unread_eq]
      rfl
    · rw [happ.deallocated_eq, happ.nodes_eq, List.map_append, ← List.append_assoc, h.buffers_eq]
      rfl
    · have hbal := h.balance
      simp only [FlatQueue.call, List.map_append, List.sum_append, List.length_append, hbal,
        List.map_cons, List.map_nil, List.sum_cons, List.sum_nil]
      omega
  | peekBytes length =>
    have hne : s.unread ≠ [] := by rw [h.unread_eq]; exact hmay
    refine ⟨s, ?_, h⟩
    simp only [SegmentedInputStream.call, FlatQueue.call,
      SegmentedInputStream.peekBytes_spec h.inv hne, h.unread_eq, bind, Except.bind, pure,
      Except.pure, List.length_take]
    rw [← List.take_take, List.take_length]
  | readBytes length =>
    have hne : s.unread ≠ [] := by rw [h.unread_eq]; exact hmay
    obtain ⟨s', hs', hcons⟩ := SegmentedInputStream.readBytes_spec h.inv hne length
    refine ⟨s', ?_, h.consume hcons⟩
    simp only [SegmentedInputStream.call, FlatQueue.call, hs', h.unread_eq, bind, Except.bind,
      pure, Except.pure, List.length_take]
    rw [← List.take_take, List.take_length]
  | skipBytes length =>
    have hne : s.unread ≠ [] := by rw [h.unread_eq]; exact hmay
    obtain ⟨s', hs', hcons⟩ := SegmentedInputStream.skipBytes_spec h.inv hne length
    refine ⟨s', ?_, h.consume hcons⟩
    simp only [SegmentedInputStream.call, FlatQueue.call, hs', h.unread_eq, bind, Except.bind,
      pure, Except.pure, Nat.min_comm]

/-- **The stream refines the byte queue**: over every admissible sequence of calls on a new
    stream no null node is followed, every answer is the queue's, and in the end `m_size`,
    `m_offset`, `m_tail` and the deallocated buffers are as the queue says. -/
theorem stream_refines_flatQueue (order : ByteOrder) (base : Nat) (calls : List StreamCall)
    (hadm : AdmissibleCalls FlatQueue.MayCall FlatQueue.call FlatQueue.empty calls) :
    ∃ s, runCalls SegmentedInputStream.call (SegmentedInputStream.new order base []) calls =
        .ok ((runSpec FlatQueue.call FlatQueue.empty calls).1, s) ∧
      RepresentsQueue s (runSpec FlatQueue.call FlatQueue.empty calls).2 := by
  have hstart : Accounts (SegmentedInputStream.new order base []) FlatQueue.empty :=
    ⟨SegmentedInputStream.new_inv order base [], rfl, rfl, rfl⟩
  obtain ⟨s, hs, hacc⟩ := run_refines (fun _ _ _ h hmay => h.call hmay) hstart hadm
  exact ⟨s, hs, hacc.represents⟩

/-- Two buffers, a read across their border that ends inside the second one. -/
theorem stream_refines_flatQueue_across_border :
    ∃ s, runCalls SegmentedInputStream.call (SegmentedInputStream.new .hostOrder 0 [])
        [.appendBuffer ⟨100, [1, 2, 3], by decide⟩, .appendBuffer ⟨200, [4, 5], by decide⟩,
          .peekBytes 9, .readBytes 4, .skipBytes 0] =
        .ok ([⟨.ok, [], 0⟩, ⟨.ok, [], 0⟩, ⟨.ok, [1, 2, 3, 4, 5], 5⟩, ⟨.ok, [1, 2, 3, 4], 4⟩,
          ⟨.ok, [], 0⟩], s) ∧
      RepresentsQueue s ⟨[5], [⟨100, [1, 2, 3], by decide⟩, ⟨200, [4, 5], by decide⟩], 4⟩ :=
  stream_refines_flatQueue .hostOrder 0
    [.appendBuffer ⟨100, [1, 2, 3], by decide⟩, .appendBuffer ⟨200, [4, 5], by decide⟩,
      .peekBytes 9, .readBytes 4, .skipBytes 0] (by decide)

end Commutil.Io
