import Commutil.Common.KmpSearch
import Commutil.Io.Streams

/-!
# The Segmented Input Stream

`segmented_input_stream.h` and `segmented_input_stream.cpp`: a chain of appended
buffers that is read as one byte queue.

The chain is the list of nodes reachable from `m_head`.  Nodes have addresses,
so that `m_tail` is a pointer that can be null or point elsewhere than at the
last node; following a null pointer, reading outside a buffer and writing outside
the caller's buffer are faults.  `m_deallocated` records the calls to
`BufferDeallocator::deallocateBuffer`.

`Inv` is the representation invariant and `unread` the byte queue a stream stands
for; every operation has one specification lemma over them.  Two lemmas
(`appendBuffer_general`, `copyBytes_general`) need no invariant.
-/

namespace Commutil.Io

open Commutil.Common

/-! ## §1 State -/

/-- A data buffer handed over by the transport, with its address. -/
structure Buffer where
  m_ptr : Nat
  m_bytes : List UInt8
  /-- The length is a `uint32_t`. -/
  length_lt : m_bytes.length < 2 ^ 32
  deriving DecidableEq, Repr

/-- `SegmentedInputStream::BufferNode` at the address `m_addr`. -/
structure BufferNode where
  m_addr : Nat
  m_buffer : Buffer
  deriving DecidableEq, Repr

namespace BufferNode

/-- `m_length`. -/
def m_length (node : BufferNode) : Nat := node.m_buffer.m_bytes.length

/-- `memcpy(dest + out.length, m_buffer + offset, n)` into a destination of `capacity` bytes:
    the bytes in the destination afterwards. -/
def memcpy (node : BufferNode) (offset n capacity : Nat) (out : List UInt8) :
    Except Fault (List UInt8) :=
  if n = 0 then .ok out
  else if node.m_length < offset + n then .error .outOfBounds
  else if capacity < out.length + n then .error .heapOverflow
  else .ok (out ++ (node.m_buffer.m_bytes.drop offset).take n)

/-- `if (buffer != nullptr) memcpy(...)`. -/
def copyPart (node : BufferNode) (copying : Bool) (offset n capacity : Nat) (out : List UInt8) :
    Except Fault (List UInt8) :=
  if copying then node.memcpy offset n capacity out else .ok out

end BufferNode

/-- `class SegmentedInputStream`. -/
structure SegmentedInputStream where
  m_byteOrder : ByteOrder
  /-- The nodes from `m_head` on; the empty list is a null `m_head`. -/
  m_nodes : List BufferNode
  m_tail : Option Nat
  m_offset : Nat
  m_size : Nat
  /-- The next address `new BufferNode` returns. -/
  m_nextAddr : Nat
  m_deallocated : List Buffer
  deriving DecidableEq, Repr

namespace SegmentedInputStream

/-! ## §2 The code -/

/-- The constructor, in a process whose allocator hands out `base` next and whose deallocator
    has seen the calls in `log`. -/
def new (byteOrder : ByteOrder) (base : Nat) (log : List Buffer) : SegmentedInputStream :=
  ⟨byteOrder, [], none, 0, 0, base, log⟩

/-- `reset`: drops the buffers and the size. -/
def reset (s : SegmentedInputStream) : SegmentedInputStream :=
  { s with
    m_nodes := []
    m_tail := none
    m_size := 0
    m_deallocated := s.m_deallocated ++ s.m_nodes.map BufferNode.m_buffer }

/-- `m_tail->m_next = node`: what follows the node at `tail` becomes the new node. -/
def linkAfter (tail : Nat) (node : BufferNode) : List BufferNode → Except Fault (List BufferNode)
  -- the tail is not in the chain any more
  | [] => .error .useAfterFree
  | head :: rest =>
    if head.m_addr = tail then
      .ok [head, node]
    else
      match linkAfter tail node rest with
      | .error fault => .error fault
      | .ok rest' => .ok (head :: rest')

/-- `appendBuffer` (the node allocation succeeds). -/
def appendBuffer (s : SegmentedInputStream) (buffer : Buffer) :
    Except Fault SegmentedInputStream :=
  let node : BufferNode := ⟨s.m_nextAddr, buffer⟩
  let s' := { s with
    m_tail := some node.m_addr
    m_nextAddr := s.m_nextAddr + 1
    m_size := add32 s.m_size buffer.m_bytes.length }
  if s.m_nodes.isEmpty then
    .ok { s' with m_nodes := [node] }
  else
    match s.m_tail with
    | none => .error .nullDereference
    | some tail =>
      match linkAfter tail node s.m_nodes with
      | .error fault => .error fault
      | .ok nodes => .ok { s' with m_nodes := nodes }

/-- `removeHead`; `m_size` is left to the caller. -/
def removeHead (s : SegmentedInputStream) : SegmentedInputStream :=
  match s.m_nodes with
  | [] => s
  | head :: rest =>
    { s with
      m_nodes := rest
      m_tail := if rest.isEmpty then none else s.m_tail
      m_offset := 0
      m_deallocated := s.m_deallocated ++ [head.m_buffer] }

/-- `m_size -= n; m_offset += n;` -/
def advance (s : SegmentedInputStream) (n : Nat) : SegmentedInputStream :=
  { s with m_size := sub32 s.m_size n, m_offset := add32 s.m_offset n }

/-- The loop of `peekBytes` and the copy after it; the list is the chain from `itr` on. -/
def peekLoop (length : Nat) :
    List BufferNode → Nat → Nat → Nat → List UInt8 → Except Fault (List UInt8)
  -- the loop has run off the chain
  | [], _, _, _, _ => .error .nullDereference
  | itr :: rest, offset, bytesCopied, bytesToCopy, out =>
    if add32 bytesCopied bytesToCopy < length then do
      let out ← itr.memcpy offset bytesToCopy length out
      match rest.head? with
      | none => .error .nullDereference
      | some next => peekLoop length rest 0 (add32 bytesCopied bytesToCopy) next.m_length out
    else
      -- the last part
      itr.memcpy offset (sub32 length bytesCopied) length out

/-- `peekBytes`: the result code and the bytes peeked. -/
def peekBytes (s : SegmentedInputStream) (length : Nat) :
    Except Fault (ErrorCode × List UInt8) := do
  let length := min s.m_size length
  match s.m_nodes.head? with
  | none => .error .nullDereference
  | some head =>
    let out ← peekLoop length s.m_nodes s.m_offset 0 (sub32 head.m_length s.m_offset) []
    pure (.ok, out)

/-- The loop of `copyBytes` and the copy after it; the list is the chain of `s`, and `copying`
    says that the destination is not null. -/
def copyLoop (copying : Bool) (length : Nat) :
    List BufferNode → SegmentedInputStream → Nat → Nat → List UInt8 →
      Except Fault (List UInt8 × SegmentedInputStream)
  | [], _, _, _, _ => .error .nullDereference
  | head :: rest, s, bytesCopied, bytesToCopy, out =>
    if add32 bytesCopied bytesToCopy < length then do
      let out ← head.copyPart copying s.m_offset bytesToCopy length out
      -- a segment that was used up goes back to its owner
      let s := (s.advance bytesToCopy).removeHead
      match rest.head? with
      | none => .error .nullDereference
      | some next =>
        copyLoop copying length rest s (add32 bytesCopied bytesToCopy) next.m_length out
    else do
      -- copy last part
      let bytesToCopy := sub32 length bytesCopied
      let out ← head.copyPart copying s.m_offset bytesToCopy length out
      let s := s.advance bytesToCopy
      -- remove first buffer if used fully
      if s.m_offset = head.m_length then
        pure (out, s.removeHead)
      else
        pure (out, s)

/-- `copyBytes`. -/
def copyBytes (s : SegmentedInputStream) (copying : Bool) (length : Nat) :
    Except Fault (List UInt8 × SegmentedInputStream) :=
  match s.m_nodes.head? with
  | none => .error .nullDereference
  | some head =>
    copyLoop copying length s.m_nodes s 0 (sub32 head.m_length s.m_offset) []

/-- `readBytes`: the result code, the bytes read and the stream afterwards. -/
def readBytes (s : SegmentedInputStream) (length : Nat) :
    Except Fault (ErrorCode × List UInt8 × SegmentedInputStream) := do
  let (out, s) ← s.copyBytes true (min s.m_size length)
  pure (.ok, out, s)

/-- `skipBytes`: the result code, the number of bytes skipped and the stream afterwards. -/
def skipBytes (s : SegmentedInputStream) (length : Nat) :
    Except Fault (ErrorCode × Nat × SegmentedInputStream) := do
  let bytesSkipped := min s.m_size length
  let (_, s) ← s.copyBytes false bytesSkipped
  pure (.ok, bytesSkipped, s)

/-- The suffix loop of `searchBytes` on the last segment, from index `length - remaining`:
    the offset of the longest suffix that may begin the pattern. -/
def suffixLoop (head : BufferNode) (pattern : List UInt8) : Nat → Nat → Except Fault Nat
  | 0, offset => .ok offset
  | remaining + 1, offset => do
    if ← strncmpEq (head.m_buffer.m_bytes.drop offset) pattern (remaining + 1) then
      pure offset
    else
      suffixLoop head pattern remaining (offset + 1)

/-- How the search in the borderline area of two segments ends. -/
inductive BorderSearch where
  /-- The next segment is too short to decide. -/
  | tooShort (offset : Nat)
  | found (offset : Nat)
  | notFound
  deriving DecidableEq, Repr

/-- The borderline loop of `searchBytes`, from index `length - remaining`. -/
def borderLoop (head next : BufferNode) (pattern : List UInt8) :
    Nat → Nat → Except Fault BorderSearch
  | 0, _ => .ok .notFound
  | remaining + 1, offset => do
    let i := pattern.length - (remaining + 1)
    if next.m_length < i then
      -- more bytes may come
      pure (.tooShort offset)
    else if ← strncmpEq (head.m_buffer.m_bytes.drop offset) pattern (remaining + 1) then
      if ← strncmpEq next.m_buffer.m_bytes (pattern.drop (remaining + 1)) i then
        pure (.found offset)
      else
        borderLoop head next pattern remaining (offset + 1)
    else
      borderLoop head next pattern remaining (offset + 1)

/-- `skipBytes(offset)` and a return of `result`, or of an internal error if the skip fails. -/
def skipAndReturn (s : SegmentedInputStream) (offset : Nat) (result : ErrorCode) :
    Except Fault (ErrorCode × SegmentedInputStream) := do
  let (rc, _, s) ← s.skipBytes offset
  if rc ≠ .ok then
    pure (.internalError, s)
  else
    pure (result, s)

/-- The loop of `searchBytes`; the list is the chain of `s`.  The search runs over whole
    segments: `m_offset` is not taken into account. -/
def searchLoop (pattern : List UInt8) :
    List BufferNode → SegmentedInputStream → Except Fault (ErrorCode × SegmentedInputStream)
  | [], s => .ok (.endOfStream, s)
  | head :: rest, s => do
    let bufLen := head.m_length
    -- only whole patterns within a segment are searched for
    if bufLen < pattern.length then
      pure (.endOfStream, s)
    else
      let res ← commutilStrnstr head.m_buffer.m_bytes pattern
      if 0 ≤ res then
        if 0 < res then
          s.skipAndReturn res.toNat .ok
        else
          pure (.ok, s)
      else
        match rest.head? with
        | none =>
          let offset ← suffixLoop head pattern pattern.length (bufLen - pattern.length)
          s.skipAndReturn offset .endOfStream
        | some next =>
          match ← borderLoop head next pattern pattern.length (bufLen - pattern.length) with
          | .tooShort offset => s.skipAndReturn offset .endOfStream
          | .found offset => s.skipAndReturn offset .ok
          -- move on to next buffer
          | .notFound => searchLoop pattern rest s.removeHead

/-- `searchBytes`. -/
def searchBytes (s : SegmentedInputStream) (pattern : List UInt8) :
    Except Fault (ErrorCode × SegmentedInputStream) :=
  searchLoop pattern s.m_nodes s

instance : InputStream SegmentedInputStream where
  size := m_size
  getByteOrder := m_byteOrder
  peekBytes := peekBytes
  readBytes := readBytes

/-! ## §3 The byte queue of a stream -/

/-- The bytes of a chain of nodes. -/
def chainBytes (nodes : List BufferNode) : List UInt8 :=
  (nodes.map fun node => node.m_buffer.m_bytes).flatten

/-- The bytes that have been appended and not consumed. -/
def unread (s : SegmentedInputStream) : List UInt8 :=
  (chainBytes s.m_nodes).drop s.m_offset

/-- The representation invariant. -/
structure Inv (s : SegmentedInputStream) : Prop where
  size_eq : s.m_size = s.unread.length
  size_lt : s.m_size < 2 ^ 32
  offset_lt : ∀ head ∈ s.m_nodes.head?, s.m_offset < head.m_length
  offset_nil : s.m_nodes = [] → s.m_offset = 0
  nonempty : ∀ node ∈ s.m_nodes, 0 < node.m_length
  tail_eq : s.m_tail = s.m_nodes.getLast?.map BufferNode.m_addr
  addr_nodup : (s.m_nodes.map BufferNode.m_addr).Nodup
  addr_lt : ∀ node ∈ s.m_nodes, node.m_addr < s.m_nextAddr

@[simp] theorem chainBytes_nil : chainBytes [] = [] := rfl

@[simp] theorem chainBytes_cons (head : BufferNode) (rest : List BufferNode) :
    chainBytes (head :: rest) = head.m_buffer.m_bytes ++ chainBytes rest := rfl

theorem chainBytes_append (l₁ l₂ : List BufferNode) :
    chainBytes (l₁ ++ l₂) = chainBytes l₁ ++ chainBytes l₂ := by
  simp [chainBytes]

theorem new_inv (order : ByteOrder) (base : Nat) (log : List Buffer) :
    Inv (new order base log) := by
  refine ⟨rfl, ?_, ?_, fun _ => rfl, ?_, rfl, ?_, ?_⟩ <;> simp [new]

theorem Inv.unread_cons {s : SegmentedInputStream} (h : Inv s) {head : BufferNode}
    {rest : List BufferNode} (hn : s.m_nodes = head :: rest) :
    s.m_offset < head.m_length ∧
      s.unread = head.m_buffer.m_bytes.drop s.m_offset ++ chainBytes rest := by
  have hlt : s.m_offset < head.m_length := h.offset_lt head (by rw [hn]; rfl)
  refine ⟨hlt, ?_⟩
  unfold unread
  rw [hn, chainBytes_cons, List.drop_append_of_le_length (Nat.le_of_lt hlt)]

/-- A stream has unread bytes exactly if it has nodes. -/
theorem Inv.nodes_eq_nil_iff {s : SegmentedInputStream} (h : Inv s) :
    s.m_nodes = [] ↔ s.unread = [] := by
  cases hn : s.m_nodes with
  | nil => simp [unread, hn]
  | cons head rest =>
    obtain ⟨hlt, hu⟩ := h.unread_cons hn
    have hlen : 0 < (head.m_buffer.m_bytes.drop s.m_offset).length := by
      rw [List.length_drop]
      exact Nat.sub_pos_of_lt hlt
    simp only [reduceCtorEq, false_iff, hu]
    intro hnil
    rw [(List.append_eq_nil_iff.mp hnil).1] at hlen
    simp at hlen

theorem Inv.exists_cons {s : SegmentedInputStream} (h : Inv s) (hpos : s.unread ≠ []) :
    ∃ head rest, s.m_nodes = head :: rest := by
  cases hn : s.m_nodes with
  | nil => exact absurd (h.nodes_eq_nil_iff.mp hn) hpos
  | cons head rest => exact ⟨head, rest, rfl⟩

/-! ## §4 Appending -/

/-- `s'` is `s` after a buffer was appended. -/
structure Appended (s : SegmentedInputStream) (buffer : Buffer) (s' : SegmentedInputStream) :
    Prop where
  inv : Inv s'
  unread_eq : s'.unread = s.unread ++ buffer.m_bytes
  nodes_eq : s'.m_nodes = s.m_nodes ++ [⟨s.m_nextAddr, buffer⟩]
  offset_eq : s'.m_offset = s.m_offset
  byteOrder_eq : s'.m_byteOrder = s.m_byteOrder
  deallocated_eq : s'.m_deallocated = s.m_deallocated

/-- Linking after the last node appends. -/
theorem linkAfter_last {nodes : List BufferNode} {tail : Nat} (node : BufferNode)
    (hnd : (nodes.map BufferNode.m_addr).Nodup)
    (htail : nodes.getLast?.map BufferNode.m_addr = some tail) :
    linkAfter tail node nodes = .ok (nodes ++ [node]) := by
  induction nodes with
  | nil => simp at htail
  | cons head rest ih =>
    simp only [List.map_cons, List.nodup_cons] at hnd
    cases rest with
    | nil =>
      simp only [List.getLast?_singleton, Option.map_some, Option.some.injEq] at htail
      simp [linkAfter, htail]
    | cons second rest =>
      rw [List.getLast?_cons_cons] at htail
      -- the last address differs from the head's, since addresses do not repeat
      have hne : head.m_addr ≠ tail := by
        intro heq
        obtain ⟨last, hlast, haddr⟩ := Option.map_eq_some_iff.mp htail
        apply hnd.1
        rw [heq, ← haddr]
        exact List.mem_map_of_mem (List.mem_of_getLast? hlast)
      rw [linkAfter, if_neg hne, ih hnd.2 htail]
      rfl

/-- **Appending links a node after the last one**, whatever the size that is counted. -/
theorem appendBuffer_eq {s : SegmentedInputStream}
    (htail : s.m_tail = s.m_nodes.getLast?.map BufferNode.m_addr)
    (hnodup : (s.m_nodes.map BufferNode.m_addr).Nodup) (buffer : Buffer) :
    s.appendBuffer buffer = .ok { s with
      m_nodes := s.m_nodes ++ [⟨s.m_nextAddr, buffer⟩]
      m_tail := some s.m_nextAddr
      m_nextAddr := s.m_nextAddr + 1
      m_size := add32 s.m_size buffer.m_bytes.length } := by
  cases hn : s.m_nodes with
  | nil => simp [appendBuffer, hn]
  | cons head rest =>
    obtain ⟨last, hlast⟩ : ∃ last, s.m_nodes.getLast? = some last := by
      rw [hn]
      exact ⟨_, List.getLast?_eq_some_getLast (List.cons_ne_nil head rest)⟩
    have haddr : s.m_tail = some last.m_addr := by rw [htail, hlast]; rfl
    have hlink := @linkAfter_last _ last.m_addr ⟨s.m_nextAddr, buffer⟩ hnodup
      (by rw [hlast]; rfl)
    rw [hn] at hlink
    simp [appendBuffer, haddr, hn, hlink]

/-- The offset does not leave the segments. -/
theorem Inv.offset_le {s : SegmentedInputStream} (h : Inv s) :
    s.m_offset ≤ (chainBytes s.m_nodes).length := by
  cases hn : s.m_nodes with
  | nil => rw [h.offset_nil hn]; exact Nat.zero_le _
  | cons head rest =>
    have hlt := (h.unread_cons hn).1
    unfold BufferNode.m_length at hlt
    rw [chainBytes_cons, List.length_append]
    omega

theorem Inv.unread_append {s : SegmentedInputStream} (h : Inv s) (node : BufferNode) :
    (chainBytes (s.m_nodes ++ [node])).drop s.m_offset = s.unread ++ node.m_buffer.m_bytes := by
  rw [chainBytes_append, List.drop_append_of_le_length h.offset_le]
  simp [unread, chainBytes]

/-- **`appendBuffer`** adds the buffer's bytes at the end of the queue. -/
theorem appendBuffer_spec {s : SegmentedInputStream} (h : Inv s) (buffer : Buffer)
    (hne : buffer.m_bytes ≠ []) (hroom : s.unread.length + buffer.m_bytes.length < 2 ^ 32) :
    ∃ s', s.appendBuffer buffer = .ok s' ∧ Appended s buffer s' := by
  have hpos : 0 < buffer.m_bytes.length := List.length_pos_iff.mpr hne
  have hsize : add32 s.m_size buffer.m_bytes.length =
      s.m_size + buffer.m_bytes.length := add32_eq (by rw [h.size_eq]; exact hroom)
  have hunread := h.unread_append ⟨s.m_nextAddr, buffer⟩
  refine ⟨_, appendBuffer_eq h.tail_eq h.addr_nodup buffer, ?_⟩
  refine ⟨⟨?_, ?_, ?_, ?_, ?_, ?_, ?_, ?_⟩, hunread, rfl, rfl, rfl, rfl⟩
  · rw [hsize, h.size_eq]
    unfold unread at hunread ⊢
    rw [hunread, List.length_append]
  · rw [hsize, h.size_eq]
    exact hroom
  · intro head hhead
    cases hn : s.m_nodes with
    | nil =>
      simp only [hn, List.nil_append, List.head?_cons, Option.mem_some_iff] at hhead
      subst hhead
      rw [h.offset_nil hn]
      exact hpos
    | cons first rest =>
      simp only [hn, List.cons_append, List.head?_cons, Option.mem_some_iff] at hhead
      subst hhead
      exact (h.unread_cons hn).1
  · intro hnil
    simp at hnil
  · intro node hnode
    rcases List.mem_append.mp hnode with hold | hnew
    · exact h.nonempty node hold
    · rw [List.mem_singleton.mp hnew]
      exact hpos
  · simp
  · simp only [List.map_append, List.map_cons, List.map_nil]
    apply List.nodup_append.mpr
    refine ⟨h.addr_nodup, by simp, ?_⟩
    intro a ha b hb
    obtain ⟨node, hnode, rfl⟩ := List.mem_map.mp ha
    have := h.addr_lt node hnode
    rw [List.mem_singleton.mp hb]
    omega
  · intro node hnode
    rcases List.mem_append.mp hnode with hold | hnew
    · exact Nat.lt_succ_of_lt (h.addr_lt node hold)
    · rw [List.mem_singleton.mp hnew]
      exact Nat.lt_succ_self _

/-! ## §5 Peeking -/

theorem memcpy_ok {node : BufferNode} {offset n capacity : Nat} {out : List UInt8}
    (hin : offset + n ≤ node.m_length) (hout : out.length + n ≤ capacity) :
    node.memcpy offset n capacity out =
      .ok (out ++ (node.m_buffer.m_bytes.drop offset).take n) := by
  unfold BufferNode.memcpy
  by_cases hn : n = 0
  · simp [hn]
  · rw [if_neg hn, if_neg (by omega), if_neg (by omega)]

private theorem chainBytes_ne_nil (nodes : List BufferNode) (h : 0 < (chainBytes nodes).length) :
    ∃ next rest, nodes = next :: rest := by
  cases nodes with
  | nil => simp at h
  | cons next rest => exact ⟨next, rest, rfl⟩

/-- The loop of `peekBytes` copies the unread bytes segment by segment. -/
theorem peekLoop_spec (length : Nat) :
    ∀ (nodes : List BufferNode) (head : BufferNode) (rest : List BufferNode)
      (offset : Nat) (out : List UInt8),
      nodes = head :: rest → offset ≤ head.m_length → out.length ≤ length →
      length ≤ out.length + ((chainBytes nodes).drop offset).length →
      out.length + ((chainBytes nodes).drop offset).length < 2 ^ 32 →
      peekLoop length nodes offset out.length (head.m_length - offset) out =
        .ok (out ++ ((chainBytes nodes).drop offset).take (length - out.length)) := by
  intro nodes
  induction nodes with
  | nil => intro head rest offset out hnodes; cases hnodes
  | cons itr tail ih =>
    intro head rest offset out hnodes hoff hout hlow hhigh
    obtain ⟨rfl, rfl⟩ := List.cons.inj hnodes
    have hsplit : (chainBytes (itr :: tail)).drop offset =
        itr.m_buffer.m_bytes.drop offset ++ chainBytes tail := by
      rw [chainBytes_cons, List.drop_append_of_le_length hoff]
    have hlen : (itr.m_buffer.m_bytes.drop offset).length = itr.m_length - offset :=
      List.length_drop
    rw [hsplit] at hlow hhigh ⊢
    rw [List.length_append, hlen] at hlow hhigh
    have hadd : add32 out.length (itr.m_length - offset) = out.length + (itr.m_length - offset) :=
      add32_eq (by omega)
    rw [peekLoop, hadd]
    by_cases hmore : out.length + (itr.m_length - offset) < length
    · -- the segment is used up: go on with the next one, which exists
      obtain ⟨next, rest, rfl⟩ := chainBytes_ne_nil tail (by omega)
      have hcopy := @memcpy_ok itr offset (itr.m_length - offset) length out (by omega) (by omega)
      rw [List.take_of_length_le (Nat.le_of_eq hlen)] at hcopy
      have hlen' : (out ++ itr.m_buffer.m_bytes.drop offset).length =
          out.length + (itr.m_length - offset) := by rw [List.length_append, hlen]
      have hrec := ih next rest 0 (out ++ itr.m_buffer.m_bytes.drop offset) rfl (Nat.zero_le _)
        (by omega) (by rw [List.drop_zero]; omega) (by rw [List.drop_zero]; omega)
      rw [hlen', Nat.sub_zero, List.drop_zero] at hrec
      rw [if_pos hmore, hcopy]
      simp only [bind, Except.bind, List.head?_cons]
      rw [hrec, List.append_assoc, List.take_append, hlen,
        List.take_of_length_le (i := length - out.length) (by omega)]
      congr 4
      omega
    · -- the rest lies in this segment
      have hsub : sub32 length out.length = length - out.length := sub32_eq hout (by omega)
      rw [if_neg hmore, hsub, memcpy_ok (by omega) (by omega),
        List.take_append_of_le_length (by omega)]

theorem peekBytes_cons {s : SegmentedInputStream} {head : BufferNode} {rest : List BufferNode}
    (hn : s.m_nodes = head :: rest) (length : Nat) :
    s.peekBytes length = (peekLoop (min s.m_size length) s.m_nodes s.m_offset 0
      (sub32 head.m_length s.m_offset) []).map (fun out => (.ok, out)) := by
  unfold peekBytes
  rw [hn]
  dsimp only [List.head?_cons]
  generalize peekLoop _ _ _ _ _ _ = result
  cases result <;> rfl

/-- **`peekBytes`** shows the first bytes of the queue. -/
theorem peekBytes_spec {s : SegmentedInputStream} (h : Inv s) (hne : s.unread ≠ [])
    (length : Nat) : s.peekBytes length = .ok (.ok, s.unread.take length) := by
  obtain ⟨head, rest, hn⟩ := h.exists_cons hne
  obtain ⟨hlt, -⟩ := h.unread_cons hn
  have hsize := h.size_eq
  have hsub : sub32 head.m_length s.m_offset = head.m_length - s.m_offset :=
    sub32_eq (Nat.le_of_lt hlt) head.m_buffer.length_lt
  have hloop := peekLoop_spec (min s.m_size length) s.m_nodes head rest s.m_offset []
    hn (Nat.le_of_lt hlt) (Nat.zero_le _)
    (by unfold unread at hsize; simp only [List.length_nil]; omega)
    (by have := h.size_lt; unfold unread at hsize; simp only [List.length_nil]; omega)
  rw [List.nil_append, List.length_nil, Nat.sub_zero] at hloop
  have htake : s.unread.take (min s.m_size length) = s.unread.take length := by
    rw [hsize, Nat.min_comm, ← List.take_take, List.take_length]
  unfold peekBytes
  simp only [hn, List.head?_cons, hsub]
  rw [hn] at hloop
  simp only [hloop, bind, Except.bind, pure, Except.pure]
  rw [← htake]
  simp [unread, hn]

/-! ## §6 Consuming -/

/-- `s'` is `s` after its first `n` unread bytes were consumed. -/
structure Consumed (s : SegmentedInputStream) (n : Nat) (s' : SegmentedInputStream) : Prop where
  inv : Inv s'
  unread_eq : s'.unread = s.unread.drop n
  suffix : s'.m_nodes <:+ s.m_nodes
  byteOrder_eq : s'.m_byteOrder = s.m_byteOrder
  deallocated_eq : s'.m_deallocated ++ s'.m_nodes.map BufferNode.m_buffer =
    s.m_deallocated ++ s.m_nodes.map BufferNode.m_buffer

theorem Consumed.refl {s : SegmentedInputStream} (h : Inv s) : Consumed s 0 s :=
  ⟨h, rfl, List.suffix_refl _, rfl, rfl⟩

theorem Consumed.trans {s₁ s₂ s₃ : SegmentedInputStream} {n m : Nat} (h₁ : Consumed s₁ n s₂)
    (h₂ : Consumed s₂ m s₃) : Consumed s₁ (n + m) s₃ := by
  refine ⟨h₂.inv, ?_, h₂.suffix.trans h₁.suffix, h₂.byteOrder_eq.trans h₁.byteOrder_eq,
    h₂.deallocated_eq.trans h₁.deallocated_eq⟩
  rw [h₂.unread_eq, h₁.unread_eq, List.drop_drop]

theorem Consumed.size_eq {s s' : SegmentedInputStream} {n : Nat} (h : Consumed s n s')
    (hs : Inv s) : s'.m_size = s.m_size - n := by
  rw [h.inv.size_eq, h.unread_eq, List.length_drop, hs.size_eq]

/-- Consuming the rest of the head segment removes its node. -/
theorem advance_removeHead_consumed {s : SegmentedInputStream} (h : Inv s) {head : BufferNode}
    {rest : List BufferNode} (hn : s.m_nodes = head :: rest) :
    Consumed s (head.m_length - s.m_offset)
      (s.advance (head.m_length - s.m_offset)).removeHead := by
  obtain ⟨hlt, hu⟩ := h.unread_cons hn
  have hlen : (head.m_buffer.m_bytes.drop s.m_offset).length = head.m_length - s.m_offset :=
    List.length_drop
  have hsize := h.size_eq
  rw [hu, List.length_append, hlen] at hsize
  have hrest : ∀ node ∈ rest, node ∈ s.m_nodes := by
    intro node hnode
    rw [hn]
    exact List.mem_cons_of_mem _ hnode
  refine ⟨⟨?_, ?_, ?_, ?_, ?_, ?_, ?_, ?_⟩, ?_, ?_, ?_, ?_⟩ <;>
    simp only [advance, removeHead, hn, unread, List.drop_zero]
  · rw [sub32_eq (by omega) h.size_lt]
    omega
  · rw [sub32_eq (by omega) h.size_lt]
    have := h.size_lt
    omega
  · intro next hnext
    exact h.nonempty next (hrest next (List.mem_of_mem_head? hnext))
  · intro _
    trivial
  · intro node hnode
    exact h.nonempty node (hrest node hnode)
  · cases rest with
    | nil => rfl
    | cons next rest =>
      rw [h.tail_eq, hn, List.getLast?_cons_cons]
      rfl
  · have hnd := h.addr_nodup
    rw [hn] at hnd
    exact (List.nodup_cons.mp hnd).2
  · intro node hnode
    exact h.addr_lt node (hrest node hnode)
  · rw [chainBytes_cons, List.drop_append_of_le_length (Nat.le_of_lt hlt), ← hlen,
      List.drop_left]
  · exact List.suffix_cons head rest
  · simp

/-- Consuming less than the rest of the head segment moves the offset. -/
theorem advance_consumed {s : SegmentedInputStream} (h : Inv s) {head : BufferNode}
    {rest : List BufferNode} (hn : s.m_nodes = head :: rest) {n : Nat}
    (hlt' : s.m_offset + n < head.m_length) : Consumed s n (s.advance n) := by
  obtain ⟨hlt, hu⟩ := h.unread_cons hn
  have hlen : (head.m_buffer.m_bytes.drop s.m_offset).length = head.m_length - s.m_offset :=
    List.length_drop
  have hsize := h.size_eq
  have hle : n ≤ s.m_size := by
    rw [hsize, hu, List.length_append, hlen]
    omega
  have hbuf : head.m_length < 2 ^ 32 := head.m_buffer.length_lt
  have hoff : add32 s.m_offset n = s.m_offset + n := add32_eq (by omega)
  have hsz : sub32 s.m_size n = s.m_size - n := sub32_eq hle h.size_lt
  have hunread : (s.advance n).unread = s.unread.drop n := by
    simp only [unread, advance, hoff, List.drop_drop]
  refine ⟨⟨?_, ?_, ?_, ?_, h.nonempty, h.tail_eq, h.addr_nodup, h.addr_lt⟩, hunread,
    List.suffix_refl _, rfl, rfl⟩
  · rw [hunread, List.length_drop, ← hsize]
    exact hsz
  · have := h.size_lt
    show sub32 s.m_size n < 2 ^ 32
    omega
  · intro first hfirst
    have hfirst' : first ∈ s.m_nodes.head? := hfirst
    rw [hn] at hfirst'
    simp only [List.head?_cons, Option.mem_some_iff] at hfirst'
    subst hfirst'
    show add32 s.m_offset n < _
    omega
  · intro hnil
    have hnil' : s.m_nodes = [] := hnil
    rw [hn] at hnil'
    cases hnil'

private theorem copyPart_ok {node : BufferNode} {copying : Bool} {offset n capacity : Nat}
    {out : List UInt8} (hin : offset + n ≤ node.m_length)
    (hout : copying = true → out.length + n ≤ capacity) :
    node.copyPart copying offset n capacity out = .ok (if copying then
      out ++ (node.m_buffer.m_bytes.drop offset).take n else out) := by
  cases copying with
  | false => rfl
  | true => exact memcpy_ok hin (hout rfl)

/-- The loop of `copyBytes` consumes the bytes it was asked for and, if it copies, returns
    them. -/
theorem copyLoop_spec (copying : Bool) (length : Nat) :
    ∀ (nodes : List BufferNode) (s : SegmentedInputStream) (head : BufferNode)
      (rest : List BufferNode) (bytesCopied : Nat) (out : List UInt8),
      s.m_nodes = nodes → nodes = head :: rest → Inv s → bytesCopied ≤ length →
      length ≤ bytesCopied + s.m_size → bytesCopied + s.m_size < 2 ^ 32 →
      (copying = true → out.length = bytesCopied) →
      ∃ s', copyLoop copying length nodes s bytesCopied (head.m_length - s.m_offset) out =
          .ok (if copying then out ++ s.unread.take (length - bytesCopied) else out, s') ∧
        Consumed s (length - bytesCopied) s' := by
  intro nodes
  -- induction on the chain; `Inv` holds again at the head of every pass
  induction nodes with
  | nil => intro s head rest bytesCopied out _ hnodes; cases hnodes
  | cons first tail ih =>
    intro s head rest bytesCopied out hs hnodes hinv hcopied hlow hhigh hout
    obtain ⟨rfl, rfl⟩ := List.cons.inj hnodes
    obtain ⟨hlt, hu⟩ := hinv.unread_cons hs
    have hlen : (first.m_buffer.m_bytes.drop s.m_offset).length = first.m_length - s.m_offset :=
      List.length_drop
    have hsize := hinv.size_eq
    rw [hu, List.length_append, hlen] at hsize
    have hadd : add32 bytesCopied (first.m_length - s.m_offset) =
        bytesCopied + (first.m_length - s.m_offset) := add32_eq (by omega)
    rw [copyLoop, hadd]
    by_cases hmore : bytesCopied + (first.m_length - s.m_offset) < length
    · -- the head segment is used up: remove it and go on with the next one
      obtain ⟨next, rest, rfl⟩ := chainBytes_ne_nil tail (by omega)
      have hstep := advance_removeHead_consumed hinv hs
      have hstep_size := hstep.size_eq hinv
      have hnodes' : (s.advance (first.m_length - s.m_offset)).removeHead.m_nodes =
          next :: rest := by simp [advance, removeHead, hs]
      have hoff' : (s.advance (first.m_length - s.m_offset)).removeHead.m_offset = 0 := by
        simp [advance, removeHead, hs]
      have hunread' : (s.advance (first.m_length - s.m_offset)).removeHead.unread =
          chainBytes (next :: rest) := by simp [unread, hnodes', hoff']
      have hcopy : first.copyPart copying s.m_offset (first.m_length - s.m_offset) length out =
          .ok (if copying then out ++ first.m_buffer.m_bytes.drop s.m_offset else out) := by
        rw [copyPart_ok (by omega) (fun hc => by have := hout hc; omega),
          List.take_of_length_le (Nat.le_of_eq hlen)]
      obtain ⟨s', hrun, hcons⟩ := ih (s.advance (first.m_length - s.m_offset)).removeHead next rest
        (bytesCopied + (first.m_length - s.m_offset))
        (if copying then out ++ first.m_buffer.m_bytes.drop s.m_offset else out)
        hnodes' rfl hstep.inv (by omega) (by omega) (by omega)
        (by intro hc; rw [if_pos hc, List.length_append, hout hc, hlen])
      rw [hoff', Nat.sub_zero] at hrun
      refine ⟨s', ?_, ?_⟩
      · rw [if_pos hmore, hcopy]
        simp only [bind, Except.bind, List.head?_cons]
        rw [hrun, hunread', hu, List.take_append, hlen,
          List.take_of_length_le (i := length - bytesCopied) (by omega), ← List.append_assoc,
          Nat.sub_add_eq]
        cases copying <;> rfl
      · have htrans := hstep.trans hcons
        rwa [show first.m_length - s.m_offset +
          (length - (bytesCopied + (first.m_length - s.m_offset))) = length - bytesCopied by
            omega] at htrans
    · -- the rest lies in the head segment
      have hsub : sub32 length bytesCopied = length - bytesCopied := sub32_eq hcopied (by omega)
      have hbuf : first.m_length < 2 ^ 32 := first.m_buffer.length_lt
      have hoff : (s.advance (length - bytesCopied)).m_offset =
          s.m_offset + (length - bytesCopied) := add32_eq (by omega)
      have hcopy : first.copyPart copying s.m_offset (length - bytesCopied) length out =
          .ok (if copying then out ++ s.unread.take (length - bytesCopied) else out) := by
        rw [copyPart_ok (by omega) (fun hc => by have := hout hc; omega), hu,
          List.take_append_of_le_length (by omega)]
      rw [if_neg hmore]
      simp only [hsub, hcopy, bind, Except.bind, hoff, pure, Except.pure]
      by_cases hend : s.m_offset + (length - bytesCopied) = first.m_length
      · have heq : length - bytesCopied = first.m_length - s.m_offset := by omega
        rw [if_pos hend]
        exact ⟨_, rfl, by rw [heq]; exact advance_removeHead_consumed hinv hs⟩
      · rw [if_neg hend]
        exact ⟨_, rfl, advance_consumed hinv hs (by omega)⟩

private theorem copyBytes_spec {s : SegmentedInputStream} (h : Inv s) (hne : s.unread ≠ [])
    (copying : Bool) {length : Nat} (hle : length ≤ s.m_size) :
    ∃ s', s.copyBytes copying length =
        .ok (if copying then s.unread.take length else [], s') ∧ Consumed s length s' := by
  obtain ⟨head, rest, hn⟩ := h.exists_cons hne
  obtain ⟨hlt, -⟩ := h.unread_cons hn
  have hsub : sub32 head.m_length s.m_offset = head.m_length - s.m_offset :=
    sub32_eq (Nat.le_of_lt hlt) head.m_buffer.length_lt
  obtain ⟨s', hrun, hcons⟩ := copyLoop_spec copying length s.m_nodes s
    head rest 0 [] rfl hn h (Nat.zero_le _) (by omega) (by have := h.size_lt; omega)
    (fun _ => rfl)
  rw [Nat.sub_zero, List.nil_append] at hrun
  refine ⟨s', ?_, by simpa using hcons⟩
  unfold copyBytes
  rw [hn, List.head?_cons] at *
  simp only [hsub]
  exact hrun

/-- **`readBytes`** returns the first bytes of the queue and removes exactly them. -/
theorem readBytes_spec {s : SegmentedInputStream} (h : Inv s) (hne : s.unread ≠ [])
    (length : Nat) : ∃ s', s.readBytes length = .ok (.ok, s.unread.take length, s') ∧
      Consumed s (min s.unread.length length) s' := by
  obtain ⟨s', hrun, hcons⟩ := copyBytes_spec h hne true (Nat.min_le_left s.m_size length)
  rw [h.size_eq] at hrun hcons
  refine ⟨s', ?_, hcons⟩
  have htake : s.unread.take (min s.unread.length length) = s.unread.take length := by
    rw [Nat.min_comm, ← List.take_take, List.take_length]
  unfold readBytes
  simp only [h.size_eq, hrun, htake, bind, Except.bind, pure, Except.pure, if_true]

/-- **`skipBytes`** removes the first bytes of the queue. -/
theorem skipBytes_spec {s : SegmentedInputStream} (h : Inv s) (hne : s.unread ≠ [])
    (length : Nat) : ∃ s', s.skipBytes length = .ok (.ok, min s.unread.length length, s') ∧
      Consumed s (min s.unread.length length) s' := by
  obtain ⟨s', hrun, hcons⟩ := copyBytes_spec h hne false (Nat.min_le_left s.m_size length)
  rw [h.size_eq] at hrun hcons
  refine ⟨s', ?_, hcons⟩
  unfold skipBytes
  simp only [h.size_eq, hrun, bind, Except.bind, pure, Except.pure]

/-! ## §7 A string in segments -/

/-- `appendBuffer`, one segment after another. -/
def appendBuffers (s : SegmentedInputStream) (segments : List Buffer) :
    Except Fault SegmentedInputStream :=
  segments.foldlM appendBuffer s

/-- The segments are non-empty and put together they are the bytes. -/
structure Splits (segments : List Buffer) (bytes : List UInt8) : Prop where
  nonempty : ∀ segment ∈ segments, segment.m_bytes ≠ []
  bytes_eq : (segments.map Buffer.m_bytes).flatten = bytes

/-- **Appending segments**: what is unread afterwards are the bytes of the segments, in order. -/
theorem appendBuffers_spec {segments : List Buffer}
    (hne : ∀ segment ∈ segments, segment.m_bytes ≠ []) {s : SegmentedInputStream} (hinv : s.Inv)
    (hroom : s.unread.length + (segments.map Buffer.m_bytes).flatten.length < 2 ^ 32) :
    ∃ s', s.appendBuffers segments = .ok s' ∧ s'.Inv ∧ s'.m_byteOrder = s.m_byteOrder ∧
      s'.unread = s.unread ++ (segments.map Buffer.m_bytes).flatten := by
  induction segments generalizing s with
  | nil => exact ⟨s, rfl, hinv, rfl, by simp⟩
  | cons segment rest ih =>
    simp only [List.map_cons, List.flatten_cons, List.length_append] at hroom
    obtain ⟨s₁, hs₁, happ⟩ := appendBuffer_spec hinv segment (hne segment List.mem_cons_self)
      (by omega)
    obtain ⟨s₂, hs₂, hinv₂, horder₂, hunread₂⟩ :=
      ih (fun x hx => hne x (List.mem_cons_of_mem _ hx)) happ.inv
        (by rw [happ.unread_eq, List.length_append]; omega)
    refine ⟨s₂, ?_, hinv₂, horder₂.trans happ.byteOrder_eq, ?_⟩
    · unfold appendBuffers at hs₂ ⊢
      rw [List.foldlM_cons, hs₁]
      exact hs₂
    · rw [hunread₂, happ.unread_eq]
      simp only [List.map_cons, List.flatten_cons, List.append_assoc]

/-- A new stream holds the bytes that were split. -/
theorem Splits.appendBuffers_new {segments : List Buffer} {bytes : List UInt8}
    (h : Splits segments bytes) (hlen : bytes.length < 2 ^ 32) (order : ByteOrder) (base : Nat)
    (log : List Buffer) :
    ∃ s, (new order base log).appendBuffers segments = .ok s ∧ s.Inv ∧ s.m_byteOrder = order ∧
      s.unread = bytes := by
  have hunread : (new order base log).unread = [] := rfl
  obtain ⟨s, hs, hinv, horder, hs'⟩ := appendBuffers_spec h.nonempty (new_inv order base log)
    (by rw [hunread, h.bytes_eq]; simpa using hlen)
  exact ⟨s, hs, hinv, horder, by rw [hs', hunread, h.bytes_eq, List.nil_append]⟩

end SegmentedInputStream

end Commutil.Io
