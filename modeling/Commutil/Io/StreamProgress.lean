import Commutil.Io.SegmentedInputStream

/-!
# What a Stream Operation Can Do Without the Invariant

Facts about `copyBytes` and `searchBytes` that hold in every state of a segmented
input stream, also in states that break its invariant: the accounting of `m_size`
modulo 2^32, and how far an operation gets.

`weight` counts unread bytes and segments.  Every operation that returns lowers it
or leaves the stream alone, and `searchBytes` leaves the stream alone without an
answer only in the states of `SearchStalls`.
-/

namespace Commutil.Io.SegmentedInputStream

open Commutil.Common Commutil.Library

/-! ## §1 Copying -/

/-- Taking the rest after a part is taking the whole. -/
private theorem sub32_sub32 (a l c p : Nat) :
    sub32 (sub32 a p) (sub32 l (add32 c p)) = sub32 a (sub32 l c) := by
  simp only [add32, sub32]
  omega

theorem memcpy_length_le {node : BufferNode} {offset n capacity : Nat} {out out' : List UInt8}
    (h : node.memcpy offset n capacity out = .ok out') (hout : out.length ≤ capacity) :
    out'.length ≤ capacity := by
  unfold BufferNode.memcpy at h
  split at h
  · cases h
    exact hout
  split at h
  · cases h
  split at h
  · cases h
  · cases h
    simp only [List.length_append, List.length_take]
    omega

private theorem copyPart_length_le {node : BufferNode} {copying : Bool} {offset n capacity : Nat}
    {out out' : List UInt8} (h : node.copyPart copying offset n capacity out = .ok out')
    (hout : out.length ≤ capacity) : out'.length ≤ capacity := by
  cases copying with
  | false =>
    cases h
    exact hout
  | true => exact memcpy_length_le h hout

@[simp] theorem advance_size (s : SegmentedInputStream) (n : Nat) :
    (s.advance n).m_size = sub32 s.m_size n := rfl

@[simp] theorem advance_nodes (s : SegmentedInputStream) (n : Nat) :
    (s.advance n).m_nodes = s.m_nodes := rfl

theorem advance_suffix (s : SegmentedInputStream) (n : Nat) :
    (s.advance n).m_nodes <:+ s.m_nodes :=
  ⟨[], by rw [List.nil_append, advance_nodes]⟩

@[simp] theorem advance_byteOrder (s : SegmentedInputStream) (n : Nat) :
    (s.advance n).m_byteOrder = s.m_byteOrder := rfl

@[simp] theorem removeHead_size (s : SegmentedInputStream) : s.removeHead.m_size = s.m_size := by
  unfold removeHead
  split <;> rfl

@[simp] theorem removeHead_byteOrder (s : SegmentedInputStream) :
    s.removeHead.m_byteOrder = s.m_byteOrder := by
  unfold removeHead
  split <;> rfl

theorem removeHead_nodes (s : SegmentedInputStream) : s.removeHead.m_nodes = s.m_nodes.tail := by
  unfold removeHead
  split <;> simp [*]

/-- What `copyBytes` does in any state: it takes `n` from `m_size`, modulo 2^32. -/
structure Took (s : SegmentedInputStream) (n : Nat) (s' : SegmentedInputStream) : Prop where
  size_eq : s'.m_size = sub32 s.m_size n
  suffix : s'.m_nodes <:+ s.m_nodes
  byteOrder_eq : s'.m_byteOrder = s.m_byteOrder

private theorem copyLoop_general {copying : Bool} {length : Nat} :
    ∀ (nodes : List BufferNode) (s s' : SegmentedInputStream) (bytesCopied bytesToCopy : Nat)
      (out out' : List UInt8), s.m_nodes = nodes → out.length ≤ length →
      copyLoop copying length nodes s bytesCopied bytesToCopy out = .ok (out', s') →
      Took s (sub32 length bytesCopied) s' ∧ out'.length ≤ length := by
  intro nodes
  induction nodes with
  | nil => intro s s' bytesCopied bytesToCopy out out' _ _ h; cases h
  | cons head rest ih =>
    intro s s' bytesCopied bytesToCopy out out' hs hout h
    rw [copyLoop] at h
    split at h
    · -- a whole segment, then the rest of the chain
      simp only [bind, Except.bind] at h
      split at h
      · cases h
      rename_i part hpart
      have hpart_le := copyPart_length_le hpart hout
      split at h
      · cases h
      have hnodes : (s.advance bytesToCopy).removeHead.m_nodes = rest := by
        rw [removeHead_nodes, advance_nodes, hs, List.tail_cons]
      obtain ⟨htook, hout'⟩ := ih _ s' _ _ part out' hnodes hpart_le h
      refine ⟨⟨?_, ?_, ?_⟩, hout'⟩
      · rw [htook.size_eq, removeHead_size, advance_size]
        exact sub32_sub32 _ _ _ _
      · rw [hs]
        exact (hnodes ▸ htook.suffix).trans (List.suffix_cons head rest)
      · rw [htook.byteOrder_eq, removeHead_byteOrder, advance_byteOrder]
    · -- the last part
      simp only [bind, Except.bind, pure, Except.pure] at h
      split at h
      · cases h
      rename_i part hpart
      have hpart_le := copyPart_length_le hpart hout
      split at h
      · cases h
        refine ⟨⟨?_, ?_, ?_⟩, hpart_le⟩
        · rw [removeHead_size, advance_size]
        · rw [removeHead_nodes, advance_nodes]
          exact List.tail_suffix _
        · rw [removeHead_byteOrder, advance_byteOrder]
      · cases h
        exact ⟨⟨advance_size _ _, advance_suffix _ _, advance_byteOrder _ _⟩, hpart_le⟩

theorem copyBytes_general {s s' : SegmentedInputStream} {copying : Bool} {length : Nat}
    {out : List UInt8} (h : s.copyBytes copying length = .ok (out, s')) :
    Took s (length % 2 ^ 32) s' ∧ out.length ≤ length := by
  unfold copyBytes at h
  split at h
  · cases h
  · obtain ⟨htook, hout⟩ := copyLoop_general s.m_nodes s s' 0 _ [] out rfl (Nat.zero_le _) h
    refine ⟨⟨?_, htook.suffix, htook.byteOrder_eq⟩, hout⟩
    rw [htook.size_eq]
    simp only [sub32]
    omega

theorem readBytes_general {s s' : SegmentedInputStream} {length : Nat} {rc : ErrorCode}
    {out : List UInt8} (h : s.readBytes length = .ok (rc, out, s')) :
    rc = .ok ∧ s'.m_size + min s.m_size length ≤ s.m_size ∧
      out.length ≤ min s.m_size length ∧ s'.m_nodes <:+ s.m_nodes ∧
      s'.m_byteOrder = s.m_byteOrder := by
  unfold readBytes at h
  simp only [bind, Except.bind, pure, Except.pure] at h
  split at h
  · cases h
  rename_i r hr
  obtain ⟨out₁, s₁⟩ := r
  cases h
  obtain ⟨htook, hout⟩ := copyBytes_general hr
  refine ⟨rfl, ?_, hout, htook.suffix, htook.byteOrder_eq⟩
  rw [htook.size_eq]
  simp only [sub32]
  omega

theorem skipBytes_general {s s' : SegmentedInputStream} {length n : Nat} {rc : ErrorCode}
    (h : s.skipBytes length = .ok (rc, n, s')) :
    rc = .ok ∧ s'.m_size + min s.m_size length ≤ s.m_size ∧ s'.m_nodes <:+ s.m_nodes ∧
      s'.m_byteOrder = s.m_byteOrder := by
  unfold skipBytes at h
  simp only [bind, Except.bind, pure, Except.pure] at h
  split at h
  · cases h
  rename_i r hr
  obtain ⟨out₁, s₁⟩ := r
  cases h
  obtain ⟨htook, -⟩ := copyBytes_general hr
  refine ⟨rfl, ?_, htook.suffix, htook.byteOrder_eq⟩
  rw [htook.size_eq]
  simp only [sub32]
  omega

/-! ## §2 Weight -/

/-- Unread bytes and segments. -/
def weight (s : SegmentedInputStream) : Nat := s.m_size + s.m_nodes.length

theorem reset_weight_lt {s : SegmentedInputStream} (h : 0 < s.m_size) :
    s.reset.weight < s.weight := by
  simp only [weight, reset, List.length_nil]
  omega

theorem readBytes_weight {s s' : SegmentedInputStream} {length : Nat} {rc : ErrorCode}
    {out : List UInt8} (h : s.readBytes length = .ok (rc, out, s')) :
    s'.weight + min s.m_size length ≤ s.weight := by
  obtain ⟨-, hsize, -, hsuf, -⟩ := readBytes_general h
  have := hsuf.length_le
  unfold weight
  omega

theorem skipBytes_weight {s s' : SegmentedInputStream} {length n : Nat} {rc : ErrorCode}
    (h : s.skipBytes length = .ok (rc, n, s')) :
    s'.weight + min s.m_size length ≤ s.weight := by
  obtain ⟨-, hsize, hsuf, -⟩ := skipBytes_general h
  have := hsuf.length_le
  unfold weight
  omega

/-! ## §3 Searching -/

/-- `searchBytes` gives up before looking: there is no segment, or the first one is shorter
    than the pattern. -/
def SearchStalls (pattern : List UInt8) (s : SegmentedInputStream) : Prop :=
  ∀ head ∈ s.m_nodes.head?, head.m_length < pattern.length

theorem searchBytes_of_stalls {pattern : List UInt8} {s : SegmentedInputStream}
    (h : SearchStalls pattern s) : s.searchBytes pattern = .ok (.endOfStream, s) := by
  unfold searchBytes
  cases hn : s.m_nodes with
  | nil => rfl
  | cons head rest =>
    have hlt : head.m_length < pattern.length := h head (by rw [hn]; rfl)
    rw [searchLoop, if_pos hlt]
    rfl

/-- The suffix loop finds the longest suffix, of at most `remaining` bytes, that begins the
    pattern. -/
theorem suffixLoop_spec (head : BufferNode) {pattern : List UInt8} (hp : 0 ∉ pattern) :
    ∀ (remaining offset : Nat), offset + remaining = head.m_length →
      remaining ≤ pattern.length →
      ∃ o, suffixLoop head pattern remaining offset = .ok o ∧ offset ≤ o ∧ o ≤ head.m_length ∧
        head.m_buffer.m_bytes.drop o <+: pattern ∧
        ∀ o', offset ≤ o' → o' < o → ¬ head.m_buffer.m_bytes.drop o' <+: pattern := by
  intro remaining
  induction remaining with
  | zero =>
    intro offset hsum _
    refine ⟨offset, rfl, Nat.le_refl _, by omega, ?_, fun o' h1 h2 => absurd h2 (by omega)⟩
    have hlen : head.m_buffer.m_bytes.length ≤ offset := Nat.le_of_eq hsum.symm
    rw [List.drop_eq_nil_of_le hlen]
    exact List.nil_prefix
  | succ remaining ih =>
    intro offset hsum hle
    have hlen : (head.m_buffer.m_bytes.drop offset).length = remaining + 1 := by
      have hlen : head.m_buffer.m_bytes.length = head.m_length := rfl
      rw [List.length_drop]
      omega
    have hiff : (head.m_buffer.m_bytes.drop offset).take (remaining + 1) =
        pattern.take (remaining + 1) ↔ head.m_buffer.m_bytes.drop offset <+: pattern := by
      rw [List.prefix_iff_eq_take, hlen, List.take_of_length_le (Nat.le_of_eq hlen)]
    have hcmp := strncmpEq_spec (a := head.m_buffer.m_bytes.drop offset) hp
      (Nat.le_of_eq hlen.symm) hle
    by_cases hpre : head.m_buffer.m_bytes.drop offset <+: pattern
    · refine ⟨offset, ?_, Nat.le_refl _, by omega, hpre, fun o' h1 h2 => absurd h2 (by omega)⟩
      simp [suffixLoop, hcmp, hiff, hpre, bind, Except.bind, pure, Except.pure]
    · obtain ⟨o, ho, h1, h2, h3, h4⟩ := ih (offset + 1) (by omega) (by omega)
      refine ⟨o, ?_, by omega, h2, h3, fun o' ho' hlt => ?_⟩
      · simp [suffixLoop, hcmp, hiff, hpre, ho, bind, Except.bind]
      · rcases Nat.eq_or_lt_of_le ho' with rfl | hgt
        · exact hpre
        · exact h4 o' hgt hlt

/-- The borderline loop gives up only after at least one position was ruled out. -/
private theorem borderLoop_tooShort {head next : BufferNode} {pattern : List UInt8} :
    ∀ (remaining offset o : Nat),
      borderLoop head next pattern remaining offset = .ok (.tooShort o) →
      offset ≤ o ∧ (o = offset → next.m_length < pattern.length - remaining) := by
  intro remaining
  induction remaining with
  | zero => intro offset o h; cases h
  | succ remaining ih =>
    intro offset o h
    have hrec : borderLoop head next pattern remaining (offset + 1) = .ok (.tooShort o) →
        offset ≤ o ∧ (o = offset → next.m_length < pattern.length - (remaining + 1)) := by
      intro h'
      have := (ih _ _ h').1
      exact ⟨by omega, fun heq => absurd heq (by omega)⟩
    rw [borderLoop] at h
    simp only [bind, Except.bind, pure, Except.pure] at h
    split at h
    · rename_i hshort
      cases h
      exact ⟨Nat.le_refl _, fun _ => hshort⟩
    split at h
    · cases h
    split at h
    · split at h
      · cases h
      split at h
      · cases h
      · exact hrec h
    · exact hrec h

/-- A segment that is a pattern without zero bytes is found. -/
private theorem strnstr_of_eq {node : BufferNode} {pattern : List UInt8} {r : Int}
    (hp : 0 ∉ pattern) (heq : node.m_buffer.m_bytes = pattern)
    (hr : commutilStrnstr node.m_buffer.m_bytes pattern = .ok r) : 0 ≤ r := by
  obtain ⟨r', hr', hres⟩ := commutilStrnstr_spec _ pattern node.m_buffer.length_lt
  rw [hr] at hr'
  cases hr'
  rcases hres with ⟨k, rfl, -, -⟩ | ⟨rfl, hnone⟩
  · omega
  · exfalso
    refine hnone 0 (by rw [heq]; omega) (by rw [heq]; exact fun _ _ => by simp) ⟨?_, ?_⟩
    · rw [heq]
      omega
    · intro m hm hzero
      rw [heq] at hzero
      exact hp (List.mem_of_getElem? hzero)

theorem skipAndReturn_general {s s' : SegmentedInputStream} {offset : Nat} {result rc : ErrorCode}
    (h : s.skipAndReturn offset result = .ok (rc, s')) :
    rc = result ∧ ∃ n, s.skipBytes offset = .ok (.ok, n, s') := by
  unfold skipAndReturn at h
  simp only [bind, Except.bind, pure, Except.pure] at h
  split at h
  · cases h
  rename_i r hr
  obtain ⟨rc', n, s₁⟩ := r
  have hok := (skipBytes_general hr).1
  subst hok
  rw [if_neg (by simp)] at h
  cases h
  exact ⟨rfl, n, hr⟩

/-- How `searchBytes` can end: it keeps the size and the weight within bounds, and it fails
    either after progress or because it stalls. -/
structure SearchOutcome (pattern : List UInt8) (s : SegmentedInputStream) (rc : ErrorCode)
    (s' : SegmentedInputStream) : Prop where
  size_le : s'.m_size ≤ s.m_size
  weight_le : s'.weight ≤ s.weight
  byteOrder_eq : s'.m_byteOrder = s.m_byteOrder
  progress : rc ≠ .ok → s'.weight < s.weight ∨ s' = s ∧ SearchStalls pattern s

private theorem SearchOutcome.of_skip {pattern : List UInt8} {s s' : SegmentedInputStream}
    {offset : Nat} {result rc : ErrorCode} (h : s.skipAndReturn offset result = .ok (rc, s'))
    (hsize : 0 < s.m_size) (hoff : result ≠ .ok → 0 < offset) : SearchOutcome pattern s rc s' := by
  obtain ⟨rfl, n, hskip⟩ := skipAndReturn_general h
  obtain ⟨-, hsz, -, horder⟩ := skipBytes_general hskip
  have hw := skipBytes_weight hskip
  refine ⟨by omega, by omega, horder, fun hrc => .inl ?_⟩
  have := hoff hrc
  omega

private theorem searchLoop_progress {pattern : List UInt8} (hp : 0 ∉ pattern) :
    ∀ (nodes : List BufferNode) (s s' : SegmentedInputStream) (rc : ErrorCode),
      s.m_nodes = nodes → 0 < s.m_size → searchLoop pattern nodes s = .ok (rc, s') →
      SearchOutcome pattern s rc s' := by
  intro nodes
  induction nodes with
  | nil =>
    intro s s' rc hs hsize h
    cases h
    refine ⟨Nat.le_refl _, Nat.le_refl _, rfl, fun _ => .inr ⟨rfl, ?_⟩⟩
    intro head hhead
    rw [hs] at hhead
    cases hhead
  | cons head rest ih =>
    intro s s' rc hs hsize h
    rw [searchLoop] at h
    simp only [bind, Except.bind, pure, Except.pure] at h
    split at h
    · -- the first segment is too short
      rename_i hshort
      cases h
      refine ⟨Nat.le_refl _, Nat.le_refl _, rfl, fun _ => .inr ⟨rfl, ?_⟩⟩
      intro first hfirst
      rw [hs, List.head?_cons, Option.mem_some_iff] at hfirst
      exact hfirst ▸ hshort
    rename_i hlong
    split at h
    · cases h
    rename_i res hres
    split at h
    · -- found inside the first segment
      split at h
      · exact .of_skip h hsize (fun hne => absurd rfl hne)
      · cases h
        exact ⟨Nat.le_refl _, Nat.le_refl _, rfl, fun hne => absurd rfl hne⟩
    rename_i hneg
    split at h
    · -- last segment: an answer at offset 0 would have been found before
      obtain ⟨o, ho, -, hole, hpre, -⟩ := suffixLoop_spec head hp pattern.length
        (head.m_length - pattern.length) (by omega) (Nat.le_refl _)
      rw [ho] at h
      apply SearchOutcome.of_skip h hsize
      intro _
      rcases Nat.eq_zero_or_pos o with rfl | hpos
      · exfalso
        apply hneg
        rw [List.drop_zero] at hpre
        have heq : head.m_buffer.m_bytes = pattern :=
          hpre.eq_of_length_le (by
            have : head.m_buffer.m_bytes.length = head.m_length := rfl
            omega)
        exact strnstr_of_eq hp heq hres
      · exact hpos
    · -- the borderline area of two segments
      rename_i next hnext
      split at h
      · cases h
      rename_i found hfound
      split at h
      · obtain ⟨hle, hshort⟩ := borderLoop_tooShort _ _ _ hfound
        apply SearchOutcome.of_skip h hsize
        intro _
        rcases Nat.eq_zero_or_pos (head.m_length - pattern.length) with h0 | hpos
        · by_contra hzero
          have := hshort (by omega)
          omega
        · omega
      · exact .of_skip h hsize (fun hne => absurd rfl hne)
      · have hnodes : s.removeHead.m_nodes = rest := by
          rw [removeHead_nodes, hs, List.tail_cons]
        have hout := ih _ s' rc hnodes (by rw [removeHead_size]; exact hsize) h
        have hsize_le := hout.size_le
        have hweight_le := hout.weight_le
        rw [removeHead_size] at hsize_le
        have hw : s.removeHead.weight < s.weight := by
          simp only [weight, removeHead_size, hnodes, hs, List.length_cons]
          omega
        refine ⟨hsize_le, by omega, ?_, fun _ => .inl (by omega)⟩
        rw [hout.byteOrder_eq, removeHead_byteOrder]

/-- **Progress of `searchBytes`** for a pattern without zero bytes, in any state. -/
theorem searchBytes_progress {pattern : List UInt8} (hp : 0 ∉ pattern)
    {s s' : SegmentedInputStream} {rc : ErrorCode} (hsize : 0 < s.m_size)
    (h : s.searchBytes pattern = .ok (rc, s')) : SearchOutcome pattern s rc s' :=
  searchLoop_progress hp s.m_nodes s s' rc rfl hsize h

/-! ## §4 Searching a single segment -/

/-- The pattern is found at its first occurrence if the search sees it. -/
theorem searchBytes_single_found {pattern : List UInt8} {s : SegmentedInputStream}
    {node : BufferNode} {k : Nat} (hn : s.m_nodes = [node]) (hne : pattern ≠ [])
    (hocc : IsFirstOccurrence pattern node.m_buffer.m_bytes k)
    (hvisible : Visible node.m_buffer.m_bytes pattern k) :
    s.searchBytes pattern =
      if 0 < k then s.skipAndReturn k .ok else .ok (.ok, s) := by
  have hlen : k + pattern.length ≤ node.m_length := hocc.occurs.length_le hne
  obtain ⟨r, hr, hres⟩ := commutilStrnstr_spec _ pattern node.m_buffer.length_lt
  obtain rfl : r = (k : Int) := by
    rcases hres with ⟨k', rfl, hfirst, -⟩ | ⟨-, hnone⟩
    · rw [hfirst.unique hocc]
    · exact absurd hvisible (hnone k hlen hocc.occurs)
  unfold searchBytes
  rw [hn, searchLoop, if_neg (by omega), hr]
  simp only [bind, Except.bind, pure, Except.pure, Int.toNat_natCast]
  rw [if_pos (by omega)]
  split <;> split <;> first | rfl | omega

/-- Without an occurrence that the search sees, all but the longest suffix that begins the
    pattern is skipped. -/
theorem searchBytes_single_missed {pattern : List UInt8} (hp : 0 ∉ pattern)
    {s : SegmentedInputStream} {node : BufferNode} (hn : s.m_nodes = [node])
    (hlen : pattern.length ≤ node.m_length)
    (hnone : ∀ k, OccursAt pattern node.m_buffer.m_bytes k →
      ¬ Visible node.m_buffer.m_bytes pattern k) :
    ∃ o, s.searchBytes pattern = s.skipAndReturn o .endOfStream ∧
      node.m_length - pattern.length ≤ o ∧ o ≤ node.m_length ∧
      node.m_buffer.m_bytes.drop o <+: pattern ∧
      ∀ o', node.m_length - pattern.length ≤ o' → o' < o →
        ¬ node.m_buffer.m_bytes.drop o' <+: pattern := by
  obtain ⟨r, hr, hres⟩ := commutilStrnstr_spec _ pattern node.m_buffer.length_lt
  obtain rfl : r = -1 := by
    rcases hres with ⟨k, rfl, hfirst, hvisible⟩ | ⟨rfl, -⟩
    · exact absurd hvisible (hnone k hfirst.occurs)
    · rfl
  obtain ⟨o, ho, h1, h2, h3, h4⟩ := suffixLoop_spec node hp pattern.length
    (node.m_length - pattern.length) (by omega) (Nat.le_refl _)
  refine ⟨o, ?_, h1, h2, h3, h4⟩
  unfold searchBytes
  rw [hn, searchLoop, if_neg (by omega), hr]
  simp only [bind, Except.bind]
  rw [if_neg (by omega), List.head?_nil]
  simp only [ho]

theorem skipAndReturn_spec {s : SegmentedInputStream} (h : Inv s) (hne : s.unread ≠ [])
    (offset : Nat) (result : ErrorCode) :
    ∃ s', s.skipAndReturn offset result = .ok (result, s') ∧
      Consumed s (min s.unread.length offset) s' := by
  obtain ⟨s', hs', hcons⟩ := skipBytes_spec h hne offset
  refine ⟨s', ?_, hcons⟩
  unfold skipAndReturn
  rw [hs']
  rfl

/-- A search of a single segment keeps the stream well formed: it consumes some bytes and
    answers. -/
theorem searchBytes_single {pattern : List UInt8} (hp : 0 ∉ pattern) (hpne : pattern ≠ [])
    {s : SegmentedInputStream} (h : Inv s) (hne : s.unread ≠ []) {node : BufferNode}
    (hn : s.m_nodes = [node]) :
    ∃ rc s' n, s.searchBytes pattern = .ok (rc, s') ∧ Consumed s n s' ∧
      (rc = .ok ∨ rc = .endOfStream) := by
  by_cases hshort : node.m_length < pattern.length
  · refine ⟨.endOfStream, s, 0, searchBytes_of_stalls ?_, .refl h, .inr rfl⟩
    intro head hhead
    rw [hn, List.head?_cons, Option.mem_some_iff] at hhead
    exact hhead ▸ hshort
  obtain ⟨r, hr, hres⟩ := commutilStrnstr_spec _ pattern node.m_buffer.length_lt
  rcases hres with ⟨k, rfl, hfirst, hvisible⟩ | ⟨rfl, hnone⟩
  · -- an occurrence that the search sees
    rw [searchBytes_single_found hn hpne hfirst hvisible]
    split
    · obtain ⟨s', hs', hcons⟩ := skipAndReturn_spec h hne k .ok
      exact ⟨.ok, s', _, hs', hcons, .inl rfl⟩
    · exact ⟨.ok, s, 0, rfl, .refl h, .inl rfl⟩
  · obtain ⟨o, ho, -⟩ := searchBytes_single_missed hp hn (Nat.le_of_not_lt hshort)
      (fun k hk => hnone k (hk.length_le hpne) hk)
    obtain ⟨s', hs', hcons⟩ := skipAndReturn_spec h hne o .endOfStream
    exact ⟨.endOfStream, s', _, by rw [ho, hs'], hcons, .inr rfl⟩

end Commutil.Io.SegmentedInputStream
