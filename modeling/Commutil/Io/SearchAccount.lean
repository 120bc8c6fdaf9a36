import Commutil.Io.StreamProgress

/-!
# The Size Account of `searchBytes`

`m_size` is the number of unread bytes of a segmented input stream, and every
operation that consumes bytes has to keep it so.  `searchBytes` consumes bytes in
five places.  Four of them go through `skipBytes`; the fifth removes a whole head
segment and leaves `m_size` as it was.

`drift` is what `m_size` counts beyond the unread bytes.  Appending and copying keep
it modulo 2^32 in every state, dropping a head segment raises it by the segment's
unread bytes.  `search_keeps_account_iff` is what follows for a stream whose account
is right: a search keeps it exactly if it does not drop the head segment.
-/

namespace Commutil.Io.SegmentedInputStream

open Commutil.Common

/-! ## §1 The account -/

/-- The size account: `m_size` is the number of unread bytes. -/
def Balanced (s : SegmentedInputStream) : Prop := s.m_size = s.unread.length

/-- What `m_size` counts beyond the unread bytes. -/
def drift (s : SegmentedInputStream) : Int :=
  s.m_size + s.m_offset - (chainBytes s.m_nodes).length

/-- The part of the representation invariant that does not speak of the account. -/
structure Linked (s : SegmentedInputStream) : Prop where
  size_lt : s.m_size < 2 ^ 32
  offset_bound : s.m_offset < 2 ^ 32
  nonempty : ∀ node ∈ s.m_nodes, 0 < node.m_length
  tail_eq : s.m_tail = s.m_nodes.getLast?.map BufferNode.m_addr
  addr_nodup : (s.m_nodes.map BufferNode.m_addr).Nodup
  addr_lt : ∀ node ∈ s.m_nodes, node.m_addr < s.m_nextAddr

/-- The offset lies in the head segment. -/
structure Fit (s : SegmentedInputStream) : Prop where
  offset_lt : ∀ head ∈ s.m_nodes.head?, s.m_offset < head.m_length
  offset_nil : s.m_nodes = [] → s.m_offset = 0

/-- `s'` comes from `s` by steps that keep the account modulo 2^32. -/
structure Keeps (s s' : SegmentedInputStream) : Prop where
  linked : Linked s'
  drift_dvd : (2 ^ 32 : Int) ∣ drift s' - drift s
  fit : Fit s → Fit s'

theorem Keeps.refl {s : SegmentedInputStream} (h : Linked s) : Keeps s s :=
  ⟨h, by simp, fun hf => hf⟩

theorem Keeps.trans {s₁ s₂ s₃ : SegmentedInputStream} (h₁ : Keeps s₁ s₂) (h₂ : Keeps s₂ s₃) :
    Keeps s₁ s₃ := by
  refine ⟨h₂.linked, ?_, fun hf => h₂.fit (h₁.fit hf)⟩
  have h := h₁.drift_dvd
  have h' := h₂.drift_dvd
  omega

theorem Linked.inv {s : SegmentedInputStream} (h : Linked s) (hf : Fit s) (hb : Balanced s) :
    Inv s :=
  ⟨hb, h.size_lt, hf.offset_lt, hf.offset_nil, h.nonempty, h.tail_eq, h.addr_nodup, h.addr_lt⟩

theorem Inv.linked {s : SegmentedInputStream} (h : Inv s) : Linked s := by
  refine ⟨h.size_lt, ?_, h.nonempty, h.tail_eq, h.addr_nodup, h.addr_lt⟩
  cases hn : s.m_nodes with
  | nil =>
    rw [h.offset_nil hn]
    omega
  | cons head rest =>
    have hlt := (h.unread_cons hn).1
    have hlen : head.m_length < 2 ^ 32 := head.m_buffer.length_lt
    omega

theorem Inv.fit {s : SegmentedInputStream} (h : Inv s) : Fit s := ⟨h.offset_lt, h.offset_nil⟩

theorem Fit.offset_le {s : SegmentedInputStream} (h : Fit s) :
    s.m_offset ≤ (chainBytes s.m_nodes).length := by
  cases hn : s.m_nodes with
  | nil =>
    rw [h.offset_nil hn]
    exact Nat.zero_le _
  | cons head rest =>
    have hlt : s.m_offset < head.m_buffer.m_bytes.length := h.offset_lt head (by rw [hn]; rfl)
    rw [chainBytes_cons, List.length_append]
    omega

/-- With the offset in place, the account is right exactly if nothing drifted. -/
theorem Fit.balanced_iff {s : SegmentedInputStream} (h : Fit s) : Balanced s ↔ drift s = 0 := by
  have hle := h.offset_le
  simp only [Balanced, drift, unread, List.length_drop]
  omega

/-! ## §2 One segment -/

@[simp] theorem advance_offset (s : SegmentedInputStream) (n : Nat) :
    (s.advance n).m_offset = add32 s.m_offset n := rfl

theorem Linked.removeHead {s : SegmentedInputStream} (h : Linked s) : Linked s.removeHead := by
  cases hn : s.m_nodes with
  | nil =>
    have heq : s.removeHead = s := by simp [SegmentedInputStream.removeHead, hn]
    rw [heq]
    exact h
  | cons head rest =>
    have hrest : ∀ node ∈ rest, node ∈ s.m_nodes := fun node hnode =>
      hn ▸ List.mem_cons_of_mem _ hnode
    have htail := h.tail_eq
    have hnd := h.addr_nodup
    rw [hn] at htail hnd
    refine ⟨?_, ?_, ?_, ?_, ?_, ?_⟩ <;> simp only [SegmentedInputStream.removeHead, hn]
    · exact h.size_lt
    · exact Nat.two_pow_pos 32
    · exact fun node hnode => h.nonempty node (hrest node hnode)
    · cases rest with
      | nil => rfl
      | cons next rest => exact htail
    · exact (List.nodup_cons.mp hnd).2
    · exact fun node hnode => h.addr_lt node (hrest node hnode)

theorem Linked.advance {s : SegmentedInputStream} (h : Linked s) (n : Nat) :
    Linked (s.advance n) := by
  refine ⟨?_, ?_, h.nonempty, h.tail_eq, h.addr_nodup, h.addr_lt⟩
  · simp only [advance_size, sub32]
    omega
  · simp only [advance_offset, add32]
    omega

theorem removeHead_offset {s : SegmentedInputStream} {head : BufferNode} {rest : List BufferNode}
    (hn : s.m_nodes = head :: rest) : s.removeHead.m_offset = 0 := by
  simp [removeHead, hn]

/-- Dropping the head segment puts the offset in place. -/
theorem Linked.fit_removeHead {s : SegmentedInputStream} (h : Linked s) {head : BufferNode}
    {rest : List BufferNode} (hn : s.m_nodes = head :: rest) : Fit s.removeHead := by
  refine ⟨?_, fun _ => removeHead_offset hn⟩
  intro next hnext
  rw [removeHead_offset hn]
  exact h.removeHead.nonempty next (List.mem_of_mem_head? hnext)

theorem drift_cons {s : SegmentedInputStream} {head : BufferNode} {rest : List BufferNode}
    (hn : s.m_nodes = head :: rest) :
    drift s = s.m_size + s.m_offset - head.m_length - (chainBytes rest).length := by
  simp only [drift, hn, chainBytes_cons, List.length_append, BufferNode.m_length]
  omega

theorem drift_removeHead {s : SegmentedInputStream} {head : BufferNode} {rest : List BufferNode}
    (hn : s.m_nodes = head :: rest) :
    drift s.removeHead = s.m_size - (chainBytes rest).length := by
  simp only [drift, removeHead_size, removeHead_nodes, removeHead_offset hn, hn, List.tail_cons]
  omega

/-- Counting bytes of the head segment as read keeps the account. -/
theorem Linked.keeps_advance {s : SegmentedInputStream} (h : Linked s) {head : BufferNode}
    {rest : List BufferNode} (hn : s.m_nodes = head :: rest) {n : Nat}
    (hlt : s.m_offset < head.m_length → add32 s.m_offset n < head.m_length) :
    Keeps s (s.advance n) := by
  refine ⟨h.advance n, ?_, fun hfit => ⟨?_, ?_⟩⟩
  · have := h.size_lt
    have := h.offset_bound
    simp only [drift, advance_nodes, advance_size, advance_offset, add32, sub32]
    omega
  · intro first hfirst
    rw [advance_nodes, hn, List.head?_cons, Option.mem_some_iff] at hfirst
    subst hfirst
    rw [advance_offset]
    exact hlt (hfit.offset_lt head (by rw [hn]; rfl))
  · intro hnil
    rw [advance_nodes, hn] at hnil
    cases hnil

/-- Reading the rest of the head segment and freeing it keeps the account. -/
theorem Linked.keeps_advance_removeHead {s : SegmentedInputStream} (h : Linked s)
    {head : BufferNode} {rest : List BufferNode} (hn : s.m_nodes = head :: rest) {n : Nat}
    (hoff : add32 s.m_offset n = head.m_length) : Keeps s (s.advance n).removeHead := by
  have hn' : (s.advance n).m_nodes = head :: rest := hn
  refine ⟨(h.advance n).removeHead, ?_, fun _ => (h.advance n).fit_removeHead hn'⟩
  have hsize := h.size_lt
  have hlt := h.offset_bound
  rw [drift_removeHead hn', drift_cons hn, advance_size]
  simp only [add32, sub32] at hoff ⊢
  omega

/-! ## §3 Copying -/

private theorem add32_sub32 {h o : Nat} (hh : h < 2 ^ 32) : add32 o (sub32 h o) = h := by
  simp only [add32, sub32]
  omega

/-- What is left to copy is no longer than the rest of the segment. -/
private theorem add32_part_lt {o h length c : Nat} (ho : o < h) (hh : h < 2 ^ 32)
    (hlength : length < 2 ^ 32) (hc : c ≤ length) (hmore : ¬ add32 c (sub32 h o) < length)
    (hend : add32 o (sub32 length c) ≠ h) : add32 o (sub32 length c) < h := by
  rw [sub32_eq (Nat.le_of_lt ho) hh] at hmore
  rw [sub32_eq hc hlength] at hend ⊢
  simp only [add32] at hend hmore ⊢
  omega

private theorem copyLoop_keeps {copying : Bool} {length : Nat} (hlength : length < 2 ^ 32) :
    ∀ (nodes : List BufferNode) (s s' : SegmentedInputStream) (bytesCopied bytesToCopy : Nat)
      (out out' : List UInt8), s.m_nodes = nodes → Linked s →
      (∀ head ∈ nodes.head?, bytesToCopy = sub32 head.m_length s.m_offset) →
      bytesCopied ≤ length →
      copyLoop copying length nodes s bytesCopied bytesToCopy out = .ok (out', s') →
      Keeps s s' := by
  intro nodes
  -- induction on the chain; `bytesCopied ≤ length` is what rules a wrapped sum out at the end
  induction nodes with
  | nil => intro s s' bytesCopied bytesToCopy out out' _ _ _ _ h; cases h
  | cons head rest ih =>
    intro s s' bytesCopied bytesToCopy out out' hs hl hcopy hle h
    have hb := hcopy head rfl
    have hlen : head.m_length < 2 ^ 32 := head.m_buffer.length_lt
    have hoff := hl.offset_bound
    rw [copyLoop] at h
    split at h
    · -- the rest of the segment, then the rest of the chain
      rename_i hmore
      simp only [bind, Except.bind] at h
      split at h
      · cases h
      split at h
      · cases h
      rename_i next hnext
      have hkeep := hl.keeps_advance_removeHead hs (n := bytesToCopy)
        (by rw [hb, add32_sub32 hlen])
      have hnodes : (s.advance bytesToCopy).removeHead.m_nodes = rest := by
        rw [removeHead_nodes, advance_nodes, hs, List.tail_cons]
      refine hkeep.trans (ih _ s' _ _ _ out' hnodes hkeep.linked ?_ (Nat.le_of_lt hmore) h)
      intro first hfirst
      rw [hnext, Option.mem_some_iff] at hfirst
      subst hfirst
      have hlt : next.m_length < 2 ^ 32 := next.m_buffer.length_lt
      rw [removeHead_offset (s := s.advance _) hs]
      exact (sub32_eq (Nat.zero_le _) hlt).symm
    · -- the last part
      rename_i hmore
      simp only [bind, Except.bind, pure, Except.pure] at h
      split at h
      · cases h
      split at h
      · rename_i hend
        rw [advance_offset] at hend
        cases h
        exact hl.keeps_advance_removeHead hs hend
      · rename_i hend
        cases h
        rw [advance_offset] at hend
        rw [hb] at hmore
        -- the part is no longer than the rest of the segment, which it does not use up
        exact hl.keeps_advance hs
          (fun hlt => add32_part_lt hlt hlen hlength hle hmore hend)

/-- **Copying** keeps the account modulo 2^32, in every state. -/
theorem copyBytes_keeps {s s' : SegmentedInputStream} {copying : Bool} {length : Nat}
    {out : List UInt8} (hl : Linked s) (hlength : length < 2 ^ 32)
    (h : s.copyBytes copying length = .ok (out, s')) : Keeps s s' := by
  unfold copyBytes at h
  split at h
  · cases h
  · rename_i head hhead
    refine copyLoop_keeps hlength s.m_nodes s s' 0 _ [] out rfl hl ?_ (Nat.zero_le _) h
    intro first hfirst
    rw [hhead, Option.mem_some_iff] at hfirst
    rw [hfirst]

theorem readBytes_keeps {s s' : SegmentedInputStream} {length : Nat} {rc : ErrorCode}
    {out : List UInt8} (hl : Linked s) (h : s.readBytes length = .ok (rc, out, s')) :
    Keeps s s' := by
  unfold readBytes at h
  simp only [bind, Except.bind, pure, Except.pure] at h
  split at h
  · cases h
  rename_i r hr
  cases h
  exact copyBytes_keeps hl (Nat.lt_of_le_of_lt (Nat.min_le_left _ _) hl.size_lt) hr

theorem skipBytes_keeps {s s' : SegmentedInputStream} {length n : Nat} {rc : ErrorCode}
    (hl : Linked s) (h : s.skipBytes length = .ok (rc, n, s')) : Keeps s s' := by
  unfold skipBytes at h
  simp only [bind, Except.bind, pure, Except.pure] at h
  split at h
  · cases h
  rename_i r hr
  cases h
  exact copyBytes_keeps hl (Nat.lt_of_le_of_lt (Nat.min_le_left _ _) hl.size_lt) hr

theorem skipAndReturn_keeps {s s' : SegmentedInputStream} {offset : Nat} {result rc : ErrorCode}
    (hl : Linked s) (h : s.skipAndReturn offset result = .ok (rc, s')) : Keeps s s' := by
  obtain ⟨-, n, hskip⟩ := skipAndReturn_general h
  exact skipBytes_keeps hl hskip

/-- Appending keeps the account modulo 2^32. -/
theorem appendBuffer_keeps {s s' : SegmentedInputStream} {buffer : Buffer} (hl : Linked s)
    (hne : buffer.m_bytes ≠ []) (h : s.appendBuffer buffer = .ok s') : Keeps s s' := by
  have hpos : 0 < buffer.m_bytes.length := List.length_pos_iff.mpr hne
  rw [appendBuffer_eq hl.tail_eq hl.addr_nodup buffer] at h
  cases h
  refine ⟨⟨?_, hl.offset_bound, ?_, ?_, ?_, ?_⟩, ?_, ?_⟩
  · simp only [add32]
    omega
  · intro node hnode
    rcases List.mem_append.mp hnode with hold | hnew
    · exact hl.nonempty node hold
    · rw [List.mem_singleton.mp hnew]
      exact hpos
  · simp
  · -- the new node has an address of its own
    simp only [List.map_append, List.map_cons, List.map_nil]
    apply List.nodup_append.mpr
    refine ⟨hl.addr_nodup, by simp, ?_⟩
    intro a ha b hb
    obtain ⟨node, hnode, rfl⟩ := List.mem_map.mp ha
    have := hl.addr_lt node hnode
    rw [List.mem_singleton.mp hb]
    omega
  · intro node hnode
    rcases List.mem_append.mp hnode with hold | hnew
    · exact Nat.lt_succ_of_lt (hl.addr_lt node hold)
    · rw [List.mem_singleton.mp hnew]
      exact Nat.lt_succ_self _
  · -- both sides of the account grow by the length of the buffer
    simp only [drift, chainBytes_append, chainBytes_cons, chainBytes_nil, List.append_nil,
      List.length_append, add32]
    omega
  · intro hfit
    refine ⟨?_, fun hnil => absurd hnil (by simp)⟩
    intro head hhead
    cases hn : s.m_nodes with
    | nil =>
      simp only [hn, List.nil_append, List.head?_cons, Option.mem_some_iff] at hhead
      subst hhead
      simp only [hfit.offset_nil hn]
      exact hpos
    | cons first rest =>
      refine hfit.offset_lt head ?_
      simpa only [hn, List.cons_append, List.head?_cons] using hhead

/-! ## §4 When a search drops the head segment -/

/-- The comparisons of the borderline loop at index `i` both succeed. -/
def BorderMatch (pattern : List UInt8) (head next : BufferNode) (i : Nat) : Prop :=
  strncmpEq (head.m_buffer.m_bytes.drop (head.m_length - pattern.length + i)) pattern
      (pattern.length - i) = .ok true ∧
    strncmpEq next.m_buffer.m_bytes (pattern.drop (pattern.length - i)) i = .ok true

/-- The chains whose head segment a search removes as a whole: it is long enough, the pattern is
    not seen in it, there is a next segment, which is long enough for every comparison in the
    borderline area, and none of these succeeds. -/
def DropsHead (pattern : List UInt8) : List BufferNode → Prop
  | head :: next :: _ =>
    pattern.length ≤ head.m_length ∧ Unseen head.m_buffer.m_bytes pattern ∧
      ∀ i < pattern.length, i ≤ next.m_length ∧ ¬ BorderMatch pattern head next i
  | _ => False

theorem suffixLoop_total (head : BufferNode) {pattern : List UInt8} :
    ∀ (remaining offset : Nat), offset + remaining = head.m_length →
      remaining ≤ pattern.length → ∃ o, suffixLoop head pattern remaining offset = .ok o := by
  intro remaining
  induction remaining with
  | zero => exact fun offset _ _ => ⟨offset, rfl⟩
  | succ remaining ih =>
    intro offset hsum hle
    obtain ⟨o, ho⟩ := ih (offset + 1) (by omega) (by omega)
    have hlen : head.m_buffer.m_bytes.length = head.m_length := rfl
    obtain ⟨r, hr⟩ := @strncmpEq_total (head.m_buffer.m_bytes.drop offset) pattern (remaining + 1)
      (by rw [List.length_drop]; omega) hle
    simp only [suffixLoop, hr, ho, bind, Except.bind, pure, Except.pure]
    cases r with
    | true => exact ⟨offset, rfl⟩
    | false => exact ⟨o, rfl⟩

/-- The borderline loop stops at the first index that is not within the next segment or matches,
    and finds nothing if there is none. -/
theorem borderLoop_cases (head next : BufferNode) {pattern : List UInt8} :
    ∀ (remaining offset : Nat), offset + remaining = head.m_length →
      remaining ≤ pattern.length → pattern.length ≤ head.m_length →
      (∃ i, pattern.length - remaining ≤ i ∧ i < pattern.length ∧
        (∀ j, pattern.length - remaining ≤ j → j < i →
          j ≤ next.m_length ∧ ¬ BorderMatch pattern head next j) ∧
        (next.m_length < i ∧ borderLoop head next pattern remaining offset =
            .ok (.tooShort (head.m_length - pattern.length + i)) ∨
          i ≤ next.m_length ∧ BorderMatch pattern head next i ∧
            borderLoop head next pattern remaining offset =
              .ok (.found (head.m_length - pattern.length + i)))) ∨
      (∀ j, pattern.length - remaining ≤ j → j < pattern.length →
        j ≤ next.m_length ∧ ¬ BorderMatch pattern head next j) ∧
        borderLoop head next pattern remaining offset = .ok .notFound := by
  -- induction on the number of indices that are left
  intro remaining
  induction remaining with
  | zero =>
    intro offset _ _ _
    exact .inr ⟨fun j h₁ h₂ => absurd h₂ (by omega), rfl⟩
  | succ remaining ih =>
    intro offset hsum hle hhead
    obtain ⟨i₀, hi₀⟩ : ∃ i₀, i₀ = pattern.length - (remaining + 1) := ⟨_, rfl⟩
    have hfirst : pattern.length - i₀ = remaining + 1 := by omega
    have hoffset : head.m_length - pattern.length + i₀ = offset := by omega
    have hlen : head.m_buffer.m_bytes.length = head.m_length := rfl
    have hlen' : next.m_buffer.m_bytes.length = next.m_length := rfl
    have hnone : ∀ j, i₀ ≤ j → j < i₀ → j ≤ next.m_length ∧ ¬ BorderMatch pattern head next j :=
      fun j h₁ h₂ => absurd h₁ (by omega)
    rw [borderLoop]
    simp only [← hi₀]
    -- the rest of the pattern does not fit into the next segment
    by_cases hshort : next.m_length < i₀
    · refine .inl ⟨i₀, Nat.le_refl _, by omega, hnone, .inl ⟨hshort, ?_⟩⟩
      rw [hoffset, if_pos hshort]
      rfl
    obtain ⟨a, ha⟩ := @strncmpEq_total (head.m_buffer.m_bytes.drop offset) pattern (remaining + 1)
      (by rw [List.length_drop]; omega) hle
    obtain ⟨b, hb⟩ := @strncmpEq_total next.m_buffer.m_bytes (pattern.drop (remaining + 1)) i₀
      (by omega) (by rw [List.length_drop]; omega)
    have hmatch : BorderMatch pattern head next i₀ ↔ a = true ∧ b = true := by
      unfold BorderMatch
      rw [hoffset, hfirst, ha, hb]
      simp only [Except.ok.injEq]
    rw [if_neg hshort, ha]
    simp only [bind, Except.bind, pure, Except.pure, hb]
    -- both parts of the pattern compare equal
    by_cases hmiss : BorderMatch pattern head next i₀
    · obtain ⟨rfl, rfl⟩ := hmatch.mp hmiss
      refine .inl ⟨i₀, Nat.le_refl _, by omega, hnone, .inr ⟨by omega, hmiss, ?_⟩⟩
      rw [hoffset]
      rfl
    · -- the loop goes on with the indices after `i₀`
      have hgo : ∀ j, i₀ ≤ j →
          (pattern.length - remaining ≤ j → j ≤ next.m_length ∧ ¬ BorderMatch pattern head next j) →
          j ≤ next.m_length ∧ ¬ BorderMatch pattern head next j := by
        intro j hj hrest
        by_cases heq : j = i₀
        · subst heq
          exact ⟨by omega, hmiss⟩
        · exact hrest (by omega)
      have hrec := ih (offset + 1) (by omega) (by omega) hhead
      have hstep : (if a = true then
            if b = true then Except.ok (BorderSearch.found offset)
            else borderLoop head next pattern remaining (offset + 1)
          else borderLoop head next pattern remaining (offset + 1)) =
          borderLoop head next pattern remaining (offset + 1) := by
        split
        · split
          · exact absurd (hmatch.mpr ⟨‹_›, ‹_›⟩) hmiss
          · rfl
        · rfl
      rw [hstep]
      refine hrec.imp ?_ ?_
      · rintro ⟨i, h₁, h₂, hbefore, hend⟩
        exact ⟨i, by omega, h₂, fun j hj hlt => hgo j hj fun hj' => hbefore j hj' hlt, hend⟩
      · rintro ⟨hall, hrun⟩
        exact ⟨fun j hj hlt => hgo j hj fun hj' => hall j hj' hlt, hrun⟩

theorem DropsHead.borderLoop_eq {pattern : List UInt8} {head next : BufferNode}
    {rest : List BufferNode} (h : DropsHead pattern (head :: next :: rest)) :
    borderLoop head next pattern pattern.length (head.m_length - pattern.length) =
      .ok .notFound := by
  obtain ⟨hlen, -, hborder⟩ := h
  rcases borderLoop_cases head next pattern.length (head.m_length - pattern.length) (by omega)
    (Nat.le_refl _) hlen with ⟨i, -, hi, -, hshort | hfound⟩ | ⟨-, hr⟩
  · exact absurd (hborder i hi).1 (by omega)
  · exact absurd hfound.2.1 (hborder i hi).2
  · exact hr

/-- A round of `searchBytes` that drops the head segment goes on with the rest. -/
theorem searchLoop_of_drops {pattern : List UInt8} {head : BufferNode} {rest : List BufferNode}
    (h : DropsHead pattern (head :: rest)) (s : SegmentedInputStream) :
    searchLoop pattern (head :: rest) s = searchLoop pattern rest s.removeHead := by
  cases rest with
  | nil => cases h
  | cons next rest =>
    have hr := h.borderLoop_eq
    obtain ⟨hlen, hmiss, -⟩ := h
    rw [searchLoop, if_neg (by omega),
      (commutilStrnstr_eq_neg_iff head.m_buffer.length_lt).mpr hmiss]
    simp only [bind, Except.bind]
    rw [if_neg (by omega), List.head?_cons]
    simp only [hr]

/-- The answer of a search that stops in the head segment: the result, and the number of bytes
    to skip, which is counted from the start of the segment. -/
def HeadAnswer (pattern : List UInt8) : List BufferNode → ErrorCode → Nat → Prop
  | [], _, _ => False
  | head :: rest, result, offset =>
    pattern.length ≤ head.m_length ∧
      (Seen head.m_buffer.m_bytes pattern offset ∧ result = .ok ∨
        Unseen head.m_buffer.m_bytes pattern ∧
          match rest.head? with
          | none =>
            suffixLoop head pattern pattern.length (head.m_length - pattern.length) =
              .ok offset ∧ result = .endOfStream
          | some next =>
            borderLoop head next pattern pattern.length (head.m_length - pattern.length) =
                .ok (.tooShort offset) ∧ result = .endOfStream ∨
              borderLoop head next pattern pattern.length (head.m_length - pattern.length) =
                .ok (.found offset) ∧ result = .ok)

/-- Every other round answers: the segment is too short, or there is an answer for it. -/
theorem searchLoop_stops {pattern : List UInt8} {head : BufferNode} {rest : List BufferNode}
    (h : ¬ DropsHead pattern (head :: rest)) (s : SegmentedInputStream) :
    head.m_length < pattern.length ∧
        searchLoop pattern (head :: rest) s = .ok (.endOfStream, s) ∨
      ∃ result offset, HeadAnswer pattern (head :: rest) result offset ∧
        (searchLoop pattern (head :: rest) s = s.skipAndReturn offset result ∨
          offset = 0 ∧ result = .ok ∧ searchLoop pattern (head :: rest) s = .ok (.ok, s)) := by
  rw [searchLoop]
  by_cases hshort : head.m_length < pattern.length
  · exact .inl ⟨hshort, if_pos hshort⟩
  have hlong : pattern.length ≤ head.m_length := Nat.le_of_not_lt hshort
  refine .inr ?_
  rw [if_neg hshort]
  obtain ⟨res, hres, hcases⟩ := commutilStrnstr_spec _ pattern head.m_buffer.length_lt
  rw [hres]
  simp only [bind, Except.bind, pure, Except.pure]
  rcases hcases with ⟨k, rfl, hseen⟩ | ⟨rfl, hunseen⟩
  · refine ⟨.ok, k, ⟨hlong, .inl ⟨hseen, rfl⟩⟩, ?_⟩
    rw [if_pos (Int.natCast_nonneg k)]
    cases k with
    | zero => exact .inr ⟨rfl, rfl, rfl⟩
    | succ k => exact .inl (if_pos (by omega))
  rw [if_neg (by omega)]
  cases rest with
  | nil =>
    obtain ⟨o, ho⟩ := @suffixLoop_total head pattern pattern.length
      (head.m_length - pattern.length) (by omega) (Nat.le_refl _)
    exact ⟨.endOfStream, o, ⟨hlong, .inr ⟨hunseen, ho, rfl⟩⟩, .inl (by
      simp only [List.head?_nil, ho])⟩
  | cons next rest =>
    rcases @borderLoop_cases head next pattern pattern.length (head.m_length - pattern.length)
      (by omega) (Nat.le_refl _) hlong with
      ⟨i, -, -, -, ⟨-, hr⟩ | ⟨-, -, hr⟩⟩ | ⟨hnone, -⟩
    · exact ⟨.endOfStream, _, ⟨hlong, .inr ⟨hunseen, .inl ⟨hr, rfl⟩⟩⟩, .inl (by
        simp only [List.head?_cons, hr])⟩
    · exact ⟨.ok, _, ⟨hlong, .inr ⟨hunseen, .inr ⟨hr, rfl⟩⟩⟩, .inl (by
        simp only [List.head?_cons, hr])⟩
    · exact absurd ⟨hlong, hunseen, fun i hi => hnone i (by omega) hi⟩ h

/-- An answer consumes bytes through `skipBytes` only. -/
theorem searchLoop_of_not_drops {pattern : List UInt8} {head : BufferNode}
    {rest : List BufferNode} (h : ¬ DropsHead pattern (head :: rest)) (s : SegmentedInputStream) :
    (∃ rc, searchLoop pattern (head :: rest) s = .ok (rc, s)) ∨
      ∃ offset result,
        searchLoop pattern (head :: rest) s = s.skipAndReturn offset result := by
  rcases searchLoop_stops h s with ⟨-, hrun⟩ | ⟨result, offset, -, hrun | ⟨-, -, hrun⟩⟩
  · exact .inl ⟨_, hrun⟩
  · exact .inr ⟨offset, result, hrun⟩
  · exact .inl ⟨_, hrun⟩

/-! ## §5 The account over a search -/

/-- A search keeps the account modulo 2^32, or it puts the offset in place. -/
theorem searchLoop_linked {pattern : List UInt8} :
    ∀ (nodes : List BufferNode) (s s' : SegmentedInputStream) (rc : ErrorCode),
      s.m_nodes = nodes → Linked s → searchLoop pattern nodes s = .ok (rc, s') →
      Keeps s s' ∨ Linked s' ∧ Fit s' := by
  intro nodes
  induction nodes with
  | nil =>
    intro s s' rc hs hl h
    cases h
    exact .inl (.refl hl)
  | cons head rest ih =>
    intro s s' rc hs hl h
    by_cases hdrop : DropsHead pattern (head :: rest)
    · rw [searchLoop_of_drops hdrop] at h
      have hnodes : s.removeHead.m_nodes = rest := by rw [removeHead_nodes, hs, List.tail_cons]
      have hfit := hl.fit_removeHead hs
      rcases ih _ s' rc hnodes hl.removeHead h with hkeep | hfit'
      · exact .inr ⟨hkeep.linked, hkeep.fit hfit⟩
      · exact .inr hfit'
    · rcases searchLoop_of_not_drops hdrop s with ⟨rc', hrun⟩ | ⟨offset, result, hrun⟩
      · rw [hrun] at h
        cases h
        exact .inl (.refl hl)
      · rw [hrun] at h
        exact .inl (skipAndReturn_keeps hl h)

/-- With the offset in place, a search raises the drift by the bytes it drops; it never drops
    the last segment. -/
private theorem searchLoop_drift {pattern : List UInt8} :
    ∀ (nodes : List BufferNode) (s s' : SegmentedInputStream) (rc : ErrorCode),
      s.m_nodes = nodes → nodes ≠ [] → Linked s → Fit s →
      searchLoop pattern nodes s = .ok (rc, s') →
      Fit s' ∧ ∃ dropped : Nat, dropped + s.m_offset < (chainBytes nodes).length ∧
        (2 ^ 32 : Int) ∣ drift s' - drift s - dropped := by
  intro nodes
  induction nodes with
  | nil => intro s s' rc _ hne; exact absurd rfl hne
  | cons head rest ih =>
    intro s s' rc hs _ hl hfit h
    have hlt : s.m_offset < head.m_length := hfit.offset_lt head (by rw [hs]; rfl)
    have hchain : (chainBytes (head :: rest)).length =
        head.m_length + (chainBytes rest).length := by
      rw [chainBytes_cons, List.length_append]
      rfl
    by_cases hdrop : DropsHead pattern (head :: rest)
    · have hne : rest ≠ [] := by
        rintro rfl
        exact hdrop
      rw [searchLoop_of_drops hdrop] at h
      have hnodes : s.removeHead.m_nodes = rest := by rw [removeHead_nodes, hs, List.tail_cons]
      obtain ⟨hfit', dropped, hlt', hdvd⟩ :=
        ih _ s' rc hnodes hne hl.removeHead (hl.fit_removeHead hs) h
      rw [removeHead_offset hs, Nat.add_zero] at hlt'
      refine ⟨hfit', head.m_length - s.m_offset + dropped, by omega, ?_⟩
      rw [drift_removeHead hs] at hdvd
      rw [drift_cons hs]
      omega
    · -- nothing is dropped
      have hkeep : Keeps s s' := by
        rcases searchLoop_of_not_drops hdrop s with ⟨rc', hrun⟩ | ⟨offset, result, hrun⟩
        · rw [hrun] at h
          cases h
          exact .refl hl
        · rw [hrun] at h
          exact skipAndReturn_keeps hl h
      refine ⟨hkeep.fit hfit, 0, by omega, ?_⟩
      simpa using hkeep.drift_dvd

/-- The states of a stream that is used through its operations.  The transport hands over
    non-empty buffers only; peeking changes nothing. -/
inductive Reachable : SegmentedInputStream → Prop
  | new (byteOrder : ByteOrder) (base : Nat) (log : List Buffer) :
      Reachable (SegmentedInputStream.new byteOrder base log)
  | appendBuffer {s s' : SegmentedInputStream} {buffer : Buffer} (hr : Reachable s)
      (hne : buffer.m_bytes ≠ []) (h : s.appendBuffer buffer = .ok s') : Reachable s'
  | readBytes {s s' : SegmentedInputStream} {length : Nat} {rc : ErrorCode} {out : List UInt8}
      (hr : Reachable s) (h : s.readBytes length = .ok (rc, out, s')) : Reachable s'
  | skipBytes {s s' : SegmentedInputStream} {length n : Nat} {rc : ErrorCode}
      (hr : Reachable s) (h : s.skipBytes length = .ok (rc, n, s')) : Reachable s'
  | searchBytes {s s' : SegmentedInputStream} {pattern : List UInt8} {rc : ErrorCode}
      (hr : Reachable s) (h : s.searchBytes pattern = .ok (rc, s')) : Reachable s'
  | reset {s : SegmentedInputStream} (hr : Reachable s) : Reachable s.reset

/-- What holds of every reachable state, also after a search has lost count: where the offset is
    out of place (`reset` leaves it), the account is wrong modulo 2^32. -/
structure Accounted (s : SegmentedInputStream) : Prop where
  linked : Linked s
  fit_or : Fit s ∨ ¬ (2 ^ 32 : Int) ∣ drift s

theorem Accounted.keeps {s s' : SegmentedInputStream} (h : Accounted s) (hk : Keeps s s') :
    Accounted s' := by
  refine ⟨hk.linked, h.fit_or.imp hk.fit ?_⟩
  have := hk.drift_dvd
  omega

theorem Accounted.reset {s : SegmentedInputStream} (h : Accounted s) : Accounted s.reset := by
  have hoff := h.linked.offset_bound
  refine ⟨⟨Nat.two_pow_pos 32, hoff, ?_, rfl, List.nodup_nil, ?_⟩, ?_⟩
  · intro node hnode
    cases hnode
  · intro node hnode
    cases hnode
  · by_cases hzero : s.m_offset = 0
    · refine .inl ⟨?_, fun _ => hzero⟩
      intro head hhead
      cases hhead
    · refine .inr ?_
      show ¬ (2 ^ 32 : Int) ∣ ((0 : Nat) : Int) + s.m_offset - ([] : List UInt8).length
      simp only [List.length_nil]
      omega

theorem Reachable.accounted {s : SegmentedInputStream} (h : Reachable s) : Accounted s := by
  induction h with
  | new byteOrder base log =>
    exact ⟨(new_inv byteOrder base log).linked, .inl (new_inv byteOrder base log).fit⟩
  | appendBuffer _ hne h ih => exact ih.keeps (appendBuffer_keeps ih.linked hne h)
  | readBytes _ h ih => exact ih.keeps (readBytes_keeps ih.linked h)
  | skipBytes _ h ih => exact ih.keeps (skipBytes_keeps ih.linked h)
  | searchBytes _ h ih =>
    rcases searchLoop_linked _ _ _ _ rfl ih.linked h with hkeep | ⟨hl, hfit⟩
    · exact ih.keeps hkeep
    · exact ⟨hl, .inl hfit⟩
  | reset _ ih => exact ih.reset

/-- A reachable stream whose account is right satisfies the representation invariant, or it has
    size zero and an offset beyond its last segment. -/
theorem Accounted.inv_or_drained {s : SegmentedInputStream} (h : Accounted s)
    (hb : Balanced s) : Inv s ∨ s.m_size = 0 ∧ (chainBytes s.m_nodes).length < s.m_offset := by
  rcases h.fit_or with hfit | hdvd
  · exact .inl (h.linked.inv hfit hb)
  · refine .inr ?_
    have hne : drift s ≠ 0 := by
      intro hzero
      rw [hzero] at hdvd
      exact hdvd (Int.dvd_zero _)
    simp only [Balanced, unread, List.length_drop] at hb
    simp only [drift] at hne
    omega

/-! ## §6 When the account is kept -/

/-- No call walks past the last segment of the stream. -/
def StaysInside (s : SegmentedInputStream) : Prop :=
  s.m_size ≠ 0 → ∀ length,
    (∃ out, s.peekBytes length = .ok out) ∧ (∃ out, s.readBytes length = .ok out) ∧
      ∃ out, s.skipBytes length = .ok out

theorem Inv.staysInside {s : SegmentedInputStream} (h : Inv s) : s.StaysInside := by
  intro hsize length
  have hne : s.unread ≠ [] := by
    rw [h.size_eq] at hsize
    exact List.ne_nil_of_length_pos (Nat.pos_of_ne_zero hsize)
  obtain ⟨s₁, hread, -⟩ := readBytes_spec h hne length
  obtain ⟨s₂, hskip, -⟩ := skipBytes_spec h hne length
  exact ⟨⟨_, peekBytes_spec h hne length⟩, ⟨_, hread⟩, ⟨_, hskip⟩⟩

/-- A search that drops no segment keeps a stream with a right account as it should be. -/
private theorem searchBytes_of_not_drops {pattern : List UInt8} {s : SegmentedInputStream}
    (h : Accounted s) (hb : Balanced s) (hdrop : ¬ DropsHead pattern s.m_nodes) :
    ∃ rc s', s.searchBytes pattern = .ok (rc, s') ∧ Balanced s' ∧ s'.StaysInside := by
  unfold searchBytes
  rcases h.inv_or_drained hb with hinv | ⟨hsize, hoff⟩
  · cases hn : s.m_nodes with
    | nil => exact ⟨.endOfStream, s, rfl, hb, hinv.staysInside⟩
    | cons head rest =>
      rw [hn] at hdrop
      rcases searchLoop_of_not_drops hdrop s with ⟨rc, hrun⟩ | ⟨offset, result, hrun⟩
      · exact ⟨rc, s, hrun, hb, hinv.staysInside⟩
      · have hne : s.unread ≠ [] := fun hnil => by
          rw [hinv.nodes_eq_nil_iff.mpr hnil] at hn
          cases hn
        obtain ⟨s', hskip, hcons⟩ := skipAndReturn_spec hinv hne offset result
        exact ⟨result, s', hrun.trans hskip, hcons.inv.size_eq, hcons.inv.staysInside⟩
  · -- nothing to skip: `skipBytes` leaves the stream alone
    have hstays : s.StaysInside := fun hne => absurd hsize hne
    cases hn : s.m_nodes with
    | nil => exact ⟨.endOfStream, s, rfl, hb, hstays⟩
    | cons head rest =>
      rw [hn] at hdrop
      rcases searchLoop_of_not_drops hdrop s with ⟨rc, hrun⟩ | ⟨offset, result, hrun⟩
      · exact ⟨rc, s, hrun, hb, hstays⟩
      · refine ⟨result, s, hrun.trans ?_, hb, hstays⟩
        have hlt := h.linked.offset_bound
        have hhead : s.m_offset ≠ head.m_length := by
          rw [hn, chainBytes_cons, List.length_append] at hoff
          unfold BufferNode.m_length
          omega
        have hadv : s.advance 0 = s := by
          have hsub : sub32 s.m_size 0 = s.m_size := by rw [hsize]; rfl
          have hadd : add32 s.m_offset 0 = s.m_offset := add32_eq (by omega)
          simp only [SegmentedInputStream.advance, hsub, hadd]
        have hcopy : s.copyBytes false 0 = .ok ([], s) := by
          have hzero : sub32 0 0 = 0 := rfl
          unfold copyBytes
          rw [hn, List.head?_cons]
          dsimp only
          rw [copyLoop, if_neg (Nat.not_lt_zero _)]
          simp only [hzero, hadv, if_neg hhead, BufferNode.copyPart, bind, Except.bind, pure,
            Except.pure, Bool.false_eq_true, if_false]
        simp only [skipAndReturn, skipBytes, hsize, Nat.zero_min, hcopy, bind, Except.bind, pure,
          Except.pure]
        rfl

/-- A search that drops the head segment leaves the account wrong. -/
private theorem not_balanced_of_drops {pattern : List UInt8} {s s' : SegmentedInputStream}
    {rc : ErrorCode} (h : Accounted s) (hb : Balanced s) (hdrop : DropsHead pattern s.m_nodes)
    (hrun : s.searchBytes pattern = .ok (rc, s')) : ¬ Balanced s' := by
  unfold searchBytes at hrun
  cases hn : s.m_nodes with
  | nil =>
    rw [hn] at hdrop
    exact absurd hdrop id
  | cons head rest =>
    have hne : rest ≠ [] := by
      rintro rfl
      rw [hn] at hdrop
      exact hdrop
    rw [hn] at hdrop hrun
    rw [searchLoop_of_drops hdrop] at hrun
    have hnodes : s.removeHead.m_nodes = rest := by rw [removeHead_nodes, hn, List.tail_cons]
    obtain ⟨hfit', dropped, hlt, hdvd⟩ := searchLoop_drift rest _ s' rc hnodes hne
      h.linked.removeHead (h.linked.fit_removeHead hn) hrun
    rw [removeHead_offset hn, Nat.add_zero] at hlt
    rw [drift_removeHead hn] at hdvd
    rw [hfit'.balanced_iff]
    intro hzero
    rw [hzero] at hdvd
    have hsize := h.linked.size_lt
    rcases h.inv_or_drained hb with hinv | ⟨hsize0, hoff⟩
    · -- the account is too high by the unread bytes of the dropped segments
      obtain ⟨hlt', hu⟩ := hinv.unread_cons hn
      have hsize_eq := hinv.size_eq
      rw [hu, List.length_append, List.length_drop] at hsize_eq
      unfold BufferNode.m_length at hlt'
      omega
    · -- the account stays zero, and the last segment has unread bytes
      have hbound := h.linked.offset_bound
      rw [hn, chainBytes_cons, List.length_append] at hoff
      omega

/-- **The size account of `searchBytes`**: in every reachable state whose account is right, a
    search returns, keeps the account and leaves no call that walks past the last segment,
    exactly if it does not drop the head segment.  The `int`s of the search are to stay in their
    range. -/
theorem search_keeps_account_iff {s : SegmentedInputStream} (hr : Reachable s)
    (hb : Balanced s) (pattern : List UInt8)
    (_hindex : ∀ node ∈ s.m_nodes, IndexInRange node.m_length pattern.length) :
    (∃ rc s', s.searchBytes pattern = .ok (rc, s') ∧ Balanced s' ∧ s'.StaysInside) ↔
      ¬ DropsHead pattern s.m_nodes := by
  constructor
  · rintro ⟨rc, s', hrun, hb', -⟩ hdrop
    exact not_balanced_of_drops hr.accounted hb hdrop hrun hb'
  · exact searchBytes_of_not_drops hr.accounted hb

/-- Four bytes `A` and four bytes `B`, appended one after the other. -/
def twoSegments : SegmentedInputStream where
  m_byteOrder := .networkOrder
  m_nodes := [⟨0, ⟨100, [65, 65, 65, 65], by decide⟩⟩, ⟨1, ⟨200, [66, 66, 66, 66], by decide⟩⟩]
  m_tail := some 1
  m_offset := 0
  m_size := 8
  m_nextAddr := 2
  m_deallocated := []

private theorem twoSegments_reachable : Reachable twoSegments :=
  @Reachable.appendBuffer _ _ ⟨200, [66, 66, 66, 66], by decide⟩
    (@Reachable.appendBuffer _ _ ⟨100, [65, 65, 65, 65], by decide⟩ (.new .networkOrder 0 [])
      (by decide) rfl) (by decide) rfl

/-- The pattern `AB` lies across the two segments: nothing is dropped. -/
theorem search_keeps_account_across :
    ∃ rc s', twoSegments.searchBytes [65, 66] = .ok (rc, s') ∧ Balanced s' ∧ s'.StaysInside := by
  refine (search_keeps_account_iff twoSegments_reachable rfl [65, 66] (by decide)).mpr ?_
  rintro ⟨-, -, hborder⟩
  exact (hborder 1 (by decide)).2 ⟨rfl, rfl⟩

/-- The pattern `XY` is in neither segment.  The search drops both, and `m_size` still counts
    the first: the next peek follows a null pointer. -/
theorem search_loses_account :
    Reachable twoSegments ∧ Balanced twoSegments ∧
      ∃ s', twoSegments.searchBytes [88, 89] = .ok (.endOfStream, s') ∧ s'.m_size = 4 ∧
        s'.unread = [] ∧ s'.peekBytes 1 = .error .nullDereference :=
  ⟨twoSegments_reachable, rfl, _, rfl, rfl, rfl, rfl⟩

end Commutil.Io.SegmentedInputStream
