import Commutil.Io.StreamProgress

/-!
# Who Has the Buffers of a Stream

A segmented stream takes over every buffer that is appended to it and gives it back through
`BufferDeallocator::deallocateBuffer`.  `held` lists the buffers that were given back, in the
order of the calls, and behind them those that are still in the chain.

`GivesBack` says that an operation only moves the border between the two.  That is so in every
state, also in one whose offset or size is wrong: all that an append needs is that `m_tail` is the
last node (`Chained`), and no operation takes that away.
-/

namespace Commutil.Io.SegmentedInputStream

open Commutil.Common

/-! ## §1 The chain -/

/-- The links of the chain are in order, whatever offset and size say. -/
structure Chained (s : SegmentedInputStream) : Prop where
  tail_eq : s.m_tail = s.m_nodes.getLast?.map BufferNode.m_addr
  addr_nodup : (s.m_nodes.map BufferNode.m_addr).Nodup
  addr_lt : ∀ node ∈ s.m_nodes, node.m_addr < s.m_nextAddr

/-- The buffers that were given back, then those in the chain. -/
def held (s : SegmentedInputStream) : List Buffer :=
  s.m_deallocated ++ s.m_nodes.map BufferNode.m_buffer

/-- From `s` to `s'` nothing happened to the buffers but that some were given back. -/
structure GivesBack (s s' : SegmentedInputStream) : Prop where
  held_eq : s'.held = s.held
  chained : Chained s → Chained s'

theorem GivesBack.refl (s : SegmentedInputStream) : GivesBack s s := ⟨rfl, id⟩

theorem GivesBack.trans {s₁ s₂ s₃ : SegmentedInputStream} (h₁ : GivesBack s₁ s₂)
    (h₂ : GivesBack s₂ s₃) : GivesBack s₁ s₃ :=
  ⟨h₂.held_eq.trans h₁.held_eq, fun h => h₂.chained (h₁.chained h)⟩

theorem new_chained (order : ByteOrder) (base : Nat) (log : List Buffer) :
    Chained (new order base log) :=
  ⟨rfl, by simp [new], nofun⟩

@[simp] theorem held_new (order : ByteOrder) (base : Nat) (log : List Buffer) :
    (new order base log).held = log := by simp [held, new]

/-! ## §2 The operations -/

/-- **Appending** adds the buffer behind all others. -/
theorem Chained.append {s s' : SegmentedInputStream} {buffer : Buffer} (hc : Chained s)
    (h : s.appendBuffer buffer = .ok s') : Chained s' ∧ s'.held = s.held ++ [buffer] := by
  rw [appendBuffer_eq hc.tail_eq hc.addr_nodup buffer] at h
  cases h
  refine ⟨⟨by simp, ?_, ?_⟩, by simp [held]⟩
  · -- the new address is above all others
    simp only [List.map_append, List.map_cons, List.map_nil]
    apply List.nodup_append.mpr
    refine ⟨hc.addr_nodup, by simp, ?_⟩
    intro a ha b hb
    obtain ⟨node, hnode, rfl⟩ := List.mem_map.mp ha
    have := hc.addr_lt node hnode
    rw [List.mem_singleton.mp hb]
    omega
  · intro node hnode
    rcases List.mem_append.mp hnode with hold | hnew
    · exact Nat.lt_succ_of_lt (hc.addr_lt node hold)
    · rw [List.mem_singleton.mp hnew]
      exact Nat.lt_succ_self _

/-- `reset` gives everything back. -/
theorem givesBack_reset (s : SegmentedInputStream) : GivesBack s s.reset :=
  ⟨by simp [held, reset], fun _ => ⟨rfl, by simp [reset], nofun⟩⟩

theorem givesBack_advance (s : SegmentedInputStream) (n : Nat) : GivesBack s (s.advance n) :=
  ⟨rfl, fun h => ⟨h.tail_eq, h.addr_nodup, h.addr_lt⟩⟩

/-- The head goes back to its owner, and the rest of the chain stays linked. -/
theorem givesBack_removeHead (s : SegmentedInputStream) : GivesBack s s.removeHead := by
  cases hn : s.m_nodes with
  | nil => simpa [removeHead, hn] using GivesBack.refl s
  | cons head rest =>
    refine ⟨by simp [held, removeHead, hn], fun hc => ⟨?_, ?_, ?_⟩⟩
    · have htail := hc.tail_eq
      rw [hn] at htail
      -- the last node stays the last one, unless it was the head
      cases rest <;> simp_all [removeHead]
    · have hnodup := hc.addr_nodup
      simp only [hn, List.map_cons, List.nodup_cons] at hnodup
      simpa [removeHead, hn] using hnodup.2
    · intro node hnode
      have hmem : node ∈ rest := by simpa [removeHead, hn] using hnode
      have hlt := hc.addr_lt node (by simp [hn, hmem])
      simpa [removeHead, hn] using hlt

private theorem copyLoop_givesBack {copying : Bool} {length : Nat} (nodes : List BufferNode)
    (s s' : SegmentedInputStream) (bytesCopied bytesToCopy : Nat) (out out' : List UInt8)
    (h : copyLoop copying length nodes s bytesCopied bytesToCopy out = .ok (out', s')) :
    GivesBack s s' := by
  induction nodes generalizing s bytesCopied bytesToCopy out with
  | nil => cases h
  | cons head rest ih =>
    rw [copyLoop] at h
    split at h
    · -- a whole segment, then the rest of the chain
      simp only [bind, Except.bind] at h
      split at h
      · cases h
      split at h
      · cases h
      have hrest := ih _ _ _ _ h
      exact ((givesBack_advance s bytesToCopy).trans (givesBack_removeHead _)).trans hrest
    · -- the last part
      simp only [bind, Except.bind, pure, Except.pure] at h
      split at h
      · cases h
      split at h
      · cases h
        exact (givesBack_advance s _).trans (givesBack_removeHead _)
      · cases h
        exact givesBack_advance s _

theorem copyBytes_givesBack {s s' : SegmentedInputStream} {copying : Bool} {length : Nat}
    {out : List UInt8} (h : s.copyBytes copying length = .ok (out, s')) : GivesBack s s' := by
  unfold copyBytes at h
  split at h
  · cases h
  · exact copyLoop_givesBack _ _ _ _ _ _ _ h

theorem readBytes_givesBack {s s' : SegmentedInputStream} {length : Nat} {rc : ErrorCode}
    {out : List UInt8} (h : s.readBytes length = .ok (rc, out, s')) : GivesBack s s' := by
  simp only [readBytes, bind, Except.bind, pure, Except.pure] at h
  split at h
  · cases h
  · rename_i r hcopy
    cases h
    exact copyBytes_givesBack hcopy

theorem skipBytes_givesBack {s s' : SegmentedInputStream} {length n : Nat} {rc : ErrorCode}
    (h : s.skipBytes length = .ok (rc, n, s')) : GivesBack s s' := by
  simp only [skipBytes, bind, Except.bind, pure, Except.pure] at h
  split at h
  · cases h
  · rename_i r hcopy
    cases h
    exact copyBytes_givesBack hcopy

theorem skipAndReturn_givesBack {s s' : SegmentedInputStream} {offset : Nat}
    {result rc : ErrorCode} (h : s.skipAndReturn offset result = .ok (rc, s')) :
    GivesBack s s' := by
  obtain ⟨-, n, hskip⟩ := skipAndReturn_general h
  exact skipBytes_givesBack hskip

private theorem searchLoop_givesBack {pattern : List UInt8} (nodes : List BufferNode)
    (s s' : SegmentedInputStream) (rc : ErrorCode)
    (h : searchLoop pattern nodes s = .ok (rc, s')) : GivesBack s s' := by
  induction nodes generalizing s with
  | nil =>
    cases h
    exact .refl _
  | cons head rest ih =>
    simp only [searchLoop, bind, Except.bind, pure, Except.pure] at h
    split at h
    · cases h
      exact .refl _
    split at h
    · cases h
    split at h
    · -- found in this segment
      split at h
      · exact skipAndReturn_givesBack h
      · cases h
        exact .refl _
    split at h
    · -- the last segment
      split at h
      · cases h
      · exact skipAndReturn_givesBack h
    · split at h
      · cases h
      split at h
      · exact skipAndReturn_givesBack h
      · exact skipAndReturn_givesBack h
      · -- the segment goes back as a whole
        exact (givesBack_removeHead s).trans (ih _ h)

/-- **Searching** gives back the segments that it passes, and no others. -/
theorem searchBytes_givesBack {s s' : SegmentedInputStream} {pattern : List UInt8}
    {rc : ErrorCode} (h : s.searchBytes pattern = .ok (rc, s')) : GivesBack s s' :=
  searchLoop_givesBack _ _ _ _ h

end Commutil.Io.SegmentedInputStream
