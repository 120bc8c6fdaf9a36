import Commutil.Io.SearchAccount

/-!
# The Contract of `searchBytes`

`segmented_input_stream.h` promises that `searchBytes` finds the first occurrence of a
pattern in the unread bytes and drops what precedes it, and that without an occurrence no
byte is dropped that a later buffer could complete to one.

The search goes from segment to segment.  It sees an occurrence that lies in one segment
before its first zero byte, or across the border of two neighbouring segments, as long as
all segments up to there are at least as long as the pattern: `InReach`.  In the border it
compares up to a zero byte of the pattern only, so that it can also find what is not there:
`Misled`.  A head segment of which a part has been read is searched from its start, and the
position found there is skipped from the read position: `PartlyFits`.
`search_meets_contract_iff` says that these are the ways in which the contract can be missed.
-/

namespace Commutil.Io.SegmentedInputStream

open Commutil.Common Commutil.Library

/-! ## §1 The contract -/

/-- The search returns.  It answers `E_OK` with the stream at the first occurrence, or, if there
    is no occurrence, `E_END_OF_STREAM` with every suffix kept that begins the pattern. -/
def MeetsContract (s : SegmentedInputStream) (pattern : List UInt8) : Prop :=
  ∃ rc s', s.searchBytes pattern = .ok (rc, s') ∧
    ((∃ k, IsFirstOccurrence pattern s.unread k ∧ rc = .ok ∧ s'.unread = s.unread.drop k) ∨
      (∀ k, ¬ OccursAt pattern s.unread k) ∧ rc = .endOfStream ∧
        ∃ dropped, s'.unread = s.unread.drop dropped ∧
          ∀ j < s.unread.length, s.unread.drop j <+: pattern → dropped ≤ j)

/-- The streams that are filled, read, skipped and searched. -/
inductive Used : SegmentedInputStream → Prop
  | new (byteOrder : ByteOrder) (base : Nat) (log : List Buffer) :
      Used (SegmentedInputStream.new byteOrder base log)
  | appendBuffer {s s' : SegmentedInputStream} {buffer : Buffer} (hu : Used s)
      (hne : buffer.m_bytes ≠ []) (h : s.appendBuffer buffer = .ok s') : Used s'
  | readBytes {s s' : SegmentedInputStream} {length : Nat} {rc : ErrorCode} {out : List UInt8}
      (hu : Used s) (h : s.readBytes length = .ok (rc, out, s')) : Used s'
  | skipBytes {s s' : SegmentedInputStream} {length n : Nat} {rc : ErrorCode}
      (hu : Used s) (h : s.skipBytes length = .ok (rc, n, s')) : Used s'
  | searchBytes {s s' : SegmentedInputStream} {pattern : List UInt8} {rc : ErrorCode}
      (hu : Used s) (h : s.searchBytes pattern = .ok (rc, s')) : Used s'

/-- Without `reset` the offset stays in the head segment, whatever happens to the account. -/
theorem Used.linked_fit {s : SegmentedInputStream} (h : Used s) : Linked s ∧ Fit s := by
  induction h with
  | new byteOrder base log => exact ⟨(new_inv byteOrder base log).linked,
      (new_inv byteOrder base log).fit⟩
  | appendBuffer _ hne h ih =>
    have hkeep := appendBuffer_keeps ih.1 hne h
    exact ⟨hkeep.linked, hkeep.fit ih.2⟩
  | readBytes _ h ih =>
    have hkeep := readBytes_keeps ih.1 h
    exact ⟨hkeep.linked, hkeep.fit ih.2⟩
  | skipBytes _ h ih =>
    have hkeep := skipBytes_keeps ih.1 h
    exact ⟨hkeep.linked, hkeep.fit ih.2⟩
  | searchBytes _ h ih =>
    rcases searchLoop_linked _ _ _ _ rfl ih.1 h with hkeep | hfit
    · exact ⟨hkeep.linked, hkeep.fit ih.2⟩
    · exact hfit

/-! ## §2 What the search sees -/

/-- An occurrence at position `k` of the chain that the search can see: every segment up to the
    one it starts in is long enough for the pattern, and it either ends in that segment, visible
    there or at the very end of it with a segment to follow, or in the next. -/
def InReach (pattern : List UInt8) : List BufferNode → Nat → Prop
  | [], _ => False
  | head :: rest, k =>
    pattern.length ≤ head.m_length ∧
      if k < head.m_length then
        k + pattern.length ≤ head.m_length ∧
            (Visible head.m_buffer.m_bytes pattern k ∨
              k + pattern.length = head.m_length ∧ rest ≠ []) ∨
          head.m_length < k + pattern.length ∧
            ∃ next ∈ rest.head?, k + pattern.length ≤ head.m_length + next.m_length
      else InReach pattern rest (k - head.m_length)

/-- The comparisons in the border of two segments that the search reaches succeed first at an
    index where the pattern does not occur. -/
def Misled (pattern : List UInt8) : List BufferNode → Prop
  | head :: next :: rest =>
    pattern.length ≤ head.m_length ∧ Unseen head.m_buffer.m_bytes pattern ∧
        (∃ i < pattern.length, i ≤ next.m_length ∧ (∀ j < i, ¬ BorderMatch pattern head next j) ∧
          BorderMatch pattern head next i ∧
          ¬ OccursAt pattern (head.m_buffer.m_bytes ++ next.m_buffer.m_bytes)
            (head.m_length - pattern.length + i)) ∨
      DropsHead pattern (head :: next :: rest) ∧ Misled pattern (next :: rest)
  | _ => False

/-- What is left of the segment from `q` on is no longer than the pattern and compares equal to
    the beginning of it. -/
def Begins (pattern : List UInt8) (head : BufferNode) (q : Nat) : Prop :=
  q ≤ head.m_length ∧ head.m_length ≤ q + pattern.length ∧
    strncmpEq (head.m_buffer.m_bytes.drop q) pattern (head.m_length - q) = .ok true

/-- The pattern does not occur in the unread bytes, and what begins it at their end is kept: not
    more is skipped than is there, and nothing from a position on at which no stop comes first. -/
structure EndKept (s : SegmentedInputStream) (pattern : List UInt8) (Stop : Nat → Prop) :
    Prop where
  absent : ∀ k, ¬ OccursAt pattern s.unread k
  inside : s.m_size ≤ s.unread.length ∨ ∃ q ≤ s.unread.length, Stop q
  kept : ∀ j < s.unread.length, s.unread.drop j <+: pattern → ∃ q ≤ j, Stop q

/-- What the bytes of a chain have to show if a part of the head segment has been read: positions
    in the whole segment are taken for positions in the unread bytes. -/
def PartlyFits (s : SegmentedInputStream) (pattern : List UInt8) : List BufferNode → Prop
  | [] => True
  | head :: rest =>
    (∀ q, Seen head.m_buffer.m_bytes pattern q → IsFirstOccurrence pattern s.unread q) ∧
      (Unseen head.m_buffer.m_bytes pattern →
        match rest with
        | [] => EndKept s pattern (Begins pattern head)
        | next :: _ =>
          (∀ i < pattern.length, i ≤ next.m_length → BorderMatch pattern head next i →
              (∀ j < i, ¬ BorderMatch pattern head next j) →
              IsFirstOccurrence pattern s.unread (head.m_length - pattern.length + i)) ∧
            (next.m_length + 1 < pattern.length →
              (∀ i ≤ next.m_length, ¬ BorderMatch pattern head next i) →
              EndKept s pattern fun q =>
                q = head.m_length - pattern.length + (next.m_length + 1)))

/-! ## §3 Skipping with a wrong account -/

private theorem unread_cons {s : SegmentedInputStream} {head : BufferNode}
    {rest : List BufferNode} (hn : s.m_nodes = head :: rest)
    (hlt : s.m_offset < head.m_length) :
    s.unread = head.m_buffer.m_bytes.drop s.m_offset ++ chainBytes rest := by
  unfold unread
  rw [hn, chainBytes_cons, List.drop_append_of_le_length (Nat.le_of_lt hlt)]

private theorem unread_advance {s : SegmentedInputStream} {n : Nat}
    (hadd : add32 s.m_offset n = s.m_offset + n) : (s.advance n).unread = s.unread.drop n := by
  unfold unread
  rw [advance_nodes, advance_offset, hadd, List.drop_drop]

private theorem unread_advance_removeHead {s : SegmentedInputStream} {head : BufferNode}
    {rest : List BufferNode} (hn : s.m_nodes = head :: rest)
    (hlt : s.m_offset < head.m_length) (n : Nat) :
    (s.advance n).removeHead.unread = s.unread.drop (head.m_length - s.m_offset) := by
  have hn' : (s.advance n).m_nodes = head :: rest := hn
  have hlen : (head.m_buffer.m_bytes.drop s.m_offset).length = head.m_length - s.m_offset :=
    List.length_drop
  rw [unread_cons hn hlt, List.drop_left' hlen]
  unfold unread
  rw [removeHead_nodes, hn', List.tail_cons, removeHead_offset hn', List.drop_zero]

/-- Nothing is copied to a null destination. -/
private theorem copyPart_bind {α : Type} (head : BufferNode) (offset n length : Nat)
    (f : List UInt8 → Except Fault α) :
    (head.copyPart false offset n length [] >>= f) = f [] := rfl

private theorem skipLoop_more {length bytesCopied bytesToCopy : Nat} {head : BufferNode}
    {rest : List BufferNode} {s : SegmentedInputStream}
    (hmore : add32 bytesCopied bytesToCopy < length) :
    copyLoop false length (head :: rest) s bytesCopied bytesToCopy [] =
      match rest.head? with
      | none => .error .nullDereference
      | some next => copyLoop false length rest (s.advance bytesToCopy).removeHead
          (add32 bytesCopied bytesToCopy) next.m_length [] := by
  rw [copyLoop, if_pos hmore]
  exact copyPart_bind ..

private theorem skipLoop_last {length bytesCopied bytesToCopy : Nat} {head : BufferNode}
    {rest : List BufferNode} {s : SegmentedInputStream}
    (hmore : ¬ add32 bytesCopied bytesToCopy < length) :
    copyLoop false length (head :: rest) s bytesCopied bytesToCopy [] =
      if (s.advance (sub32 length bytesCopied)).m_offset = head.m_length then
        pure ([], (s.advance (sub32 length bytesCopied)).removeHead)
      else pure ([], s.advance (sub32 length bytesCopied)) := by
  rw [copyLoop, if_neg hmore, copyPart_bind]

/-- Consuming bytes does not look at `m_size`: it ends after the bytes asked for, or follows a
    null pointer if there are fewer. -/
private theorem skipLoop_spec {length : Nat} (hlength : length < 2 ^ 32) :
    ∀ (nodes : List BufferNode) (s : SegmentedInputStream) (bytesCopied : Nat),
      s.m_nodes = nodes → nodes ≠ [] → Linked s → Fit s → bytesCopied ≤ length →
      bytesCopied + s.unread.length < 2 ^ 32 →
      ∀ head ∈ nodes.head?,
      if length ≤ bytesCopied + s.unread.length then
        ∃ s', copyLoop false length nodes s bytesCopied (sub32 head.m_length s.m_offset) [] =
            .ok ([], s') ∧ s'.unread = s.unread.drop (length - bytesCopied)
      else
        copyLoop false length nodes s bytesCopied (sub32 head.m_length s.m_offset) [] =
          .error .nullDereference := by
  intro nodes
  -- induction on the segments, with the head of the stream as the first of them
  induction nodes with
  | nil => intro s bytesCopied _ hne; exact absurd rfl hne
  | cons head rest ih =>
    intro s bytesCopied hs _ hl hfit hcopied hroom first hfirst
    obtain rfl : head = first := by simpa using hfirst
    have hlt : s.m_offset < head.m_length := hfit.offset_lt head (by rw [hs]; rfl)
    have hbuf : head.m_length < 2 ^ 32 := head.m_buffer.length_lt
    have hu := unread_cons hs hlt
    have hlen : (head.m_buffer.m_bytes.drop s.m_offset).length = head.m_length - s.m_offset :=
      List.length_drop
    have hulen : s.unread.length = (head.m_length - s.m_offset) + (chainBytes rest).length := by
      rw [hu, List.length_append, hlen]
    have hsub : sub32 head.m_length s.m_offset = head.m_length - s.m_offset :=
      sub32_eq (Nat.le_of_lt hlt) hbuf
    have hadd : add32 bytesCopied (head.m_length - s.m_offset) =
        bytesCopied + (head.m_length - s.m_offset) := add32_eq (by omega)
    rw [hsub]
    -- more than the head is skipped: the head is removed
    by_cases hmore : bytesCopied + (head.m_length - s.m_offset) < length
    · rw [skipLoop_more (by rw [hadd]; exact hmore), hadd]
      have hn' : (s.advance (head.m_length - s.m_offset)).m_nodes = head :: rest := hs
      have hnodes : (s.advance (head.m_length - s.m_offset)).removeHead.m_nodes = rest := by
        rw [removeHead_nodes, hn', List.tail_cons]
      have hunread := unread_advance_removeHead hs hlt (head.m_length - s.m_offset)
      have hunread' : (s.advance (head.m_length - s.m_offset)).removeHead.unread.length =
          (chainBytes rest).length := by
        rw [hunread, List.length_drop]
        omega
      cases rest with
      -- there is no other segment, so the stream ends before `length` bytes
      | nil =>
        rw [chainBytes_nil, List.length_nil] at hulen
        rw [if_neg (by omega)]
        simp only [List.head?_nil]
      | cons next rest =>
        have hrec := ih _ (bytesCopied + (head.m_length - s.m_offset)) hnodes
          (List.cons_ne_nil _ _) (hl.advance _).removeHead ((hl.advance _).fit_removeHead hn')
          (Nat.le_of_lt hmore) (by rw [hunread']; omega) next rfl
        have hzero : sub32 next.m_length 0 = next.m_length :=
          sub32_eq (Nat.zero_le _) next.m_buffer.length_lt
        rw [removeHead_offset hn', hzero, hunread'] at hrec
        simp only [List.head?_cons]
        by_cases hend : length ≤ bytesCopied + s.unread.length
        · rw [if_pos (by omega)] at hrec
          rw [if_pos hend]
          obtain ⟨s', hrun, hs'⟩ := hrec
          refine ⟨s', hrun, ?_⟩
          have hdrop : length - bytesCopied = (head.m_length - s.m_offset) +
              (length - (bytesCopied + (head.m_length - s.m_offset))) := by omega
          rw [hs', hunread, hdrop, List.drop_drop]
        · rw [if_neg (by omega)] at hrec
          rw [if_neg hend]
          exact hrec
    · -- the last part lies in the head segment
      rw [skipLoop_last (by rw [hadd]; exact hmore), if_pos (by omega)]
      have hrest : sub32 length bytesCopied = length - bytesCopied := sub32_eq hcopied hlength
      have hoff : add32 s.m_offset (length - bytesCopied) =
          s.m_offset + (length - bytesCopied) := add32_eq (by omega)
      rw [hrest, advance_offset, hoff]
      -- at the end of the head it is removed, otherwise `m_offset` moves
      by_cases hend : s.m_offset + (length - bytesCopied) = head.m_length
      · rw [if_pos hend]
        refine ⟨_, rfl, ?_⟩
        rw [unread_advance_removeHead hs hlt]
        congr 1
        omega
      · rw [if_neg hend]
        exact ⟨_, rfl, unread_advance hoff⟩

/-- **Skipping**, also where `m_size` counts more than the unread bytes. -/
private theorem skipAndReturn_cases {s : SegmentedInputStream} (hl : Linked s) (hfit : Fit s)
    (hne : s.m_nodes ≠ []) (hcount : s.unread.length ≤ s.m_size) (offset : Nat)
    (result : ErrorCode) :
    if min s.m_size offset ≤ s.unread.length then
      ∃ s', s.skipAndReturn offset result = .ok (result, s') ∧
        s'.unread = s.unread.drop (min s.m_size offset)
    else s.skipAndReturn offset result = .error .nullDereference := by
  obtain ⟨head, rest, hn⟩ := List.exists_cons_of_ne_nil hne
  have hsize := hl.size_lt
  have hloop := @skipLoop_spec (min s.m_size offset) (by omega) s.m_nodes s 0 rfl hne hl
    hfit (Nat.zero_le _) (by omega) head (by rw [hn]; rfl)
  rw [Nat.zero_add, Nat.sub_zero] at hloop
  have hskip : s.skipAndReturn offset result =
      (copyLoop false (min s.m_size offset) s.m_nodes s 0 (sub32 head.m_length s.m_offset) []).map
        fun r => (result, r.2) := by
    have hhead : s.m_nodes.head? = some head := by rw [hn]; rfl
    simp only [skipAndReturn, skipBytes, copyBytes, hhead]
    generalize copyLoop _ _ _ _ _ _ _ = r
    cases r <;> rfl
  rw [hskip]
  split at hloop
  · rename_i hin
    obtain ⟨s', hrun, hs'⟩ := hloop
    rw [if_pos hin, hrun]
    exact ⟨s', rfl, hs'⟩
  · rename_i hout
    rw [if_neg hout, hloop]
    rfl

/-! ## §4 What one segment shows -/

/-- What a search that sees the unread bytes `u`, the first of them at position `offset` of the
    chain, may answer: the first occurrence, the end of the stream if none is in reach, or a
    position that is not the first occurrence, if one is out of reach or there is none. -/
inductive Verdict (pattern : List UInt8) (nodes : List BufferNode) (offset : Nat)
    (u : List UInt8) : ErrorCode → Nat → Prop
  | found {d : Nat} (hfirst : IsFirstOccurrence pattern u d)
      (hreach : InReach pattern nodes (offset + d)) (hled : ¬ Misled pattern nodes) :
      Verdict pattern nodes offset u .ok d
  | ended {d : Nat} (hle : d ≤ u.length)
      (hreach : ∀ k, IsFirstOccurrence pattern u k → ¬ InReach pattern nodes (offset + k))
      (hled : ¬ Misled pattern nodes)
      (hkeep : (∀ k, ¬ OccursAt pattern u k) → ∀ j < u.length, u.drop j <+: pattern → d ≤ j) :
      Verdict pattern nodes offset u .endOfStream d
  | wrong {d : Nat} (hle : d ≤ u.length) (hfirst : ¬ IsFirstOccurrence pattern u d)
      (hwhy : Misled pattern nodes ∨
        ∃ k, IsFirstOccurrence pattern u k ∧ ¬ InReach pattern nodes (offset + k)) :
      Verdict pattern nodes offset u .ok d

/-- Without an occurrence, only the last bytes can begin the pattern. -/
private theorem pending_lt {pattern u : List UInt8} (hnone : ∀ k, ¬ OccursAt pattern u k) {j : Nat}
    (hj : u.drop j <+: pattern) : u.length < j + pattern.length := by
  by_contra hlong
  have hlen : pattern.length ≤ (u.drop j).length := by
    rw [List.length_drop]
    omega
  have heq : u.drop j = pattern := hj.eq_of_length_le hlen
  apply hnone j
  exact (occursAt_iff_drop ..).mpr (heq ▸ List.prefix_refl _)

/-- Equal strings compare equal. -/
private theorem strncmpEq_of_take {a b : List UInt8} {n : Nat} (ha : n ≤ a.length)
    (hb : n ≤ b.length) (h : a.take n = b.take n) : strncmpEq a b n = .ok true := by
  induction n generalizing a b with
  | zero => simp [strncmpEq]
  | succ n ih =>
    obtain ⟨x, a, rfl⟩ := List.exists_cons_of_length_pos (l := a) (by omega)
    obtain ⟨y, b, rfl⟩ := List.exists_cons_of_length_pos (l := b) (by omega)
    simp only [List.length_cons, Nat.add_le_add_iff_right] at ha hb
    simp only [List.take_succ_cons, List.cons.injEq] at h
    obtain ⟨rfl, htake⟩ := h
    rw [strncmpEq, if_neg (by simp)]
    split
    · rfl
    · exact ih ha hb htake

private theorem begins_of_start {pattern : List UInt8} {head : BufferNode} {q : Nat}
    (hq : q ≤ head.m_length) (hpre : head.m_buffer.m_bytes.drop q <+: pattern) :
    Begins pattern head q := by
  have hlen : (head.m_buffer.m_bytes.drop q).length = head.m_length - q := List.length_drop
  have hle := hpre.length_le
  refine ⟨hq, by omega, strncmpEq_of_take (Nat.le_of_eq hlen.symm) (by omega) ?_⟩
  rw [← hlen, List.take_length]
  exact List.prefix_iff_eq_take.mp hpre

/-- The suffix loop stops at the first position from which on the segment compares equal to the
    beginning of the pattern. -/
private theorem suffixLoop_stops {head : BufferNode} {pattern : List UInt8} :
    ∀ {remaining offset o : Nat}, offset + remaining = head.m_length →
      remaining ≤ pattern.length → suffixLoop head pattern remaining offset = .ok o →
      Begins pattern head o ∧ ∀ q, offset ≤ q → Begins pattern head q → o ≤ q := by
  intro remaining
  induction remaining with
  | zero =>
    intro offset o hsum _ h
    cases h
    refine ⟨⟨by omega, by omega, ?_⟩, fun q hq _ => hq⟩
    rw [show head.m_length - offset = 0 by omega, strncmpEq]
  | succ remaining ih =>
    intro offset o hsum hle h
    have hrest : head.m_length - offset = remaining + 1 := by omega
    have hlen : (head.m_buffer.m_bytes.drop offset).length = remaining + 1 := by
      rw [List.length_drop]
      exact hrest
    obtain ⟨r, hr⟩ := @strncmpEq_total (head.m_buffer.m_bytes.drop offset) pattern (remaining + 1)
      (Nat.le_of_eq hlen.symm) hle
    rw [suffixLoop, hr] at h
    simp only [bind, Except.bind, pure, Except.pure] at h
    cases r with
    | true =>
      cases h
      exact ⟨⟨by omega, by omega, by rw [hrest]; exact hr⟩, fun q hq _ => hq⟩
    | false =>
      obtain ⟨hstop, hleast⟩ := ih (by omega) (by omega) h
      refine ⟨hstop, fun q hq hbegins => hleast q ?_ hbegins⟩
      rcases Nat.lt_or_eq_of_le hq with hlt | rfl
      · exact hlt
      · -- at `offset` itself the comparison has failed
        have hmatch := hbegins.2.2
        rw [hrest, hr] at hmatch
        cases hmatch

/-- The border comparison succeeds at an occurrence. -/
private theorem borderMatch_of_occursAt {head next : BufferNode} {pattern : List UInt8} {i : Nat}
    (hlong : pattern.length ≤ head.m_length) (hi : i ≤ next.m_length) (hi' : i ≤ pattern.length)
    (hocc : OccursAt pattern (head.m_buffer.m_bytes ++ next.m_buffer.m_bytes)
      (head.m_length - pattern.length + i)) : BorderMatch pattern head next i := by
  have hlen : head.m_buffer.m_bytes.length = head.m_length := rfl
  have hlen' : next.m_buffer.m_bytes.length = next.m_length := rfl
  rw [occursAt_iff_drop, List.drop_append_of_le_length (by omega)] at hocc
  have heq := List.prefix_iff_eq_take.mp hocc
  have hdrop : (head.m_buffer.m_bytes.drop (head.m_length - pattern.length + i)).length =
      pattern.length - i := by
    rw [List.length_drop]
    omega
  -- the pattern is the end of one segment and the beginning of the other
  have hsplit : pattern = head.m_buffer.m_bytes.drop (head.m_length - pattern.length + i) ++
      next.m_buffer.m_bytes.take i := by
    rw [List.take_append, hdrop, List.take_of_length_le (by omega)] at heq
    rwa [show pattern.length - (pattern.length - i) = i by omega] at heq
  have htake : pattern.take (pattern.length - i) =
      head.m_buffer.m_bytes.drop (head.m_length - pattern.length + i) := by
    conv_lhs => rw [hsplit]
    rw [List.length_append, List.length_take, hdrop, Nat.min_eq_left (by omega)]
    rw [Nat.add_sub_cancel, ← hdrop, List.take_left]
  have hrest : pattern.drop (pattern.length - i) = next.m_buffer.m_bytes.take i := by
    have := List.take_append_drop (pattern.length - i) pattern
    rw [htake] at this
    exact List.append_cancel_left (this.trans hsplit)
  refine ⟨strncmpEq_of_take (by omega) (by omega) ?_, strncmpEq_of_take (by omega) ?_ ?_⟩
  · rw [htake, ← hdrop, List.take_length]
  · rw [List.length_drop]
    omega
  · rw [hrest, List.take_take, Nat.min_self]

/-- An occurrence in reach that starts in a segment where the pattern is not found lies at the
    border, and the comparison there succeeds. -/
private theorem borderMatch_of_inReach {pattern : List UInt8} {head : BufferNode}
    {rest : List BufferNode} {k : Nat}
    (hmiss : Unseen head.m_buffer.m_bytes pattern)
    (hocc : OccursAt pattern (chainBytes (head :: rest)) k) (hk : k < head.m_length)
    (hreach : InReach pattern (head :: rest) k) :
    ∃ next ∈ rest.head?, head.m_length ≤ k + pattern.length ∧
      k + pattern.length ≤ head.m_length + next.m_length ∧
      BorderMatch pattern head next (k + pattern.length - head.m_length) := by
  have hlen : head.m_buffer.m_bytes.length = head.m_length := rfl
  obtain ⟨hlong, hseen⟩ := hreach
  rw [if_pos hk] at hseen
  have hborder : ∀ next rest', rest = next :: rest' → head.m_length ≤ k + pattern.length →
      k + pattern.length ≤ head.m_length + next.m_length →
      BorderMatch pattern head next (k + pattern.length - head.m_length) := by
    rintro next rest' rfl hlow hhigh
    have hlen' : next.m_buffer.m_bytes.length = next.m_length := rfl
    refine borderMatch_of_occursAt hlong (by omega) (by omega) ?_
    rw [show head.m_length - pattern.length + (k + pattern.length - head.m_length) = k by omega]
    rw [chainBytes_cons, chainBytes_cons, ← List.append_assoc] at hocc
    exact (occursAt_append_left (by rw [List.length_append]; omega)).mp hocc
  rcases hseen with ⟨hin, hvisible | ⟨hend, hne⟩⟩ | ⟨hlow, next, hnext, hhigh⟩
  · rw [chainBytes_cons] at hocc
    exact absurd hvisible (hmiss k hin ((occursAt_append_left hin).mp hocc))
  · obtain ⟨next, rest', rfl⟩ := List.exists_cons_of_ne_nil hne
    exact ⟨next, rfl, by omega, by omega, hborder next rest' rfl (by omega) (by omega)⟩
  · cases rest with
    | nil => cases hnext
    | cons first rest' =>
      obtain rfl : first = next := by simpa using hnext
      exact ⟨first, rfl, by omega, hhigh, hborder first rest' rfl (by omega) hhigh⟩

/-- A segment that is shorter than the pattern ends the search at once. -/
private theorem short_verdict {pattern : List UInt8} {head : BufferNode} {rest : List BufferNode}
    (hshort : head.m_length < pattern.length) (offset : Nat) (u : List UInt8) :
    Verdict pattern (head :: rest) offset u .endOfStream 0 := by
  refine .ended (Nat.zero_le _) (fun k _ hreach => ?_) ?_ fun _ j _ _ => Nat.zero_le j
  · exact absurd hreach.1 (by omega)
  · cases rest with
    | nil => exact id
    | cons next rest =>
      rintro (⟨hlong, -⟩ | ⟨⟨hlong, -⟩, -⟩) <;> omega

/-- A misled search does not see the pattern in the head segment. -/
private theorem Misled.unseen {pattern : List UInt8} {head : BufferNode}
    {rest : List BufferNode} (h : Misled pattern (head :: rest)) :
    Unseen head.m_buffer.m_bytes pattern := by
  cases rest with
  | nil => cases h
  | cons next rest =>
    rcases h with ⟨-, hmiss, -⟩ | ⟨⟨-, hmiss, -⟩, -⟩
    · exact hmiss
    · exact hmiss

/-- An answer from the search in the head segment. -/
private theorem found_verdict {pattern : List UInt8} (hp : pattern ≠ []) {head : BufferNode}
    {rest : List BufferNode} {q : Nat} (hlong : pattern.length ≤ head.m_length)
    (hseen : Seen head.m_buffer.m_bytes pattern q) :
    Verdict pattern (head :: rest) 0 (chainBytes (head :: rest)) .ok q := by
  have hlen : head.m_buffer.m_bytes.length = head.m_length := rfl
  have hpos : 0 < pattern.length := List.length_pos_iff.mpr hp
  have hfirst := hseen.1
  have hvisible := hseen.2
  have hend : q + pattern.length ≤ head.m_length := hfirst.occurs.length_le hp
  rw [chainBytes_cons]
  refine .found ⟨(occursAt_append_left hend).mpr hfirst.occurs, fun k hk hocc => ?_⟩
    ⟨hlong, ?_⟩ fun hled => ?_
  · exact hfirst.first k hk ((occursAt_append_left (by omega)).mp hocc)
  · rw [Nat.zero_add, if_pos (by omega)]
    exact .inl ⟨hend, .inl hvisible⟩
  · exact hseen.not_unseen hled.unseen

/-- An answer from the suffix loop on the last segment. -/
private theorem suffix_verdict {pattern : List UInt8} {head : BufferNode} {q : Nat}
    (hlong : pattern.length ≤ head.m_length)
    (hmiss : Unseen head.m_buffer.m_bytes pattern)
    (hrun : suffixLoop head pattern pattern.length (head.m_length - pattern.length) = .ok q) :
    Verdict pattern [head] 0 (chainBytes [head]) .endOfStream q := by
  obtain ⟨⟨hle, -⟩, hleast⟩ := suffixLoop_stops (by omega) (Nat.le_refl _) hrun
  have hchain : chainBytes [head] = head.m_buffer.m_bytes := by
    rw [chainBytes_cons, chainBytes_nil, List.append_nil]
  refine .ended (by rw [hchain]; exact hle) (fun k hfirst hreach => ?_) id fun hnone j hj hpre => ?_
  · rw [Nat.zero_add] at hreach
    by_cases hk : k < head.m_length
    · obtain ⟨next, hnext, -⟩ := borderMatch_of_inReach hmiss hfirst.occurs hk hreach
      cases hnext
    · have hnext := hreach.2
      rw [if_neg hk] at hnext
      exact hnext
  · have hlt := pending_lt hnone hpre
    rw [hchain] at hj hpre hlt
    have hlen : head.m_buffer.m_bytes.length = head.m_length := rfl
    exact hleast j (by omega) (begins_of_start (Nat.le_of_lt hj) hpre)

/-- An answer from the borderline loop. -/
private theorem border_verdict {pattern : List UInt8} {head next : BufferNode}
    {rest : List BufferNode} {rc : ErrorCode} {q : Nat} (hlong : pattern.length ≤ head.m_length)
    (hmiss : Unseen head.m_buffer.m_bytes pattern)
    (hrun : borderLoop head next pattern pattern.length (head.m_length - pattern.length) =
          .ok (.tooShort q) ∧ rc = .endOfStream ∨
        borderLoop head next pattern pattern.length (head.m_length - pattern.length) =
          .ok (.found q) ∧ rc = .ok) :
    Verdict pattern (head :: next :: rest) 0 (chainBytes (head :: next :: rest)) rc q := by
  have hlen : head.m_buffer.m_bytes.length = head.m_length := rfl
  have hlen' : next.m_buffer.m_bytes.length = next.m_length := rfl
  have hchain : (chainBytes (head :: next :: rest)).length =
      head.m_length + (next.m_length + (chainBytes rest).length) := by
    rw [chainBytes_cons, chainBytes_cons, List.length_append, List.length_append, hlen, hlen']
  rcases @borderLoop_cases head next pattern pattern.length (head.m_length - pattern.length)
    (by omega) (Nat.le_refl _) hlong with ⟨i, -, hi, hbefore, hend⟩ | ⟨-, hnone⟩
  · -- the loop stops at index `i`; what is in reach and starts before that would have matched
    have hfar : ∀ k, k < head.m_length - pattern.length + i →
        OccursAt pattern (chainBytes (head :: next :: rest)) k →
        ¬ InReach pattern (head :: next :: rest) k := by
      intro k hk hocc hreach
      obtain ⟨first, hfirst, hlow, hhigh, hmatch⟩ :=
        borderMatch_of_inReach hmiss hocc (by omega) hreach
      obtain rfl : next = first := by simpa using hfirst
      exact (hbefore (k + pattern.length - head.m_length) (by omega) (by omega)).2 hmatch
    have hled : Misled pattern (head :: next :: rest) → i ≤ next.m_length ∧
        BorderMatch pattern head next i ∧
        ¬ OccursAt pattern (head.m_buffer.m_bytes ++ next.m_buffer.m_bytes)
          (head.m_length - pattern.length + i) := by
      rintro (⟨-, -, i', hi', hin', hbefore', hmatch', hocc'⟩ | ⟨⟨-, -, hall⟩, -⟩)
      · have hge : i ≤ i' := Nat.le_of_not_lt fun hlt => (hbefore i' (by omega) hlt).2 hmatch'
        rcases hend with ⟨hshort, -⟩ | ⟨-, hmatch, -⟩
        · omega
        · have hle : i' ≤ i := Nat.le_of_not_lt fun hlt => hbefore' i hlt hmatch
          obtain rfl : i = i' := by omega
          exact ⟨hin', hmatch', hocc'⟩
      · rcases hend with ⟨hshort, -⟩ | ⟨-, hmatch, -⟩
        · exact absurd (hall i hi).1 (by omega)
        · exact absurd hmatch (hall i hi).2
    rcases hend with ⟨hshort, hstop⟩ | ⟨hin, hmatch, hstop⟩
    · -- the next segment is too short: the end of the stream, before an occurrence in reach
      rcases hrun with ⟨hrun, rfl⟩ | ⟨hrun, -⟩
      · rw [hstop] at hrun
        cases hrun
        refine .ended (by omega) (fun k hfirst => ?_) (fun h => ?_) fun hnone j hj hpre => ?_
        · rw [Nat.zero_add]
          intro hreach
          by_cases hk : k < head.m_length
          · obtain ⟨first, hfirst', -, hhigh, -⟩ :=
              borderMatch_of_inReach hmiss hfirst.occurs hk hreach
            obtain rfl : next = first := by simpa using hfirst'
            exact hfar k (by omega) hfirst.occurs hreach
          · have hnext := hreach.2
            rw [if_neg hk] at hnext
            exact absurd hnext.1 (by omega)
        · exact absurd (hled h).1 (by omega)
        · have hlt := pending_lt hnone hpre
          have hprev := (hbefore (i - 1) (by omega) (by omega)).1
          omega
      · rw [hstop] at hrun
        cases hrun
    · rcases hrun with ⟨hrun, -⟩ | ⟨hrun, rfl⟩
      · rw [hstop] at hrun
        cases hrun
      · -- the compare at the border succeeded at index `i`
        rw [hstop] at hrun
        cases hrun
        have hleft : OccursAt pattern (chainBytes (head :: next :: rest))
              (head.m_length - pattern.length + i) ↔
            OccursAt pattern (head.m_buffer.m_bytes ++ next.m_buffer.m_bytes)
              (head.m_length - pattern.length + i) := by
          rw [chainBytes_cons, chainBytes_cons, ← List.append_assoc]
          exact occursAt_append_left (by rw [List.length_append]; omega)
        by_cases hocc : OccursAt pattern (head.m_buffer.m_bytes ++ next.m_buffer.m_bytes)
            (head.m_length - pattern.length + i)
        · obtain ⟨k, hk, hfirst⟩ := (hleft.mpr hocc).exists_first
          rcases Nat.lt_or_eq_of_le hk with hlt | rfl
          · -- an earlier occurrence, out of reach
            refine .wrong (by omega) (fun h => h.first k hlt hfirst.occurs) (.inr ⟨k, hfirst, ?_⟩)
            rw [Nat.zero_add]
            exact hfar k hlt hfirst.occurs
          · refine .found hfirst ⟨hlong, ?_⟩ fun h => (hled h).2.2 hocc
            rw [Nat.zero_add, if_pos (by omega)]
            cases i with
            | zero => exact .inl ⟨by omega, .inr ⟨by omega, List.cons_ne_nil _ _⟩⟩
            | succ i => exact .inr ⟨by omega, next, rfl, by omega⟩
        · -- the compare was wrong, and the search is misled
          exact .wrong (by omega) (fun h => hocc (hleft.mp h.occurs))
            (.inl (.inl ⟨hlong, hmiss, i, hi, hin, fun j hj => (hbefore j (by omega) hj).2, hmatch,
              hocc⟩))
  · -- the border loop stopped, so this is not the case
    rcases hrun with ⟨hrun, -⟩ | ⟨hrun, -⟩
    · rw [hnone] at hrun
      cases hrun
    · rw [hnone] at hrun
      cases hrun

/-- **The answer for the head segment** is right, or it could not see the rest. -/
private theorem answer_verdict {pattern : List UInt8} (hp : pattern ≠ []) {head : BufferNode}
    {rest : List BufferNode} {rc : ErrorCode} {q : Nat}
    (h : HeadAnswer pattern (head :: rest) rc q) :
    Verdict pattern (head :: rest) 0 (chainBytes (head :: rest)) rc q := by
  obtain ⟨hlong, ⟨hseen, rfl⟩ | ⟨hmiss, hrest⟩⟩ := h
  · exact found_verdict hp hlong hseen
  · cases rest with
    | nil =>
      obtain ⟨hrun, rfl⟩ := hrest
      exact suffix_verdict hlong hmiss hrun
    | cons next rest => exact border_verdict hlong hmiss hrest

/-- Behind the head segment the reach is that of the rest of the chain. -/
private theorem inReach_behind {pattern : List UInt8} {head : BufferNode} {rest : List BufferNode}
    (hlong : pattern.length ≤ head.m_length) {k : Nat} (hk : head.m_length ≤ k) :
    InReach pattern (head :: rest) k ↔ InReach pattern rest (k - head.m_length) := by
  rw [InReach, if_neg (Nat.not_lt.mpr hk)]
  exact and_iff_right hlong

/-- Nothing matches at the border of a segment that is dropped, so only the rest can mislead. -/
private theorem DropsHead.misled_iff {pattern : List UInt8} {head next : BufferNode}
    {rest : List BufferNode} (h : DropsHead pattern (head :: next :: rest)) :
    Misled pattern (head :: next :: rest) ↔ Misled pattern (next :: rest) := by
  constructor
  · rintro (⟨-, -, i, hi, -, -, hmatch, -⟩ | ⟨-, hled⟩)
    · exact absurd hmatch (h.2.2 i hi).2
    · exact hled
  · exact fun hled => .inr ⟨h, hled⟩

/-- What starts in a segment that is dropped is out of reach: it would have matched at the
    border. -/
private theorem DropsHead.out_of_reach {pattern : List UInt8} {head next : BufferNode}
    {rest : List BufferNode} (h : DropsHead pattern (head :: next :: rest)) {k : Nat}
    (hk : k < head.m_length) (hocc : OccursAt pattern (chainBytes (head :: next :: rest)) k) :
    ¬ InReach pattern (head :: next :: rest) k := by
  intro hreach
  obtain ⟨hlong, hmiss, hborder⟩ := h
  obtain ⟨first, hfirst, hlow, hhigh, hmatch⟩ := borderMatch_of_inReach hmiss hocc hk hreach
  obtain rfl : next = first := by simpa using hfirst
  exact (hborder _ (by omega)).2 hmatch

/-- **Dropping the head segment** loses only what is out of reach. -/
private theorem drops_verdict {pattern : List UInt8} (hp : pattern ≠ []) {head : BufferNode}
    {rest : List BufferNode} {offset : Nat} {rc : ErrorCode} {d : Nat}
    (hdrop : DropsHead pattern (head :: rest)) (hoff : offset < head.m_length)
    (h : Verdict pattern rest 0 (chainBytes rest) rc d) :
    Verdict pattern (head :: rest) offset
      (head.m_buffer.m_bytes.drop offset ++ chainBytes rest) rc
      (head.m_length - offset + d) := by
  cases rest with
  | nil => cases hdrop
  | cons next rest =>
  have hpos : 0 < pattern.length := List.length_pos_iff.mpr hp
  have hlong := hdrop.1
  have hlen : (head.m_buffer.m_bytes.drop offset).length = head.m_length - offset :=
    List.length_drop
  have hchain : (chainBytes (next :: rest)).length = next.m_length + (chainBytes rest).length := by
    rw [chainBytes_cons, List.length_append]
    rfl
  have hu : head.m_buffer.m_bytes.drop offset ++ chainBytes (next :: rest) =
      (chainBytes (head :: next :: rest)).drop offset := by
    rw [chainBytes_cons head, List.drop_append_of_le_length (Nat.le_of_lt hoff)]
  rw [← hlen]
  generalize hdropped : head.m_buffer.m_bytes.drop offset = dropped at hlen hu ⊢
  have hulen : (dropped ++ chainBytes (next :: rest)).length =
      dropped.length + (chainBytes (next :: rest)).length := List.length_append
  -- what starts in the dropped part is out of reach, and its first occurrence too
  have hfar : ∀ k < dropped.length, OccursAt pattern (dropped ++ chainBytes (next :: rest)) k →
      ¬ InReach pattern (head :: next :: rest) (offset + k) := by
    intro k hk hocc
    rw [hu, occursAt_iff_drop, List.drop_drop, ← occursAt_iff_drop] at hocc
    exact hdrop.out_of_reach (by omega) hocc
  have hearly : ∀ k < dropped.length, OccursAt pattern (dropped ++ chainBytes (next :: rest)) k →
      ∃ k, IsFirstOccurrence pattern (dropped ++ chainBytes (next :: rest)) k ∧
        ¬ InReach pattern (head :: next :: rest) (offset + k) := by
    intro k hk hocc
    obtain ⟨m, hm, hfirst⟩ := hocc.exists_first
    exact ⟨m, hfirst, hfar m (by omega) hfirst.occurs⟩
  -- what starts after it is the same for the rest of the chain
  have hreach_rest : ∀ k, InReach pattern (head :: next :: rest) (offset + (dropped.length + k)) ↔
      InReach pattern (next :: rest) (0 + k) := by
    intro k
    have hsub : offset + (dropped.length + k) - head.m_length = 0 + k := by omega
    rw [inReach_behind hlong (by omega), hsub]
  cases h with
  -- the three verdicts on the rest, each moved behind the dropped part
  | found hfirst hreach hled =>
    have hle := hfirst.occurs.length_le hp
    by_cases hbefore : ∃ k < dropped.length,
        OccursAt pattern (dropped ++ chainBytes (next :: rest)) k
    · obtain ⟨k, hk, hocc⟩ := hbefore
      exact .wrong (by omega) (fun h => h.first k (by omega) hocc) (.inr (hearly k hk hocc))
    · exact .found (hfirst.append fun k hk hocc => hbefore ⟨k, hk, hocc⟩)
        ((hreach_rest d).mpr hreach) fun h => hled (hdrop.misled_iff.mp h)
  | ended hle hreach hled hkeep =>
    refine .ended (by omega) (fun k hfirst => ?_) (fun h => hled (hdrop.misled_iff.mp h))
      fun hnone j hj hpre => ?_
    · by_cases hk : k < dropped.length
      · exact hfar k hk hfirst.occurs
      · obtain ⟨m, rfl⟩ := Nat.exists_eq_add_of_le (Nat.le_of_not_lt hk)
        exact fun h => hreach m hfirst.of_append ((hreach_rest m).mp h)
    · have hlt := pending_lt hnone hpre
      have hnext := (hdrop.2.2 (pattern.length - 1) (by omega)).1
      obtain ⟨m, rfl⟩ := Nat.exists_eq_add_of_le (show dropped.length ≤ j by omega)
      rw [List.drop_length_add_append] at hpre
      have hnone' : ∀ k, ¬ OccursAt pattern (chainBytes (next :: rest)) k := by
        intro k hocc
        apply hnone (dropped.length + k)
        rw [occursAt_append_right (Nat.le_add_right _ _), Nat.add_sub_cancel_left]
        exact hocc
      have := hkeep hnone' m (by omega) hpre
      omega
  | wrong hle hfirst hwhy =>
    refine .wrong (by omega) (fun h => hfirst h.of_append) ?_
    rcases hwhy with hled | ⟨k, hk, hreach⟩
    · exact .inl (hdrop.misled_iff.mpr hled)
    · by_cases hbefore : ∃ k < dropped.length,
          OccursAt pattern (dropped ++ chainBytes (next :: rest)) k
      · obtain ⟨m, hm, hocc⟩ := hbefore
        exact .inr (hearly m hm hocc)
      · exact .inr ⟨_, hk.append fun m hm hocc => hbefore ⟨m, hm, hocc⟩,
          fun h => hreach ((hreach_rest k).mp h)⟩

/-! ## §5 The search -/

private theorem Verdict.le {pattern : List UInt8} (hp : pattern ≠ []) {nodes : List BufferNode}
    {offset : Nat} {u : List UInt8} {rc : ErrorCode} {d : Nat}
    (h : Verdict pattern nodes offset u rc d) : d ≤ u.length := by
  cases h with
  | found hfirst => exact Nat.le_of_add_right_le (hfirst.occurs.length_le hp)
  | ended hle => exact hle
  | wrong hle => exact hle

/-- Nothing of the head segment has been read, or nothing of it matters. -/
def FromStart (s : SegmentedInputStream) (pattern : List UInt8) : Prop :=
  s.m_offset = 0 ∨ DropsHead pattern s.m_nodes ∨
    ∃ head ∈ s.m_nodes.head?, head.m_length < pattern.length

/-- A search that stops in the head segment skips and returns, or fails in the skip. -/
private theorem answer_run {s : SegmentedInputStream} (hl : Linked s) (hfit : Fit s)
    (hcount : s.unread.length ≤ s.m_size) {pattern : List UInt8}
    (hdrop : ¬ DropsHead pattern s.m_nodes) {head : BufferNode} {rest : List BufferNode}
    (hn : s.m_nodes = head :: rest) (hlong : pattern.length ≤ head.m_length) :
    ∃ rc q, HeadAnswer pattern s.m_nodes rc q ∧
      if min s.m_size q ≤ s.unread.length then
        ∃ s', s.searchBytes pattern = .ok (rc, s') ∧
          s'.unread = s.unread.drop (min s.m_size q)
      else s.searchBytes pattern = .error .nullDereference := by
  have hne : s.m_nodes ≠ [] := by
    rw [hn]
    exact List.cons_ne_nil _ _
  unfold searchBytes
  rw [hn] at hdrop ⊢
  rcases searchLoop_stops hdrop s with ⟨hshort, -⟩ | ⟨rc, q, hanswer, hrun | ⟨rfl, rfl, hrun⟩⟩
  · omega
  · refine ⟨rc, q, hanswer, ?_⟩
    rw [hrun]
    exact skipAndReturn_cases hl hfit hne hcount q rc
  · refine ⟨.ok, 0, hanswer, ?_⟩
    rw [Nat.min_zero, if_pos (Nat.zero_le _)]
    exact ⟨s, hrun, rfl⟩

/-- **A search from the start of a segment** returns with a verdict on the unread bytes. -/
private theorem searchLoop_verdict {pattern : List UInt8} (hp : pattern ≠ []) :
    ∀ (nodes : List BufferNode) (s : SegmentedInputStream), s.m_nodes = nodes → Linked s →
      Fit s → s.unread.length ≤ s.m_size → FromStart s pattern →
      ∃ rc s' d, searchLoop pattern nodes s = .ok (rc, s') ∧ s'.unread = s.unread.drop d ∧
        Verdict pattern nodes s.m_offset s.unread rc d := by
  -- induction on the segments
  intro nodes
  induction nodes with
  | nil =>
    intro s hs _ _ _ _
    exact ⟨.endOfStream, s, 0, rfl, rfl, .ended (Nat.zero_le _) (fun _ _ h => h) id
      fun _ j _ _ => Nat.zero_le j⟩
  | cons head rest ih =>
    intro s hs hl hfit hcount hstart
    have hlt : s.m_offset < head.m_length := hfit.offset_lt head (by rw [hs]; rfl)
    have hu := unread_cons hs hlt
    -- the head is dropped, and the rest decides
    by_cases hdrop : DropsHead pattern (head :: rest)
    · have hn' : s.removeHead.m_nodes = rest := by rw [removeHead_nodes, hs, List.tail_cons]
      have hoff := removeHead_offset hs
      have hunread : s.removeHead.unread = chainBytes rest := by
        unfold unread
        rw [hn', hoff, List.drop_zero]
      obtain ⟨rc, s', d, hrun, hs', hverdict⟩ := ih s.removeHead hn' hl.removeHead
        (hl.fit_removeHead hs)
        (by
          rw [hunread, removeHead_size]
          rw [hu, List.length_append] at hcount
          omega)
        (.inl hoff)
      rw [hoff, hunread] at hverdict
      refine ⟨rc, s', head.m_length - s.m_offset + d, ?_, ?_, ?_⟩
      · rw [searchLoop_of_drops hdrop]
        exact hrun
      · have hlen : (head.m_buffer.m_bytes.drop s.m_offset).length = head.m_length - s.m_offset :=
          List.length_drop
        rw [hs', hunread, hu, ← List.drop_drop, List.drop_left' hlen]
      · rw [hu]
        exact drops_verdict hp hdrop hlt hverdict
    · -- the head is shorter than the pattern, which ends the search
      by_cases hshort : head.m_length < pattern.length
      · refine ⟨.endOfStream, s, 0, ?_, rfl, short_verdict hshort _ _⟩
        rw [searchLoop, if_pos hshort]
        rfl
      · -- the search stops in this segment, of which nothing has been read
        have hzero : s.m_offset = 0 := by
          rcases hstart with hzero | hdrop' | ⟨first, hfirst, hshort'⟩
          · exact hzero
          · rw [hs] at hdrop'
            exact absurd hdrop' hdrop
          · rw [hs, List.head?_cons, Option.mem_some_iff] at hfirst
            subst hfirst
            exact absurd hshort' hshort
        have hu' : s.unread = chainBytes (head :: rest) := by
          rw [hu, hzero, List.drop_zero, chainBytes_cons]
        obtain ⟨rc, q, hanswer, hrun⟩ := answer_run hl hfit hcount (by rw [hs]; exact hdrop) hs
          (Nat.le_of_not_lt hshort)
        rw [hs] at hanswer
        have hverdict := answer_verdict hp hanswer
        rw [← hu'] at hverdict
        have hle := hverdict.le hp
        rw [Nat.min_eq_right (by omega), if_pos hle] at hrun
        obtain ⟨s', hrun, hs'⟩ := hrun
        unfold searchBytes at hrun
        rw [hs] at hrun
        refine ⟨rc, s', q, hrun, hs', ?_⟩
        rw [hzero]
        exact hverdict

/-! ## §6 When the contract is met -/

/-- What the contract needs: from the start of a segment the first occurrence has to be in reach
    and nothing else found before it; in a segment that has been read in part, what the whole
    segment shows has to hold of what is left. -/
structure SearchFits (s : SegmentedInputStream) (pattern : List UInt8) : Prop where
  whole : FromStart s pattern →
    (∀ k, IsFirstOccurrence pattern s.unread k → InReach pattern s.m_nodes (s.m_offset + k)) ∧
      ¬ Misled pattern s.m_nodes
  partly : ¬ FromStart s pattern → PartlyFits s pattern s.m_nodes

private theorem drop_inj {u : List UInt8} {n m : Nat} (hn : n ≤ u.length) (hm : m ≤ u.length)
    (h : u.drop n = u.drop m) : n = m := by
  have := congrArg List.length h
  rw [List.length_drop, List.length_drop] at this
  omega

/-- A verdict meets the contract exactly if everything was in reach. -/
private theorem meets_of_verdict {s s' : SegmentedInputStream} {pattern : List UInt8}
    (hp : pattern ≠ []) {rc : ErrorCode} {d : Nat}
    (hrun : s.searchBytes pattern = .ok (rc, s')) (hs' : s'.unread = s.unread.drop d)
    (h : Verdict pattern s.m_nodes s.m_offset s.unread rc d) :
    MeetsContract s pattern ↔
      (∀ k, IsFirstOccurrence pattern s.unread k →
        InReach pattern s.m_nodes (s.m_offset + k)) ∧ ¬ Misled pattern s.m_nodes := by
  have hle := h.le hp
  constructor
  · rintro ⟨rc', s'', hrun', hmeets⟩
    rw [hrun] at hrun'
    cases hrun'
    cases h with
    | found hfirst hreach hled =>
      exact ⟨fun k hk => hk.unique hfirst ▸ hreach, hled⟩
    | ended _ hreach hled hkeep =>
      rcases hmeets with ⟨k, -, hrc, -⟩ | ⟨hnone, -⟩
      · cases hrc
      · exact ⟨fun k hk => absurd hk.occurs (hnone k), hled⟩
    | wrong _ hfirst _ =>
      rcases hmeets with ⟨k, hk, -, heq⟩ | ⟨-, hrc, -⟩
      · have hkle := hk.occurs.length_le hp
        rw [hs'] at heq
        rw [drop_inj hle (by omega) heq] at hfirst
        exact absurd hk hfirst
      · cases hrc
  · rintro ⟨hreach, hled⟩
    refine ⟨rc, s', hrun, ?_⟩
    cases h with
    | found hfirst => exact .inl ⟨d, hfirst, rfl, hs'⟩
    | ended _ hout _ hkeep =>
      have hnone : ∀ k, ¬ OccursAt pattern s.unread k := fun k hocc => by
        obtain ⟨m, -, hm⟩ := hocc.exists_first
        exact hout m hm (hreach m hm)
      exact .inr ⟨hnone, rfl, d, hs', hkeep hnone⟩
    | wrong _ _ hwhy =>
      rcases hwhy with h | ⟨k, hk, hout⟩
      · exact absurd h hled
      · exact absurd (hreach k hk) hout

/-- Skipping `offset` bytes and returning `result` is right for the unread bytes. -/
def AnswerFits (s : SegmentedInputStream) (pattern : List UInt8) (result : ErrorCode)
    (offset : Nat) : Prop :=
  if result = .ok then IsFirstOccurrence pattern s.unread offset
  else
    (∀ k, ¬ OccursAt pattern s.unread k) ∧ min s.m_size offset ≤ s.unread.length ∧
      ∀ j < s.unread.length, s.unread.drop j <+: pattern → min s.m_size offset ≤ j

/-- An answer for the head segment meets the contract exactly if it fits the unread bytes. -/
private theorem meets_of_answer {s : SegmentedInputStream} {pattern : List UInt8}
    (hp : pattern ≠ []) (hcount : s.unread.length ≤ s.m_size) {rc : ErrorCode} {q : Nat}
    (hrun : if min s.m_size q ≤ s.unread.length then
        ∃ s', s.searchBytes pattern = .ok (rc, s') ∧
          s'.unread = s.unread.drop (min s.m_size q)
      else s.searchBytes pattern = .error .nullDereference)
    (hrc : rc = .ok ∨ rc = .endOfStream) :
    MeetsContract s pattern ↔ AnswerFits s pattern rc q := by
  unfold AnswerFits
  constructor
  · rintro ⟨rc', s', hrun', hmeets⟩
    split at hrun
    · rename_i hin
      obtain ⟨s'', hrun, hs'⟩ := hrun
      rw [hrun] at hrun'
      cases hrun'
      -- found: the suffix that is left determines where the search stopped
      rcases hmeets with ⟨k, hk, rfl, heq⟩ | ⟨hnone, rfl, dropped, heq, hkeep⟩
      · rw [if_pos rfl]
        have hkle := hk.occurs.length_le hp
        have hpos : 0 < pattern.length := List.length_pos_iff.mpr hp
        rw [hs'] at heq
        have := drop_inj hin (by omega) heq
        obtain rfl : q = k := by omega
        exact hk
      · -- not found: what was dropped is determined by what is left
        rw [if_neg (fun h => nomatch h)]
        refine ⟨hnone, hin, fun j hj hpre => ?_⟩
        have hdropped := hkeep j hj hpre
        rw [hs'] at heq
        rw [drop_inj hin (by omega) heq]
        exact hdropped
    · rw [hrun] at hrun'
      cases hrun'
  · intro hfits
    rcases hrc with rfl | rfl
    · rw [if_pos rfl] at hfits
      have hkle := hfits.occurs.length_le hp
      rw [Nat.min_eq_right (by omega), if_pos (by omega)] at hrun
      obtain ⟨s', hrun, hs'⟩ := hrun
      exact ⟨.ok, s', hrun, .inl ⟨q, hfits, rfl, hs'⟩⟩
    · rw [if_neg (fun h => nomatch h)] at hfits
      obtain ⟨hnone, hin, hkeep⟩ := hfits
      rw [if_pos hin] at hrun
      obtain ⟨s', hrun, hs'⟩ := hrun
      exact ⟨.endOfStream, s', hrun, .inr ⟨hnone, rfl, _, hs', hkeep⟩⟩

/-- A stop before which there is no other one decides what is kept. -/
private theorem answerFits_end_iff {s : SegmentedInputStream} {pattern : List UInt8}
    {Stop : Nat → Prop} {q : Nat} (hcount : s.unread.length ≤ s.m_size) (hstop : Stop q)
    (hleast : ∀ q', Stop q' → q ≤ q') :
    AnswerFits s pattern .endOfStream q ↔ EndKept s pattern Stop := by
  unfold AnswerFits
  rw [if_neg (fun h => nomatch h)]
  constructor
  · rintro ⟨habsent, hinside, hkept⟩
    refine ⟨habsent, ?_, fun j hj hpre => ⟨q, ?_, hstop⟩⟩
    · rcases Nat.le_total s.m_size q with hle | hle
      · exact .inl (by omega)
      · exact .inr ⟨q, by omega, hstop⟩
    · have := hkept j hj hpre
      omega
  · rintro ⟨habsent, hinside, hkept⟩
    refine ⟨habsent, ?_, fun j hj hpre => ?_⟩
    · rcases hinside with hle | ⟨q', hq', hstop'⟩
      · omega
      · have := hleast q' hstop'
        omega
    · obtain ⟨q', hq', hstop'⟩ := hkept j hj hpre
      have := hleast q' hstop'
      omega

/-- **The answer for a segment** fits the unread bytes exactly if its bytes show what they have
    to show. -/
private theorem answerFits_iff {s : SegmentedInputStream} {pattern : List UInt8}
    (hcount : s.unread.length ≤ s.m_size) {head : BufferNode} {rest : List BufferNode}
    {rc : ErrorCode} {q : Nat} (h : HeadAnswer pattern (head :: rest) rc q) :
    AnswerFits s pattern rc q ↔ PartlyFits s pattern (head :: rest) := by
  obtain ⟨hlong, ⟨hseen, rfl⟩ | ⟨hunseen, hrest⟩⟩ := h
  · -- seen in the segment: there is one first occurrence
    unfold AnswerFits
    rw [if_pos rfl]
    constructor
    · intro hfirst
      refine ⟨fun q' hseen' => ?_, fun hunseen => absurd hunseen hseen.not_unseen⟩
      rw [← hseen.1.unique hseen'.1]
      exact hfirst
    · exact fun hfits => hfits.1 q hseen
  have hnone : ∀ q', Seen head.m_buffer.m_bytes pattern q' →
      IsFirstOccurrence pattern s.unread q' := fun q' hseen => absurd hunseen hseen.not_unseen
  cases rest with
  | nil =>
    obtain ⟨hrun, rfl⟩ := hrest
    obtain ⟨hstop, hleast⟩ := suffixLoop_stops (by omega) (Nat.le_refl _) hrun
    have hbegins : ∀ q', Begins pattern head q' → q ≤ q' := fun q' hq' =>
      hleast q' (by have := hq'.2.1; omega) hq'
    rw [answerFits_end_iff hcount hstop hbegins]
    exact ⟨fun hkept => ⟨hnone, fun _ => hkept⟩, fun hfits => hfits.2 hunseen⟩
  | cons next rest =>
    rcases @borderLoop_cases head next pattern pattern.length (head.m_length - pattern.length)
      (by omega) (Nat.le_refl _) hlong with ⟨i, -, hi, hbefore, hend⟩ | ⟨-, hgo⟩
    · rcases hend with ⟨hshort, hstop⟩ | ⟨hin, hmatch, hstop⟩
      · -- the next segment is too short to decide
        rcases hrest with ⟨hrun, rfl⟩ | ⟨hrun, -⟩
        · rw [hstop] at hrun
          cases hrun
          have hlast : i = next.m_length + 1 := by
            rcases Nat.eq_zero_or_pos i with rfl | hpos
            · omega
            · have := (hbefore (i - 1) (by omega) (by omega)).1
              omega
          subst hlast
          have hmiss : ∀ j ≤ next.m_length, ¬ BorderMatch pattern head next j := fun j hj =>
            (hbefore j (by omega) (by omega)).2
          have hiff : AnswerFits s pattern .endOfStream
                (head.m_length - pattern.length + (next.m_length + 1)) ↔
              EndKept s pattern fun q =>
                q = head.m_length - pattern.length + (next.m_length + 1) :=
            answerFits_end_iff hcount rfl fun q' hq' => Nat.le_of_eq hq'.symm
          rw [hiff]
          constructor
          · intro hkept
            refine ⟨hnone, fun _ => ⟨fun i _ hi' hmatch _ => ?_, fun _ _ => hkept⟩⟩
            exact absurd hmatch (hmiss i hi')
          · exact fun hfits => (hfits.2 hunseen).2 hi hmiss
        · rw [hstop] at hrun
          cases hrun
      · -- the comparison at index `i` succeeds, and none before it
        rcases hrest with ⟨hrun, -⟩ | ⟨hrun, rfl⟩
        · rw [hstop] at hrun
          cases hrun
        · rw [hstop] at hrun
          cases hrun
          have hfirst : ∀ j < i, ¬ BorderMatch pattern head next j := fun j hj =>
            (hbefore j (by omega) hj).2
          unfold AnswerFits
          rw [if_pos rfl]
          constructor
          · intro hocc
            refine ⟨hnone, fun _ => ⟨fun i' _ _ hmatch' hfirst' => ?_, fun _ hmiss => ?_⟩⟩
            · have hle : i ≤ i' := Nat.le_of_not_lt fun hlt => hfirst i' hlt hmatch'
              have hge : i' ≤ i := Nat.le_of_not_lt fun hlt => hfirst' i hlt hmatch
              obtain rfl : i = i' := Nat.le_antisymm hle hge
              exact hocc
            · exact absurd hmatch (hmiss i hin)
          · exact fun hfits => (hfits.2 hunseen).1 i hi hin hmatch hfirst
    · rcases hrest with ⟨hrun, -⟩ | ⟨hrun, -⟩
      · rw [hgo] at hrun
        cases hrun
      · rw [hgo] at hrun
        cases hrun

/-- **The contract of `searchBytes`**: in every state of a stream that is filled, read, skipped
    and searched, a search for a non-empty pattern meets its contract exactly if the first
    occurrence is in reach of the scan, no border comparison misleads it, and what a head segment
    shows that was read in part holds of what is left of it.  The `int`s of the search are to
    stay in their range. -/
theorem search_meets_contract_iff {s : SegmentedInputStream} (hu : Used s)
    (hcount : s.unread.length ≤ s.m_size) {pattern : List UInt8} (hp : pattern ≠ [])
    (_hindex : ∀ node ∈ s.m_nodes, IndexInRange node.m_length pattern.length) :
    MeetsContract s pattern ↔ SearchFits s pattern := by
  obtain ⟨hl, hfit⟩ := hu.linked_fit
  by_cases hstart : FromStart s pattern
  · obtain ⟨rc, s', d, hrun, hs', hverdict⟩ := searchLoop_verdict hp s.m_nodes s rfl hl hfit hcount
      hstart
    rw [meets_of_verdict hp hrun hs' hverdict]
    exact ⟨fun h => ⟨fun _ => h, fun h' => absurd hstart h'⟩, fun h => h.whole hstart⟩
  · have hoff : s.m_offset ≠ 0 := fun h => hstart (.inl h)
    have hdrop : ¬ DropsHead pattern s.m_nodes := fun h => hstart (.inr (.inl h))
    obtain ⟨head, rest, hn⟩ := List.exists_cons_of_ne_nil fun h => hoff (hfit.offset_nil h)
    have hlong : pattern.length ≤ head.m_length := Nat.le_of_not_lt fun h =>
      hstart (.inr (.inr ⟨head, by rw [hn]; rfl, h⟩))
    obtain ⟨rc, q, hanswer, hrun⟩ := answer_run hl hfit hcount hdrop hn hlong
    rw [hn] at hanswer
    have hrc : rc = .ok ∨ rc = .endOfStream := by
      obtain ⟨-, ⟨-, rfl⟩ | ⟨-, hrest⟩⟩ := hanswer
      · exact .inl rfl
      · cases rest with
        | nil => exact .inr hrest.2
        | cons next rest =>
          rcases hrest with ⟨-, rfl⟩ | ⟨-, rfl⟩
          · exact .inr rfl
          · exact .inl rfl
    rw [meets_of_answer hp hcount hrun hrc, answerFits_iff hcount hanswer, ← hn]
    exact ⟨fun h => ⟨fun h' => absurd h' hstart, fun _ => h⟩, fun h => h.partly hstart⟩

private theorem twoSegments_used : Used twoSegments :=
  @Used.appendBuffer _ _ ⟨200, [66, 66, 66, 66], by decide⟩
    (@Used.appendBuffer _ _ ⟨100, [65, 65, 65, 65], by decide⟩ (.new .networkOrder 0 [])
      (by decide) rfl) (by decide) rfl

/-- The pattern `AB` lies across the two segments, and the search finds it there. -/
theorem search_meets_contract_across : MeetsContract twoSegments [65, 66] := by
  refine (search_meets_contract_iff twoSegments_used (by decide) (by decide) (by decide)).mpr ⟨?_, ?_⟩
  · refine fun _ => ⟨fun k hk => ?_, ?_⟩
    · have hthree : IsFirstOccurrence [65, 66] twoSegments.unread 3 :=
        ⟨by unfold OccursAt MatchesUpTo; decide, by unfold OccursAt MatchesUpTo; decide⟩
      obtain rfl := hk.unique hthree
      exact ⟨by decide, .inr ⟨by decide, _, rfl, by decide⟩⟩
    · rintro (⟨-, -, i, hi, -, -, hmatch, hocc⟩ | ⟨⟨-, -, hborder⟩, -⟩)
      · match i, hi with
        | 0, _ => exact absurd hmatch.1 (by decide)
        | 1, _ => exact hocc (by unfold OccursAt MatchesUpTo; decide)
      · exact (hborder 1 (by decide)).2 ⟨rfl, rfl⟩
  · exact fun hstart => absurd (.inl rfl) hstart

/-- The bytes `XXAB` in one segment, of which two have been read. -/
def readHead : SegmentedInputStream where
  m_byteOrder := .networkOrder
  m_nodes := [⟨0, ⟨100, [88, 88, 65, 66], by decide⟩⟩]
  m_tail := some 0
  m_offset := 2
  m_size := 2
  m_nextAddr := 1
  m_deallocated := []

private theorem readHead_used : Used readHead := by
  have hfull : Used { readHead with m_offset := 0, m_size := 4 } :=
    @Used.appendBuffer _ _ ⟨100, [88, 88, 65, 66], by decide⟩ (.new .networkOrder 0 [])
      (by decide) rfl
  exact @Used.readBytes _ _ 2 .ok [88, 88] hfull rfl

/-- The unread bytes are the pattern `AB`.  The search finds it, two bytes from the start of the
    segment, and skips two bytes from the read position: the pattern itself. -/
theorem search_skips_pattern :
    Used readHead ∧ readHead.unread = [65, 66] ∧
      (∃ s', readHead.searchBytes [65, 66] = .ok (.ok, s') ∧ s'.unread = []) ∧
      ¬ MeetsContract readHead [65, 66] := by
  refine ⟨readHead_used, rfl, ⟨_, rfl, rfl⟩, ?_⟩
  rintro ⟨rc, s', hrun, ⟨k, hk, -, heq⟩ | ⟨hnone, -⟩⟩
  · cases hrun
    have hle := hk.occurs.length_le (by decide)
    have hzero : k = 0 := by
      have hlen : readHead.unread.length = 2 := rfl
      simp only [hlen, List.length_cons, List.length_nil] at hle
      omega
    subst hzero
    cases heq
  · exact hnone 0 (by unfold OccursAt MatchesUpTo; decide)

end Commutil.Io.SegmentedInputStream
