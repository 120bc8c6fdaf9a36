import Commutil.Framing.HeaderLength
import Commutil.Framing.Resync

/-!
# Failed Message Allocations

When the allocation of a message fails, `onWaitBody` skips the frame but leaves the
connection in `MS_WAITING_BODY` with the header of the skipped frame, and leaves the
assembly loop.  The next frame is then handled by the length of the skipped one, and
not before more bytes arrive.

`drops_failed_only_iff` says exactly when this goes unnoticed: a call may come to a
failed allocation only with the last frame that it completes, and the next frame must
have the same length.  A connection whose last allocation failed is `Behind`; put
back to wait for a header it would be in sync.
-/

namespace Commutil.Framing

open Commutil.Io Commutil.Library SegmentedInputStream Assembly

/-! ## §1 What is asked of the calls -/

/-- The frames whose allocation succeeds, when the allocations are numbered from `c` on. -/
def survivors (alloc : Nat → Bool) : Nat → List Msg → List Msg
  | _, [] => []
  | c, f :: rest =>
    if alloc c then f :: survivors alloc (c + 1) rest else survivors alloc (c + 1) rest

/-- A message that is about to be allocated gets a buffer sized for the header in the stream. -/
def SizedForOwn (a : Assembly) : Prop :=
  a.Allocates → msgBufSize a.m_stream.m_msgHeader =
    msgBufSize (headerAt a.m_stream.m_is.m_byteOrder a.m_stream.m_is.unread)

/-- Every pass of the loop that allocates does so for the frame at the front of the stream. -/
def AllSized (alloc : Nat → Bool) (a : Assembly) : Prop :=
  ∀ t, LoopStep.Visits (assembleStep alloc) a t → SizedForOwn t

/-- A sequence of calls that all return, with buffers of the right size. -/
def ReceiveSized (alloc : Nat → Bool) : Assembly → List Buffer → Assembly → Prop
  | a, [], r => r = a
  | a, buffer :: rest, r => ∃ is a', a.m_stream.m_is.appendBuffer buffer = .ok is ∧
      LoopStep.Ends (assembleStep alloc) (a.withStream is) a' ∧
      AllSized alloc (a.withStream is) ∧ ReceiveSized alloc a' rest r

/-- After each call every frame received so far has had one allocation of its own, and the
    frames whose allocation succeeded are delivered; `n` bytes of the frames have been received
    before. -/
def DropsFailedOnly (order : ByteOrder) (alloc : Nat → Bool) (a : Assembly) (frames : List Msg)
    (n : Nat) (buffers : List Buffer) : Prop :=
  ∀ k ≤ buffers.length, ∃ r, ReceiveSized alloc a (buffers.take k) r ∧
    r.delivered = a.delivered ++ survivors alloc a.allocCount
      (framesWithin order frames (n + bytesIn (buffers.take k))) ∧
    r.allocCount = a.allocCount +
      (framesWithin order frames (n + bytesIn (buffers.take k))).length

/-- The length that is left in the connection when the allocation of the last of some frames
    fails; `stale` was left there before. -/
def savedLength (alloc : Nat → Bool) : Nat → Option Nat → List Msg → Option Nat
  | _, stale, [] => stale
  | c, _, f :: rest =>
    savedLength alloc (c + 1) (if alloc c then none else some f.m_header.m_length.toNat) rest

/-- One call that completes the frames `arrived` and leaves `left` bytes of the next one: only
    the last allocation may fail, and the loop stops between frames, inside a frame whose header
    is there, or at the failed allocation. -/
def CallCuts (alloc : Nat → Bool) (c : Nat) (stale : Option Nat) (arrived : List Msg)
    (left : Nat) : Prop :=
  (∀ i < arrived.length - 1, alloc (c + i) = true) ∧
    (left = 0 ∨ 40 ≤ left ∨ (savedLength alloc c stale arrived).isSome = true)

/-- Where buffers may end and allocations may fail.  The allocations are numbered from `c` on,
    `stale` is the length of the frame handled last if its allocation failed, and `n` bytes of
    the frames have been received. -/
def FailureCuts (order : ByteOrder) (alloc : Nat → Bool) :
    Nat → Option Nat → List Msg → Nat → List Buffer → Prop
  | _, _, _, _, [] => True
  | c, stale, frames, n, buffer :: rest =>
    let arrived := framesWithin order frames (n + buffer.m_bytes.length)
    let left := leftover order frames (n + buffer.m_bytes.length)
    n + buffer.m_bytes.length < 2 ^ 32 ∧
      (∀ L ∈ stale, ∀ f ∈ frames.head?, f.m_header.m_length.toNat = L) ∧
      CallCuts alloc c stale arrived left ∧
      FailureCuts order alloc (c + arrived.length) (savedLength alloc c stale arrived)
        (frames.drop arrived.length) left rest

instance (alloc : Nat → Bool) (c : Nat) (stale : Option Nat) (arrived : List Msg) (left : Nat) :
    Decidable (CallCuts alloc c stale arrived left) :=
  inferInstanceAs (Decidable (_ ∧ _))

instance decidableFailureCuts (order : ByteOrder) (alloc : Nat → Bool) :
    ∀ (c : Nat) (stale : Option Nat) (frames : List Msg) (n : Nat) (buffers : List Buffer),
      Decidable (FailureCuts order alloc c stale frames n buffers)
  | _, _, _, _, [] => .isTrue trivial
  | c, stale, frames, n, buffer :: rest =>
    have := decidableFailureCuts order alloc
      (c + (framesWithin order frames (n + buffer.m_bytes.length)).length)
      (savedLength alloc c stale (framesWithin order frames (n + buffer.m_bytes.length)))
      (frames.drop (framesWithin order frames (n + buffer.m_bytes.length)).length)
      (leftover order frames (n + buffer.m_bytes.length)) rest
    inferInstanceAs (Decidable (_ ∧ _ ∧ _ ∧ _))

theorem survivors_append (alloc : Nat → Bool) (c : Nat) (l₁ l₂ : List Msg) :
    survivors alloc c (l₁ ++ l₂) =
      survivors alloc c l₁ ++ survivors alloc (c + l₁.length) l₂ := by
  induction l₁ generalizing c with
  | nil => rfl
  | cons f rest ih =>
    have hcount : c + 1 + rest.length = c + (f :: rest).length := by
      rw [List.length_cons]
      omega
    simp only [List.cons_append, survivors, ih, hcount]
    split <;> rfl

/-- A frame whose allocation succeeds is one more allowed before the others. -/
theorem callCuts_cons {alloc : Nat → Bool} {c : Nat} {stale : Option Nat} {f : Msg}
    {arrived : List Msg} {left : Nat} (halloc : alloc c = true) :
    CallCuts alloc c stale (f :: arrived) left ↔ CallCuts alloc (c + 1) none arrived left := by
  have hsaved : savedLength alloc c stale (f :: arrived) =
      savedLength alloc (c + 1) none arrived := by
    rw [savedLength, if_pos halloc]
  unfold CallCuts
  rw [hsaved, List.length_cons, Nat.add_sub_cancel]
  refine and_congr_left fun _ => ⟨fun h i hi => ?_, fun h i hi => ?_⟩
  · rw [Nat.add_right_comm]
    exact h (i + 1) (by omega)
  · cases i with
    | zero => exact halloc
    | succ i =>
      have := h i (by omega)
      rwa [Nat.add_right_comm] at this

/-- After a failed allocation nothing more may arrive in the same call. -/
theorem callCuts_failed {alloc : Nat → Bool} {c : Nat} {stale : Option Nat} {f : Msg}
    {arrived : List Msg} {left : Nat} (halloc : alloc c = false) :
    CallCuts alloc c stale (f :: arrived) left ↔ arrived = [] := by
  refine ⟨fun h => ?_, ?_⟩
  · cases arrived with
    | nil => rfl
    | cons g rest =>
      have hfirst := h.1 0 (by simp)
      rw [Nat.add_zero, halloc] at hfirst
      cases hfirst
  · rintro rfl
    refine ⟨fun i hi => absurd hi (by simp), .inr (.inr ?_)⟩
    simp [savedLength, halloc]

/-! ## §2 Behind by one frame -/

/-- The connection as it would be had it been put back to wait for a header. -/
def Assembly.rewound (a : Assembly) : Assembly :=
  { a with m_stream := { a.m_stream with m_state := .waitingHeader } }

/-- The connection waits for a body of length `L`, and the frames still to come follow. -/
structure Behind (order : ByteOrder) (a : Assembly) (L : Nat) (rest : List Msg)
    (future : List UInt8) : Prop where
  state_eq : a.m_stream.m_state = .waitingBody
  length_eq : a.m_stream.m_msgHeader.m_length.toNat = L
  inSync : InSync order a.rewound rest future

/-- A connection at a loop head or between calls: in sync, or behind by a frame of length `L`. -/
def Ready (order : ByteOrder) (a : Assembly) : Option Nat → List Msg → List UInt8 → Prop
  | none, rest, future => InSync order a rest future
  | some L, rest, future => Behind order a L rest future

section Loop

variable {order : ByteOrder} {alloc : Nat → Bool} {a b r : Assembly} {f : Msg} {rest : List Msg}
  {future : List UInt8} {stale : Option Nat} {L : Nat}

theorem InSync.ready (h : InSync order a rest future) : Ready order a none rest future := h

theorem InSync.rewind (h : InSync order a rest future) : InSync order a.rewound rest future :=
  ⟨h.inv, h.byteOrder_eq, h.wellFormed, h.bytes_eq, .inl rfl⟩

/-- In sync and waiting for a body, the connection is behind by nothing but the next frame. -/
theorem InSync.behind (h : InSync order a (f :: rest) future)
    (hstate : a.m_stream.m_state = .waitingBody) :
    Behind order a f.m_header.m_length.toNat (f :: rest) future := by
  refine ⟨hstate, ?_, h.rewind⟩
  rcases h.state with hst | ⟨-, h40, hsaved⟩
  · rw [hst] at hstate
    cases hstate
  · rw [hsaved, h.headerAt_eq h40]

theorem Ready.rewind (h : Ready order a stale rest future) :
    InSync order a.rewound rest future := by
  cases stale with
  | none => exact InSync.rewind h
  | some L => exact h.inSync

theorem Ready.size_eq (h : Ready order a stale rest future) :
    a.m_stream.m_is.m_size = a.m_stream.m_is.unread.length :=
  h.rewind.inv.size_eq

theorem msgBufSize_eq (h : MsgHeader) : msgBufSize h = h.m_length.toNat := by
  rcases Nat.lt_or_ge h.m_length.toNat 40 with hlt | hle
  · exact msgBufSize_of_lt hlt
  · exact msgBufSize_of_le hle

/-- In sync or behind by a frame of the right length, buffers are sized right. -/
theorem Ready.sized (h : Ready order a stale rest future)
    (hown : ∀ L ∈ stale, ∀ f ∈ rest.head?, f.m_header.m_length.toNat = L) : SizedForOwn a := by
  rintro ⟨hstate, hpos, hlen⟩
  cases stale with
  | none =>
    rcases h.state with hst | ⟨-, -, hsaved⟩
    · rw [hst] at hstate
      cases hstate
    · rw [hsaved, h.byteOrder_eq]
  | some L =>
    have hsize := Ready.size_eq h
    rw [hsize] at hpos hlen
    cases rest with
    | nil =>
      have hbytes := congrArg List.length h.inSync.bytes_eq
      rw [wire_nil, List.length_append, List.length_nil] at hbytes
      have : 0 < a.rewound.m_stream.m_is.unread.length := hpos
      omega
    | cons f rest =>
      have hf : f.m_header.m_length.toNat = L := hown L rfl f rfl
      obtain ⟨hwire, hbig⟩ := h.inSync.frame_length
      have hsaved := h.length_eq
      have hheader : headerAt a.m_stream.m_is.m_byteOrder a.m_stream.m_is.unread = f.m_header := by
        have hat := h.inSync.headerAt_eq (by show 40 ≤ a.m_stream.m_is.unread.length; omega)
        rw [← h.inSync.byteOrder_eq] at hat
        exact hat
      rw [hheader, msgBufSize_eq, msgBufSize_eq, hsaved, hf]

/-- With a whole header there, the connection comes to wait for the body of the next frame. -/
theorem Ready.to_body (alloc : Nat → Bool) (h : Ready order a stale (f :: rest) future)
    (hown : ∀ L ∈ stale, f.m_header.m_length.toNat = L)
    (hlen : 40 ≤ a.m_stream.m_is.unread.length) :
    ∃ b, LoopStep.Visits (assembleStep alloc) a b ∧
      Behind order b f.m_header.m_length.toNat (f :: rest) future ∧
      b.m_stream.m_is = a.m_stream.m_is ∧ b.delivered = a.delivered ∧
      b.allocCount = a.allocCount := by
  cases stale with
  | none =>
    obtain ⟨b, hvisits, hb, hstate, his, hdel, hcount⟩ := InSync.to_body alloc h hlen
    exact ⟨b, hvisits, hb.behind hstate, his, hdel, hcount⟩
  | some L =>
    have hf : f.m_header.m_length.toNat = L := hown L rfl
    exact ⟨a, .refl a, ⟨h.state_eq, h.length_eq.trans hf.symm, h.inSync⟩, rfl, rfl, rfl⟩

/-- What one pass makes of the next frame, once its length is saved and it is wholly there. -/
theorem Behind.pass (alloc : Nat → Bool)
    (h : Behind order a f.m_header.m_length.toNat (f :: rest) future)
    (hlen : (serialized order f).length ≤ a.m_stream.m_is.unread.length) :
    (alloc a.allocCount = true → ∃ b, assembleStep alloc a = .next b ∧
      InSync order b rest future ∧
      b.m_stream.m_is.unread = a.m_stream.m_is.unread.drop (serialized order f).length ∧
      b.delivered = a.delivered ++ [f] ∧ b.allocCount = a.allocCount + 1) ∧
    (alloc a.allocCount = false → ∃ b, assembleStep alloc a = .done b ∧
      Behind order b f.m_header.m_length.toNat rest future ∧
      b.m_stream.m_is.unread = a.m_stream.m_is.unread.drop (serialized order f).length ∧
      b.delivered = a.delivered ∧ b.allocCount = a.allocCount + 1) := by
  obtain ⟨hwire, hbig⟩ := h.inSync.frame_length
  have hwf := h.inSync.wellFormed f List.mem_cons_self
  have hinv : a.m_stream.m_is.Inv := h.inSync.inv
  have hrest : ∀ g ∈ rest, WellFormed g := fun g hg =>
    h.inSync.wellFormed g (List.mem_cons_of_mem f hg)
  have horder : a.m_stream.m_is.m_byteOrder = order := h.inSync.byteOrder_eq
  obtain ⟨hsplit, hfollow⟩ : a.m_stream.m_is.unread = serialized order f ++
        a.m_stream.m_is.unread.drop (serialized order f).length ∧
      wire order rest = a.m_stream.m_is.unread.drop (serialized order f).length ++ future :=
    h.inSync.unread_eq hlen
  have hat : headerAt a.m_stream.m_is.m_byteOrder a.m_stream.m_is.unread = f.m_header := by
    rw [horder]
    exact h.inSync.headerAt_eq (by show 40 ≤ a.m_stream.m_is.unread.length; omega)
  refine ⟨fun halloc => ?_, fun halloc => ?_⟩
  · obtain ⟨is, hcons, hstep⟩ := assembleStep_body_sized h.state_eq hinv h.length_eq
      (by rw [hat]) (by omega) (by omega) (by omega) halloc
    -- the payload in the stream is the payload of the frame
    have hpay : (a.m_stream.m_is.unread.drop 40).take (f.m_header.m_length.toNat - 40) =
        f.m_payload := by
      have h40 := headerBytes_length order f.m_header hwf.consistent.magic_length
      have hlen' : f.m_header.m_length.toNat - 40 = f.m_payload.length := by
        rw [hwf.length_eq]
        omega
      rw [hsplit, serialized_eq order hwf, List.append_assoc, ← h40, List.drop_left, h40, hlen',
        List.take_left]
    rw [← hwire] at hcons
    refine ⟨_, hstep, ⟨hcons.inv, hcons.byteOrder_eq.trans horder, hrest, ?_, .inl rfl⟩,
      hcons.unread_eq, ?_, rfl⟩
    · dsimp only
      rw [hcons.unread_eq, hfollow]
    · dsimp only
      rw [hat, hpay]
  · obtain ⟨is, hcons, hstep⟩ := assembleStep_body_unallocated h.state_eq hinv
      (by rw [hinv.size_eq]; omega) (by rw [hinv.size_eq, h.length_eq]; omega) halloc
    rw [h.length_eq, ← hwire] at hcons
    refine ⟨_, hstep, ⟨h.state_eq, h.length_eq, hcons.inv,
      hcons.byteOrder_eq.trans horder, hrest, ?_, .inl rfl⟩, hcons.unread_eq, rfl, rfl⟩
    show wire order rest = is.unread ++ future
    rw [hcons.unread_eq, hfollow]

/-- Until the next frame is wholly there, a saved length of its own makes the loop wait. -/
theorem Behind.wait (alloc : Nat → Bool) (h : Behind order a L rest future)
    (hlen : a.m_stream.m_is.m_size = 0 ∨ a.m_stream.m_is.m_size < L) :
    assembleStep alloc a = .done a := by
  rcases hlen with hzero | hlt
  · exact assembleStep_empty hzero
  · exact assembleStep_body_short h.state_eq (by rw [h.length_eq]; exact hlt)

/-! ## §3 Running the loop -/

/-- A pass from a state that is in sync, or behind by a frame of the right length, that is
    followed by another one. -/
theorem Ready.next (h : Ready order a stale rest future)
    (hown : ∀ L ∈ stale, ∀ f ∈ rest.head?, f.m_header.m_length.toNat = L)
    (hstep : assembleStep alloc a = .next b) : ∃ rest', InSync order b rest' future := by
  have hsize := h.size_eq
  by_cases hzero : a.m_stream.m_is.m_size = 0
  · rw [assembleStep_empty hzero] at hstep
    cases hstep
  cases rest with
  -- without frames to come nothing is unread
  | nil =>
    have hbytes := congrArg List.length h.rewind.bytes_eq
    rw [wire_nil, List.length_append, List.length_nil] at hbytes
    have : a.rewound.m_stream.m_is.unread.length = a.m_stream.m_is.m_size := hsize.symm
    omega
  | cons f rest =>
    -- a pass over a body goes on only if the frame was delivered
    have hbody : ∀ c, Behind order c f.m_header.m_length.toNat (f :: rest) future →
        assembleStep alloc c = .next b → ∃ rest', InSync order b rest' future := by
      intro c hc hcstep
      have hwire := hc.inSync.frame_length.1
      by_cases hwhole : (serialized order f).length ≤ c.m_stream.m_is.unread.length
      · cases halloc : alloc c.allocCount with
        | true =>
          obtain ⟨d, hd, hsync, -⟩ := (hc.pass alloc hwhole).1 halloc
          rw [hd] at hcstep
          cases hcstep
          exact ⟨rest, hsync⟩
        | false =>
          obtain ⟨d, hd, -⟩ := (hc.pass alloc hwhole).2 halloc
          rw [hd] at hcstep
          cases hcstep
      · have hcsize : c.m_stream.m_is.m_size = c.m_stream.m_is.unread.length :=
          hc.inSync.inv.size_eq
        rw [hc.wait alloc (.inr (by omega))] at hcstep
        cases hcstep
    cases stale with
    | some L =>
      have hf : f.m_header.m_length.toNat = L := hown L rfl f rfl
      exact hbody a ⟨h.state_eq, h.length_eq.trans hf.symm, h.inSync⟩ hstep
    -- in sync a pass over the header comes first
    | none =>
      rcases h.state with hstate | ⟨hstate, -⟩
      · by_cases h40 : 40 ≤ a.m_stream.m_is.unread.length
        · obtain ⟨c, hc, hsync, -⟩ := InSync.pass_header alloc h hstate h40
          rw [hc] at hstep
          cases hstep
          exact ⟨_, hsync⟩
        · rw [assembleStep_header_short hstate (by omega) (by omega)] at hstep
          cases hstep
          exact ⟨_, h⟩
      · exact hbody a (InSync.behind h hstate) hstep

theorem Ready.allSized (alloc : Nat → Bool) (h : Ready order a stale rest future)
    (hown : ∀ L ∈ stale, ∀ f ∈ rest.head?, f.m_header.m_length.toNat = L) :
    AllSized alloc a := by
  intro t hvisits
  have hsync : t = a ∨ ∃ rest', InSync order t rest' future := by
    refine hvisits.invariant (fun s => s = a ∨ ∃ rest', InSync order s rest' future) ?_ (.inl rfl)
    rintro s s' (rfl | ⟨rest', hs⟩) hstep
    · exact .inr (h.next hown hstep)
    · exact .inr (hs.ready.next (fun L hL => by cases hL) hstep)
  rcases hsync with rfl | ⟨rest', ht⟩
  · exact h.sized hown
  · exact ht.ready.sized (fun L hL => by cases hL)

/-- A call that has taken care of all that has arrived, as far as the allocations allow. -/
structure Settled (order : ByteOrder) (alloc : Nat → Bool) (a : Assembly) (stale : Option Nat)
    (rest : List Msg) (future : List UInt8) (n : Nat) (r : Assembly) : Prop where
  delivered_eq : r.delivered = a.delivered ++
    survivors alloc a.allocCount (framesWithin order rest n)
  allocCount_eq : r.allocCount = a.allocCount + (framesWithin order rest n).length
  unread_length : r.m_stream.m_is.unread.length = leftover order rest n
  ready : Ready order r (savedLength alloc a.allocCount stale (framesWithin order rest n))
    (rest.drop (framesWithin order rest n).length) future
  waiting : r.m_stream.m_is.unread = [] ∨ r.m_stream.m_state = .waitingBody

/-- What a call makes of the frames that have arrived: it settles if the cuts allow it, and
    otherwise a frame that has arrived is not handled. -/
def CutsDecide (order : ByteOrder) (alloc : Nat → Bool) (a : Assembly) (stale : Option Nat)
    (rest : List Msg) (future : List UInt8) : Prop :=
  (CallCuts alloc a.allocCount stale (framesWithin order rest a.m_stream.m_is.unread.length)
      (leftover order rest a.m_stream.m_is.unread.length) →
    ∃ r, LoopStep.Ends (assembleStep alloc) a r ∧
      Settled order alloc a stale rest future a.m_stream.m_is.unread.length r) ∧
  (¬ CallCuts alloc a.allocCount stale (framesWithin order rest a.m_stream.m_is.unread.length)
      (leftover order rest a.m_stream.m_is.unread.length) →
    ∀ r, LoopStep.Ends (assembleStep alloc) a r → r.allocCount ≠
      a.allocCount + (framesWithin order rest a.m_stream.m_is.unread.length).length)

/-- All frames have been handled, and nothing is unread. -/
private theorem Ready.decide_nil (alloc : Nat → Bool) (h : Ready order a stale [] future) :
    CutsDecide order alloc a stale [] future := by
  have hnil : a.m_stream.m_is.unread = [] := by
    have hbytes := h.rewind.bytes_eq
    rw [wire_nil] at hbytes
    exact (List.append_eq_nil_iff.mp hbytes.symm).1
  have hzero : a.m_stream.m_is.m_size = 0 := by rw [h.size_eq, hnil, List.length_nil]
  have hcuts : CallCuts alloc a.allocCount stale
      (framesWithin order [] a.m_stream.m_is.unread.length)
      (leftover order [] a.m_stream.m_is.unread.length) :=
    ⟨fun i hi => absurd hi (by simp [framesWithin]), .inl (by rw [hnil]; rfl)⟩
  refine ⟨fun _ => ⟨a, LoopStep.ends_of_done (assembleStep_empty hzero), ?_⟩,
    fun hnot => absurd hcuts hnot⟩
  exact ⟨by simp [framesWithin, survivors], rfl, rfl, h, .inl hnil⟩

/-- The next frame is skipped, and the loop is left with what arrived after it. -/
private theorem decide_failed {d : Assembly}
    (hwhole : (serialized order f).length ≤ a.m_stream.m_is.unread.length)
    (halloc : alloc a.allocCount = false) (hends : LoopStep.Ends (assembleStep alloc) a d)
    (hbehind : Behind order d f.m_header.m_length.toNat rest future)
    (hunread : d.m_stream.m_is.unread = a.m_stream.m_is.unread.drop (serialized order f).length)
    (hdel : d.delivered = a.delivered) (hcount : d.allocCount = a.allocCount + 1) :
    CutsDecide order alloc a stale (f :: rest) future := by
  have hlen : d.m_stream.m_is.unread.length =
      a.m_stream.m_is.unread.length - (serialized order f).length := by
    rw [hunread, List.length_drop]
  unfold CutsDecide
  rw [framesWithin, if_pos hwhole, leftover, if_pos hwhole, List.length_cons,
    callCuts_failed halloc]
  refine ⟨fun hlast => ⟨d, hends, ?_⟩, fun hmore r hr => ?_⟩
  · refine ⟨?_, ?_, ?_, ?_, .inr hbehind.state_eq⟩
    · rw [framesWithin, if_pos hwhole, hlast, hdel]
      simp [survivors, halloc]
    · rw [framesWithin, if_pos hwhole, hlast, hcount]
      rfl
    · rw [leftover, if_pos hwhole, hlen, leftover_of_settled hlast]
    · rw [framesWithin, if_pos hwhole, hlast]
      simp only [savedLength, halloc]
      exact hbehind
  · rw [hends.unique hr] at hcount
    have hpos := List.length_pos_iff.mpr hmore
    omega

/-- The next frame is delivered, and the loop goes on with the others. -/
private theorem decide_taken {d : Assembly}
    (hwhole : (serialized order f).length ≤ a.m_stream.m_is.unread.length)
    (halloc : alloc a.allocCount = true) (hvisits : LoopStep.Visits (assembleStep alloc) a d)
    (hunread : d.m_stream.m_is.unread = a.m_stream.m_is.unread.drop (serialized order f).length)
    (hdel : d.delivered = a.delivered ++ [f]) (hcount : d.allocCount = a.allocCount + 1)
    (hrest : CutsDecide order alloc d none rest future) :
    CutsDecide order alloc a stale (f :: rest) future := by
  obtain ⟨hgood, hbad⟩ := hrest
  have hlen : d.m_stream.m_is.unread.length =
      a.m_stream.m_is.unread.length - (serialized order f).length := by
    rw [hunread, List.length_drop]
  rw [hcount, hlen] at hgood hbad
  unfold CutsDecide
  rw [framesWithin, if_pos hwhole, leftover, if_pos hwhole, List.length_cons, callCuts_cons halloc]
  refine ⟨fun hcuts => ?_, fun hcuts r hr => ?_⟩
  · obtain ⟨r, hends, hr⟩ := hgood hcuts
    refine ⟨r, hvisits.ends_iff.mpr hends, ?_, ?_, ?_, ?_, hr.waiting⟩
    · rw [framesWithin, if_pos hwhole, hr.delivered_eq, hdel, hcount, survivors,
        if_pos halloc, List.append_assoc]
      rfl
    · rw [framesWithin, if_pos hwhole, hr.allocCount_eq, hcount, List.length_cons]
      omega
    · rw [leftover, if_pos hwhole]
      exact hr.unread_length
    · have hready := hr.ready
      rw [hcount] at hready
      rw [framesWithin, if_pos hwhole, savedLength, if_pos halloc]
      exact hready
  · have := hbad hcuts r (hvisits.ends_iff.mp hr)
    omega

/-- The next frame is not complete: the loop waits for it, if it has not stopped in a header. -/
private theorem Ready.decide_waiting (alloc : Nat → Bool)
    (h : Ready order a stale (f :: rest) future)
    (hf : ∀ L ∈ stale, f.m_header.m_length.toNat = L)
    (hincomplete : ¬ (serialized order f).length ≤ a.m_stream.m_is.unread.length) :
    CutsDecide order alloc a stale (f :: rest) future := by
  have hsize := h.size_eq
  obtain ⟨hwire, hbig⟩ := h.rewind.frame_length
  have hwithin : framesWithin order (f :: rest) a.m_stream.m_is.unread.length = [] := by
    rw [framesWithin, if_neg hincomplete]
  have hleft : leftover order (f :: rest) a.m_stream.m_is.unread.length =
      a.m_stream.m_is.unread.length := by
    rw [leftover, if_neg hincomplete]
  have hsettled : ∀ b : Assembly, Ready order b stale (f :: rest) future →
      b.m_stream.m_is = a.m_stream.m_is → b.delivered = a.delivered →
      b.allocCount = a.allocCount →
      (b.m_stream.m_is.unread = [] ∨ b.m_stream.m_state = .waitingBody) →
      Settled order alloc a stale (f :: rest) future a.m_stream.m_is.unread.length b := by
    intro b hb his hdel hcount hwait
    refine ⟨?_, ?_, by rw [hleft, his], by rw [hwithin]; exact hb, hwait⟩
    · rw [hwithin, hdel]
      exact (List.append_nil _).symm
    · rw [hwithin, hcount]
      rfl
  unfold CutsDecide
  rw [hwithin, hleft]
  cases stale with
  | some L =>
    -- the length that is saved is that of the frame
    have hfL := hf L rfl
    have hdone := Behind.wait alloc h (.inr (by omega))
    refine ⟨fun _ => ⟨a, LoopStep.ends_of_done hdone,
      hsettled a h rfl rfl rfl (.inr h.state_eq)⟩, fun hnot => absurd ?_ hnot⟩
    exact ⟨fun i hi => absurd hi (by simp), .inr (.inr rfl)⟩
  | none =>
    have hcuts : CallCuts alloc a.allocCount none [] a.m_stream.m_is.unread.length ↔
        a.m_stream.m_is.unread.length = 0 ∨ 40 ≤ a.m_stream.m_is.unread.length := by
      simp [CallCuts, savedLength]
    rw [hcuts]
    refine ⟨fun hclean => ?_, fun hpartial r hr => ?_⟩
    · rcases hclean with hzero | hheader
      · exact ⟨a, LoopStep.ends_of_done (assembleStep_empty (hsize.trans hzero)),
          hsettled a h rfl rfl rfl (.inl (List.eq_nil_of_length_eq_zero hzero))⟩
      · obtain ⟨b, hvisits, hsync, hstate, his, hdel, hcount⟩ := InSync.to_body alloc h hheader
        have hdone := (hsync.behind hstate).wait alloc (.inr (by rw [his]; omega))
        exact ⟨b, hvisits.ends_iff.mpr (LoopStep.ends_of_done hdone),
          hsettled b hsync his hdel hcount (.inr hstate)⟩
    · exact absurd hr
        (LoopStep.not_ends_of_diverges ((InSync.run_incomplete alloc h (by omega)).2 hpartial))

/-- **Running the loop**: with the right length saved, the cuts decide what a call does. -/
theorem Ready.run (alloc : Nat → Bool) (h : Ready order a stale rest future)
    (hown : ∀ L ∈ stale, ∀ f ∈ rest.head?, f.m_header.m_length.toNat = L) :
    CutsDecide order alloc a stale rest future := by
  -- induction on the frames still to come
  induction rest generalizing a stale with
  | nil => exact h.decide_nil alloc
  | cons f rest ih =>
    have hf : ∀ L ∈ stale, f.m_header.m_length.toNat = L := fun L hL => hown L hL f rfl
    by_cases hwhole : (serialized order f).length ≤ a.m_stream.m_is.unread.length
    · obtain ⟨hwire, hbig⟩ := h.rewind.frame_length
      obtain ⟨b, hvisits, hb, his, hdel, hcount⟩ := h.to_body alloc hf (by omega)
      obtain ⟨htaken, hfailed⟩ := hb.pass alloc (by rw [his]; exact hwhole)
      rw [his, hdel, hcount] at htaken hfailed
      cases halloc : alloc a.allocCount with
      | false =>
        obtain ⟨d, hdone, hbehind, hunread, hddel, hdcount⟩ := hfailed halloc
        exact decide_failed hwhole halloc (hvisits.ends_iff.mpr (LoopStep.ends_of_done hdone))
          hbehind hunread hddel hdcount
      | true =>
        obtain ⟨d, hnext, hsync, hunread, hddel, hdcount⟩ := htaken halloc
        exact decide_taken hwhole halloc (hvisits.snoc hnext) hunread hddel hdcount
          (ih hsync.ready fun L hL => by cases hL)
    · exact h.decide_waiting alloc hf hwhole

/-! ## §4 One call -/

/-- The number of allocations only grows, and an allocation counts. -/
theorem assembleStep_allocCount
    (h : assembleStep alloc a = .next b ∨ assembleStep alloc a = .done b) :
    a.allocCount ≤ b.allocCount ∧ (a.Allocates → a.allocCount < b.allocCount) := by
  -- only the body state allocates
  have hbody : ∀ more c, onWaitBody alloc a = .ok (more, c) → a.allocCount ≤ c.allocCount ∧
      (a.Allocates → a.allocCount < c.allocCount) := by
    intro more c hc
    unfold onWaitBody at hc
    dsimp only at hc
    split at hc
    · rename_i hshort
      cases hc
      exact ⟨Nat.le_refl _, fun halloc => absurd hshort (Nat.not_lt.mpr halloc.2.2)⟩
    have hcount : c.allocCount = a.allocCount + 1 := by
      split at hc
      · cases hc
      · split at hc
        · cases hc
        · split at hc <;> (cases hc; rfl)
      · split at hc <;> cases hc <;> rfl
    omega
  unfold assembleStep at h
  split at h
  · rename_i hzero
    rcases h with h | h
    · cases h
    · cases h
      exact ⟨Nat.le_refl _, fun halloc => absurd hzero (Nat.pos_iff_ne_zero.mp halloc.2.1)⟩
  cases hstate : a.m_stream.m_state with
  | waitingBody =>
    simp only [hstate] at h
    cases hc : onWaitBody alloc a with
    | error fault => simp [hc] at h
    | ok p =>
      obtain ⟨more, c⟩ := p
      have hbc : b = c := by
        cases more <;> simpa [hc, eq_comm] using h
      exact hbc ▸ hbody more c hc
  -- the other states leave the count as it is
  | waitingHeader =>
    refine ⟨?_, fun halloc => by rw [halloc.1] at hstate; cases hstate⟩
    simp only [hstate] at h
    cases hc : onWaitHeader a.m_stream with
    | error fault => simp [hc, goOn] at h
    | ok ms =>
      simp only [hc, goOn, reduceCtorEq, or_false, LoopStep.next.injEq] at h
      subst h
      exact Nat.le_refl _
  | resync =>
    refine ⟨?_, fun halloc => by rw [halloc.1] at hstate; cases hstate⟩
    simp only [hstate] at h
    cases hc : onResync a.m_stream with
    | error fault => simp [hc, goOn] at h
    | ok ms =>
      simp only [hc, goOn, reduceCtorEq, or_false, LoopStep.next.injEq] at h
      subst h
      exact Nat.le_refl _

theorem ends_allocCount (h : LoopStep.Ends (assembleStep alloc) a r) :
    a.allocCount ≤ r.allocCount ∧ (a.Allocates → a.allocCount < r.allocCount) := by
  have hle : ∀ s, LoopStep.Ends (assembleStep alloc) s r → s.allocCount ≤ r.allocCount := by
    intro s hs
    obtain ⟨t, hvisits, hdone⟩ := hs.exists_last
    have hlast := (assembleStep_allocCount (.inr hdone)).1
    have hbefore : s.allocCount ≤ t.allocCount :=
      hvisits.invariant (fun x => s.allocCount ≤ x.allocCount)
        (fun x y hx hstep => Nat.le_trans hx (assembleStep_allocCount (.inl hstep)).1)
        (Nat.le_refl _)
    exact Nat.le_trans hbefore hlast
  refine ⟨hle a h, fun halloc => ?_⟩
  cases hstep : assembleStep alloc a with
  | next b =>
    exact Nat.lt_of_lt_of_le ((assembleStep_allocCount (.inl hstep)).2 halloc)
      (hle b ((LoopStep.ends_iff_of_next hstep).mp h))
  | done b =>
    obtain rfl := (LoopStep.ends_of_done hstep).unique h
    exact (assembleStep_allocCount (.inr hstep)).2 halloc
  | fault e => exact absurd h (LoopStep.not_ends_of_fault hstep)

/-- A connection that waits for a body of the wrong length either leaves the loop at once or
    allocates with the wrong size. -/
theorem Behind.ends (h : Behind order a L rest future)
    (hends : LoopStep.Ends (assembleStep alloc) a r) : r = a ∨ a.Allocates := by
  by_cases hwait : a.m_stream.m_is.m_size = 0 ∨ a.m_stream.m_is.m_size < L
  · exact .inl ((LoopStep.ends_of_done (h.wait alloc hwait)).unique hends).symm
  · refine .inr ⟨h.state_eq, by omega, ?_⟩
    rw [h.length_eq]
    omega

/-- **One call, exactly**: from a state that is in sync or behind, the call and what comes after
    it (`P`, which amounts to `Q`) go well if and only if the saved length is the one of the next
    frame and the cuts allow the call. -/
theorem Ready.call_iff (alloc : Nat → Bool) {P : Assembly → Prop} {Q : Prop}
    (h : Ready order a stale rest future)
    (hlater : ∀ r, Settled order alloc a stale rest future a.m_stream.m_is.unread.length r →
      (P r ↔ Q))
    (hwaits : framesWithin order rest a.m_stream.m_is.unread.length = [] → Q →
      ∀ L ∈ stale, ∀ f ∈ rest.head?, f.m_header.m_length.toNat = L) :
    (∃ r, LoopStep.Ends (assembleStep alloc) a r ∧ AllSized alloc a ∧
        r.delivered = a.delivered ++ survivors alloc a.allocCount
          (framesWithin order rest a.m_stream.m_is.unread.length) ∧
        r.allocCount = a.allocCount +
          (framesWithin order rest a.m_stream.m_is.unread.length).length ∧ P r) ↔
      (∀ L ∈ stale, ∀ f ∈ rest.head?, f.m_header.m_length.toNat = L) ∧
        CallCuts alloc a.allocCount stale
          (framesWithin order rest a.m_stream.m_is.unread.length)
          (leftover order rest a.m_stream.m_is.unread.length) ∧ Q := by
  refine ⟨?_, ?_⟩
  · rintro ⟨r, hends, hsized, -, hcount, hP⟩
    have hown : ∀ L ∈ stale, ∀ f ∈ rest.head?, f.m_header.m_length.toNat = L := by
      cases stale with
      | none => exact fun L hL => by cases hL
      | some L =>
        by_cases hnone : framesWithin order rest a.m_stream.m_is.unread.length = []
        · -- nothing has arrived, so nothing was allocated
          rcases Behind.ends h hends with rfl | halloc
          · refine hwaits hnone ((hlater r ?_).mp hP)
            exact ⟨by rw [hnone]; exact (List.append_nil _).symm, hcount,
              (leftover_of_settled hnone).symm, by rw [hnone]; exact h, .inr h.state_eq⟩
          · have := (ends_allocCount hends).2 halloc
            rw [hnone] at hcount
            exact absurd hcount (by simpa using Nat.ne_of_gt this)
        · -- a frame has arrived, so a message was allocated, with its own size
          have hlen := List.length_pos_iff.mpr hnone
          rcases Behind.ends h hends with rfl | halloc
          · omega
          · cases rest with
            | nil => exact absurd rfl hnone
            | cons f rest =>
              have hwhole : (serialized order f).length ≤ a.m_stream.m_is.unread.length := by
                by_contra hnot
                exact hnone (by rw [framesWithin, if_neg hnot])
              have hbig := (Ready.rewind h).frame_length.2
              have hat := (Ready.rewind h).headerAt_eq
                (by show 40 ≤ a.m_stream.m_is.unread.length; omega)
              have heq := hsized a (.refl a) halloc
              rw [msgBufSize_eq, msgBufSize_eq, h.length_eq] at heq
              rw [← (Ready.rewind h).byteOrder_eq] at hat
              intro L' hL' g hg
              obtain rfl : L = L' := Option.some.inj hL'
              obtain rfl : f = g := Option.some.inj hg
              rw [heq, ← hat]
              rfl
    have hrun := h.run alloc hown
    have hcuts : CallCuts alloc a.allocCount stale
        (framesWithin order rest a.m_stream.m_is.unread.length)
        (leftover order rest a.m_stream.m_is.unread.length) := by
      by_contra hnot
      exact hrun.2 hnot r hends hcount
    obtain ⟨r', hends', hsettled⟩ := hrun.1 hcuts
    obtain rfl := hends.unique hends'
    exact ⟨hown, hcuts, (hlater r hsettled).mp hP⟩
  · rintro ⟨hown, hcuts, hQ⟩
    obtain ⟨r, hends, hsettled⟩ := (h.run alloc hown).1 hcuts
    exact ⟨r, hends, h.allSized alloc hown, hsettled.delivered_eq, hsettled.allocCount_eq,
      (hlater r hsettled).mpr hQ⟩

/-! ## §5 All calls -/

/-- What is asked of some calls, one call at a time. -/
theorem dropsFailedOnly_cons {frames : List Msg} {n : Nat} {buffer : Buffer}
    {buffers : List Buffer} (hnone : framesWithin order frames n = []) :
    DropsFailedOnly order alloc a frames n (buffer :: buffers) ↔
      ∃ is, a.m_stream.m_is.appendBuffer buffer = .ok is ∧
        ∃ r, LoopStep.Ends (assembleStep alloc) (a.withStream is) r ∧
          AllSized alloc (a.withStream is) ∧
          r.delivered = a.delivered ++ survivors alloc a.allocCount
            (framesWithin order frames (n + buffer.m_bytes.length)) ∧
          r.allocCount = a.allocCount +
            (framesWithin order frames (n + buffer.m_bytes.length)).length ∧
          DropsFailedOnly order alloc r
            (frames.drop (framesWithin order frames (n + buffer.m_bytes.length)).length)
            (leftover order frames (n + buffer.m_bytes.length)) buffers := by
  -- what arrives with the next buffers splits behind the first
  have hsplit : ∀ k, framesWithin order frames (n + bytesIn ((buffer :: buffers).take (k + 1))) =
      framesWithin order frames (n + buffer.m_bytes.length) ++ framesWithin order
        (frames.drop (framesWithin order frames (n + buffer.m_bytes.length)).length)
        (leftover order frames (n + buffer.m_bytes.length) + bytesIn (buffers.take k)) := by
    intro k
    rw [List.take_succ_cons, bytesIn_cons, ← Nat.add_assoc, framesWithin_add]
  refine ⟨fun h => ?_, ?_⟩
  · -- the first call is the one with one buffer
    obtain ⟨r, ⟨is, a', his, hends, hsized, hr⟩, hdel, hcount⟩ := h 1 (by simp)
    obtain rfl : r = a' := by simpa [ReceiveSized] using hr
    rw [hsplit 0] at hdel hcount
    have hstop : framesWithin order
        (frames.drop (framesWithin order frames (n + buffer.m_bytes.length)).length)
        (leftover order frames (n + buffer.m_bytes.length) + bytesIn (buffers.take 0)) = [] := by
      have hadd := framesWithin_add order frames (n + buffer.m_bytes.length) 0
      rw [Nat.add_zero] at hadd
      exact List.self_eq_append_right.mp hadd
    rw [hstop, List.append_nil] at hdel hcount
    refine ⟨is, his, r, hends, hsized, hdel, hcount, fun k hk => ?_⟩
    obtain ⟨r', ⟨is', a', his', hends', -, hr'⟩, hdel', hcount'⟩ := h (k + 1) (by simpa using hk)
    rw [his] at his'
    cases his'
    obtain rfl := hends.unique hends'
    rw [hsplit k] at hdel' hcount'
    refine ⟨r', hr', ?_, ?_⟩
    · rw [hdel', survivors_append, hdel, hcount, List.append_assoc]
    · rw [hcount', hcount, List.length_append, Nat.add_assoc]
  · -- with the first call the others are one call longer
    rintro ⟨is, his, r, hends, hsized, hdel, hcount, hrest⟩ k hk
    cases k with
    | zero =>
      have hzero : bytesIn ((buffer :: buffers).take 0) = 0 := rfl
      rw [hzero, Nat.add_zero, hnone]
      exact ⟨a, rfl, (List.append_nil _).symm, rfl⟩
    | succ k =>
      obtain ⟨r', hr', hdel', hcount'⟩ := hrest k (by simpa using hk)
      refine ⟨r', ⟨is, r, his, hends, hsized, hr'⟩, ?_, ?_⟩
      · rw [hdel', hdel, hcount, hsplit k, survivors_append, List.append_assoc]
      · rw [hcount', hcount, hsplit k, List.length_append, Nat.add_assoc]

theorem Ready.append {buffer : Buffer} (h : Ready order a stale rest (buffer.m_bytes ++ future))
    (hne : buffer.m_bytes ≠ [])
    (hroom : a.m_stream.m_is.unread.length + buffer.m_bytes.length < 2 ^ 32) :
    ∃ is, a.m_stream.m_is.appendBuffer buffer = .ok is ∧
      Ready order (a.withStream is) stale rest future ∧
      is.unread.length = a.m_stream.m_is.unread.length + buffer.m_bytes.length := by
  cases stale with
  | none => exact InSync.append h hne hroom
  | some L =>
    obtain ⟨is, his, hsync, hlen⟩ := h.inSync.append hne hroom
    exact ⟨is, his, ⟨h.state_eq, h.length_eq, hsync⟩, hlen⟩

/-- When the counted size wraps, the next frame is there but is not handled. -/
theorem Ready.not_handled_of_wrap {buffer : Buffer} {is : SegmentedInputStream}
    (h : Ready order a stale rest (buffer.m_bytes ++ future))
    (hwait : a.m_stream.m_is.unread = [] ∨ a.m_stream.m_state = .waitingBody)
    (hnone : framesWithin order rest a.m_stream.m_is.unread.length = [])
    (hwrap : 2 ^ 32 ≤ a.m_stream.m_is.unread.length + buffer.m_bytes.length)
    (his : a.m_stream.m_is.appendBuffer buffer = .ok is) (hsized : AllSized alloc (a.withStream is))
    (hends : LoopStep.Ends (assembleStep alloc) (a.withStream is) r) :
    r.allocCount ≠ a.allocCount + (framesWithin order rest
      (a.m_stream.m_is.unread.length + buffer.m_bytes.length)).length := by
  have hblt := buffer.length_lt
  have hinv : a.m_stream.m_is.Inv := h.rewind.inv
  have hbytes : wire order rest = a.m_stream.m_is.unread ++ (buffer.m_bytes ++ future) :=
    h.rewind.bytes_eq
  have hsize := hinv.size_eq
  have hlt := hinv.size_lt
  -- one buffer alone does not make the counter wrap
  rcases hwait with hnil | hstate
  · rw [hnil, List.length_nil] at hwrap
    omega
  cases rest with
  -- bytes that are unread belong to a frame
  | nil =>
    have hlen := congrArg List.length hbytes
    rw [wire_nil, List.length_nil, List.length_append, List.length_append] at hlen
    omega
  | cons f rest =>
    have hwf := h.rewind.wellFormed f List.mem_cons_self
    obtain ⟨hwire, hbig⟩ := hwf.wire_length order
    have hflt := f.m_header.m_length.toNat_lt
    have hmore : a.m_stream.m_is.unread.length < (serialized order f).length := by
      by_contra hnot
      rw [framesWithin, if_pos (Nat.le_of_not_lt hnot)] at hnone
      cases hnone
    have harrived : 0 < (framesWithin order (f :: rest)
        (a.m_stream.m_is.unread.length + buffer.m_bytes.length)).length := by
      rw [framesWithin, if_pos (by omega)]
      exact Nat.succ_pos _
    -- the stream holds the bytes, but counts 2^32 fewer
    obtain ⟨hcounted, hunread, horder⟩ : is.m_size + 2 ^ 32 =
          a.m_stream.m_is.unread.length + buffer.m_bytes.length ∧
        is.unread = a.m_stream.m_is.unread ++ buffer.m_bytes ∧ is.m_byteOrder = order := by
      rw [appendBuffer_eq hinv.tail_eq hinv.addr_nodup buffer] at his
      cases his
      refine ⟨?_, hinv.unread_append _, h.rewind.byteOrder_eq⟩
      dsimp only
      rw [hsize]
      unfold add32
      omega
    -- a call that finds too few bytes allocates nothing
    have hdone : ∀ L, a.m_stream.m_msgHeader.m_length.toNat = L →
        is.m_size = 0 ∨ is.m_size < L → r.allocCount = a.allocCount := by
      intro L hL hshort
      have hstep : assembleStep alloc (a.withStream is) = .done (a.withStream is) := by
        rcases hshort with hzero | hshort
        · exact assembleStep_empty hzero
        · exact assembleStep_body_short hstate (by rw [← hL] at hshort; exact hshort)
      rw [← (LoopStep.ends_of_done hstep).unique hends]
      rfl
    cases stale with
    -- fewer bytes are counted than the frame has, so the loop waits
    | none =>
      have := hdone _ (InSync.behind h hstate).length_eq (.inr (by omega))
      omega
    | some L =>
      by_cases hshort : is.m_size = 0 ∨ is.m_size < L
      · have := hdone L h.length_eq hshort
        omega
      · -- the saved length is below what is counted, so it is not the one of the frame
        exfalso
        have halloc : (a.withStream is).Allocates := by
          refine ⟨hstate, ?_, ?_⟩
          · show 0 < is.m_size
            omega
          · show a.m_stream.m_msgHeader.m_length.toNat ≤ is.m_size
            rw [h.length_eq]
            omega
        -- the message buffer is sized by the header in the stream, so the lengths agree
        have heq := hsized _ (.refl _) halloc
        rw [msgBufSize_eq, msgBufSize_eq] at heq
        have hat : headerAt is.m_byteOrder is.unread = f.m_header := by
          have himage : wire order (f :: rest) = is.unread ++ future := by
            rw [hbytes, hunread, List.append_assoc]
          rw [horder]
          refine headerAt_of_wire hwf himage ?_
          rw [hunread, List.length_append]
          omega
        have hL : L = f.m_header.m_length.toNat := by
          rw [← hat, ← h.length_eq]
          exact heq
        omega

/-- One call and the calls after it, from a loop head. -/
theorem Ready.call_drops_iff (alloc : Nat → Bool) {buffers : List Buffer}
    (h : Ready order a stale rest (payloadOf buffers))
    (hlater : ∀ r stale' rest', Ready order r stale' rest' (payloadOf buffers) →
      (r.m_stream.m_is.unread = [] ∨ r.m_stream.m_state = .waitingBody) →
      framesWithin order rest' r.m_stream.m_is.unread.length = [] →
      (DropsFailedOnly order alloc r rest' r.m_stream.m_is.unread.length buffers ↔
        FailureCuts order alloc r.allocCount stale' rest' r.m_stream.m_is.unread.length buffers))
    {n : Nat} (hn : a.m_stream.m_is.unread.length = n) :
    (∃ r, LoopStep.Ends (assembleStep alloc) a r ∧ AllSized alloc a ∧
        r.delivered = a.delivered ++ survivors alloc a.allocCount (framesWithin order rest n) ∧
        r.allocCount = a.allocCount + (framesWithin order rest n).length ∧
        DropsFailedOnly order alloc r (rest.drop (framesWithin order rest n).length)
          (leftover order rest n) buffers) ↔
      (∀ L ∈ stale, ∀ f ∈ rest.head?, f.m_header.m_length.toNat = L) ∧
        CallCuts alloc a.allocCount stale (framesWithin order rest n) (leftover order rest n) ∧
        FailureCuts order alloc (a.allocCount + (framesWithin order rest n).length)
          (savedLength alloc a.allocCount stale (framesWithin order rest n))
          (rest.drop (framesWithin order rest n).length) (leftover order rest n) buffers := by
  subst hn
  refine h.call_iff alloc ?_ ?_
  · -- after the call no whole frame is left unhandled
    intro r hr
    have hrnone : framesWithin order
        (rest.drop (framesWithin order rest a.m_stream.m_is.unread.length).length)
        r.m_stream.m_is.unread.length = [] := by
      have hadd := framesWithin_add order rest a.m_stream.m_is.unread.length 0
      rw [Nat.add_zero, Nat.add_zero] at hadd
      rw [hr.unread_length]
      exact List.self_eq_append_right.mp hadd
    have hiff := hlater r _ _ hr.ready hr.waiting hrnone
    rw [hr.unread_length, hr.allocCount_eq] at hiff
    exact hiff
  · -- a frame that has not arrived has more bytes to come
    intro hnil hQ L hL f hf
    rw [hnil] at hQ
    cases buffers with
    | nil =>
      exfalso
      cases rest with
      | nil => cases hf
      | cons g rest =>
        have hbytes := congrArg List.length h.rewind.bytes_eq
        rw [wire_cons, List.length_append, List.length_append] at hbytes
        have hpayload : (payloadOf []).length = 0 := rfl
        have hunread : a.rewound.m_stream.m_is.unread.length =
            a.m_stream.m_is.unread.length := rfl
        rw [hpayload, hunread, Nat.add_zero] at hbytes
        rw [framesWithin, if_pos (by omega)] at hnil
        cases hnil
    | cons next buffers => exact hQ.2.1 L hL f hf

/-- **All calls, exactly**: the frames still to come are handled as asked if and only if the
    failures and the ends of the buffers obey the cuts. -/
theorem Ready.drops_iff {buffers : List Buffer} (hne : ∀ b ∈ buffers, b.m_bytes ≠ [])
    (h : Ready order a stale rest (payloadOf buffers))
    (hwait : a.m_stream.m_is.unread = [] ∨ a.m_stream.m_state = .waitingBody)
    (hnone : framesWithin order rest a.m_stream.m_is.unread.length = []) :
    DropsFailedOnly order alloc a rest a.m_stream.m_is.unread.length buffers ↔
      FailureCuts order alloc a.allocCount stale rest a.m_stream.m_is.unread.length buffers := by
  -- induction on the buffers; each call leaves a state that is in sync or behind
  induction buffers generalizing a stale rest with
  | nil =>
    refine ⟨fun _ => trivial, fun _ k hk => ?_⟩
    obtain rfl : k = 0 := Nat.le_zero.mp hk
    have hzero : bytesIn (List.take 0 []) = 0 := rfl
    rw [hzero, Nat.add_zero, hnone]
    exact ⟨a, rfl, (List.append_nil _).symm, rfl⟩
  | cons buffer buffers ih =>
    have hne' : ∀ b ∈ buffers, b.m_bytes ≠ [] := fun b hb => hne b (List.mem_cons_of_mem _ hb)
    rw [payloadOf_cons] at h
    rw [dropsFailedOnly_cons hnone]
    by_cases hroom : a.m_stream.m_is.unread.length + buffer.m_bytes.length < 2 ^ 32
    · obtain ⟨is, his, hready, hlen⟩ := h.append (hne buffer List.mem_cons_self) hroom
      have hcall := hready.call_drops_iff alloc (fun _ _ _ hr hw hn => ih hne' hr hw hn) hlen
      refine ⟨?_, ?_⟩
      · rintro ⟨is', his', hr⟩
        rw [his] at his'
        cases his'
        exact ⟨hroom, hcall.mp hr⟩
      · rintro ⟨-, hcond⟩
        exact ⟨is, his, hcall.mpr hcond⟩
    · refine iff_of_false ?_ fun hcond => hroom hcond.1
      rintro ⟨is, his, r, hends, hsized, -, hcount, -⟩
      exact h.not_handled_of_wrap hwait hnone (Nat.le_of_not_lt hroom) his hsized hends hcount

/-- A pass that allocates nothing does not matter for the sizes. -/
theorem allSized_of_next (hstep : assembleStep alloc a = .next b) (hidle : ¬ a.Allocates) :
    AllSized alloc a ↔ AllSized alloc b := by
  refine ⟨fun h t hvisits => h t (.pass hstep hvisits), fun h t hvisits => ?_⟩
  rcases hvisits.eq_or_of_next hstep with rfl | hrest
  · exact fun halloc => absurd halloc hidle
  · exact h t hrest

end Loop

/-! ## §6 From an empty stream -/

/-- A first buffer with a negative `max_index` is lost: a call that returns has allocated
    nothing. -/
theorem AtRest.large_buffer_unheard {order : ByteOrder} {alloc : Nat → Bool} {a r : Assembly}
    (ha : AtRest order a) (hstate : a.m_stream.m_state = .resync) {buffer : Buffer}
    (hlarge : 2 ^ 31 + 8 ≤ buffer.m_bytes.length) {is : SegmentedInputStream}
    (his : a.m_stream.m_is.appendBuffer buffer = .ok is)
    (hends : LoopStep.Ends (assembleStep alloc) (a.withStream is) r) :
    r.allocCount = a.allocCount := by
  obtain ⟨is', his', hinv, -, hunread, hnodes, -⟩ :=
    ha.append (List.ne_nil_of_length_pos (show 0 < buffer.m_bytes.length by omega))
  rw [his] at his'
  cases his'
  have hlen : (a.withStream is).m_stream.m_is.unread.length = buffer.m_bytes.length := by
    rw [← hunread]
    rfl
  obtain ⟨o, is₁, hcons, hstep, hlow, hhigh, -⟩ := resync_pass_missed alloc
    (a := a.withStream is) hinv hstate hnodes (by omega)
    (by show 8 ≤ buffer.m_bytes.length; omega) fun k _ => not_visible_of_large hlarge k
  change buffer.m_bytes.length - 8 ≤ o at hlow
  change o ≤ buffer.m_bytes.length at hhigh
  rw [hlen, Nat.min_eq_right hhigh] at hcons
  have hlen₁ : is₁.unread.length = buffer.m_bytes.length - o := by
    rw [hcons.unread_eq, List.length_drop, hlen]
  have hsize₁ := hcons.inv.size_eq
  rw [LoopStep.ends_iff_of_next hstep] at hends
  -- at most eight bytes are left
  rcases Nat.eq_zero_or_pos is₁.unread.length with hzero | hsome
  · rw [hends.unique (LoopStep.ends_of_done (assembleStep_empty (hsize₁.trans hzero)))]
    rfl
  rcases Nat.lt_or_ge is₁.unread.length 8 with hfew | height
  · refine absurd hends (LoopStep.not_ends_of_diverges (LoopStep.diverges_of_fixpoint
      (assembleStep_resync_short rfl ?_ ?_)))
    · show 0 < is₁.m_size
      omega
    · show is₁.m_size < 8
      omega
  · -- the next pass searches the buffer again and skips them
    have hnodes₁ : is₁.m_nodes = [⟨a.m_stream.m_is.m_nextAddr, buffer⟩] := by
      obtain ⟨head, rest, hcell⟩ := hcons.inv.exists_cons (List.length_pos_iff.mp (by omega))
      have hsuffix := hcons.suffix
      rw [show (a.withStream is).m_stream.m_is.m_nodes = _ from hnodes] at hsuffix
      refine hsuffix.eq_of_length_le ?_
      rw [hcell]
      simp
    obtain ⟨o₂, is₂, hcons₂, hstep₂, hlow₂, -⟩ := resync_pass_missed alloc
      (a := { a.withStream is with
        m_stream := ⟨is₁, (a.withStream is).m_stream.m_msgHeader, .resync⟩ }) hcons.inv rfl
      hnodes₁ height (by show 8 ≤ buffer.m_bytes.length; omega)
      fun k _ => not_visible_of_large hlarge k
    change buffer.m_bytes.length - 8 ≤ o₂ at hlow₂
    have hsize₂ : is₂.m_size = 0 := by
      rw [hcons₂.inv.size_eq, hcons₂.unread_eq, List.length_drop]
      show is₁.unread.length - min is₁.unread.length o₂ = 0
      omega
    rw [LoopStep.ends_iff_of_next hstep₂] at hends
    rw [hends.unique (LoopStep.ends_of_done (assembleStep_empty hsize₂))]
    rfl

/-- The connection does not begin with a search, or its first buffer is one in which the search
    has no negative `max_index`. -/
def Searchable (a : Assembly) (buffers : List Buffer) : Prop :=
  a.m_stream.m_state = .resync → FirstBufferSearchable buffers

instance (a : Assembly) (buffers : List Buffer) : Decidable (Searchable a buffers) :=
  inferInstanceAs (Decidable (_ → _))

private theorem not_dropsFailedOnly_of_large {order : ByteOrder} {alloc : Nat → Bool}
    {a : Assembly} (ha : AtRest order a) {frames : List Msg} (hwf : ∀ f ∈ frames, WellFormed f)
    {buffers : List Buffer} (hlarge : ¬ Searchable a buffers)
    (hwhole : framesWithin order frames (bytesIn (buffers.take 1)) ≠ []) :
    ¬ DropsFailedOnly order alloc a frames 0 buffers := by
  have hnone : framesWithin order frames 0 = [] := framesWithin_zero hwf
  unfold Searchable FirstBufferSearchable at hlarge
  push Not at hlarge
  obtain ⟨hstate, buffer, hhead, hge⟩ := hlarge
  obtain ⟨rest, rfl⟩ := List.head?_eq_some_iff.mp hhead
  rw [dropsFailedOnly_cons hnone, Nat.zero_add]
  rintro ⟨is, his, r, hends, -, -, hcount, -⟩
  rw [ha.large_buffer_unheard hstate hge his hends] at hcount
  have hbytes : bytesIn ((buffer :: rest).take 1) = buffer.m_bytes.length := rfl
  rw [hbytes] at hwhole
  have hpos := List.length_pos_iff.mpr hwhole
  omega

/-- On a connection at rest whose first buffer is not too long for the search, every frame of the
    stream is allocated once and with its own size, and is delivered by the call that completes
    it if its allocation succeeds, if and only if the buffers are cut as `FailureCuts` says. -/
private theorem dropsFailedOnly_iff_of_searchable {order : ByteOrder} {alloc : Nat → Bool}
    {a : Assembly} (ha : AtRest order a)
    (hstate : a.m_stream.m_state = .waitingHeader ∨ a.m_stream.m_state = .resync)
    {frames : List Msg} (hwf : ∀ f ∈ frames, WellFormed f) {buffers : List Buffer}
    (hne : ∀ b ∈ buffers, b.m_bytes ≠ []) (hbytes : payloadOf buffers = wire order frames)
    (hindex : Searchable a buffers) :
    DropsFailedOnly order alloc a frames 0 buffers ↔
      FailureCuts order alloc a.allocCount none frames 0 buffers := by
  have hzero : a.m_stream.m_is.unread.length = 0 := by rw [ha.empty]; rfl
  have hnone : framesWithin order frames 0 = [] := framesWithin_zero hwf
  have hsync : InSync order a.rewound frames (payloadOf buffers) := by
    refine ⟨ha.inv, ha.byteOrder_eq, hwf, ?_, .inl rfl⟩
    rw [hbytes]
    show wire order frames = a.m_stream.m_is.unread ++ wire order frames
    rw [ha.empty, List.nil_append]
  -- waiting for a header, the connection is in sync from the start
  rcases hstate with hstate | hstate
  · have hsync' : InSync order a frames (payloadOf buffers) :=
      ⟨hsync.inv, hsync.byteOrder_eq, hwf, hsync.bytes_eq, .inl hstate⟩
    have hiff := @Ready.drops_iff order alloc a frames none buffers hne hsync' (.inl ha.empty)
      (by rw [hzero]; exact hnone)
    rwa [hzero] at hiff
  · cases buffers with
    -- without buffers nothing is asked
    | nil =>
      refine ⟨fun _ => trivial, fun _ k hk => ?_⟩
      obtain rfl : k = 0 := Nat.le_zero.mp hk
      have hempty : bytesIn (List.take 0 []) = 0 := rfl
      rw [hempty, hnone]
      exact ⟨a, rfl, (List.append_nil _).symm, rfl⟩
    | cons buffer buffers =>
      have hne' : ∀ b ∈ buffers, b.m_bytes ≠ [] := fun b hb => hne b (List.mem_cons_of_mem _ hb)
      have hbne := hne buffer List.mem_cons_self
      have hpos := List.length_pos_iff.mpr hbne
      have hlt := buffer.length_lt
      rw [payloadOf_cons] at hbytes
      -- the search for the magic word comes before the first header
      obtain ⟨is, his, hlen, hshort, hlong⟩ := resync_at_start alloc a frames buffer
        (payloadOf buffers) ha.inv ha.byteOrder_eq ha.empty hstate hwf hbne
        (hindex hstate buffer rfl) hbytes.symm
      rw [dropsFailedOnly_cons hnone, Nat.zero_add]
      -- too few bytes to search: the call does not return, and no cut allows it
      rcases Nat.lt_or_ge buffer.m_bytes.length 8 with hfew | hmany
      · refine iff_of_false ?_ fun hcond => ?_
        · rintro ⟨is', his', r, hends, -⟩
          rw [his] at his'
          cases his'
          exact LoopStep.not_ends_of_diverges (hshort hfew) hends
        · have hwithin : framesWithin order frames buffer.m_bytes.length = [] := by
            cases frames with
            | nil => rfl
            | cons f rest =>
              have hbig := ((hwf f List.mem_cons_self).wire_length order).2
              rw [framesWithin, if_neg (by omega)]
          have hcuts := hcond.2.2.1.2
          rw [Nat.zero_add, hwithin, leftover_of_settled hwithin] at hcuts
          rcases hcuts with h | h | h
          · omega
          · omega
          · cases h
      · -- the search finds the first frame at the front of the buffer
        obtain ⟨b, hstep, hb, -, hbis, hdel, hcount⟩ := hlong hmany
        have hidle : ¬ (a.withStream is).Allocates := by
          rintro ⟨hbody, -⟩
          have hres : (a.withStream is).m_stream.m_state = .resync := hstate
          rw [hbody] at hres
          cases hres
        have hcall := hb.ready.call_drops_iff alloc
          (fun _ _ _ hr hw hn => Ready.drops_iff hne' hr hw hn)
          (n := buffer.m_bytes.length) (by rw [hbis, hlen])
        rw [hdel, hcount, ← allSized_of_next hstep hidle] at hcall
        refine ⟨?_, ?_⟩
        · rintro ⟨is', his', r, hends, hrest⟩
          rw [his] at his'
          cases his'
          have hcond := hcall.mp ⟨r, (LoopStep.ends_iff_of_next hstep).mp hends, hrest⟩
          unfold FailureCuts
          rw [Nat.zero_add]
          exact ⟨hlt, hcond⟩
        · intro hcond
          unfold FailureCuts at hcond
          rw [Nat.zero_add] at hcond
          obtain ⟨r, hends, hrest⟩ := hcall.mpr hcond.2
          exact ⟨is, his, r, (LoopStep.ends_iff_of_next hstep).mpr hends, hrest⟩

/-- **Failed allocations**: on a connection at rest that waits for a header or resynchronises,
    every frame of the stream is allocated once and with its own size, and is delivered by the
    call that completes it if its allocation succeeds, if and only if no call goes on to complete
    a frame after a failed allocation, the frame after a failed one has the same length, and no
    buffer ends inside a header unless the allocation before it failed; provided that the first
    buffer can be searched.  Frames in a first buffer that cannot are lost. -/
theorem drops_failed_only_iff (order : ByteOrder) (alloc : Nat → Bool) (a : Assembly)
    (ha : AtRest order a)
    (hstate : a.m_stream.m_state = .waitingHeader ∨ a.m_stream.m_state = .resync)
    (frames : List Msg) (hwf : ∀ f ∈ frames, WellFormed f) (buffers : List Buffer)
    (hne : ∀ b ∈ buffers, b.m_bytes ≠ []) (hbytes : payloadOf buffers = wire order frames) :
    (Searchable a buffers →
      (DropsFailedOnly order alloc a frames 0 buffers ↔
        FailureCuts order alloc a.allocCount none frames 0 buffers)) ∧
    (¬ Searchable a buffers → framesWithin order frames (bytesIn (buffers.take 1)) ≠ [] →
      ¬ DropsFailedOnly order alloc a frames 0 buffers) :=
  ⟨dropsFailedOnly_iff_of_searchable ha hstate hwf hne hbytes,
    not_dropsFailedOnly_of_large ha hwf⟩

/-- Two frames of one length in a buffer each: the first allocation fails, the second frame is
    delivered all the same. -/
theorem drops_failed_only_equal_lengths :
    DropsFailedOnly .hostOrder (fun n => n != 0) (connected .hostOrder 0)
      [⟨.mk' 41 7 0 5 3, [9]⟩, ⟨.mk' 41 8 0 6 3, [10]⟩] 0
      [⟨100, serialized .hostOrder ⟨.mk' 41 7 0 5 3, [9]⟩, by decide⟩,
        ⟨200, serialized .hostOrder ⟨.mk' 41 8 0 6 3, [10]⟩, by decide⟩] :=
  (drops_failed_only_iff .hostOrder (fun n => n != 0) (connected .hostOrder 0)
    ⟨new_inv .hostOrder 0 [], rfl, rfl⟩ (.inr rfl)
    [⟨.mk' 41 7 0 5 3, [9]⟩, ⟨.mk' 41 8 0 6 3, [10]⟩] (by decide)
    [⟨100, serialized .hostOrder ⟨.mk' 41 7 0 5 3, [9]⟩, by decide⟩,
      ⟨200, serialized .hostOrder ⟨.mk' 41 8 0 6 3, [10]⟩, by decide⟩]
    (by decide) (by decide)).1 (by decide) |>.mpr (by decide)

/-- The second frame is one byte longer: its 42 bytes are read into a buffer for 41. -/
theorem failed_allocation_overflows_next :
    (∀ f ∈ [(⟨.mk' 41 7 0 5 3, [9]⟩ : Msg), ⟨.mk' 42 8 0 6 3, [10, 11]⟩], WellFormed f) ∧
      payloadOf [⟨100, serialized .hostOrder ⟨.mk' 41 7 0 5 3, [9]⟩, by decide⟩,
          ⟨200, serialized .hostOrder ⟨.mk' 42 8 0 6 3, [10, 11]⟩, by decide⟩] =
        wire .hostOrder [⟨.mk' 41 7 0 5 3, [9]⟩, ⟨.mk' 42 8 0 6 3, [10, 11]⟩] ∧
      ¬ DropsFailedOnly .hostOrder (fun n => n != 0) (connected .hostOrder 0)
        [⟨.mk' 41 7 0 5 3, [9]⟩, ⟨.mk' 42 8 0 6 3, [10, 11]⟩] 0
        [⟨100, serialized .hostOrder ⟨.mk' 41 7 0 5 3, [9]⟩, by decide⟩,
          ⟨200, serialized .hostOrder ⟨.mk' 42 8 0 6 3, [10, 11]⟩, by decide⟩] := by
  refine ⟨by decide, by decide, fun h => ?_⟩
  obtain ⟨r, ⟨is₁, a₁, his₁, hends₁, -, is₂, a₂, his₂, hends₂, -⟩, -, -⟩ := h 2 (by decide)
  -- the first call skips its frame, the second one overflows
  have hfault : ((receiveAll? (fun n => n != 0) 5 (connected .hostOrder 0)
      [⟨100, serialized .hostOrder ⟨.mk' 41 7 0 5 3, [9]⟩, by decide⟩]).bind fun a =>
        (a.m_stream.m_is.appendBuffer
            ⟨200, serialized .hostOrder ⟨.mk' 42 8 0 6 3, [10, 11]⟩, by decide⟩).toOption.bind
          fun is => LoopStep.iterate (assembleStep fun n => n != 0) 5 (a.withStream is)) =
      some (.error .heapOverflow) := by
    decide +kernel
  obtain ⟨a, ha, hsecond⟩ := Option.bind_eq_some_iff.mp hfault
  obtain ⟨a', ⟨is', his', hends'⟩, hr'⟩ := receiveAll?_sound ha
  rw [his₁] at his'
  cases his'
  obtain rfl : a = a' := hr'
  obtain rfl := hends₁.unique hends'
  rw [his₂] at hsecond
  obtain ⟨n, hn⟩ := hends₂
  cases LoopStep.iterate_unique hn hsecond

end Commutil.Framing
