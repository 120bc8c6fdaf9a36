import Commutil.Framing.Segmentation

/-!
# The Length Field of a Header

`onWaitHeader` accepts a header on its magic word alone.  A length field below the
header size then wraps in `allocMsg`, and the message is built in a buffer smaller
than a header.

Runs of a connection are sequences of connection callbacks and passes of the
assembly loop, over arbitrary bytes in arbitrary buffers.  `Tidy` is the invariant
of the runs in which every accepted length is at least 40 and the other conditions
of `Meets` hold at every step: the header in use is the one at the front of the
stream, so every message that is allocated has room for what is read into it.
-/

namespace Commutil.Framing

open Commutil.Io Commutil.Library SegmentedInputStream

/-! ## §1 Runs of a connection -/

/-- A connection; `running` says that `onBytesReceived` is in its loop. -/
structure Connection where
  assembly : Assembly
  running : Bool
  deriving DecidableEq, Repr

/-- What can happen to a connection. -/
inductive ConnEvent where
  | onConnect
  | onDisconnect
  | onBytesReceived (buffer : Buffer)
  /-- One pass of the assembly loop. -/
  | pass

/-- One step of a connection. -/
inductive ConnStep (alloc : Nat → Bool) : ConnEvent → Connection → Connection → Prop where
  | onConnect (a : Assembly) : ConnStep alloc .onConnect ⟨a, false⟩ ⟨a.onConnect, false⟩
  | onDisconnect (a : Assembly) : ConnStep alloc .onDisconnect ⟨a, false⟩ ⟨a.onDisconnect, false⟩
  | onBytesReceived {a : Assembly} {buffer : Buffer} {is : SegmentedInputStream}
      (h : a.m_stream.m_is.appendBuffer buffer = .ok is) :
      ConnStep alloc (.onBytesReceived buffer) ⟨a, false⟩ ⟨a.withStream is, true⟩
  | pass {a b : Assembly} (h : a.assembleStep alloc = .next b) :
      ConnStep alloc .pass ⟨a, true⟩ ⟨b, true⟩
  /-- The pass that leaves the loop, so that the call returns. -/
  | leave {a b : Assembly} (h : a.assembleStep alloc = .done b) :
      ConnStep alloc .pass ⟨a, true⟩ ⟨b, false⟩

/-- The states reached from a newly constructed assembler by steps that all satisfy `Ok`. -/
inductive Reached (alloc : Nat → Bool) (Ok : ConnEvent → Connection → Prop) :
    Connection → Prop where
  | start (order : ByteOrder) (history : ProcessHistory) :
      Reached alloc Ok ⟨Assembly.new order history, false⟩
  | step {ev : ConnEvent} {c c' : Connection} (h : Reached alloc Ok c)
      (hstep : ConnStep alloc ev c c') (hok : Ok ev c) : Reached alloc Ok c'

namespace Assembly

/-- `onWaitHeader` is about to accept the header at the front of the stream. -/
def AcceptsHeader (a : Assembly) : Prop :=
  a.m_stream.m_state = .waitingHeader ∧ 40 ≤ a.m_stream.m_is.m_size ∧
    (headerAt a.m_stream.m_is.m_byteOrder a.m_stream.m_is.unread).isValid = true

/-- `onWaitBody` is about to allocate a message. -/
def Allocates (a : Assembly) : Prop :=
  a.m_stream.m_state = .waitingBody ∧ 0 < a.m_stream.m_is.m_size ∧
    a.m_stream.m_msgHeader.m_length.toNat ≤ a.m_stream.m_is.m_size

end Assembly

/-- What is asked of a step: an accepted header says at least 40, an allocation succeeds, a
    stream is reset only at the start of a buffer, and buffers are non-empty and fit. -/
def Meets (alloc : Nat → Bool) : ConnEvent → Connection → Prop
  | .onConnect, c => c.assembly.m_stream.m_is.m_offset = 0
  | .onDisconnect, c => c.assembly.m_stream.m_is.m_offset = 0
  | .onBytesReceived buffer, c => buffer.m_bytes ≠ [] ∧
      c.assembly.m_stream.m_is.m_size + buffer.m_bytes.length < 2 ^ 32
  | .pass, c =>
    (c.assembly.AcceptsHeader →
      40 ≤ (headerAt c.assembly.m_stream.m_is.m_byteOrder
        c.assembly.m_stream.m_is.unread).m_length.toNat) ∧
    (c.assembly.Allocates → alloc c.assembly.allocCount = true)

/-! ## §2 The invariant -/

/-- The saved header is the one at the front of the stream, and all segments but the last one
    are part of its message. -/
structure BodyReady (a : Assembly) : Prop where
  header_there : 40 ≤ a.m_stream.m_is.unread.length
  header_eq : a.m_stream.m_msgHeader =
    headerAt a.m_stream.m_is.m_byteOrder a.m_stream.m_is.unread
  length_ge : 40 ≤ a.m_stream.m_msgHeader.m_length.toNat
  last_segment : ∀ last ∈ a.m_stream.m_is.m_nodes.getLast?,
    a.m_stream.m_is.unread.length <
      a.m_stream.m_msgHeader.m_length.toNat + last.m_length

/-- The invariant of the runs that meet the conditions. -/
structure Tidy (c : Connection) : Prop where
  inv : c.assembly.m_stream.m_is.Inv
  single : c.assembly.m_stream.m_state ≠ .waitingBody →
    c.assembly.m_stream.m_is.m_nodes.length ≤ 1
  body : c.assembly.m_stream.m_state = .waitingBody → BodyReady c.assembly
  /-- Between calls nothing is unread, or a message is incomplete. -/
  idle : c.running = false → c.assembly.m_stream.m_is.m_nodes = [] ∨
    c.assembly.m_stream.m_state = .waitingBody ∧
      c.assembly.m_stream.m_is.m_size < c.assembly.m_stream.m_msgHeader.m_length.toNat

private theorem last_le_chain {nodes : List BufferNode} {last : BufferNode} (h : last ∈ nodes) :
    last.m_length ≤ (chainBytes nodes).length := by
  induction nodes with
  | nil => cases h
  | cons head rest ih =>
    rw [chainBytes_cons, List.length_append]
    rcases List.mem_cons.mp h with rfl | hrest
    · exact Nat.le_add_right _ _
    · exact Nat.le_trans (ih hrest) (Nat.le_add_left _ _)

/-- A stream with fewer unread bytes than the last segment has consists of that segment. -/
private theorem nodes_le_one {s : SegmentedInputStream} (h : s.Inv) {nodes : List BufferNode}
    {last : BufferNode} (hsuf : s.m_nodes <:+ nodes) (hlast : nodes.getLast? = some last)
    (hlt : s.unread.length < last.m_length) : s.m_nodes.length ≤ 1 := by
  cases hn : s.m_nodes with
  | nil => exact Nat.zero_le 1
  | cons first rest =>
    cases rest with
    | nil => exact Nat.le_refl 1
    | cons second rest =>
      -- the last node lies behind the first one, so its bytes are all unread
      exfalso
      obtain ⟨front, hfront⟩ := hsuf
      have hmem : last ∈ second :: rest := by
        rw [← hfront, hn, List.getLast?_append, List.getLast?_cons_cons] at hlast
        rw [List.getLast?_eq_some_getLast (List.cons_ne_nil second rest), Option.some_or] at hlast
        rw [← Option.some.inj hlast]
        exact List.getLast_mem _
      obtain ⟨hoff, hu⟩ := h.unread_cons hn
      have hle := last_le_chain hmem
      rw [hu, List.length_append, List.length_drop] at hlt
      unfold BufferNode.m_length at hoff hlt hle
      omega

private theorem unread_le_last {s : SegmentedInputStream} (h : s.Inv)
    (hle : s.m_nodes.length ≤ 1) : ∀ last ∈ s.m_nodes.getLast?,
      s.unread.length ≤ last.m_length := by
  intro last hlast
  cases hn : s.m_nodes with
  | nil =>
    rw [hn] at hlast
    cases hlast
  | cons first rest =>
    rw [hn] at hle hlast
    obtain rfl : rest = [] := List.length_eq_zero_iff.mp (by simpa using hle)
    obtain ⟨-, hu⟩ := h.unread_cons hn
    rw [List.getLast?_singleton, Option.mem_some_iff] at hlast
    subst hlast
    rw [hu, chainBytes_nil, List.append_nil, List.length_drop]
    exact Nat.sub_le _ _

private theorem Tidy.of_empty {a : Assembly} {running : Bool} (hinv : a.m_stream.m_is.Inv)
    (hstate : a.m_stream.m_state ≠ .waitingBody) (hnodes : a.m_stream.m_is.m_nodes = []) :
    Tidy ⟨a, running⟩ :=
  ⟨hinv, fun _ => by rw [hnodes]; exact Nat.zero_le 1, fun h => absurd h hstate,
    fun _ => .inl hnodes⟩

/-! ## §3 Every step keeps the invariant -/

private theorem tidy_reset {a : Assembly} (hoff : a.m_stream.m_is.m_offset = 0) :
    Tidy ⟨{ a with m_stream := a.m_stream.reset }, false⟩ := by
  have hinv : a.m_stream.m_is.reset.Inv := by
    refine ⟨?_, ?_, ?_, fun _ => hoff, ?_, rfl, ?_, ?_⟩ <;>
      simp [SegmentedInputStream.reset, unread]
  exact Tidy.of_empty hinv (by simp [MsgStream.reset]) rfl

/-- Appending: between calls the stream is empty, or the new segment is the last one of an
    incomplete message. -/
private theorem tidy_append {a : Assembly} {buffer : Buffer} {is : SegmentedInputStream}
    (h : Tidy ⟨a, false⟩) (hne : buffer.m_bytes ≠ [])
    (hroom : a.m_stream.m_is.m_size + buffer.m_bytes.length < 2 ^ 32)
    (happend : a.m_stream.m_is.appendBuffer buffer = .ok is) : Tidy ⟨a.withStream is, true⟩ := by
  rw [h.inv.size_eq] at hroom
  obtain ⟨is', his', happ⟩ := appendBuffer_spec h.inv buffer hne hroom
  rw [happend] at his'
  cases his'
  refine ⟨happ.inv, fun hstate => ?_, fun hstate => ?_, nofun⟩
  · -- outside a body the stream was empty
    have hnil : a.m_stream.m_is.m_nodes = [] := by
      rcases h.idle rfl with hnil | ⟨hbody, -⟩
      · exact hnil
      · exact absurd hbody hstate
    show is.m_nodes.length ≤ 1
    rw [happ.nodes_eq, hnil]
    exact Nat.le_refl 1
  · have hready := h.body hstate
    have hthere : 40 ≤ a.m_stream.m_is.unread.length := hready.header_there
    have hshort : a.m_stream.m_is.unread.length < a.m_stream.m_msgHeader.m_length.toNat := by
      rcases h.idle rfl with hnil | ⟨-, hlt⟩
      · rw [h.inv.nodes_eq_nil_iff.mp hnil] at hthere
        simp at hthere
      · rw [← h.inv.size_eq]
        exact hlt
    have hlen : is.unread.length =
        a.m_stream.m_is.unread.length + buffer.m_bytes.length := by
      rw [happ.unread_eq, List.length_append]
    refine ⟨?_, ?_, hready.length_ge, ?_⟩
    · show 40 ≤ is.unread.length
      omega
    · show a.m_stream.m_msgHeader = headerAt is.m_byteOrder is.unread
      rw [happ.unread_eq, happ.byteOrder_eq, headerAt_append _ hthere]
      exact hready.header_eq
    · intro last hlast
      have hlast' : last ∈ is.m_nodes.getLast? := hlast
      rw [happ.nodes_eq, List.getLast?_append, List.getLast?_singleton, Option.some_or,
        Option.mem_some_iff] at hlast'
      subst hlast'
      show is.unread.length < a.m_stream.m_msgHeader.m_length.toNat + buffer.m_bytes.length
      omega

/-- A pass that is over or goes on, from a state that keeps the invariant. -/
private def TidyPass (alloc : Nat → Bool) (a : Assembly) : Prop :=
  (∀ b, a.assembleStep alloc = .next b → Tidy ⟨b, true⟩) ∧
    ∀ b, a.assembleStep alloc = .done b → Tidy ⟨b, false⟩

/-- A pass in `MS_WAITING_HEADER`. -/
private theorem tidy_header {alloc : Nat → Bool} {a : Assembly} (h : Tidy ⟨a, true⟩)
    (hmeets : Meets alloc .pass ⟨a, true⟩) (hpos : 0 < a.m_stream.m_is.m_size)
    (hstate : a.m_stream.m_state = .waitingHeader) : TidyPass alloc a := by
  have hinv : a.m_stream.m_is.Inv := h.inv
  have hsize := hinv.size_eq
  have hsingle : a.m_stream.m_is.m_nodes.length ≤ 1 :=
    h.single (by show a.m_stream.m_state ≠ _; rw [hstate]; simp)
  unfold TidyPass
  -- too few bytes for a header: the pass changes nothing
  by_cases hshort : a.m_stream.m_is.m_size < 40
  · rw [Assembly.assembleStep_header_short hstate hpos hshort]
    refine ⟨fun b hb => ?_, nofun⟩
    cases hb
    exact h
  have h40 : 40 ≤ a.m_stream.m_is.unread.length := by omega
  cases hvalid : (headerAt a.m_stream.m_is.m_byteOrder a.m_stream.m_is.unread).isValid with
  -- the header is saved, and the condition bounds the length in it
  | true =>
    rw [Assembly.assembleStep_header_valid hstate hinv h40 hvalid]
    refine ⟨fun b hb => ?_, nofun⟩
    cases hb
    have hge := hmeets.1 ⟨hstate, Nat.le_of_not_lt hshort, hvalid⟩
    refine ⟨hinv, fun hne => absurd rfl hne, fun _ => ⟨h40, rfl, hge, ?_⟩, nofun⟩
    intro last hlast
    have hle := unread_le_last hinv hsingle last hlast
    dsimp only at hge ⊢
    omega
  | false =>
    -- not a header: 40 bytes are skipped
    obtain ⟨is, hcons, hstep⟩ :=
      Assembly.assembleStep_header_invalid alloc hstate hinv h40 hvalid
    rw [hstep]
    refine ⟨fun b hb => ?_, nofun⟩
    cases hb
    exact ⟨hcons.inv, fun _ => Nat.le_trans hcons.suffix.length_le hsingle, nofun, nofun⟩

/-- A pass in `MS_WAITING_BODY`. -/
private theorem tidy_body {alloc : Nat → Bool} {a : Assembly} (h : Tidy ⟨a, true⟩)
    (hmeets : Meets alloc .pass ⟨a, true⟩) (hpos : 0 < a.m_stream.m_is.m_size)
    (hstate : a.m_stream.m_state = .waitingBody) : TidyPass alloc a := by
  have hinv : a.m_stream.m_is.Inv := h.inv
  have hsize := hinv.size_eq
  have hready := h.body hstate
  have hthere : 40 ≤ a.m_stream.m_is.unread.length := hready.header_there
  unfold TidyPass
  -- the body is not complete
  by_cases hshort : a.m_stream.m_is.m_size < a.m_stream.m_msgHeader.m_length.toNat
  · rw [Assembly.assembleStep_body_short hstate hshort]
    refine ⟨nofun, fun b hb => ?_⟩
    cases hb
    exact ⟨hinv, h.single, h.body, fun _ => .inr ⟨hstate, hshort⟩⟩
  -- the body is complete: it is delivered, or it is a header without payload
  have halloc := hmeets.2 ⟨hstate, hpos, Nat.le_of_not_lt hshort⟩
  have hge : 40 ≤ a.m_stream.m_msgHeader.m_length.toNat := hready.length_ge
  by_cases hmore : 40 < a.m_stream.m_is.unread.length
  · obtain ⟨is, hcons, hstep⟩ := Assembly.assembleStep_body_deliver hstate hinv
      hready.header_eq hge (by omega) hmore halloc
    rw [hstep]
    refine ⟨fun b hb => ?_, nofun⟩
    cases hb
    refine ⟨hcons.inv, fun _ => ?_, nofun, nofun⟩
    -- the message took everything before the last segment
    have hn : a.m_stream.m_is.m_nodes ≠ [] := by
      intro hnil
      rw [hinv.nodes_eq_nil_iff.mp hnil] at hthere
      simp at hthere
    have hlast := List.getLast?_eq_some_getLast hn
    have hlt := hready.last_segment _ hlast
    apply nodes_le_one hcons.inv hcons.suffix hlast
    rw [hcons.unread_eq, List.length_drop]
    dsimp only at hlt
    omega
  · rw [Assembly.assembleStep_body_bare hstate hinv (by omega) (by omega) halloc]
    exact ⟨nofun, nofun⟩

/-- A pass in `MS_RESYNC`: the only segment is searched for the magic word. -/
private theorem tidy_resync {alloc : Nat → Bool} {a : Assembly} (h : Tidy ⟨a, true⟩)
    (hpos : 0 < a.m_stream.m_is.m_size) (hstate : a.m_stream.m_state = .resync) :
    TidyPass alloc a := by
  have hinv : a.m_stream.m_is.Inv := h.inv
  have hsize := hinv.size_eq
  have hsingle : a.m_stream.m_is.m_nodes.length ≤ 1 :=
    h.single (by show a.m_stream.m_state ≠ _; rw [hstate]; simp)
  unfold TidyPass
  by_cases hshort : a.m_stream.m_is.m_size < 8
  · rw [Assembly.assembleStep_resync_short hstate hpos hshort]
    refine ⟨fun b hb => ?_, nofun⟩
    cases hb
    exact h
  have hne : a.m_stream.m_is.unread ≠ [] := List.length_pos_iff.mp (by omega)
  obtain ⟨node, rest, hn⟩ := hinv.exists_cons hne
  obtain rfl : rest = [] := by
    rw [hn] at hsingle
    exact List.length_eq_zero_iff.mp (by simpa using hsingle)
  obtain ⟨rc, is, n, hsearch, hcons, hrc⟩ :=
    searchBytes_single Assembly.magic_zero_free (by decide) hinv hne hn
  have hstep := Assembly.assembleStep_resync_search alloc hstate
    (Nat.le_of_not_lt hshort) hsearch
  have hle : is.m_nodes.length ≤ 1 := Nat.le_trans hcons.suffix.length_le hsingle
  rcases hrc with hok | hend
  · rw [hstep.1 hok]
    refine ⟨fun b hb => ?_, nofun⟩
    cases hb
    exact ⟨hcons.inv, fun _ => hle, nofun, nofun⟩
  · rw [hstep.2 hend]
    refine ⟨fun b hb => ?_, nofun⟩
    cases hb
    exact ⟨hcons.inv, fun _ => hle, nofun, nofun⟩

/-- The passes of the loop. -/
private theorem tidy_pass {alloc : Nat → Bool} {a : Assembly} (h : Tidy ⟨a, true⟩)
    (hmeets : Meets alloc .pass ⟨a, true⟩) : TidyPass alloc a := by
  by_cases hzero : a.m_stream.m_is.m_size = 0
  · -- the loop is not entered
    have hinv : a.m_stream.m_is.Inv := h.inv
    have hsize := hinv.size_eq
    unfold TidyPass
    rw [Assembly.assembleStep_empty hzero]
    refine ⟨nofun, fun b hb => ?_⟩
    cases hb
    have hnil : a.m_stream.m_is.m_nodes = [] :=
      hinv.nodes_eq_nil_iff.mpr (List.length_eq_zero_iff.mp (by omega))
    exact ⟨hinv, h.single, h.body, fun _ => .inl hnil⟩
  have hpos : 0 < a.m_stream.m_is.m_size := Nat.pos_of_ne_zero hzero
  cases hstate : a.m_stream.m_state with
  | waitingHeader => exact tidy_header h hmeets hpos hstate
  | waitingBody => exact tidy_body h hmeets hpos hstate
  | resync => exact tidy_resync h hpos hstate

/-- **Run invariant**: every state reached by steps that meet the conditions is tidy. -/
theorem Reached.tidy {alloc : Nat → Bool} {c : Connection} (h : Reached alloc (Meets alloc) c) :
    Tidy c := by
  induction h with
  | start order history =>
    exact Tidy.of_empty (new_inv _ _ _) (by simp [Assembly.new]) rfl
  | step _ hstep hok ih =>
    cases hstep with
    | onConnect a => exact tidy_reset hok
    | onDisconnect a => exact tidy_reset hok
    | onBytesReceived happend => exact tidy_append ih hok.1 hok.2 happend
    | pass hpass => exact (tidy_pass ih hok).1 _ hpass
    | leave hdone => exact (tidy_pass ih hok).2 _ hdone

/-! ## §4 Allocations -/

/-- **Every allocated message has room**: in every run that meets the conditions, whenever
    `onWaitBody` allocates, the length in use is at least the header size, no subtraction wraps,
    the buffer holds header and payload, and nothing is written outside it. -/
theorem allocated_message_has_room (alloc : Nat → Bool) (a : Assembly)
    (hreach : Reached alloc (Meets alloc) ⟨a, true⟩) (hallocates : a.Allocates) :
    40 ≤ a.m_stream.m_msgHeader.m_length.toNat ∧
      getPayloadSizeBytes a.m_stream.m_msgHeader =
        a.m_stream.m_msgHeader.m_length.toNat - 40 ∧
      msgBufSize a.m_stream.m_msgHeader =
        40 + getPayloadSizeBytes a.m_stream.m_msgHeader ∧
      a.assembleStep alloc ≠ .fault .heapOverflow := by
  obtain ⟨hstate, hpos, hle⟩ := hallocates
  have htidy := hreach.tidy
  have hinv : a.m_stream.m_is.Inv := htidy.inv
  have hready := htidy.body hstate
  have hge : 40 ≤ a.m_stream.m_msgHeader.m_length.toNat := hready.length_ge
  have hthere : 40 ≤ a.m_stream.m_is.unread.length := hready.header_there
  have hsize := hinv.size_eq
  have hpay := getPayloadSizeBytes_of_le hge
  refine ⟨hge, hpay, ?_, ?_⟩
  · rw [msgBufSize_of_le hge, hpay]
    omega
  · cases halloc : alloc a.allocCount with
    | false =>
      obtain ⟨is, -, hstep⟩ := Assembly.assembleStep_body_unallocated hstate hinv hpos hle halloc
      rw [hstep]
      simp
    | true =>
      by_cases hmore : 40 < a.m_stream.m_is.unread.length
      · obtain ⟨is, -, hstep⟩ := Assembly.assembleStep_body_deliver hstate hinv
          hready.header_eq hge (by omega) hmore halloc
        rw [hstep]
        simp
      · rw [Assembly.assembleStep_body_bare hstate hinv (by omega) (by omega) halloc]
        simp

/-- A frame of 41 bytes in one buffer: when its body is allocated the message has room. -/
theorem allocated_message_has_room_single_frame :
    ∃ a, Reached (fun _ => true) (Meets fun _ => true) ⟨a, true⟩ ∧ a.Allocates ∧
      40 ≤ a.m_stream.m_msgHeader.m_length.toNat ∧
      getPayloadSizeBytes a.m_stream.m_msgHeader =
        a.m_stream.m_msgHeader.m_length.toNat - 40 ∧
      msgBufSize a.m_stream.m_msgHeader =
        40 + getPayloadSizeBytes a.m_stream.m_msgHeader ∧
      a.assembleStep (fun _ => true) ≠ .fault .heapOverflow := by
  have hf : WellFormed ⟨.mk' 41 7 0 5 3, [9]⟩ := by decide
  have hlen : (serialized .hostOrder ⟨.mk' 41 7 0 5 3, [9]⟩).length = 41 := by decide
  obtain ⟨is, his, hislen, -, hlong⟩ := resync_at_start (fun _ => true)
    (connected .hostOrder 0) [⟨.mk' 41 7 0 5 3, [9]⟩]
    ⟨100, serialized .hostOrder ⟨.mk' 41 7 0 5 3, [9]⟩, by decide⟩ []
    (new_inv _ _ _) rfl rfl rfl (by simpa using hf) (by decide) (by decide) rfl
  obtain ⟨b, hstep, hsync, hstate, hbis, -, -⟩ := hlong (by decide)
  have hblen : b.m_stream.m_is.unread.length = 41 := by rw [hbis, hislen, hlen]
  obtain ⟨c, hstep', hc, hcstate, hcis, -, -⟩ :=
    hsync.pass_header (fun _ => true) hstate (by omega)
  -- the steps of the run, each with its condition
  have h₀ : Reached (fun _ => true) (Meets fun _ => true)
      ⟨Assembly.new .hostOrder ⟨0, [], [], 0⟩, false⟩ := .start _ _
  have h₁ := h₀.step (.onConnect _) rfl
  have h₂ := h₁.step (.onBytesReceived his) ⟨by decide, by decide⟩
  have h₃ := h₂.step (.pass hstep) ⟨fun h => (nomatch h.1), fun _ => rfl⟩
  have h₄ := h₃.step (.pass hstep') ⟨fun _ => by
      show 40 ≤ (headerAt b.m_stream.m_is.m_byteOrder b.m_stream.m_is.unread).m_length.toNat
      rw [hsync.byteOrder_eq, hsync.headerAt_eq (by omega)]
      decide,
    fun _ => rfl⟩
  have hsize : c.m_stream.m_is.m_size = 41 := by rw [hc.inv.size_eq, hcis, hblen]
  have hL : c.m_stream.m_msgHeader.m_length.toNat = 41 := by
    rcases hc.state with hst | ⟨-, h40, hsaved⟩
    · rw [hst] at hcstate
      cases hcstate
    · rw [hsaved, hc.headerAt_eq h40]
      rfl
  have hallocates : c.Allocates := ⟨hcstate, by omega, by omega⟩
  exact ⟨c, h₄, hallocates, allocated_message_has_room _ c h₄ hallocates⟩

private theorem Reached.visits {alloc : Nat → Bool} {a b : Assembly}
    (h : Reached alloc (fun _ _ => True) ⟨a, true⟩)
    (hvisits : LoopStep.Visits (Assembly.assembleStep alloc) a b) :
    Reached alloc (fun _ _ => True) ⟨b, true⟩ := by
  induction hvisits with
  | refl _ => exact h
  | pass hpass _ ih => exact ih (h.step (.pass hpass) trivial)

/-- Forty bytes from the peer, the magic word and the length 8, overflow the heap. -/
theorem short_length_overflows_heap :
    ∃ a, Reached (fun _ => true) (fun _ _ => True) ⟨a, true⟩ ∧ a.Allocates ∧
      ¬ 40 ≤ a.m_stream.m_msgHeader.m_length.toNat ∧
      a.assembleStep (fun _ => true) = .fault .heapOverflow := by
  have hrun : (LoopStep.passes (Assembly.assembleStep fun _ => true) 2
      ((connected .hostOrder 0).withStream ⟨.hostOrder, [⟨0, ⟨100,
        headerBytes .hostOrder (.mk' 8 0 0 0 0), by decide⟩⟩], some 0, 0, 40, 1, []⟩)).map
      (fun a => (a.m_stream.m_state, a.m_stream.m_msgHeader.m_length, a.m_stream.m_is.m_size)) =
        some (.waitingBody, 8, 40) := by
    decide +kernel
  refine (Option.map_eq_some_iff.mp hrun).elim fun a ha => ?_
  simp only [Prod.mk.injEq] at ha
  obtain ⟨hpasses, hstate, hlength, hsize⟩ := ha
  have hL : a.m_stream.m_msgHeader.m_length.toNat = 8 := by rw [hlength]; rfl
  -- the bytes come in one buffer on a new connection
  have h₀ : Reached (fun _ => true) (fun _ _ => True)
      ⟨Assembly.new .hostOrder ⟨0, [], [], 0⟩, false⟩ := .start _ _
  have h₁ := h₀.step (.onConnect _) trivial
  have h₂ := h₁.step (@ConnStep.onBytesReceived _ _ ⟨100,
    headerBytes .hostOrder (.mk' 8 0 0 0 0), by decide⟩ _ rfl) trivial
  refine ⟨a, h₂.visits (LoopStep.visits_of_passes hpasses), ⟨hstate, by omega, by omega⟩,
    by omega, ?_⟩
  exact Assembly.assembleStep_body_overflow hstate (by omega) (by omega) (by omega) rfl

end Commutil.Framing
