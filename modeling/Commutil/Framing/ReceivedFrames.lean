import Commutil.Framing.HeaderCodec
import Commutil.Framing.HeaderLength
import Commutil.Io.HeldBuffers
import Commutil.Library.Embedding
import Commutil.Library.Transitions

/-!
# What Comes In and What Goes Out

A connection that receives arbitrary bytes, in arbitrary buffers, and is connected and
disconnected in between.

Two accounts of a whole run.  The buffers: whatever arrives, every buffer is given back once, in
the order of arrival, and between a disconnect and the next bytes none is left
(`receive_buffers_given_back`).  The messages: in the runs of `Meets`, every message delivered is
a piece of the bytes that arrived, the pieces do not overlap, they come in order, and none reaches
over a reconnect (`delivered_frames_received`).
-/

namespace Commutil.Framing

open Commutil.Io Commutil.Library SegmentedInputStream

/-! ## §1 Runs by their events -/

/-- The step of a connection for an event, where there is one. -/
def Connection.step (alloc : Nat → Bool) (c : Connection) : ConnEvent → Option Connection
  | .onConnect => if c.running then none else some ⟨c.assembly.onConnect, false⟩
  | .onDisconnect => if c.running then none else some ⟨c.assembly.onDisconnect, false⟩
  | .onBytesReceived buffer =>
    if c.running then none
    else
      match c.assembly.m_stream.m_is.appendBuffer buffer with
      | .error _ => none
      | .ok is => some ⟨c.assembly.withStream is, true⟩
  | .pass =>
    if c.running then
      match c.assembly.assembleStep alloc with
      | .next a => some ⟨a, true⟩
      | .done a => some ⟨a, false⟩
      | .fault _ => none
    else none

/-- The computed step is the step of the relation. -/
theorem connStep_iff {alloc : Nat → Bool} {c c' : Connection} {e : ConnEvent} :
    c.step alloc e = some c' ↔ ConnStep alloc e c c' := by
  constructor
  · intro h
    obtain ⟨a, running⟩ := c
    cases e <;> cases running <;> simp only [Connection.step, if_true, if_false,
      Bool.false_eq_true, reduceCtorEq] at h
    case onConnect.false => cases h; exact .onConnect a
    case onDisconnect.false => cases h; exact .onDisconnect a
    case onBytesReceived.false =>
      split at h
      · cases h
      · rename_i his
        cases h
        exact .onBytesReceived his
    case pass.true =>
      split at h
      · rename_i hpass
        cases h
        exact .pass hpass
      · rename_i hpass
        cases h
        exact .leave hpass
      · cases h
  · intro h
    cases h with
    | onConnect a => rfl
    | onDisconnect a => rfl
    | onBytesReceived his => simp [Connection.step, his]
    | pass hpass => simp [Connection.step, hpass]
    | leave hpass => simp [Connection.step, hpass]

instance (a : Assembly) : Decidable a.AcceptsHeader := inferInstanceAs (Decidable (_ ∧ _ ∧ _))

instance (a : Assembly) : Decidable a.Allocates := inferInstanceAs (Decidable (_ ∧ _ ∧ _))

instance (alloc : Nat → Bool) (e : ConnEvent) (c : Connection) : Decidable (Meets alloc e c) :=
  match e with
  | .onConnect | .onDisconnect => inferInstanceAs (Decidable (_ = _))
  | .onBytesReceived _ => inferInstanceAs (Decidable (_ ∧ _))
  | .pass => inferInstanceAs (Decidable ((_ → _) ∧ (_ → _)))

/-! ## §2 The buffers -/

section Buffers

variable {α β : Type}

/-- Whatever the state of the stream, the action does no more to its buffers than to give some
    back. -/
def Conserves (x : StreamM SegmentedInputStream α) : Prop :=
  ∀ s r s', x s = .ok (r, s') → GivesBack s s'

theorem Conserves.bind {x : StreamM SegmentedInputStream α}
    {g : α → StreamM SegmentedInputStream β} (hx : Conserves x) (hg : ∀ a, Conserves (g a)) :
    Conserves (x >>= g) := by
  intro s r s' h
  simp only [Bind.bind] at h
  split at h
  · cases h
  · -- the first action fails
    rename_i hs₁
    cases h
    exact hx _ _ _ hs₁
  · rename_i hs₁
    exact (hx _ _ _ hs₁).trans (hg _ _ _ _ h)

theorem Conserves.pure (a : α) :
    Conserves (Pure.pure a : StreamM SegmentedInputStream α) := by
  intro s r s' h
  cases h
  exact .refl s

theorem conserves_read (n : Nat) :
    Conserves (InputStream.read n : StreamM SegmentedInputStream (List UInt8)) := by
  intro s r s' h
  unfold InputStream.read at h
  split at h
  · cases h
    exact .refl s
  split at h
  · cases h
  rename_i rc bytes s₁ hread
  have hback := readBytes_givesBack hread
  -- every remaining branch returns the stream after the read
  split at h
  · cases h
    exact hback
  split at h <;> (cases h; exact hback)

theorem conserves_deserializeUInt (n : Nat) :
    Conserves (deserializeUInt n : StreamM SegmentedInputStream Nat) := by
  apply (conserves_read n).bind
  intro bytes s r s' h
  cases h
  exact .refl s

theorem conserves_deserialize (capacity : Nat) :
    Conserves (Msg.deserialize capacity : StreamM SegmentedInputStream Msg) := by
  have hheader : Conserves (MsgHeader.deserialize : StreamM SegmentedInputStream MsgHeader) :=
    (conserves_read _).bind fun _ => (conserves_deserializeUInt 4).bind fun _ =>
      (conserves_deserializeUInt 2).bind fun _ => (conserves_deserializeUInt 2).bind fun _ =>
      (conserves_deserializeUInt 8).bind fun _ => (conserves_deserializeUInt 4).bind fun _ =>
      (conserves_deserializeUInt 4).bind fun _ => (conserves_deserializeUInt 4).bind fun _ =>
      (conserves_deserializeUInt 4).bind fun _ => Conserves.pure _
  apply hheader.bind
  intro header s r s' h
  unfold Msg.readPayload at h
  split at h
  · cases h
  rename_i hread
  have hback := readBytes_givesBack hread
  split at h
  · cases h
  split at h <;> (cases h; exact hback)

end Buffers

namespace Assembly

private theorem onWaitHeader_givesBack {ms ms' : MsgStream} (h : onWaitHeader ms = .ok ms') :
    GivesBack ms.m_is ms'.m_is := by
  unfold onWaitHeader at h
  split at h
  · cases h
    exact .refl _
  split at h
  · cases h
  · cases h
    exact givesBack_reset _
  dsimp only at h
  split at h
  · cases h
    exact .refl _
  split at h
  · cases h
  rename_i hskip
  have hback := skipBytes_givesBack hskip
  split at h
  · cases h
    exact hback.trans (givesBack_reset _)
  · cases h
    exact hback

private theorem onWaitBody_givesBack {alloc : Nat → Bool} {a b : Assembly} {more : Bool}
    (h : onWaitBody alloc a = .ok (more, b)) : GivesBack a.m_stream.m_is b.m_stream.m_is := by
  unfold onWaitBody at h
  dsimp only at h
  split at h
  · cases h
    exact .refl _
  split at h
  · cases h
  · -- the allocation failed: the bytes are skipped
    split at h
    · cases h
    rename_i hskip
    have hback := skipBytes_givesBack hskip
    split at h
    · cases h
      exact hback.trans (givesBack_reset _)
    · cases h
      exact hback
  split at h
  · cases h
  · rename_i hdes
    cases h
    exact (conserves_deserialize _ _ _ _ hdes).trans (givesBack_reset _)
  · rename_i hdes
    cases h
    exact conserves_deserialize _ _ _ _ hdes

private theorem onResync_givesBack {ms ms' : MsgStream} (h : onResync ms = .ok ms') :
    GivesBack ms.m_is ms'.m_is := by
  unfold onResync at h
  split at h
  · cases h
    exact .refl _
  split at h
  · cases h
  rename_i hsearch
  have hback := searchBytes_givesBack hsearch
  split at h
  · cases h
    exact hback
  split at h
  · cases h
    exact hback.trans (givesBack_reset _)
  · cases h
    exact hback

/-- **One pass** gives buffers back and does nothing else to them. -/
theorem assembleStep_givesBack {alloc : Nat → Bool} {a b : Assembly}
    (h : assembleStep alloc a = .next b ∨ assembleStep alloc a = .done b) :
    GivesBack a.m_stream.m_is b.m_stream.m_is := by
  unfold assembleStep at h
  split at h
  · rcases h with h | h <;> cases h
    exact .refl _
  cases hstate : a.m_stream.m_state with
  | waitingHeader =>
    cases hhead : onWaitHeader a.m_stream with
    | error fault => simp [hstate, hhead, goOn] at h
    | ok ms =>
      have hb : { a with m_stream := ms } = b := by simpa [hstate, hhead, goOn] using h
      subst hb
      exact onWaitHeader_givesBack hhead
  | waitingBody =>
    cases hbody : onWaitBody alloc a with
    | error fault => simp [hstate, hbody] at h
    | ok r =>
      obtain ⟨more, a'⟩ := r
      have hb : a' = b := by cases more <;> simpa [hstate, hbody] using h
      subst hb
      exact onWaitBody_givesBack hbody
  | resync =>
    cases hres : onResync a.m_stream with
    | error fault => simp [hstate, hres, goOn] at h
    | ok ms =>
      have hb : { a with m_stream := ms } = b := by simpa [hstate, hres, goOn] using h
      subst hb
      exact onResync_givesBack hres

end Assembly

/-- The buffer that an event brings. -/
def ConnEvent.buffer? : ConnEvent → Option Buffer
  | .onBytesReceived buffer => some buffer
  | _ => none

/-- **One step** adds the buffer of its event, and else gives buffers back. -/
theorem Connection.step_held {alloc : Nat → Bool} {c c' : Connection} {e : ConnEvent}
    (hc : Chained c.assembly.m_stream.m_is) (h : c.step alloc e = some c') :
    Chained c'.assembly.m_stream.m_is ∧
      c'.assembly.m_stream.m_is.held =
        c.assembly.m_stream.m_is.held ++ e.buffer?.toList := by
  have hkeeps : ∀ {a b : SegmentedInputStream}, Chained a → GivesBack a b →
      Chained b ∧ b.held = a.held ++ [] := by
    intro a b ha hback
    exact ⟨hback.chained ha, by rw [hback.held_eq, List.append_nil]⟩
  cases connStep_iff.mp h with
  | onConnect a => exact hkeeps hc (givesBack_reset _)
  | onDisconnect a => exact hkeeps hc (givesBack_reset _)
  | onBytesReceived happend => exact hc.append happend
  | pass hpass => exact hkeeps hc (Assembly.assembleStep_givesBack (.inl hpass))
  | leave hdone => exact hkeeps hc (Assembly.assembleStep_givesBack (.inr hdone))

/-- **The buffers of a run**: those given back, then those in the chain, in the order of
    arrival. -/
theorem held_of_run {alloc : Nat → Bool} {c c' : Connection} {events : List ConnEvent}
    (h : RunsWith (stepOf (Connection.step alloc)) (fun _ _ => True) c events c')
    (hc : Chained c.assembly.m_stream.m_is) :
    Chained c'.assembly.m_stream.m_is ∧
      c'.assembly.m_stream.m_is.held =
        c.assembly.m_stream.m_is.held ++ events.filterMap ConnEvent.buffer? := by
  induction h with
  | nil c => exact ⟨hc, (List.append_nil _).symm⟩
  | @cons c c₁ c' e events _ hstep _ ih =>
    obtain ⟨hc₁, hheld⟩ := Connection.step_held hc hstep
    obtain ⟨hc', hheld'⟩ := ih hc₁
    refine ⟨hc', ?_⟩
    rw [hheld', hheld, List.append_assoc]
    cases he : e.buffer? <;> simp [he]

/-- **Every receive buffer is given back exactly once, in the order of arrival.**  Whatever bytes
    arrive, however they are cut, whichever allocations fail: at any moment the buffers given back
    are those that arrived first, and the others are in the chain.  After `onConnect` and
    `onDisconnect` all of them have been given back. -/
theorem receive_buffers_given_back (alloc : Nat → Bool) (order : ByteOrder)
    (history : ProcessHistory) (events : List ConnEvent) (c : Connection)
    (hrun : RunsWith (stepOf (Connection.step alloc)) (fun _ _ => True)
      ⟨Assembly.new order history, false⟩ events c) :
    c.assembly.m_stream.m_is.m_deallocated ++
        c.assembly.m_stream.m_is.m_nodes.map BufferNode.m_buffer =
      history.deallocated ++ events.filterMap ConnEvent.buffer? ∧
    ∀ e c', (e = .onConnect ∨ e = .onDisconnect) → c.step alloc e = some c' →
      c'.assembly.m_stream.m_is.m_deallocated =
        history.deallocated ++ events.filterMap ConnEvent.buffer? := by
  have hrun' := held_of_run hrun (new_chained order _ _)
  have hnew : (Assembly.new order history).m_stream.m_is.held = history.deallocated :=
    held_new order _ _
  rw [hnew] at hrun'
  refine ⟨hrun'.2, ?_⟩
  intro e c' he hstep
  rw [← hrun'.2]
  rcases he with rfl | rfl <;> cases connStep_iff.mp hstep <;> rfl

/-- Two buffers without a magic word, then the peer disconnects. -/
theorem receive_buffers_given_back_garbage :
    ∃ c c' : Connection,
      c.assembly.m_stream.m_is.m_deallocated ++
          c.assembly.m_stream.m_is.m_nodes.map BufferNode.m_buffer =
        [⟨1, List.replicate 30 7, by decide⟩, ⟨2, List.replicate 30 7, by decide⟩] ∧
      c.step (fun _ => false) .onDisconnect = some c' ∧
      c'.assembly.m_stream.m_is.m_deallocated =
        [⟨1, List.replicate 30 7, by decide⟩, ⟨2, List.replicate 30 7, by decide⟩] := by
  have hcomputed : (runWhere (Connection.step fun _ => false) (fun _ _ => True)
      ⟨Assembly.new .hostOrder ⟨0, [], [], 0⟩, false⟩
      [.onConnect, .onBytesReceived ⟨1, List.replicate 30 7, by decide⟩, .pass, .pass,
        .onBytesReceived ⟨2, List.replicate 30 7, by decide⟩, .pass, .pass]).map
      (fun c => c.running) = some false := by
    decide +kernel
  obtain ⟨⟨a, running⟩, hwhere, hrunning⟩ := Option.map_eq_some_iff.mp hcomputed
  obtain rfl : running = false := hrunning
  obtain ⟨hall, hback⟩ := receive_buffers_given_back _ _ _ _ _ (runsWith_of_runWhere hwhere)
  exact ⟨⟨a, false⟩, ⟨a.onDisconnect, false⟩, hall, rfl, hback .onDisconnect _ (.inr rfl) rfl⟩

/-! ## §3 The messages -/

/-- The bytes received between two resets of the stream, of which `unread` are there already. -/
def sessions (unread : List UInt8) : List ConnEvent → List (List UInt8)
  | [] => [unread]
  | .onBytesReceived buffer :: events => sessions (unread ++ buffer.m_bytes) events
  | .pass :: events => sessions unread events
  | .onConnect :: events | .onDisconnect :: events => unread :: sessions [] events

theorem sessions_append (before unread : List UInt8) (events : List ConnEvent) :
    ∃ bytes rest, sessions unread events = bytes :: rest ∧
      sessions (before ++ unread) events = (before ++ bytes) :: rest := by
  induction events generalizing unread with
  | nil => exact ⟨unread, [], rfl, rfl⟩
  | cons e events ih =>
    cases e with
    | onConnect => exact ⟨unread, sessions [] events, rfl, rfl⟩
    | onDisconnect => exact ⟨unread, sessions [] events, rfl, rfl⟩
    | onBytesReceived buffer =>
      simp only [sessions, List.append_assoc]
      exact ih (unread ++ buffer.m_bytes)
    | pass => exact ih unread

/-- What the serialization of a consistent message is, also of one without a payload. -/
theorem Consistent.wire_eq {m : Msg} (h : Consistent m) (order : ByteOrder) :
    serialized order m = headerBytes order m.m_header ++ m.m_payload := by
  have hser := h.serialize_eq (FixedOutputStream.new (40 + m.m_payload.length) order)
    (by simp [FixedOutputStream.new])
  unfold serialized
  rw [hser]
  rfl

/-- The first bytes of a stream are the message that begins with the header read from them. -/
theorem message_at_front (order : ByteOrder) {u : List UInt8} {L : Nat}
    (hvalid : (headerAt order u).isValid = true) (hL : (headerAt order u).m_length.toNat = L)
    (hlow : 40 ≤ L) (hlen : L ≤ u.length) :
    Consistent ⟨headerAt order u, (u.drop 40).take (L - 40)⟩ ∧
      serialized order ⟨headerAt order u, (u.drop 40).take (L - 40)⟩ = u.take L := by
  have hcons : Consistent ⟨headerAt order u, (u.drop 40).take (L - 40)⟩ := by
    refine ⟨eq_of_beq hvalid, ?_⟩
    simp only [List.length_take, List.length_drop]
    omega
  refine ⟨hcons, ?_⟩
  have hheader : headerAt order u = headerAt order (u.take 40) := by
    have happ := headerAt_append order (u := u.take 40) (by simp; omega) (u.drop 40)
    rwa [List.take_append_drop] at happ
  rw [hcons.wire_eq]
  dsimp only
  rw [hheader, headerBytes_headerAt order (by simp; omega)]
  -- the header and the payload are the first and the last part of the same bytes
  have hsplit := @List.take_add _ u 40 (L - 40)
  rw [Nat.add_sub_cancel' hlow] at hsplit
  exact hsplit.symm

/-- A saved header has the magic word. -/
def SavedValid (a : Assembly) : Prop :=
  a.m_stream.m_state = .waitingBody → a.m_stream.m_msgHeader.isValid = true

/-- What a pass makes of the unread bytes: some are consumed, and the messages delivered are in
    them. -/
structure Takes (a b : Assembly) (msgs : List Msg) (taken : List UInt8) : Prop where
  unread_eq : a.m_stream.m_is.unread = taken ++ b.m_stream.m_is.unread
  delivered_eq : b.delivered = a.delivered ++ msgs
  embeds : Embeds (serialized a.m_stream.m_is.m_byteOrder) msgs taken
  consistent : ∀ m ∈ msgs, Consistent m
  byteOrder_eq : b.m_stream.m_is.m_byteOrder = a.m_stream.m_is.m_byteOrder
  valid : SavedValid b

/-- A pass that delivers nothing. -/
private theorem Takes.silent {a b : Assembly} {n : Nat}
    (hcons : Consumed a.m_stream.m_is n b.m_stream.m_is) (hdel : b.delivered = a.delivered)
    (hvalid : SavedValid b) : ∃ msgs taken, Takes a b msgs taken :=
  ⟨[], a.m_stream.m_is.unread.take n,
    by rw [hcons.unread_eq, List.take_append_drop], by rw [hdel, List.append_nil],
    .noItems _ _, nofun, hcons.byteOrder_eq, hvalid⟩

/-- **One pass** in a tidy state. -/
theorem Tidy.pass_takes {alloc : Nat → Bool} {a b : Assembly} (h : Tidy ⟨a, true⟩)
    (hvalid : SavedValid a) (hmeets : Meets alloc .pass ⟨a, true⟩)
    (hpass : a.assembleStep alloc = .next b ∨ a.assembleStep alloc = .done b) :
    ∃ msgs taken, Takes a b msgs taken := by
  have hinv : a.m_stream.m_is.Inv := h.inv
  have hsize := hinv.size_eq
  have hstays : SavedValid a → ∃ msgs taken, Takes a a msgs taken := fun hv =>
    Takes.silent (Consumed.refl hinv) rfl hv
  -- nothing is unread
  by_cases hzero : a.m_stream.m_is.m_size = 0
  · rw [Assembly.assembleStep_empty hzero] at hpass
    rcases hpass with hb | hb <;> cases hb
    exact hstays hvalid
  have hpos : 0 < a.m_stream.m_is.m_size := Nat.pos_of_ne_zero hzero
  cases hstate : a.m_stream.m_state with
  -- a header is saved, skipped or waited for
  | waitingHeader =>
    by_cases hshort : a.m_stream.m_is.m_size < 40
    · rw [Assembly.assembleStep_header_short hstate hpos hshort] at hpass
      rcases hpass with hb | hb <;> cases hb
      exact hstays hvalid
    have h40 : 40 ≤ a.m_stream.m_is.unread.length := by omega
    cases hv : (headerAt a.m_stream.m_is.m_byteOrder a.m_stream.m_is.unread).isValid with
    | true =>
      rw [Assembly.assembleStep_header_valid hstate hinv h40 hv] at hpass
      rcases hpass with hb | hb <;> cases hb
      exact Takes.silent (Consumed.refl hinv) rfl fun _ => hv
    | false =>
      obtain ⟨is, hcons, hstep⟩ :=
        Assembly.assembleStep_header_invalid alloc hstate hinv h40 hv
      rw [hstep] at hpass
      rcases hpass with hb | hb <;> cases hb
      exact Takes.silent hcons rfl nofun
  -- the saved length is that of the frame at the front of the stream
  | waitingBody =>
    have hready : BodyReady a := h.body hstate
    by_cases hshort : a.m_stream.m_is.m_size < a.m_stream.m_msgHeader.m_length.toNat
    · rw [Assembly.assembleStep_body_short hstate hshort] at hpass
      rcases hpass with hb | hb <;> cases hb
      exact hstays hvalid
    have halloc := hmeets.2 ⟨hstate, hpos, Nat.le_of_not_lt hshort⟩
    have hthere := hready.header_there
    have hge := hready.length_ge
    have hle : a.m_stream.m_msgHeader.m_length.toNat ≤ a.m_stream.m_is.unread.length := by omega
    by_cases hmore : 40 < a.m_stream.m_is.unread.length
    · -- the message at the front of the stream is delivered
      obtain ⟨is, hcons, hstep⟩ := Assembly.assembleStep_body_deliver hstate hinv
        hready.header_eq hge hle hmore halloc
      have hsaved := hvalid hstate
      rw [hready.header_eq] at hsaved
      obtain ⟨hmsg, hser⟩ := message_at_front a.m_stream.m_is.m_byteOrder hsaved rfl
        (by rw [← hready.header_eq]; exact hge) (by rw [← hready.header_eq]; exact hle)
      rw [← hready.header_eq] at hmsg hser
      rw [hstep] at hpass
      rcases hpass with hb | hb <;> cases hb
      refine ⟨_, a.m_stream.m_is.unread.take a.m_stream.m_msgHeader.m_length.toNat, ?_, rfl, ?_,
        ?_, hcons.byteOrder_eq, nofun⟩
      · rw [hcons.unread_eq, List.take_append_drop]
      · rw [← hser]
        apply Embeds.single
      · simpa using hmsg
    · -- a frame that is only a header makes the pass fault
      rw [Assembly.assembleStep_body_bare hstate hinv (by omega) (by omega) halloc] at hpass
      rcases hpass with hb | hb <;> cases hb
  -- the search skips bytes and delivers nothing
  | resync =>
    have hsingle : a.m_stream.m_is.m_nodes.length ≤ 1 :=
      h.single (by show a.m_stream.m_state ≠ _; rw [hstate]; simp)
    by_cases hshort : a.m_stream.m_is.m_size < 8
    · rw [Assembly.assembleStep_resync_short hstate hpos hshort] at hpass
      rcases hpass with hb | hb <;> cases hb
      exact hstays hvalid
    have hne : a.m_stream.m_is.unread ≠ [] := List.length_pos_iff.mp (by omega)
    obtain ⟨node, rest, hn⟩ := hinv.exists_cons hne
    obtain rfl : rest = [] := by
      rw [hn] at hsingle
      exact List.length_eq_zero_iff.mp (by simpa using hsingle)
    obtain ⟨rc, is, n, hsearch, hcons, hrc⟩ :=
      searchBytes_single Assembly.magic_zero_free (by decide) hinv hne hn
    have hstep := Assembly.assembleStep_resync_search alloc hstate
      (Nat.le_of_not_lt hshort) hsearch
    rcases hrc with hok | hend
    · rw [hstep.1 hok] at hpass
      rcases hpass with hb | hb <;> cases hb
      exact Takes.silent hcons rfl nofun
    · rw [hstep.2 hend] at hpass
      rcases hpass with hb | hb <;> cases hb
      exact Takes.silent hcons rfl nofun

/-- The messages delivered up to a later state are in the bytes of their sessions: those unread
    now and those that the events bring. -/
def Accounted (a : Assembly) (events : List ConnEvent) (r : Assembly) : Prop :=
  ∃ parts : List (List Msg), r.delivered = a.delivered ++ parts.flatten ∧
    List.Forall₂ (Embeds (serialized a.m_stream.m_is.m_byteOrder)) parts
      (sessions a.m_stream.m_is.unread events) ∧
    ∀ m ∈ parts.flatten, Consistent m

/-- A reset ends the session, whatever is unread. -/
private theorem Accounted.reset {a r : Assembly} {e : ConnEvent} {events : List ConnEvent}
    (hoff : a.m_stream.m_is.m_offset = 0) (he : e = .onConnect ∨ e = .onDisconnect)
    (h : Accounted { a with m_stream := a.m_stream.reset } events r) :
    Accounted a (e :: events) r := by
  have hempty : a.m_stream.reset.m_is.unread = [] := by
    simp [MsgStream.reset, SegmentedInputStream.reset, unread, hoff]
  obtain ⟨parts, hparts, hembeds, hcons⟩ := h
  dsimp only at hparts hembeds
  rw [hempty] at hembeds
  have hsessions : sessions a.m_stream.m_is.unread (e :: events) =
      a.m_stream.m_is.unread :: sessions [] events := by
    rcases he with rfl | rfl <;> rfl
  refine ⟨[] :: parts, by simpa using hparts, ?_, by simpa using hcons⟩
  rw [hsessions]
  exact .cons (.noItems _ _) hembeds

/-- The messages of a pass come in front of those of the rest of the run. -/
private theorem Accounted.pass {a b r : Assembly} {msgs : List Msg} {taken : List UInt8}
    {events : List ConnEvent} (htakes : Takes a b msgs taken) (h : Accounted b events r) :
    Accounted a (.pass :: events) r := by
  obtain ⟨parts, hparts, hembeds, hcons⟩ := h
  obtain ⟨bytes, rest, hfirst, hall⟩ := sessions_append taken b.m_stream.m_is.unread events
  rw [htakes.byteOrder_eq, hfirst] at hembeds
  have hsessions : sessions a.m_stream.m_is.unread (.pass :: events) =
      (taken ++ bytes) :: rest := by
    rw [htakes.unread_eq]
    exact hall
  cases hembeds with
  | @cons part _ parts _ hpart hrest =>
    refine ⟨(msgs ++ part) :: parts, ?_, ?_, ?_⟩
    · rw [hparts, htakes.delivered_eq]
      simp
    · rw [hsessions]
      exact .cons (htakes.embeds.append hpart) hrest
    · intro m hm
      simp only [List.flatten_cons, List.append_assoc, List.mem_append] at hm hcons
      rcases hm with hm | hm
      · exact htakes.consistent m hm
      · exact hcons m hm

/-- **The messages of a run** from a state reached in one that meets the conditions. -/
theorem accounted_of_run {alloc : Nat → Bool} {c c' : Connection} {events : List ConnEvent}
    (h : RunsWith (stepOf (Connection.step alloc)) (fun c e => Meets alloc e c) c events c')
    (hreach : Reached alloc (Meets alloc) c) (hvalid : SavedValid c.assembly) :
    Accounted c.assembly events c'.assembly := by
  induction h with
  | nil c =>
    refine ⟨[[]], (List.append_nil _).symm, ?_, by simp⟩
    exact .cons (.noItems _ _) .nil
  | @cons c c₁ c' e events hmeets hstep _ ih =>
    have hconn := connStep_iff.mp hstep
    have htidy := hreach.tidy
    have hnext := ih (hreach.step hconn hmeets)
    cases hconn with
    | onConnect a => exact (hnext nofun).reset hmeets (.inl rfl)
    | onDisconnect a => exact (hnext nofun).reset hmeets (.inr rfl)
    | @onBytesReceived a buffer is happend =>
      have hroom := hmeets.2
      dsimp only at hroom
      rw [htidy.inv.size_eq] at hroom
      obtain ⟨is', his', happ⟩ := appendBuffer_spec htidy.inv buffer hmeets.1 hroom
      rw [happend] at his'
      cases his'
      obtain ⟨parts, hparts, hembeds, hcons⟩ := hnext hvalid
      have hunread : (a.withStream is).m_stream.m_is.unread =
          a.m_stream.m_is.unread ++ buffer.m_bytes := happ.unread_eq
      have horder : (a.withStream is).m_stream.m_is.m_byteOrder =
          a.m_stream.m_is.m_byteOrder := happ.byteOrder_eq
      dsimp only at hembeds
      rw [hunread, horder] at hembeds
      exact ⟨parts, hparts, hembeds, hcons⟩
    | pass hpass =>
      obtain ⟨msgs, taken, htakes⟩ := htidy.pass_takes hvalid hmeets (.inl hpass)
      exact (hnext htakes.valid).pass htakes
    | leave hdone =>
      obtain ⟨msgs, taken, htakes⟩ := htidy.pass_takes hvalid hmeets (.inr hdone)
      exact (hnext htakes.valid).pass htakes

/-- **No message is made up.**  In a run whose steps meet the conditions, from a new assembler on
    and over arbitrary bytes, the messages delivered fall into one group for each session, and the
    serialized messages of a group lie in the bytes of its session, in order and without an
    overlap.  Each has the magic word and the length that it says. -/
theorem delivered_frames_received (alloc : Nat → Bool) (order : ByteOrder)
    (history : ProcessHistory) (events : List ConnEvent) (c : Connection)
    (hrun : RunsWith (stepOf (Connection.step alloc)) (fun c e => Meets alloc e c)
      ⟨Assembly.new order history, false⟩ events c) :
    ∃ parts : List (List Msg),
      c.assembly.delivered = history.delivered ++ parts.flatten ∧
      List.Forall₂ (Embeds (serialized order)) parts (sessions [] events) ∧
      ∀ m ∈ parts.flatten, Consistent m := by
  have hall := accounted_of_run hrun (.start order history) nofun
  unfold Accounted at hall
  have hempty : (Assembly.new order history).m_stream.m_is.unread = [] :=
    (new_inv order _ _).nodes_eq_nil_iff.mp rfl
  dsimp only at hall
  rw [hempty] at hall
  exact hall

/-- A frame behind three bytes of garbage, and on the next connection a frame at once. -/
theorem delivered_frames_received_two_sessions :
    ∃ (c : Connection) (parts : List (List Msg)),
      c.assembly.delivered = parts.flatten ∧
      c.assembly.delivered.length = 2 ∧
      List.Forall₂ (Embeds (serialized .hostOrder)) parts
        [[], [1, 2, 3] ++ serialized .hostOrder ⟨.mk' 41 7 0 5 3, [9]⟩, [],
          serialized .hostOrder ⟨.mk' 42 7 0 6 4, [8, 8]⟩] ∧
      ∀ m ∈ parts.flatten, Consistent m := by
  have hcomputed : (runWhere (Connection.step fun _ => true) (fun c e => Meets (fun _ => true) e c)
      ⟨Assembly.new .hostOrder ⟨0, [], [], 0⟩, false⟩
      [.onConnect,
        .onBytesReceived ⟨1, [1, 2, 3] ++ serialized .hostOrder ⟨.mk' 41 7 0 5 3, [9]⟩,
          by decide⟩, .pass, .pass, .pass, .pass, .onDisconnect, .onConnect,
        .onBytesReceived ⟨2, serialized .hostOrder ⟨.mk' 42 7 0 6 4, [8, 8]⟩, by decide⟩,
        .pass, .pass, .pass, .pass]).map
      (fun c => c.assembly.delivered.length) = some 2 := by
    decide +kernel
  obtain ⟨c, hwhere, htwo⟩ := Option.map_eq_some_iff.mp hcomputed
  obtain ⟨parts, hparts, hembeds, hcons⟩ :=
    delivered_frames_received _ _ _ _ _ (runsWith_of_runWhere hwhere)
  exact ⟨c, parts, hparts, htwo, hembeds, hcons⟩

/-! ## §4 In step with the peer -/

/-- The connection looks for the magic word at the front of the bytes of its session. -/
structure Searching (order : ByteOrder) (c : Connection) (rest : List Msg) (future : List UInt8) :
    Prop where
  inv : c.assembly.m_stream.m_is.Inv
  byteOrder_eq : c.assembly.m_stream.m_is.m_byteOrder = order
  wellFormed : ∀ f ∈ rest, WellFormed f
  bytes_eq : wire order rest = c.assembly.m_stream.m_is.unread ++ future
  state : c.assembly.m_stream.m_state = .resync
  offset : c.assembly.m_stream.m_is.m_offset = 0
  single : c.assembly.m_stream.m_is.m_nodes.length ≤ 1
  /-- The search has no negative `max_index`. -/
  indexed : ∀ node ∈ c.assembly.m_stream.m_is.m_nodes, node.m_length < 2 ^ 31 + 8
  /-- With too few bytes the loop goes round and round. -/
  idle : c.running = false → c.assembly.m_stream.m_is.m_nodes = []

/-- The unread bytes and the `future` ones are the frames still to come. -/
structure Aligned (order : ByteOrder) (c : Connection) (rest : List Msg) (future : List UInt8) :
    Prop where
  align : Searching order c rest future ∨ InSync order c.assembly rest future
  /-- Between calls no frame is there as a whole. -/
  settled : c.running = false →
    framesWithin order rest c.assembly.m_stream.m_is.unread.length = []

namespace Aligned

variable {order : ByteOrder} {a b : Assembly} {rest : List Msg} {future : List UInt8}

/-- A connection that is reset between two buffers is in step with whatever comes next. -/
theorem reset (horder : a.m_stream.m_is.m_byteOrder = order)
    (hoff : a.m_stream.m_is.m_offset = 0) {frames : List Msg}
    (hwf : ∀ f ∈ frames, WellFormed f) (running : Bool) :
    Aligned order ⟨{ a with m_stream := a.m_stream.reset }, running⟩ frames
      (wire order frames) := by
  have hempty : a.m_stream.reset.m_is.unread = [] := by
    simp [MsgStream.reset, SegmentedInputStream.reset, unread]
  have hnone : ∀ node ∈ a.m_stream.reset.m_is.m_nodes, node.m_length < 2 ^ 31 + 8 := by
    intro node hnode
    cases hnode
  refine ⟨.inl ⟨?_, horder, hwf, ?_, rfl, hoff, Nat.zero_le 1, hnone, fun _ => rfl⟩,
    fun _ => ?_⟩
  · refine ⟨?_, ?_, ?_, fun _ => hoff, ?_, rfl, ?_, ?_⟩ <;>
      simp [MsgStream.reset, SegmentedInputStream.reset, unread]
  · dsimp only
    rw [hempty, List.nil_append]
  · dsimp only
    rw [hempty]
    exact framesWithin_zero hwf

theorem inv {c : Connection} (h : Aligned order c rest future) :
    c.assembly.m_stream.m_is.Inv ∧ c.assembly.m_stream.m_is.m_byteOrder = order := by
  rcases h.align with h | h
  · exact ⟨h.inv, h.byteOrder_eq⟩
  · exact ⟨h.inv, h.byteOrder_eq⟩

/-- **Appending** the next bytes of the peer; the buffer that is searched has to be one in which
    `max_index` is not negative. -/
theorem append {buffer : Buffer} {is : SegmentedInputStream}
    (h : Aligned order ⟨a, false⟩ rest (buffer.m_bytes ++ future)) (hne : buffer.m_bytes ≠ [])
    (hindex : a.m_stream.m_state = .resync → buffer.m_bytes.length < 2 ^ 31 + 8)
    (hroom : a.m_stream.m_is.m_size + buffer.m_bytes.length < 2 ^ 32)
    (happend : a.m_stream.m_is.appendBuffer buffer = .ok is) :
    Aligned order ⟨a.withStream is, true⟩ rest future := by
  refine ⟨?_, nofun⟩
  rcases h.align with h | h
  · -- the stream searches for the first frame: the buffer is its only node
    have hinv : a.m_stream.m_is.Inv := h.inv
    rw [hinv.size_eq] at hroom
    obtain ⟨is', his', happ⟩ := appendBuffer_spec hinv buffer hne hroom
    rw [happend] at his'
    cases his'
    have hnil : a.m_stream.m_is.m_nodes = [] := h.idle rfl
    have hone : is.m_nodes = [⟨a.m_stream.m_is.m_nextAddr, buffer⟩] := by
      rw [happ.nodes_eq, hnil, List.nil_append]
    have hnodes : is.m_nodes.length ≤ 1 := Nat.le_of_eq (by rw [hone]; rfl)
    have hindexed : ∀ node ∈ is.m_nodes, node.m_length < 2 ^ 31 + 8 := by
      intro node hnode
      rw [hone, List.mem_singleton] at hnode
      subst hnode
      exact hindex h.state
    have hoff : is.m_offset = 0 := by
      have happend' := appendBuffer_eq hinv.tail_eq hinv.addr_nodup buffer
      rw [happend] at happend'
      cases happend'
      exact h.offset
    refine .inl ⟨happ.inv, happ.byteOrder_eq.trans h.byteOrder_eq, h.wellFormed, ?_, h.state,
      hoff, hnodes, hindexed, nofun⟩
    have hbytes : wire order rest = a.m_stream.m_is.unread ++ (buffer.m_bytes ++ future) :=
      h.bytes_eq
    show wire order rest = is.unread ++ future
    rw [happ.unread_eq, List.append_assoc]
    exact hbytes
  · -- the stream is in step with the frames
    have hinv : a.m_stream.m_is.Inv := h.inv
    rw [hinv.size_eq] at hroom
    obtain ⟨is', his', hsync, -⟩ := h.append hne hroom
    rw [happend] at his'
    cases his'
    exact .inr hsync

/-- What a pass does to a connection in step: nothing is delivered, or the next frame is. -/
def Passes (order : ByteOrder) (a b : Assembly) (running : Bool) (rest : List Msg)
    (future : List UInt8) : Prop :=
  b.delivered = a.delivered ∧ Aligned order ⟨b, running⟩ rest future ∨
    ∃ f rest', rest = f :: rest' ∧ b.delivered = a.delivered ++ [f] ∧
      Aligned order ⟨b, running⟩ rest' future

/-- The search finds the magic word of the next frame where it is. -/
private theorem pass_searching {alloc : Nat → Bool} {running : Bool}
    (h : Searching order ⟨a, true⟩ rest future)
    (hpass : a.assembleStep alloc = .next b ∧ running = true ∨
      a.assembleStep alloc = .done b ∧ running = false) :
    Passes order a b running rest future := by
  have hinv : a.m_stream.m_is.Inv := h.inv
  have hstate : a.m_stream.m_state = .resync := h.state
  have hsize := hinv.size_eq
  -- nothing is unread
  by_cases hzero : a.m_stream.m_is.m_size = 0
  · rw [Assembly.assembleStep_empty hzero] at hpass
    rcases hpass with ⟨hb, -⟩ | ⟨hb, -⟩ <;> cases hb
    have hempty : a.m_stream.m_is.unread.length = 0 := by omega
    have hnil : a.m_stream.m_is.m_nodes = [] :=
      hinv.nodes_eq_nil_iff.mpr (List.length_eq_zero_iff.mp hempty)
    refine .inl ⟨rfl, .inl ⟨h.inv, h.byteOrder_eq, h.wellFormed, h.bytes_eq, h.state, h.offset,
      h.single, h.indexed, fun _ => hnil⟩, fun _ => ?_⟩
    dsimp only
    rw [hempty]
    exact framesWithin_zero h.wellFormed
  -- too few bytes to search
  by_cases hshort : a.m_stream.m_is.m_size < 8
  · rw [Assembly.assembleStep_resync_short hstate (by omega) hshort] at hpass
    rcases hpass with ⟨hb, rfl⟩ | ⟨hb, -⟩ <;> cases hb
    exact .inl ⟨rfl, .inl h, by simp⟩
  have hbytes : wire order rest = a.m_stream.m_is.unread ++ future := h.bytes_eq
  have hlong : 8 ≤ a.m_stream.m_is.unread.length := by omega
  obtain ⟨node, others, hn⟩ := hinv.exists_cons (List.length_pos_iff.mp (by omega))
  have hsingle : a.m_stream.m_is.m_nodes.length ≤ 1 := h.single
  obtain rfl : others = [] := by
    rw [hn] at hsingle
    exact List.length_eq_zero_iff.mp (by simpa using hsingle)
  have hunread : a.m_stream.m_is.unread = node.m_buffer.m_bytes := by
    obtain ⟨-, hu⟩ := hinv.unread_cons hn
    have hoff : a.m_stream.m_is.m_offset = 0 := h.offset
    rw [hu, hoff, List.drop_zero, chainBytes_nil, List.append_nil]
  rw [hunread] at hlong hbytes
  -- the buffer begins with the frame, and the frame with the magic word
  have hmagic : COMMUTIL_MSG_MAGIC <+: node.m_buffer.m_bytes := by
    cases rest with
    | nil =>
      have hempty := (List.append_eq_nil_iff.mp hbytes.symm).1
      rw [hempty] at hlong
      simp at hlong
    | cons f rest =>
      have hf := h.wellFormed f List.mem_cons_self
      rw [wire_cons, serialized_eq order hf, headerBytes, hf.magic, List.append_assoc,
        List.append_assoc] at hbytes
      have hpre : COMMUTIL_MSG_MAGIC <+: node.m_buffer.m_bytes ++ future := by
        rw [← hbytes]
        apply List.prefix_append
      exact List.prefix_of_prefix_length_le hpre (List.prefix_append _ _) hlong
  have hfirst : IsFirstOccurrence COMMUTIL_MSG_MAGIC node.m_buffer.m_bytes 0 :=
    ⟨occursAt_iff_drop.mpr (by simpa using hmagic), fun k hk => absurd hk (Nat.not_lt_zero k)⟩
  have hindexed : node.m_length < 2 ^ 31 + 8 := h.indexed node (by rw [hn]; exact .head _)
  -- the search sees it: no zero byte comes before its end
  have hvisible : Common.Visible node.m_buffer.m_bytes COMMUTIL_MSG_MAGIC 0 := by
    refine ⟨Nat.sub_lt_right_of_lt_add hlong hindexed, fun m hm hbyte => ?_⟩
    obtain ⟨suffix, hsuf⟩ := hmagic
    rw [← hsuf, List.getElem?_append_left (by omega)] at hbyte
    exact Assembly.magic_zero_free (List.mem_of_getElem? hbyte)
  have hsearch : a.m_stream.m_is.searchBytes COMMUTIL_MSG_MAGIC = .ok (.ok, a.m_stream.m_is) := by
    rw [searchBytes_single_found hn (by decide) hfirst hvisible, if_neg (Nat.lt_irrefl 0)]
  rw [(Assembly.assembleStep_resync_search alloc hstate (Nat.le_of_not_lt hshort) hsearch).1 rfl]
    at hpass
  rcases hpass with ⟨hb, rfl⟩ | ⟨hb, -⟩ <;> cases hb
  exact .inl ⟨rfl, .inr ⟨h.inv, h.byteOrder_eq, h.wellFormed, h.bytes_eq, .inl rfl⟩, by simp⟩

private theorem pass_inSync {alloc : Nat → Bool} {running : Bool}
    (h : InSync order a rest future) (halloc : alloc a.allocCount = true)
    (hpass : a.assembleStep alloc = .next b ∧ running = true ∨
      a.assembleStep alloc = .done b ∧ running = false) :
    Passes order a b running rest future := by
  have hsize := h.inv.size_eq
  by_cases hzero : a.m_stream.m_is.m_size = 0
  · rw [Assembly.assembleStep_empty hzero] at hpass
    rcases hpass with ⟨hb, -⟩ | ⟨hb, -⟩ <;> cases hb
    refine .inl ⟨rfl, .inr h, fun _ => ?_⟩
    have hempty : a.m_stream.m_is.unread.length = 0 := by omega
    dsimp only
    rw [hempty]
    exact framesWithin_zero h.wellFormed
  have hunread : a.m_stream.m_is.unread ≠ [] := List.length_pos_iff.mp (by omega)
  cases rest with
  | nil =>
    -- nothing is to come, so nothing is unread
    have hbytes := h.bytes_eq
    rw [wire_nil] at hbytes
    exact absurd (List.append_eq_nil_iff.mp hbytes.symm).1 hunread
  | cons f rest =>
    rcases h.state with hstate | ⟨hstate, h40, hsaved⟩
    · by_cases hshort : a.m_stream.m_is.m_size < 40
      · rw [Assembly.assembleStep_header_short hstate (by omega) hshort] at hpass
        rcases hpass with ⟨hb, rfl⟩ | ⟨hb, -⟩ <;> cases hb
        exact .inl ⟨rfl, .inr h, nofun⟩
      · obtain ⟨c, hstep, hc, -, -, hdel, -⟩ := h.pass_header alloc hstate (by omega)
        rw [hstep] at hpass
        rcases hpass with ⟨hb, rfl⟩ | ⟨hb, -⟩ <;> cases hb
        exact .inl ⟨hdel, .inr hc, nofun⟩
    · have hL : a.m_stream.m_msgHeader.m_length.toNat = (serialized order f).length := by
        rw [hsaved, h.headerAt_eq h40, h.frame_length.1]
      by_cases hshort : a.m_stream.m_is.m_size < a.m_stream.m_msgHeader.m_length.toNat
      · -- the rest of the frame has not arrived
        rw [Assembly.assembleStep_body_short hstate hshort] at hpass
        rcases hpass with ⟨hb, -⟩ | ⟨hb, -⟩ <;> cases hb
        refine .inl ⟨rfl, .inr h, fun _ => ?_⟩
        rw [framesWithin, if_neg (by dsimp only; omega)]
      · obtain ⟨c, hstep, hc, -, hdel, -⟩ := h.pass_body alloc hstate (by omega) halloc
        rw [hstep] at hpass
        rcases hpass with ⟨hb, rfl⟩ | ⟨hb, -⟩ <;> cases hb
        exact .inr ⟨f, rest, rfl, hdel, .inr hc, nofun⟩

/-- **One pass** of a connection in step with its peer. -/
theorem pass {alloc : Nat → Bool} {running : Bool} (h : Aligned order ⟨a, true⟩ rest future)
    (halloc : alloc a.allocCount = true)
    (hpass : a.assembleStep alloc = .next b ∧ running = true ∨
      a.assembleStep alloc = .done b ∧ running = false) :
    Passes order a b running rest future := by
  rcases h.align with h | h
  · exact pass_searching h hpass
  · exact pass_inSync h halloc hpass

end Aligned

end Commutil.Framing
