import Commutil.Server.Delivery

/-!
# Frames That Were Sent

A server whose peers send well-formed frames.  `frames index connection` is what the peer of a
connection sends; its bytes arrive in buffers that are cut anywhere, and those of the connections
are interleaved with each other and with the steps of the workers.

`Wired` is the invariant: the stream of an open connection is `Aligned` with the frames that are
still to come on it.  With what is known of the queues (`Delivery`) the frames that the listener
reads on a connection are the first that were sent on it.
-/

namespace Commutil.Server.MessagePath

open Commutil.Io Commutil.Framing Commutil.Framing.Dispatch Commutil.Library
open Commutil.Transport MsgMultiplexer

/-! ## §1 The connection that is open on an index -/

/-- The number of the latest connection of an index, also while its connect is not yet pushed. -/
def number (w : Surroundings) (s : MessagePath) (index : Nat) : Nat :=
  match (s.m_msgMultiplexer.io (w.owner index)).event? with
  | some evt =>
    if evt.index = index then connectionOf s.m_msgMultiplexer.pushed evt
    else connections s.m_msgMultiplexer.pushed index
  | none => connections s.m_msgMultiplexer.pushed index

variable {w : Surroundings} {s s' : MessagePath}

theorem number_idle {index : Nat} (h : s.m_msgMultiplexer.io (w.owner index) = .idle) :
    s.number w index = connections s.m_msgMultiplexer.pushed index := by
  simp [number, h, IoPc.event?]

/-- Only a connect that begins changes the numbers, and only that of its own index. -/
theorem number_setIo (s' : MessagePath) (evt : MsgEvent) (pc : IoPc)
    (hidle : s.m_msgMultiplexer.io (w.owner evt.index) = .idle) (hpc : pc.event? = some evt)
    (hmux : s'.m_msgMultiplexer = s.m_msgMultiplexer.setIo (w.owner evt.index) pc) (index : Nat) :
    s'.number w index = if evt.index = index ∧ evt.m_eventType = .ET_CONNECT
      then s.number w index + 1 else s.number w index := by
  by_cases howner : w.owner index = w.owner evt.index
  · have hbefore : s.number w index = connections s.m_msgMultiplexer.pushed index :=
      number_idle (howner ▸ hidle)
    rw [hbefore]
    unfold number
    rw [hmux, howner, setIo_io_self, hpc]
    by_cases hindex : evt.index = index
    · subst hindex
      by_cases hconnect : evt.m_eventType = .ET_CONNECT <;>
        simp [connectionOf, hconnect, setIo]
    · simp [hindex, setIo]
  · have hindex : evt.index ≠ index := fun heq => howner (congrArg w.owner heq.symm)
    unfold number
    rw [hmux, setIo_io_ne pc howner]
    simp [hindex, setIo]

theorem number_ioStep (hroute : s.m_msgMultiplexer.Routing w.owner) {task : Nat}
    (h : s.m_msgMultiplexer.ioStep task = some s'.m_msgMultiplexer) (index : Nat) :
    s'.number w index = s.number w index := by
  obtain ⟨-, -, -, ⟨hpushed, hevents⟩ | ⟨evt, queueId, hpc, hpushed, hio⟩⟩ := ioStep_frame h
  · unfold number
    rw [hpushed, hevents]
  · have howner : w.owner evt.index = task := hroute.owner_of_busy (by rw [hpc]; rfl)
    by_cases htask : w.owner index = task
    · rw [number_idle (by rw [hio, htask, Function.update_self])]
      unfold number
      rw [htask, hpc, hpushed]
      by_cases hindex : evt.index = index
      · subst hindex
        simp only [IoPc.event?, if_true]
        exact connections_concat_self s.m_msgMultiplexer.pushed
          ⟨evt, queueId, connectionOf s.m_msgMultiplexer.pushed evt⟩
      · simp only [IoPc.event?, if_neg hindex]
        exact connections_concat_ne _ hindex
    · have hindex : evt.index ≠ index := by
        rintro rfl
        exact htask howner
      have hcount : connections s'.m_msgMultiplexer.pushed index =
          connections s.m_msgMultiplexer.pushed index := by
        rw [hpushed]
        exact connections_concat_ne _ hindex
      unfold number
      rw [hio, Function.update_of_ne htask, hcount]
      -- another task is busy with an index of its own
      cases hevent : (s.m_msgMultiplexer.io (w.owner index)).event? with
      | none => rfl
      | some evt' =>
        dsimp only
        by_cases hindex' : evt'.index = index
        · simp only [connectionOf, hindex', hcount]
        · simp only [if_neg hindex']

theorem number_worker {queueId : Nat} {action : MsgAction}
    (h : s.m_msgMultiplexer.step (.worker queueId action) = some s'.m_msgMultiplexer)
    (index : Nat) : s'.number w index = s.number w index := by
  obtain ⟨hio, hpushed⟩ := worker_frame h
  unfold number
  rw [hio, hpushed]


/-! ## §2 What the peers send -/

/-- What is asked of a step: the bytes that arrive are the next ones that the peer of the
    connection sends, a buffer that is searched is not too long for `max_index`, a connect finds
    the index closed and the stream at the start of a buffer, and buffers and allocations are as
    in `Meets`. -/
def Sent (w : Surroundings) (frames : Nat → Nat → List Msg) (s : MessagePath) : Event → Prop
  | .onConnect connectionDetails _ =>
    connectionDetails.m_connIndex < s.m_msgMultiplexer.m_connectionMap.length ∧
      s.opened connectionDetails.m_connIndex = none ∧
      (s.m_msgStreams connectionDetails.m_connIndex).assembly.m_stream.m_is.m_offset = 0
  | .onBytesReceived index buffer =>
    buffer.m_bytes ≠ [] ∧
      ((s.m_msgStreams index).assembly.m_stream.m_state = .resync →
        buffer.m_bytes.length < 2 ^ 31 + 8) ∧
      (s.m_msgStreams index).assembly.m_stream.m_is.m_size + buffer.m_bytes.length < 2 ^ 32 ∧
      ∀ o ∈ s.opened index, o.received ++ buffer.m_bytes <+:
        wire w.byteOrder (frames index (connections s.m_msgMultiplexer.pushed index))
  | .pass index => w.alloc index (s.m_msgStreams index).assembly.allocCount = true
  | _ => True

instance (w : Surroundings) (frames : Nat → Nat → List Msg) (s : MessagePath) (e : Event) :
    Decidable (s.Sent w frames e) :=
  match e with
  | .onConnect _ _ => inferInstanceAs (Decidable (_ ∧ _ ∧ _))
  | .onBytesReceived _ _ => inferInstanceAs (Decidable (_ ∧ (_ → _) ∧ _ ∧ _))
  | .pass _ => inferInstanceAs (Decidable (_ = _))
  | .onDisconnect _ | .io _ | .worker _ _ => .isTrue trivial

theorem Sent.raised {frames : Nat → Nat → List Msg} {e : Event} (h : s.Sent w frames e) :
    s.Raised e := by
  cases e with
  | onConnect connectionDetails status => exact h.1
  | _ => trivial

/-- What is known of an open connection: what is unread and what is to come are the frames after
    those that were assembled. -/
structure InStep (w : Surroundings) (s : MessagePath) (index : Nat) (frames : List Msg)
    (o : OpenConnection) : Prop where
  future : ∃ future,
    Aligned w.byteOrder (s.m_msgStreams index)
      (frames.drop (s.framesOn index (s.number w index)).length) future ∧
    o.received ++ future = wire w.byteOrder frames

/-- **The invariant** of a server with such peers. -/
structure Wired (w : Surroundings) (frames : Nat → Nat → List Msg) (s : MessagePath) : Prop where
  order : ∀ index, (s.m_msgStreams index).assembly.m_stream.m_is.m_byteOrder = w.byteOrder
  sent : ∀ index connection, s.framesOn index connection <+: frames index connection
  fresh : ∀ index connection, s.number w index < connection → s.framesOn index connection = []
  opened : ∀ index o, s.opened index = some o →
    s.InStep w index (frames index (s.number w index)) o

theorem start_wired (w : Surroundings) (frames : Nat → Nat → List Msg)
    (maxConnections concurrency : UInt32) :
    Wired w frames (start w maxConnections concurrency) where
  order := fun _ => rfl
  sent := fun _ _ => List.nil_prefix
  fresh := fun _ _ _ => rfl
  opened := nofun

/-! ## §3 Every step keeps the invariant -/

section Streams

variable {order : ByteOrder} {alloc : Nat → Bool} {c c' : Connection} {rest : List Msg}
  {future : List UInt8}

/-- A pass of the loop, with the message that it hands on. -/
theorem aligned_pass (h : Aligned order c rest future)
    (halloc : alloc c.assembly.allocCount = true) (hstep : c.step alloc .pass = some c') :
    delivered? c c' = none ∧ Aligned order c' rest future ∨
      ∃ f rest', rest = f :: rest' ∧ delivered? c c' = some f ∧
        Aligned order c' rest' future := by
  have hpasses : ∃ a b running, c = ⟨a, true⟩ ∧ c' = ⟨b, running⟩ ∧
      (a.assembleStep alloc = .next b ∧ running = true ∨
        a.assembleStep alloc = .done b ∧ running = false) := by
    cases connStep_iff.mp hstep with
    | pass hpass => exact ⟨_, _, true, rfl, rfl, .inl ⟨hpass, rfl⟩⟩
    | leave hdone => exact ⟨_, _, false, rfl, rfl, .inr ⟨hdone, rfl⟩⟩
  obtain ⟨a, b, running, rfl, rfl, hpass⟩ := hpasses
  rcases h.pass halloc hpass with ⟨hdel, hb⟩ | ⟨f, rest', hrest, hdel, hb⟩
  · exact .inl ⟨by simp [delivered?, hdel], hb⟩
  · exact .inr ⟨f, rest', hrest, by simp [delivered?, hdel], hb⟩

/-- A buffer with the next bytes. -/
theorem aligned_append {buffer : Buffer}
    (h : Aligned order c rest (buffer.m_bytes ++ future)) (hne : buffer.m_bytes ≠ [])
    (hindex : c.assembly.m_stream.m_state = .resync → buffer.m_bytes.length < 2 ^ 31 + 8)
    (hroom : c.assembly.m_stream.m_is.m_size + buffer.m_bytes.length < 2 ^ 32)
    (hstep : c.step alloc (.onBytesReceived buffer) = some c') :
    Aligned order c' rest future := by
  cases connStep_iff.mp hstep with
  | onBytesReceived happend => exact h.append hne hindex hroom happend

/-- A connect or a disconnect resets the stream. -/
theorem connStep_reset {e : ConnEvent} (he : e = .onConnect ∨ e = .onDisconnect)
    (hstep : c.step alloc e = some c') :
    c' = ⟨{ c.assembly with m_stream := c.assembly.m_stream.reset }, false⟩ := by
  rcases he with rfl | rfl <;> cases connStep_iff.mp hstep <;> rfl

end Streams

section Steps

variable {frames : Nat → Nat → List Msg} {index : Nat} {o : OpenConnection}

/-- What is known of a connection rests on its stream and on what was assembled on it. -/
theorem InStep.of_eq {sent : List Msg} (h : s.InStep w index sent o)
    (hstream : s'.m_msgStreams index = s.m_msgStreams index)
    (hnumber : s'.number w index = s.number w index)
    (hframes : s'.framesOn index (s.number w index) = s.framesOn index (s.number w index)) :
    s'.InStep w index sent o := by
  obtain ⟨future, halign, hbytes⟩ := h
  refine ⟨future, ?_, hbytes⟩
  rw [hstream, hnumber, hframes]
  exact halign

/-- A step that assembles nothing, and changes at most one stream. -/
theorem Wired.quiet (h : s.Wired w frames) (changed : Nat)
    (hother : ∀ index, index ≠ changed → s'.m_msgStreams index = s.m_msgStreams index)
    (hnumber : ∀ index, index ≠ changed → s'.number w index = s.number w index)
    (hopened : ∀ index, index ≠ changed → s'.opened index = s.opened index)
    (hassembled : s'.assembled = s.assembled) (hle : s.number w changed ≤ s'.number w changed)
    (horder : (s'.m_msgStreams changed).assembly.m_stream.m_is.m_byteOrder = w.byteOrder)
    (hstep : ∀ o, s'.opened changed = some o →
      s'.InStep w changed (frames changed (s'.number w changed)) o) :
    s'.Wired w frames := by
  have hframes : ∀ index connection, s'.framesOn index connection =
      s.framesOn index connection := by
    intro index connection
    unfold framesOn
    rw [hassembled]
  refine ⟨?_, ?_, ?_, ?_⟩
  · intro index
    by_cases hindex : index = changed
    · rw [hindex]
      exact horder
    · rw [hother index hindex]
      exact h.order index
  · intro index connection
    rw [hframes]
    exact h.sent index connection
  · intro index connection hlt
    rw [hframes]
    apply h.fresh
    by_cases hindex : index = changed
    · subst hindex
      exact Nat.lt_of_le_of_lt hle hlt
    · rw [← hnumber index hindex]
      exact hlt
  · intro index o ho
    by_cases hindex : index = changed
    · subst hindex
      exact hstep o ho
    · rw [hopened index hindex] at ho
      rw [hnumber index hindex]
      exact (h.opened index o ho).of_eq (hother index hindex) (hnumber index hindex) (hframes _ _)

/-- A step of a thread of the multiplexer. -/
theorem Wired.thread (h : s.Wired w frames) (hstreams : s'.m_msgStreams = s.m_msgStreams)
    (hopened : s'.opened = s.opened) (hassembled : s'.assembled = s.assembled)
    (hnumber : ∀ index, s'.number w index = s.number w index) : s'.Wired w frames := by
  apply h.quiet 0 (fun _ _ => by rw [hstreams]) (fun index _ => hnumber index)
    (fun _ _ => by rw [hopened]) hassembled (Nat.le_of_eq (hnumber 0).symm)
  · rw [hstreams]
    exact h.order 0
  · intro o ho
    rw [hopened] at ho
    rw [hnumber]
    refine (h.opened 0 o ho).of_eq (by rw [hstreams]) (hnumber 0) ?_
    unfold framesOn
    rw [hassembled]

theorem framesOn_concat {m : AssembledMsg} (h : s'.assembled = s.assembled ++ [m])
    (index connection : Nat) : s'.framesOn index connection = s.framesOn index connection ++
      if m.isOn index connection then [m.m_msg] else [] := by
  unfold framesOn
  rw [h, List.filter_append, List.map_append]
  cases hon : m.isOn index connection <;> simp [hon]

/-- A connection is announced. -/
theorem Wired.connect (h : s.Wired w frames) (hwf : ∀ k, ∀ f ∈ frames index k, WellFormed f)
    (hoff : (s.m_msgStreams index).assembly.m_stream.m_is.m_offset = 0)
    (hother : ∀ i, i ≠ index → s'.m_msgStreams i = s.m_msgStreams i ∧
      s'.number w i = s.number w i ∧ s'.opened i = s.opened i)
    (hstream : s'.m_msgStreams index =
      ⟨{ (s.m_msgStreams index).assembly with
        m_stream := (s.m_msgStreams index).assembly.m_stream.reset }, false⟩)
    (hnumber : s'.number w index = s.number w index + 1)
    (hopened : ∀ o, s'.opened index = some o → o.received = [])
    (hassembled : s'.assembled = s.assembled) : s'.Wired w frames := by
  apply h.quiet index (fun i hi => (hother i hi).1) (fun i hi => (hother i hi).2.1)
    (fun i hi => (hother i hi).2.2) hassembled (by omega)
  · rw [hstream]
    exact h.order index
  · intro o ho
    refine ⟨wire w.byteOrder (frames index (s'.number w index)), ?_, by rw [hopened o ho]; rfl⟩
    have hnone : s'.framesOn index (s'.number w index) = [] := by
      have hfresh := h.fresh index (s'.number w index) (by omega)
      unfold framesOn at hfresh ⊢
      rw [hassembled]
      exact hfresh
    rw [hnone, hstream, List.length_nil, List.drop_zero]
    exact Aligned.reset (h.order index) hoff (hwf _) false

/-- The next frame is assembled. -/
theorem Wired.deliver (h : s.Wired w frames) {c : Connection} {msg : Msg} {m : MsgMultiplexer}
    (ho : s.opened index = some o) (hindex : o.connectionDetails.m_connIndex = index)
    (hidle : s.m_msgMultiplexer.io (w.owner index) = .idle)
    (halloc : w.alloc index (s.m_msgStreams index).assembly.allocCount = true)
    (hstream : (s.m_msgStreams index).step (w.alloc index) .pass = some c)
    (hmsg : delivered? (s.m_msgStreams index) c = some msg)
    (hmux : s.m_msgMultiplexer.step (.onMsg (w.owner index) o.connectionDetails
      s.assembled.length true) = some m) :
    Wired w frames ⟨Function.update s.m_msgStreams index c, m, s.opened, s.assembled ++
      [⟨msg, o.connectionDetails, connections s.m_msgMultiplexer.pushed index⟩],
      s.dispatched⟩ := by
  obtain ⟨-, rfl⟩ := onMsg_cases hmux
  obtain ⟨future, halign, hbytes⟩ := h.opened index o ho
  have hnumber : s.number w index = connections s.m_msgMultiplexer.pushed index :=
    number_idle hidle
  obtain ⟨s', hs'⟩ : ∃ s', s' = MessagePath.mk (Function.update s.m_msgStreams index c)
    (s.m_msgMultiplexer.setIo (w.owner index)
      (.loadMap ⟨.ET_MSG, o.connectionDetails, s.assembled.length⟩)) s.opened (s.assembled ++
      [⟨msg, o.connectionDetails, connections s.m_msgMultiplexer.pushed index⟩])
      s.dispatched := ⟨_, rfl⟩
  have hstreams : s'.m_msgStreams = Function.update s.m_msgStreams index c := by rw [hs']
  rw [← hs']
  -- the numbers of the connections do not change, and one frame more is assembled for this one
  have hnumbers : ∀ i, s'.number w i = s.number w i := by
    intro i
    have hset := number_setIo (s := s) s' ⟨.ET_MSG, o.connectionDetails, s.assembled.length⟩ _
      (by rw [MsgEvent.index, hindex]; exact hidle) rfl
      (by rw [hs', MsgEvent.index, hindex]) i
    rw [hset, if_neg (by simp)]
  have hassembled : s'.assembled = s.assembled ++
      [⟨msg, o.connectionDetails, connections s.m_msgMultiplexer.pushed index⟩] := by rw [hs']
  have hframes := framesOn_concat hassembled
  have hself : s'.framesOn index (s.number w index) =
      s.framesOn index (s.number w index) ++ [msg] := by
    rw [hframes, if_pos (by simp [AssembledMsg.isOn, hindex, hnumber])]
  have hsame : ∀ i k, ¬ (i = index ∧ k = s.number w index) →
      s'.framesOn i k = s.framesOn i k := by
    intro i k hne
    rw [hframes, if_neg ?_, List.append_nil]
    simp only [AssembledMsg.isOn, decide_eq_true_eq]
    rintro ⟨hi, hk⟩
    exact hne ⟨by rw [← hi, hindex], by rw [hnumber, hk]⟩
  -- the frame that is assembled is the next one that was sent
  obtain ⟨hnone, -⟩ | ⟨f, rest, hrest, hsome, hnext⟩ := aligned_pass halign halloc hstream
  · rw [hnone] at hmsg
    cases hmsg
  rw [hsome] at hmsg
  cases hmsg
  -- what was assembled before, this frame and the rest are all that was sent
  have hbefore := List.prefix_iff_eq_take.mp (h.sent index (s.number w index))
  have hsent : s.framesOn index (s.number w index) ++ msg :: rest =
      frames index (s.number w index) := by
    rw [← hrest]
    conv_lhs => rw [hbefore]
    rw [List.length_take, Nat.min_eq_left (h.sent index _).length_le]
    exact List.take_append_drop _ _
  -- order, sent, fresh, opened
  refine ⟨?_, ?_, ?_, ?_⟩
  · intro i
    by_cases hi : i = index
    · subst hi
      rw [hstreams, Function.update_self]
      exact hnext.inv.2
    · rw [hstreams, Function.update_of_ne hi]
      exact h.order i
  · intro i k
    by_cases hik : i = index ∧ k = s.number w index
    · obtain ⟨rfl, rfl⟩ := hik
      rw [hself, ← hsent]
      exact ⟨rest, by simp⟩
    · rw [hsame i k hik]
      exact h.sent i k
  · intro i k hlt
    rw [hnumbers] at hlt
    rw [hsame i k (fun hik => by obtain ⟨rfl, rfl⟩ := hik; exact Nat.lt_irrefl _ hlt)]
    exact h.fresh i k hlt
  · -- the rest of the frames is aligned with what is unread
    intro i o' ho'
    have hopened : s.opened i = some o' := by rw [hs'] at ho'; exact ho'
    rw [hnumbers]
    by_cases hi : i = index
    · subst hi
      rw [ho] at hopened
      cases hopened
      refine ⟨future, ?_, hbytes⟩
      have hdrop : (frames i (s.number w i)).drop
          (s'.framesOn i (s'.number w i)).length = rest := by
        rw [hnumbers, hself, ← hsent, List.length_append, List.length_singleton]
        rw [← List.drop_drop, List.drop_left, List.drop_one, List.tail_cons]
      rw [hdrop, hstreams, Function.update_self]
      exact hnext
    · apply (h.opened i o' hopened).of_eq
      · rw [hstreams, Function.update_of_ne hi]
      · exact hnumbers i
      · exact hsame i _ fun hik => hi hik.1

/-- The server is called about a connect, which resets the stream; only one with status 0 is
    announced. -/
theorem Wired.called (h : s.Wired w frames) (hwf : ∀ i k, ∀ f ∈ frames i k, WellFormed f)
    {d : ConnectionDetails} {status : Int} {c : Connection} {m : MsgMultiplexer}
    {opened : Nat → Option OpenConnection} (hclosed : s.opened d.m_connIndex = none)
    (hoff : (s.m_msgStreams d.m_connIndex).assembly.m_stream.m_is.m_offset = 0)
    (hstream : (s.m_msgStreams d.m_connIndex).step (w.alloc d.m_connIndex) .onConnect = some c)
    (hmux : s.m_msgMultiplexer.step (.onConnect (w.owner d.m_connIndex) d status) = some m)
    (hopened : opened = if status = 0 then
        Function.update s.opened d.m_connIndex (some ⟨d, []⟩)
      else s.opened) :
    Wired w frames ⟨Function.update s.m_msgStreams d.m_connIndex c, m, opened, s.assembled,
      s.dispatched⟩ := by
  have hc := connStep_reset (.inl rfl) hstream
  obtain ⟨hidle, ⟨hstatus, rfl⟩ | ⟨hstatus, rfl⟩⟩ := onConnect_cases hmux
  · -- a failed connection only resets the stream
    rw [if_neg hstatus] at hopened
    subst hopened
    refine h.quiet d.m_connIndex (fun i hi => Function.update_of_ne hi _ _) (fun _ _ => rfl)
      (fun _ _ => rfl) rfl (Nat.le_refl _) ?_ ?_
    · dsimp only
      rw [Function.update_self, hc]
      exact h.order _
    · intro o ho
      rw [hclosed] at ho
      cases ho
  · -- a new connection: the count of connections of the index goes up, and none of its frames
    -- has been assembled
    rw [if_pos hstatus] at hopened
    subst hopened
    have hnumber := number_setIo (w := w) (s := s)
      ⟨Function.update s.m_msgStreams d.m_connIndex c,
        s.m_msgMultiplexer.setIo (w.owner d.m_connIndex)
          (.loadNext ⟨.ET_CONNECT, d, statusToMsg status⟩),
        Function.update s.opened d.m_connIndex (some ⟨d, []⟩), s.assembled, s.dispatched⟩
      ⟨.ET_CONNECT, d, statusToMsg status⟩ _ hidle rfl rfl
    apply h.connect (hwf d.m_connIndex) hoff
    · intro i hi
      refine ⟨Function.update_of_ne hi _ _, ?_, Function.update_of_ne hi _ _⟩
      rw [hnumber, if_neg fun hon => hi hon.1.symm]
    · dsimp only
      rw [Function.update_self]
      exact hc
    · rw [hnumber, if_pos ⟨rfl, rfl⟩]
    · -- the connection that is open now is this one
      intro o ho
      dsimp only at ho
      rw [Function.update_self] at ho
      cases ho
      rfl
    · rfl

/-- A connection ends; what it has delivered stays a part of its frames. -/
theorem Wired.ended (h : s.Wired w frames) {c : Connection} {m : MsgMultiplexer}
    (hindex : o.connectionDetails.m_connIndex = index)
    (hstream : (s.m_msgStreams index).step (w.alloc index) .onDisconnect = some c)
    (hmux : s.m_msgMultiplexer.step (.onDisconnect (w.owner index) o.connectionDetails) =
      some m) :
    Wired w frames ⟨Function.update s.m_msgStreams index c, m,
      Function.update s.opened index none, s.assembled, s.dispatched⟩ := by
  obtain ⟨hidle, rfl⟩ := onDisconnect_cases hmux
  have hnumber := number_setIo (w := w) (s := s)
    ⟨Function.update s.m_msgStreams index c, s.m_msgMultiplexer.setIo (w.owner index)
        (.loadMap ⟨.ET_DISCONNECT, o.connectionDetails, 0⟩),
      Function.update s.opened index none, s.assembled, s.dispatched⟩
    ⟨.ET_DISCONNECT, o.connectionDetails, 0⟩ (.loadMap ⟨.ET_DISCONNECT, o.connectionDetails, 0⟩)
    (by rw [MsgEvent.index, hindex]; exact hidle) rfl (by rw [MsgEvent.index, hindex])
  have hsame : ∀ i, _ = s.number w i := fun i => (hnumber i).trans (if_neg (by simp))
  refine h.quiet index (fun i hi => Function.update_of_ne hi _ _) (fun i _ => hsame i)
    (fun i hi => Function.update_of_ne hi _ _) rfl (Nat.le_of_eq (hsame index).symm) ?_ ?_
  · dsimp only
    rw [Function.update_self, connStep_reset (.inr rfl) hstream]
    exact h.order _
  · intro o' ho'
    dsimp only at ho'
    rw [Function.update_self] at ho'
    cases ho'

/-- An open connection goes on, and nothing is assembled: its stream and what it has received stay
    in step. -/
theorem Wired.goesOn (h : s.Wired w frames) {c : Connection}
    {opened : Nat → Option OpenConnection} (hopened : opened index = some o)
    (hother : ∀ i, i ≠ index → opened i = s.opened i) {future : List UInt8}
    (halign : Aligned w.byteOrder c ((frames index (s.number w index)).drop
      (s.framesOn index (s.number w index)).length) future)
    (hbytes : o.received ++ future = wire w.byteOrder (frames index (s.number w index))) :
    Wired w frames ⟨Function.update s.m_msgStreams index c, s.m_msgMultiplexer, opened,
      s.assembled, s.dispatched⟩ := by
  refine h.quiet index (fun i hi => Function.update_of_ne hi _ _) (fun _ _ => rfl) hother rfl
    (Nat.le_refl _) ?_ ?_
  · dsimp only
    rw [Function.update_self]
    exact halign.inv.2
  · intro o' ho'
    cases hopened.symm.trans ho'
    refine ⟨future, ?_, hbytes⟩
    dsimp only
    rw [Function.update_self]
    exact halign

/-- **Every step** keeps the invariant. -/
theorem Wired.step (h : s.Wired w frames) (hinv : s.Inv w)
    (hwf : ∀ i k, ∀ f ∈ frames i k, WellFormed f) {e : Event} (he : s.Sent w frames e)
    (hstep : s.step w e = some s') : s'.Wired w frames := by
  cases step_moves hstep with
  | @onConnect connectionDetails status c m opened hstream hmux hopened =>
    exact h.called hwf he.2.1 he.2.2 hstream hmux hopened
  | @onDisconnect index o c m ho hstream hmux =>
    exact h.ended (hinv.opened index o ho).1 hstream hmux
  | @onBytesReceived index buffer o c hidle ho hstream =>
    obtain ⟨hne, hindex, hroom, hsent⟩ := he
    obtain ⟨future, halign, hbytes⟩ := h.opened index o ho
    -- the bytes are those that were to come
    obtain ⟨later, hlater⟩ := hsent o ho
    rw [← number_idle hidle, ← hbytes, List.append_assoc] at hlater
    obtain rfl := List.append_cancel_left hlater
    rw [← List.append_assoc] at hbytes
    exact h.goesOn (Function.update_self _ _ _) (fun i hi => Function.update_of_ne hi _ _)
      (aligned_append halign hne hindex hroom hstream) hbytes
  | @pass index o c hidle ho hstream hnone =>
    obtain ⟨future, halign, hbytes⟩ := h.opened index o ho
    -- a pass that delivers nothing takes no byte of a frame
    obtain ⟨-, hnext⟩ | ⟨f, rest, -, hsome, -⟩ := aligned_pass halign he hstream
    · exact h.goesOn ho (fun _ _ => rfl) hnext hbytes
    · rw [hnone] at hsome
      cases hsome
  | deliver hidle ho hstream hmsg hmux =>
    exact h.deliver ho (hinv.opened _ _ ho).1 hidle he hstream hmsg hmux
  -- the other threads touch neither the streams nor the frames
  | @io task m hmux =>
    exact h.thread rfl rfl rfl (number_ioStep hinv.mux.routing hmux)
  | worker hnone hmux =>
    exact h.thread rfl rfl rfl (number_worker hmux)
  | dispatch hnext hmsg hcalls hmux =>
    exact h.thread rfl rfl rfl (number_worker hmux)

end Steps

/-! ## §4 What the frame listener reads -/

/-- Frames that have arrived as a whole, and no whole one behind them. -/
theorem framesWithin_wire (order : ByteOrder) (whole rest : List Msg) (n : Nat)
    (h : framesWithin order rest n = []) :
    framesWithin order (whole ++ rest) ((wire order whole).length + n) = whole := by
  induction whole with
  | nil => simpa using h
  | cons f whole ih =>
    have hle : (serialized order f).length ≤ (wire order (f :: whole)).length + n := by
      simp only [wire_cons, List.length_append]
      omega
    rw [List.cons_append, framesWithin, if_pos hle]
    have hless : (wire order (f :: whole)).length + n - (serialized order f).length =
        (wire order whole).length + n := by
      simp only [wire_cons, List.length_append]
      omega
    rw [hless, ih]

theorem InStep.all_assembled {index : Nat} {sent : List Msg} {o : OpenConnection}
    (h : s.InStep w index sent o) (hfirst : s.framesOn index (s.number w index) <+: sent)
    (hreturned : (s.m_msgStreams index).running = false) :
    s.framesOn index (s.number w index) = framesWithin w.byteOrder sent o.received.length := by
  obtain ⟨future, halign, hbytes⟩ := h
  obtain ⟨rest, rfl⟩ := hfirst
  rw [List.drop_left] at halign
  have hunread : wire w.byteOrder rest =
      (s.m_msgStreams index).assembly.m_stream.m_is.unread ++ future := by
    rcases halign.align with hsearch | hsync
    · exact hsearch.bytes_eq
    · exact hsync.bytes_eq
  have hwire : wire w.byteOrder (s.framesOn index (s.number w index) ++ rest) =
      wire w.byteOrder (s.framesOn index (s.number w index)) ++ wire w.byteOrder rest := by
    simp [wire]
  rw [hwire, hunread, ← List.append_assoc] at hbytes
  have hreceived := List.append_cancel_right hbytes
  rw [hreceived, List.length_append]
  exact (framesWithin_wire _ _ _ _ (halign.settled hreturned)).symm

/-- **Frames reach the listener.**  Every peer sends well-formed frames, and the bytes of its
    connection arrive in any buffers.  Then, whatever the I/O tasks and the workers do, the frames
    that `MsgServer::onMsg` reads on a connection are the first that were sent on it, in order and
    unaltered.  When nothing waits, they are on every open connection the frames that have arrived
    as a whole. -/
theorem sent_frames_reach_listener (w : Surroundings) (frames : Nat → Nat → List Msg)
    (hwf : ∀ i k, ∀ f ∈ frames i k, WellFormed f) (maxConnections concurrency : UInt32)
    (hpos : 1 ≤ concurrency) (events : List Event) (s : MessagePath)
    (hrun : RunsWith (stepOf (step w)) (Sent w frames) (start w maxConnections concurrency)
      events s) :
    (∀ index connection, s.dispatchedOn index connection <+: frames index connection) ∧
    (s.Drained → ∀ index o, s.opened index = some o → (s.m_msgStreams index).running = false →
      s.dispatchedOn index (connections s.m_msgMultiplexer.pushed index) =
        framesWithin w.byteOrder (frames index (connections s.m_msgMultiplexer.pushed index))
          o.received.length) := by
  have hboth : s.Inv w ∧ s.Wired w frames := by
    apply hrun.invariant fun t => t.Inv w ∧ t.Wired w frames
    · intro t e t' ht he hstep
      exact ⟨ht.1.step he.raised hstep, ht.2.step ht.1 hwf he hstep⟩
    · exact ⟨start_inv w maxConnections concurrency hpos, start_wired w frames _ _⟩
  obtain ⟨hinv, hwired⟩ := hboth
  refine ⟨fun i k => (hinv.dispatched_prefix i k).trans (hwired.sent i k), ?_⟩
  intro hdrained index o ho hreturned
  rw [hinv.dispatched_of_drained hdrained, ← number_idle (hdrained.1 _)]
  exact (hwired.opened index o ho).all_assembled (hwired.sent _ _) hreturned

/-- Two connections share a worker; the frame of the first one is cut behind its header. -/
theorem sent_frames_reach_listener_two_connections :
    ∃ s : MessagePath, s.dispatched.length = 2 ∧
      s.dispatchedOn 0 1 <+: [⟨.mk' 41 7 0 5 3, [9]⟩] ∧
      s.dispatchedOn 1 1 <+: [⟨.mk' 42 7 0 6 4, [8, 8]⟩, ⟨.mk' 41 7 0 7 5, [1]⟩] := by
  have hcomputed : (runWhere (step ⟨gzipOfTwo, .hostOrder, id, fun _ _ => true⟩)
      (Sent ⟨gzipOfTwo, .hostOrder, id, fun _ _ => true⟩ fun index connection =>
        if index = 0 ∧ connection = 1 then [⟨.mk' 41 7 0 5 3, [9]⟩]
        else if index = 1 ∧ connection = 1 then
          [⟨.mk' 42 7 0 6 4, [8, 8]⟩, ⟨.mk' 41 7 0 7 5, [1]⟩]
        else [])
      (start ⟨gzipOfTwo, .hostOrder, id, fun _ _ => true⟩ 2 1)
      [.onConnect ⟨7, 0⟩ 0, .onConnect ⟨8, 1⟩ 0, .io 0, .io 1, .io 0, .io 0, .io 0, .io 0, .io 0,
        .io 1, .io 1, .io 1, .io 1, .io 1,
        .onBytesReceived 0 ⟨1, (serialized .hostOrder ⟨.mk' 41 7 0 5 3, [9]⟩).take 40,
          by decide⟩, .pass 0, .pass 0,
        .onBytesReceived 1 ⟨2, serialized .hostOrder ⟨.mk' 42 7 0 6 4, [8, 8]⟩, by decide⟩,
        .pass 1, .pass 1, .pass 1, .io 1, .io 1, .pass 1, .pass 0,
        .onBytesReceived 0 ⟨3, [9], by decide⟩, .pass 0, .io 0, .io 0, .pass 0,
        .worker 0 fun _ _ => .ok, .worker 0 fun _ _ => .ok, .worker 0 fun _ _ => .ok,
        .worker 0 fun _ _ => .ok, .worker 0 fun _ _ => .ok, .worker 0 fun _ _ => .ok,
        .worker 0 fun _ _ => .ok, .worker 0 fun _ _ => .ok, .worker 0 fun _ _ => .ok]).map
      (fun s => s.dispatched.length) = some 2 := by
    decide +kernel
  obtain ⟨s, hwhere, hs⟩ := Option.map_eq_some_iff.mp hcomputed
  have hreach := (sent_frames_reach_listener _ _ (by
    intro i k f hf
    split at hf
    · revert f
      decide
    split at hf
    · revert f
      decide
    · cases hf) _ _ (by decide) _ _ (runsWith_of_runWhere hwhere)).1
  exact ⟨s, hs, hreach 0 1, hreach 1 1⟩

end Commutil.Server.MessagePath
