import Commutil.Client.RequestReferences

/-!
# Pending Requests

What an event may do to a request of a `MsgSender`.

`Loses` lists the events after which the slot of a message does not hold it any more; everything
else leaves the slot (`inSlot_step`) and the entries of the backlog (`found_step`) as they are.
A message whose callback has not run is in its slot and not in the backlog yet (`Written`).
-/

namespace Commutil.Client

open Commutil.Framing Commutil.Io Commutil.Library

variable {κ : Type}

namespace SenderState

variable {s t : SenderState κ} {p : MsgPtr} {msg : Msg}

/-! ## §1 The slot of a message -/

/-- The slot that the message names holds it. -/
structure InSlot (s : SenderState κ) (p : MsgPtr) (msg : Msg) : Prop where
  message : s.sender.messages p = some msg
  slot : ∃ r : MsgRequest, s.slots[msg.m_header.m_requestIndex.toNat]? = some r ∧
    r.m_request = some p

/-- After the event, the slot of the message may not hold it any more. -/
inductive Loses (s : SenderState κ) (p : MsgPtr) : SenderEvent → Prop where
  | visited {index : Nat} {now : UInt64} {r : MsgRequest} {b : MsgBacklog} :
      s.slots[index]? = some r → r.m_request = some p → r.isTx = false →
      s.sender.Settled index r now b → Loses s p (.visit index now)
  | ended {k : Nat} {now : UInt64} {data : MsgRequestData} {r : MsgRequest} {response : Msg} :
      s.waiting[k]? = some (p, data) → s.sender.Answers data r response →
      Loses s p (.finish k now)
  | pruned {entry : BacklogEntry} {rest : List BacklogEntry} :
      s.sender.m_backlog.m_requestSet = entry :: rest → entry.m_msg = p →
      s.sender.m_config.m_backlogLimitBytes < s.sender.m_backlog.m_backlogSizeBytes →
      Loses s p .prune
  | unsent {barrier : UInt64} {env : ResendEnv} {entry : BacklogEntry} {rest : List BacklogEntry}
      {msg : Msg} {index : Nat} {r : MsgRequest} :
      s.sender.m_backlog.m_requestSet = entry :: rest → entry.m_msg = p →
      (s.sender.pool.slot entry.m_request).m_resendTimeMillis < barrier →
      s.sender.messages p = some msg →
      s.sender.pool.getRequestData msg.m_header = some (index, r) →
      s.sender.shouldResend r env.now = true →
      SendFails s.sender.m_msgClient.byteOrder msg env.send → Loses s p (.resend barrier env)

namespace InSlot

theorem inUse (h : s.InSlot p msg) (hs : s.Sound) : s.InUse p := by
  obtain ⟨r, hr, hp⟩ := h.slot
  exact hs.inUse_slot hr hp

/-- The slot has the id of the message. -/
theorem slot_id (h : s.InSlot p msg) (hs : s.Sound) {r : MsgRequest}
    (hr : s.slots[msg.m_header.m_requestIndex.toNat]? = some r) :
    r.m_request = some p ∧ r.m_requestId = msg.m_header.m_requestId := by
  obtain ⟨r', hr', hp⟩ := h.slot
  obtain rfl := Option.some.inj (hr'.symm.trans hr)
  exact ⟨hp, (hs.held _ r' p msg hr' hp h.message).2.symm⟩

/-- The slot is not vacant. -/
theorem not_idle (h : s.InSlot p msg) (hs : s.Sound) {r : MsgRequest}
    (hr : s.slots[msg.m_header.m_requestIndex.toNat]? = some r) : r.m_requestStatus ≠ .idle := by
  intro hidle
  have hvacant : r.isVacant = true := by
    unfold MsgRequest.isVacant
    rw [hidle]
    rfl
  have hp := (h.slot_id hs hr).1
  rw [hs.vacant _ r hr hvacant] at hp
  cases hp

/-- Nothing happens to the slot and its message. -/
theorem same (h : s.InSlot p msg) (hslots : t.slots = s.slots)
    (hmessage : t.sender.messages p = s.sender.messages p) : t.InSlot p msg := by
  obtain ⟨r, hr, hp⟩ := h.slot
  exact ⟨hmessage.trans h.message, r, hslots ▸ hr, hp⟩

/-- Something happens to another slot. -/
theorem set_ne (h : s.InSlot p msg) {index : Nat} {r' : MsgRequest}
    (hslots : t.slots = s.slots.set index r') (hne : index ≠ msg.m_header.m_requestIndex.toNat)
    (hmessage : t.sender.messages p = s.sender.messages p) : t.InSlot p msg := by
  obtain ⟨r, hr, hp⟩ := h.slot
  refine ⟨hmessage.trans h.message, r, ?_, hp⟩
  rw [hslots, List.getElem?_set_ne hne]
  exact hr

/-- A slot changes, and keeps its request. -/
theorem set_keep (h : s.InSlot p msg) {index : Nat} {r r' : MsgRequest}
    (hr : s.slots[index]? = some r) (hslots : t.slots = s.slots.set index r')
    (hkeep : r'.m_request = r.m_request)
    (hmessage : t.sender.messages p = s.sender.messages p) : t.InSlot p msg := by
  by_cases hne : index = msg.m_header.m_requestIndex.toNat
  · subst hne
    obtain ⟨r₀, hr₀, hp⟩ := h.slot
    obtain rfl := Option.some.inj (hr₀.symm.trans hr)
    refine ⟨hmessage.trans h.message, r', ?_, hkeep.trans hp⟩
    rw [hslots, List.getElem?_set_self (List.getElem?_eq_some_iff.mp hr).1]
  · exact h.set_ne hslots hne hmessage

/-- The slot of another message that is in use is another slot. -/
theorem index_ne (h : s.InSlot p msg) (hs : s.Sound) {q : MsgPtr} {msg' : Msg} {r : MsgRequest}
    (hq : s.InUse q) (hmsg' : s.sender.messages q = some msg') (hne : q ≠ p) {index : Nat}
    (hr : s.slots[index]? = some r) (hid : r.m_requestId = msg'.m_header.m_requestId) :
    index ≠ msg.m_header.m_requestIndex.toNat := by
  rintro rfl
  have hsame := (h.slot_id hs hr).2
  exact hne (hs.ids q p msg' msg hq (h.inUse hs) hmsg' h.message (hid.symm.trans hsame))

end InSlot

/-- A wasted send takes no slot from a message. -/
theorem InSlot.wastes (h : s.InSlot p msg) (hs : s.Sound) {q : MsgPtr} (hq : p ≠ q)
    (hwastes : s.Wastes q t) : t.InSlot p msg := by
  rcases hwastes.slots with hsame | ⟨index, r, r', hr, hidle, -, -, -, hset⟩
  · exact h.same hsame (hwastes.messages p hq)
  · refine h.set_ne hset ?_ (hwastes.messages p hq)
    rintro rfl
    exact h.not_idle hs hr hidle

theorem InSlot.sends (h : s.InSlot p msg) (hs : s.Sound) {q : MsgPtr} (hq : p ≠ q) {msg' : Msg}
    {index : Nat} {r : MsgRequest} {flags : UInt32} {now : UInt64}
    (hsends : s.Sends q msg' index r flags now t) : t.InSlot p msg := by
  refine h.set_ne hsends.slots ?_ (hsends.message_ne hq)
  rintro rfl
  exact h.not_idle hs hsends.slot hsends.idle

theorem InSlot.visit (h : s.InSlot p msg) {index : Nat} {now : UInt64}
    (hstep : s.step (.visit index now) = .ok t) :
    t.InSlot p msg ∨ s.Loses p (.visit index now) ∧ t.sender.messages p = none := by
  obtain ⟨sender, hcall, rfl⟩ := visit_cases hstep
  rcases MsgSender.processPendingResponse_cases hcall with
    ⟨rfl, -⟩ | ⟨r, b, calls, hr, -, htx, hsettled, -, rfl⟩
  · exact .inl (h.same rfl rfl)
  · by_cases hp : r.m_request = some p
    · refine .inr ⟨.visited hr hp htx hsettled, ?_⟩
      rw [hp]
      exact Function.update_self ..
    · left
      have hne : index ≠ msg.m_header.m_requestIndex.toNat := by
        rintro rfl
        obtain ⟨r', hr', hp'⟩ := h.slot
        exact hp (Option.some.inj (hr'.symm.trans hr) ▸ hp')
      cases hq : r.m_request with
      | none => exact h.set_ne rfl hne rfl
      | some q =>
        refine h.set_ne rfl hne (Function.update_of_ne ?_ ..)
        rintro rfl
        exact hp hq

theorem InSlot.finish (h : s.InSlot p msg) (hs : s.Sound) {k : Nat} {now : UInt64}
    (hstep : s.finish k now = .ok t) :
    t.InSlot p msg ∨ s.Loses p (.finish k now) ∧ t.sender.messages p = none := by
  rcases finish_cases hstep with ⟨rfl, -⟩ | ⟨q, data, sender, hk, hended, rfl⟩
  · exact .inl h
  · have hcall := List.mem_of_getElem? hk
    -- the slot that is cleared is that of the transaction
    have hne : q ≠ p → ∀ r, s.slots[data.m_requestIndex]? = some r →
        r.m_requestId = data.m_requestId →
          data.m_requestIndex ≠ msg.m_header.m_requestIndex.toNat := by
      intro hqp r hr hid heq
      rw [heq] at hr
      have hsame := (h.slot_id hs hr).2
      exact hqp (hs.callIds q data p msg hcall (h.inUse hs) h.message (hsame.symm.trans hid)).symm
    cases hended with
    | accepted hanswers _ _ _ =>
      by_cases hqp : q = p
      · subst hqp
        exact .inr ⟨.ended hk hanswers, Function.update_self ..⟩
      · exact .inl (h.set_ne rfl (hne hqp _ hanswers.slot hanswers.id_eq)
          (Function.update_of_ne (Ne.symm hqp) ..))
    | @renewed r r' response verdict msg' index calls hanswers _ hmsg' hslot hidle =>
      by_cases hqp : q = p
      · subst hqp
        exact .inr ⟨.ended hk hanswers, Function.update_self ..⟩
      · have hcleared := hne hqp _ hanswers.slot hanswers.id_eq
        have hmessage : Function.update (Function.update s.sender.messages q
            (some (stampHeader msg' s.sender.pool.m_nextRequestId index))) q none p =
              s.sender.messages p := by
          rw [Function.update_idem, Function.update_of_ne (Ne.symm hqp)]
        obtain ⟨r₀, hr₀, hp⟩ := h.slot
        have hkeep : (s.slots.set data.m_requestIndex
            r.clearResponse)[msg.m_header.m_requestIndex.toNat]? = some r₀ := by
          rw [List.getElem?_set_ne hcleared]
          exact hr₀
        refine .inl ⟨hmessage.trans h.message, r₀, ?_, hp⟩
        -- the new slot was vacant
        have hindex : index ≠ msg.m_header.m_requestIndex.toNat := by
          rintro rfl
          obtain rfl := Option.some.inj (hkeep.symm.trans hslot)
          exact h.not_idle hs hr₀ hidle
        exact (List.getElem?_set_ne hindex).trans hkeep
    | unrenewed hanswers _ _ =>
      by_cases hqp : q = p
      · subst hqp
        exact .inr ⟨.ended hk hanswers, Function.update_self ..⟩
      · refine .inl (h.set_ne rfl (hne hqp _ hanswers.slot hanswers.id_eq) ?_)
        exact (Function.update_of_ne (Ne.symm hqp) ..).trans
          (Function.update_of_ne (Ne.symm hqp) ..)
    | timedOut _ _ hdata _ =>
      exact .inl (h.set_keep (MsgBacklog.getRequestData_eq_some.mp hdata).2.1 rfl rfl rfl)
    | unnamed _ hmsg' _ hinvalid =>
      exact absurd hinvalid (hs.valid q _ (inUse_waiting hcall) hmsg')

theorem InSlot.prune (h : s.InSlot p msg) (hs : s.Sound) (hstep : s.prune = .ok t) :
    t.InSlot p msg ∨ s.Loses p .prune := by
  rcases prune_cases hstep with rfl | ⟨entry, rest, rc, pool, b, hlimit, hset, hround, rfl⟩
  · exact .inl h
  · by_cases hp : entry.m_msg = p
    · exact .inr (.pruned hset hp hlimit)
    · left
      obtain ⟨msg', size, rc', hmsg', hpool, -⟩ := MsgBacklog.pruneRound_cases hround
      rcases hpool with rfl | ⟨r, hr, hid, rfl⟩
      · exact h.same rfl rfl
      · have hused : s.InUse entry.m_msg := inUse_set (hset ▸ List.mem_cons_self)
        exact h.set_ne rfl (h.index_ne hs hused hmsg' hp hr hid) rfl

theorem InSlot.resend (h : s.InSlot p msg) (hs : s.Sound) {barrier : UInt64} {env : ResendEnv}
    (hstep : s.resend barrier env = .ok t) : t.InSlot p msg ∨ s.Loses p (.resend barrier env) := by
  rcases resend_cases hstep with
    ⟨rfl, -⟩ | ⟨entry, rest, rc, sender, sender', hset, hready, hresend, hupdate, rfl⟩
  · exact .inl h
  · have hused : s.InUse entry.m_msg := inUse_set (hset ▸ List.mem_cons_self)
    obtain ⟨msg', hmsg', hcase⟩ := MsgSender.resendRequest_cases
      (fun msg hmsg => hs.valid _ msg hused hmsg) hresend
    have hclient : sender'.m_msgClient = sender.m_msgClient := by
      rcases hupdate with ⟨-, rfl⟩ | ⟨b, -, rfl⟩ <;> rfl
    have hmessages : sender'.messages = sender.messages := congrArg MsgClient.messages hclient
    have hslots : sender'.pool.m_requests = sender.pool.m_requests :=
      congrArg (fun c : MsgClient => c.m_requestPool.m_requests) hclient
    rcases hcase with ⟨rfl, -⟩ | ⟨index, r, hresent⟩
    · exact .inl (h.same hslots (congrFun hmessages p))
    · obtain ⟨rfl, hr, hid⟩ := MsgBacklog.getRequestData_eq_some.mp hresent.data
      have hsame : sender'.messages p = s.sender.messages p :=
        (congrFun hmessages p).trans (congrFun hresent.messages p)
      have hset' : sender'.pool.m_requests =
          s.slots.set msg'.m_header.m_requestIndex.toNat
            (MsgSender.resentSlot r (rc == .ok) env.updateNow) := by
        rw [hslots, hresent.pool]
        rfl
      -- the slot that is written is the one of the entry, and only its own request may leave it
      by_cases hp : entry.m_msg = p
      · by_cases hrc : rc = .ok
        · subst hrc
          exact .inl (h.set_keep hr hset' rfl hsame)
        · exact .inr (.unsent hset hp hready (hp ▸ hmsg') hresent.data hresent.due
            (hresent.fails.mp hrc))
      · exact .inl (h.set_ne hset' (h.index_ne hs hused hmsg' hp hr hid) hsame)

/-- **One event** leaves a message in its slot, or is one of those that `Loses` lists; what is
    answered or dropped from the pool is also freed. -/
theorem inSlot_step {e : SenderEvent} (hs : s.Sound) (hproper : s.Proper e) (h : s.InSlot p msg)
    (hstep : s.step e = .ok t) :
    t.InSlot p msg ∨ s.Loses p e ∧ (t.sender.messages p = none ∨
      ∃ entry ∈ s.sender.m_backlog.m_requestSet, entry.m_msg = p) := by
  have hused := h.inUse hs
  -- what is pruned or resent is at the front of the set
  have hfirst : ∀ e, s.Loses p e → (∀ index now, e ≠ .visit index now) →
      (∀ k now, e ≠ .finish k now) →
        ∃ entry ∈ s.sender.m_backlog.m_requestSet, entry.m_msg = p := by
    intro e hloses hvisit hfinish
    cases hloses with
    | visited => exact absurd rfl (hvisit _ _)
    | ended => exact absurd rfl (hfinish _ _)
    | @pruned entry rest hset hp => exact ⟨entry, hset ▸ List.mem_cons_self, hp⟩
    | @unsent _ _ entry rest _ _ _ hset hp => exact ⟨entry, hset ▸ List.mem_cons_self, hp⟩
  cases e with
  | allocate q msg' =>
    obtain rfl := Except.ok.inj hstep
    have hne : p ≠ q := fun heq => hproper (heq ▸ hused)
    refine .inl ?_
    unfold allocate
    split
    · exact h
    · exact h.same rfl (Function.update_of_ne hne ..)
  -- a send takes a request that is nowhere in use, so it is not this one
  | send q env =>
    obtain ⟨hq, -, hclock⟩ := hproper
    have hne : p ≠ q := fun heq => hq (heq ▸ hused)
    rcases send_state hclock hstep with ⟨-, hwastes⟩ | ⟨msg', index, r, hsends⟩
    · exact .inl (h.wastes hs hne hwastes)
    · exact .inl (h.sends hs hne hsends)
  | transact q env =>
    obtain ⟨hq, -, hclock⟩ := hproper
    have hne : p ≠ q := fun heq => hq (heq ▸ hused)
    rcases transact_state hclock hstep with ⟨-, hwastes⟩ | ⟨msg', index, r, hsends, -⟩
    · exact .inl (h.wastes hs hne hwastes)
    · exact .inl (h.sends hs hne hsends)
  | finish k now => exact (h.finish hs hstep).imp id fun ⟨hl, hn⟩ => ⟨hl, .inl hn⟩
  | loopSend k =>
    rcases loopSend_cases hstep with rfl | rfl | ⟨write, q, rc, b, -, -, -, rfl⟩
    · exact .inl h
    · exact .inl (h.same rfl rfl)
    · exact .inl (h.same rfl rfl)
  | recv response =>
    obtain rfl := Except.ok.inj hstep
    refine .inl ?_
    unfold MsgClient.onMsg MsgRequestPool.setResponse MsgRequestPool.findByHeader
    cases hfind : s.sender.m_msgClient.m_requestPool.findSlot
        response.m_header.m_requestIndex.toNat response.m_header.m_requestId with
    | error rc => exact h.same rfl rfl
    | ok found =>
      obtain ⟨i, r⟩ := found
      obtain ⟨rfl, hr, -⟩ := MsgRequestPool.findSlot_eq_ok.mp hfind
      exact h.set_keep hr rfl rfl rfl
  | visit index now => exact (h.visit hstep).imp id fun ⟨hl, hn⟩ => ⟨hl, .inl hn⟩
  | prune =>
    exact (h.prune hs hstep).imp id fun hl => ⟨hl, .inr (hfirst _ hl nofun nofun)⟩
  | resend barrier env =>
    exact (h.resend hs hstep).imp id fun hl => ⟨hl, .inr (hfirst _ hl nofun nofun)⟩
  | disconnect =>
    obtain rfl := Except.ok.inj hstep
    obtain ⟨r, hr, hp⟩ := h.slot
    refine .inl ⟨h.message, r.abortResponse, ?_, ?_⟩
    · show (s.slots.map MsgRequest.abortResponse)[_]? = _
      rw [List.getElem?_map, hr]
      rfl
    · unfold MsgRequest.abortResponse
      split <;> exact hp
  | connect =>
    obtain rfl := Except.ok.inj hstep
    exact .inl h

/-! ## §2 The entries of a message -/

/-- The entries of a message are not those of another one that is removed. -/
theorem found_of_removed {b b' : MsgBacklog} {pool : MsgRequestPool}
    {messages : MsgPtr → Option Msg}
    {q : MsgPtr} {rc : ErrorCode} {requestId : UInt64} {index : Nat}
    (hremove : b.removePendingRequest pool messages q = .ok (rc, b')) (hq : q ≠ p)
    (hid : ∀ msg', messages q = some msg' → msg'.m_header.m_requestId ≠ requestId)
    (hmap : (requestId, ⟨p, index⟩) ∈ b.m_requestMap) (hset : ⟨p, index⟩ ∈ b.m_requestSet)
    (hheap : ⟨p, index⟩ ∈ b.m_minHeap) :
    (requestId, ⟨p, index⟩) ∈ b'.m_requestMap ∧ ⟨p, index⟩ ∈ b'.m_requestSet ∧
      ⟨p, index⟩ ∈ b'.m_minHeap := by
  rcases MsgBacklog.removePendingRequest_cases hremove with ⟨-, msg', hmsg', hremoved⟩ | ⟨-, rfl⟩
  · obtain ⟨e, hmap'⟩ := hremoved.map
    obtain ⟨e₁, he₁, hset'⟩ := hremoved.set
    obtain ⟨e₂, he₂, hheap'⟩ := hremoved.heap
    refine ⟨?_, ?_, ?_⟩
    · refine (List.mem_cons.mp (hmap'.subset hmap)).resolve_left fun heq => ?_
      exact hid msg' hmsg' (Prod.mk.inj heq).1.symm
    · refine (List.mem_cons.mp (hset'.subset hset)).resolve_left fun heq => ?_
      exact hq (he₁.symm.trans (congrArg BacklogEntry.m_msg heq).symm)
    · refine (List.mem_cons.mp (hheap'.subset hheap)).resolve_left fun heq => ?_
      exact hq (he₂.symm.trans (congrArg BacklogEntry.m_msg heq).symm)
  · exact ⟨hmap, hset, hheap⟩

/-- An insertion that finds no place met an element that it cannot tell from the new one. -/
theorem insertPosition_none {less : BacklogEntry → BacklogEntry → Except Fault Bool}
    {x : BacklogEntry} {l : List BacklogEntry} (h : insertPosition less x l = .ok none) :
    ∃ y ∈ l, less x y = .ok false ∧ less y x = .ok false := by
  induction l with
  | nil => cases h
  | cons y ys ih =>
    rw [insertPosition] at h
    split at h
    · cases h
    · cases h
    · cases h
    · rename_i hxy hyx
      exact ⟨y, List.mem_cons_self, hxy, hyx⟩
    · split at h
      · cases h
      · rename_i hnone
        obtain ⟨z, hz, hboth⟩ := ih hnone
        exact ⟨z, List.mem_cons_of_mem y hz, hboth⟩
      · cases h

/-- Entries that compare neither way have messages with the same id. -/
theorem entryTimeCmp_equal {time : MsgRequest → UInt64} {pool : MsgRequestPool}
    {messages : MsgPtr → Option Msg} {x y : BacklogEntry}
    (hxy : entryTimeCmp time pool messages x y = .ok false)
    (hyx : entryTimeCmp time pool messages y x = .ok false) :
    ∃ mx my, messages x.m_msg = some mx ∧ messages y.m_msg = some my ∧
      mx.m_header.m_requestId = my.m_header.m_requestId := by
  unfold entryTimeCmp at hxy hyx
  dsimp only at hxy hyx
  -- the times agree, so the comparison was decided by the ids
  have hnot : ∀ {a b : UInt64} {c : Except Fault Bool},
      (if a < b then .ok true else if a > b then .ok false else c) = .ok false → ¬ a < b := by
    intro a b c hc hlt
    rw [if_pos hlt] at hc
    cases hc
  have hle := hnot hxy
  have hge := hnot hyx
  rw [if_neg hle, if_neg hge] at hxy
  rw [if_neg hge, if_neg hle] at hyx
  cases hmx : messages x.m_msg with
  | none =>
    unfold readHeader at hxy
    rw [hmx] at hxy
    cases hxy
  | some mx =>
    cases hmy : messages y.m_msg with
    | none =>
      unfold readHeader at hyx
      rw [hmx, hmy] at hyx
      cases hyx
    | some my =>
      unfold readHeader at hxy hyx
      rw [hmx, hmy] at hxy hyx
      refine ⟨mx, my, rfl, rfl, UInt64.le_antisymm ?_ ?_⟩
      · exact UInt64.not_lt.mp (of_decide_eq_false (Except.ok.inj hyx))
      · exact UInt64.not_lt.mp (of_decide_eq_false (Except.ok.inj hxy))

section Entries

variable (hs : s.Sound) (h : s.InSlot p msg)
  (hfound : s.sender.FoundUnder p msg.m_header.m_requestId msg.m_header.m_requestIndex.toNat)

include hfound in
theorem found_same (hbacklog : t.sender.m_backlog = s.sender.m_backlog) :
    t.sender.FoundUnder p msg.m_header.m_requestId msg.m_header.m_requestIndex.toNat :=
  ⟨hbacklog ▸ hfound.map, hbacklog ▸ hfound.set, hbacklog ▸ hfound.heap⟩

include hs h hfound

/-- Another message in use is removed, which has another id. -/
theorem found_removed {q : MsgPtr} {rc : ErrorCode} {b : MsgBacklog} {pool : MsgRequestPool}
    (hmap : b.m_requestMap = s.sender.m_backlog.m_requestMap)
    (hset : b.m_requestSet = s.sender.m_backlog.m_requestSet)
    (hheap : b.m_minHeap = s.sender.m_backlog.m_minHeap)
    (hremove : b.removePendingRequest pool s.sender.messages q = .ok (rc, t.sender.m_backlog))
    (hq : s.InUse q) (hne : q ≠ p) :
    t.sender.FoundUnder p msg.m_header.m_requestId msg.m_header.m_requestIndex.toNat := by
  obtain ⟨hmap', hset', hheap'⟩ := found_of_removed hremove hne
    (fun msg' hmsg' hid => hne (hs.ids q p msg' msg hq (h.inUse hs) hmsg' h.message hid))
    (hmap ▸ hfound.map) (hset ▸ hfound.set) (hheap ▸ hfound.heap)
  exact ⟨hmap', hset', hheap'⟩

/-- The end of a transaction removes the request that was answered, if any. -/
theorem found_finish {k : Nat} {now : UInt64} (hstep : s.finish k now = .ok t) :
    t.sender.FoundUnder p msg.m_header.m_requestId msg.m_header.m_requestIndex.toNat ∨
      s.Loses p (.finish k now) := by
  rcases finish_cases hstep with ⟨rfl, -⟩ | ⟨q, data, sender, hk, hended, rfl⟩
  · exact .inl hfound
  · cases hended with
    | accepted hanswers _ _ hremove =>
      by_cases hq : q = p
      · subst hq
        exact .inr (.ended hk hanswers)
      · exact .inl (found_removed hs h hfound rfl rfl rfl hremove
          (inUse_waiting (List.mem_of_getElem? hk)) hq)
    -- the other ends leave the backlog alone
    | renewed _ _ _ _ _ => exact .inl (found_same hfound rfl)
    | unrenewed _ _ _ => exact .inl (found_same hfound rfl)
    | timedOut _ _ _ _ => exact .inl (found_same hfound rfl)
    | unnamed _ _ _ _ => exact .inl (found_same hfound rfl)

/-- A visit removes the request of the slot if its response was accepted. -/
theorem found_visit {index : Nat} {now : UInt64} (hstep : s.step (.visit index now) = .ok t) :
    t.sender.FoundUnder p msg.m_header.m_requestId msg.m_header.m_requestIndex.toNat ∨
      s.Loses p (.visit index now) := by
  obtain ⟨sender, hcall, rfl⟩ := visit_cases hstep
  rcases MsgSender.processPendingResponse_cases hcall with
    ⟨rfl, -⟩ | ⟨r, b, calls, hr, -, htx, hsettled, -, rfl⟩
  · exact .inl (found_same hfound rfl)
  · have hbacklog : ((s.sender.settled index r b calls).released r.m_request).m_backlog = b :=
      (released_fields _ _).2.1
    cases hsettled with
    | @accepted response q rc b harrived hresponse haccepts hq hremove =>
      by_cases hp : q = p
      · subst hp
        exact .inr (.visited hr hq htx (.accepted harrived hresponse haccepts hq hremove))
      · rw [← hbacklog] at hremove
        exact .inl (found_removed hs h hfound rfl rfl rfl hremove (hs.inUse_slot hr hq) hp)
    -- without an accepted response the slot is given up and the entry stays
    | rejected _ _ _ => exact .inl (found_same hfound hbacklog)
    | empty _ _ => exact .inl (found_same hfound hbacklog)
    | aborted _ => exact .inl (found_same hfound hbacklog)
    | expired _ _ => exact .inl (found_same hfound hbacklog)

/-- A round of `pruneBacklog` removes the first entry of the set. -/
theorem found_prune (hstep : s.prune = .ok t) :
    t.sender.FoundUnder p msg.m_header.m_requestId msg.m_header.m_requestIndex.toNat ∨
      s.Loses p .prune := by
  rcases prune_cases hstep with rfl | ⟨entry, rest, rc, pool, b, hlimit, hset, hround, rfl⟩
  · exact .inl hfound
  · obtain ⟨msg', size, rc', -, -, hremove⟩ := MsgBacklog.pruneRound_cases hround
    by_cases hp : entry.m_msg = p
    · exact .inr (.pruned hset hp hlimit)
    · exact .inl (found_removed hs h hfound
        (b := { s.sender.m_backlog with m_backlogSizeBytes := size }) rfl rfl rfl hremove
        (inUse_set (hset ▸ List.mem_cons_self)) hp)

/-- The first entry of the set finds no place behind: then it is in the set a second time. -/
theorem found_dropped {entry : BacklogEntry} {rest : List BacklogEntry}
    {time : MsgRequest → UInt64} {pool : MsgRequestPool}
    (hset : s.sender.m_backlog.m_requestSet = entry :: rest)
    (hposition : insertPosition (entryTimeCmp time pool s.sender.messages) entry rest = .ok none) :
    (⟨p, msg.m_header.m_requestIndex.toNat⟩ : BacklogEntry) ∈ rest := by
  have hmem := hfound.set
  rw [hset] at hmem
  rcases List.mem_cons.mp hmem with rfl | hrest
  · -- it met an entry with the same id, which is one of the same message
    obtain ⟨y, hy, hless, hgreater⟩ := insertPosition_none hposition
    obtain ⟨mx, my, hmx, hmy, hid⟩ := entryTimeCmp_equal hless hgreater
    have hyset : y ∈ s.sender.m_backlog.m_requestSet := hset ▸ List.mem_cons_of_mem _ hy
    obtain rfl := Option.some.inj (hmx.symm.trans h.message)
    have hyp : y.m_msg = p :=
      (hs.ids p y.m_msg mx my (h.inUse hs) (inUse_set hyset) hmx hmy hid).symm
    rw [hyp] at hmy
    obtain rfl := Option.some.inj (hmy.symm.trans h.message)
    have hplace := hs.places y hyset my (hyp ▸ h.message)
    have heq : y = ⟨p, my.m_header.m_requestIndex.toNat⟩ := by
      cases y
      simp only [BacklogEntry.mk.injEq]
      exact ⟨hyp, hplace⟩
    exact heq ▸ hy
  · exact hrest

/-- A resend moves the first entry of the set to its new place. -/
theorem found_resend {barrier : UInt64} {env : ResendEnv}
    (hstep : s.resend barrier env = .ok t) :
    t.sender.FoundUnder p msg.m_header.m_requestId msg.m_header.m_requestIndex.toNat := by
  rcases resend_cases hstep with
    ⟨rfl, -⟩ | ⟨entry, rest, rc, sender, sender', hset, hready, hresend, hupdate, rfl⟩
  · exact hfound
  · have hentry : s.InUse entry.m_msg := inUse_set (hset ▸ List.mem_cons_self)
    obtain ⟨msg', hmsg', hcase⟩ := MsgSender.resendRequest_cases
      (fun msg hmsg => hs.valid _ msg hentry hmsg) hresend
    have hbefore :
        sender.m_backlog = s.sender.m_backlog ∧ sender.messages = s.sender.messages := by
      rcases hcase with ⟨rfl, -⟩ | ⟨index, r, hresent⟩
      · exact ⟨rfl, rfl⟩
      · exact ⟨hresent.backlog, hresent.messages⟩
    rcases hupdate with ⟨-, rfl⟩ | ⟨b, hb, rfl⟩
    · exact found_same hfound hbefore.1
    · rw [hbefore.1, hbefore.2] at hb
      rcases updateReady_cases hset hb with ⟨l, rfl, hl⟩ | ⟨rfl, hposition⟩
      · exact ⟨hfound.map, hl.symm.subset hfound.set, hfound.heap⟩
      · exact ⟨hfound.map, found_dropped hs h hfound hset hposition, hfound.heap⟩

/-- **One event** leaves the entries of a message in all indices of the backlog, or is one of those
    that `Loses` lists. -/
theorem found_step {e : SenderEvent} (hproper : s.Proper e) (hstep : s.step e = .ok t) :
    t.sender.FoundUnder p msg.m_header.m_requestId msg.m_header.m_requestIndex.toNat ∨
      s.Loses p e := by
  cases e with
  | allocate q msg' =>
    obtain rfl := Except.ok.inj hstep
    refine .inl (found_same hfound ?_)
    unfold allocate
    split <;> rfl
  -- a request that is sent comes into the backlog with its callback only
  | send q env =>
    rcases send_state hproper.2.2 hstep with ⟨-, hwastes⟩ | ⟨msg', index, r, hsends⟩
    · exact .inl (found_same hfound hwastes.backlog)
    · exact .inl (found_same hfound hsends.backlog)
  | transact q env =>
    rcases transact_state hproper.2.2 hstep with ⟨-, hwastes⟩ | ⟨msg', index, r, hsends, -⟩
    · exact .inl (found_same hfound hwastes.backlog)
    · exact .inl (found_same hfound hsends.backlog)
  | finish k now => exact found_finish hs h hfound hstep
  | loopSend k =>
    rcases loopSend_cases hstep with rfl | rfl | ⟨write, q, rc, b, -, -, hadd, rfl⟩
    · exact .inl hfound
    · exact .inl (found_same hfound rfl)
    · -- the callback adds entries and takes none away
      rcases MsgBacklog.addPendingRequest_cases hadd with ⟨-, msg', r, -, -, -, hadded⟩ | ⟨-, rfl⟩
      · refine .inl ⟨?_, hadded.set.symm.subset (List.mem_cons_of_mem _ hfound.set),
          hadded.heap.symm.subset (List.mem_cons_of_mem _ hfound.heap)⟩
        show _ ∈ b.m_requestMap
        rw [hadded.map]
        exact List.mem_cons_of_mem _ hfound.map
      · exact .inl (found_same hfound rfl)
  | recv response =>
    obtain rfl := Except.ok.inj hstep
    exact .inl (found_same hfound rfl)
  | visit index now => exact found_visit hs h hfound hstep
  | prune => exact found_prune hs h hfound hstep
  | resend barrier env => exact .inl (found_resend hs h hfound hstep)
  | disconnect =>
    obtain rfl := Except.ok.inj hstep
    exact .inl (found_same hfound rfl)
  | connect =>
    obtain rfl := Except.ok.inj hstep
    exact .inl hfound

end Entries

/-! ## §3 Messages whose callback has not run -/

/-- The messages of the writes that have not reached the I/O loop. -/
def unreported (s : SenderState κ) : List MsgPtr := s.writes.filterMap WriteRequest.userData

/-- The message has no entry in the backlog. -/
structure Unlisted (s : SenderState κ) (p : MsgPtr) : Prop where
  map : ∀ item ∈ s.sender.m_backlog.m_requestMap, item.2.m_msg ≠ p
  set : ∀ entry ∈ s.sender.m_backlog.m_requestSet, entry.m_msg ≠ p
  heap : ∀ entry ∈ s.sender.m_backlog.m_minHeap, entry.m_msg ≠ p

/-- A message waits for one callback only, is not in the backlog yet, and is in its slot unless it
    was freed. -/
structure Written (s : SenderState κ) : Prop where
  distinct : s.unreported.Nodup
  unlisted : ∀ p ∈ s.unreported, s.Unlisted p
  inSlot : ∀ p ∈ s.unreported, ∀ msg, s.sender.messages p = some msg → s.InSlot p msg

theorem inUse_unreported (h : p ∈ s.unreported) : s.InUse p := by
  obtain ⟨write, hwrite, hp⟩ := List.mem_filterMap.mp h
  exact inUse_write hwrite hp

theorem not_inUse_unlisted (h : ¬ s.InUse p) : s.Unlisted p :=
  ⟨fun _ hitem heq => h (heq ▸ inUse_map hitem), fun _ hentry heq => h (heq ▸ inUse_set hentry),
    fun _ hentry heq => h (heq ▸ inUse_heap hentry)⟩

/-- Callbacks are only taken away, and new entries are those of messages whose callback ran. -/
theorem Written.shrink {e : SenderEvent} (h : s.Written) (hs : s.Sound) (hproper : s.Proper e)
    (hstep : s.step e = .ok t) (hsub : t.unreported.Sublist s.unreported)
    (hlisted : ∀ q ∈ t.unreported, s.Unlisted q → t.Unlisted q)
    (hmessages : ∀ q ∈ s.unreported, ∀ msg, t.sender.messages q = some msg →
      s.sender.messages q = some msg) : t.Written where
  distinct := h.distinct.sublist hsub
  unlisted q hq := hlisted q hq (h.unlisted q (hsub.subset hq))
  inSlot q hq msg hmsg := by
    have hq' := hsub.subset hq
    have hslot := h.inSlot q hq' msg (hmessages q hq' msg hmsg)
    rcases inSlot_step hs hproper hslot hstep with hin | ⟨-, hnone | ⟨entry, hentry, heq⟩⟩
    · exact hin
    · rw [hnone] at hmsg
      cases hmsg
    · exact absurd heq ((h.unlisted q hq').set entry hentry)

theorem unlisted_of_shrinks {b : MsgBacklog} (h : BacklogShrinks s.sender.m_backlog b)
    (hb : t.sender.m_backlog = b) (hp : s.Unlisted p) : t.Unlisted p := by
  subst hb
  exact ⟨fun item hitem => hp.map item (h.map item hitem),
    fun entry hentry => hp.set entry (h.set entry hentry),
    fun entry hentry => hp.heap entry (h.heap entry hentry)⟩

/-- A new message waits for its callback. -/
theorem Written.sent (h : s.Written) (hs : s.Sound) (hp : ¬ s.InUse p) {msg : Msg} {index : Nat}
    {r : MsgRequest}
    {flags : UInt32} {now : UInt64} (hsends : s.Sends p msg index r flags now t) : t.Written := by
  obtain ⟨bytes, hwrites⟩ := hsends.writes
  have hunreported : t.unreported = s.unreported ++ [p] := by
    unfold unreported
    rw [hwrites, List.filterMap_append]
    rfl
  have hnew : p ∉ s.unreported := fun hmem => hp (inUse_unreported hmem)
  have hunlisted : ∀ q, s.Unlisted q → t.Unlisted q :=
    fun q hq => unlisted_of_shrinks (.refl _) hsends.backlog hq
  have hlt : index < 2 ^ 32 :=
    Nat.lt_of_lt_of_le (List.getElem?_eq_some_iff.mp hsends.slot).1 hs.size
  refine ⟨?_, ?_, ?_⟩
  · rw [hunreported, ← List.concat_eq_append, List.nodup_concat]
    exact ⟨hnew, h.distinct⟩
  · intro q hq
    rw [hunreported] at hq
    rcases List.mem_append.mp hq with hold | hself
    · exact hunlisted q (h.unlisted q hold)
    · rw [List.mem_singleton.mp hself]
      exact hunlisted p (not_inUse_unlisted hp)
  · intro q hq msg' hmsg'
    rw [hunreported] at hq
    -- the slot of the new request is the one its header was stamped with
    by_cases hqp : q = p
    · subst hqp
      rw [hsends.message_self] at hmsg'
      obtain rfl := Option.some.inj hmsg'
      refine ⟨hsends.message_self, r.holding q s.sender.pool.m_nextRequestId flags now, ?_, rfl⟩
      have hindex :
          (stampHeader msg s.sender.pool.m_nextRequestId index).m_header.m_requestIndex.toNat
          = index := UInt32.toNat_ofNat_of_lt' hlt
      rw [hindex]
      exact hsends.slot_self
    · have hold : q ∈ s.unreported :=
        (List.mem_append.mp hq).resolve_right fun hself => hqp (List.mem_singleton.mp hself)
      rw [hsends.message_ne hqp] at hmsg'
      have hslot := h.inSlot q hold msg' hmsg'
      exact hslot.sends hs hqp hsends

/-- Callbacks only ran, and no message that still waits for one came into the backlog. -/
structure Settles (s t : SenderState κ) : Prop where
  parts : s.PartsShrink t
  waiting : t.unreported.Sublist s.unreported
  unlisted : ∀ q ∈ t.unreported, s.Unlisted q → t.Unlisted q

theorem Written.settle {e : SenderEvent} (h : s.Written) (hs : s.Sound) (hproper : s.Proper e)
    (hstep : s.step e = .ok t) (hsettles : s.Settles t) : t.Written := by
  refine h.shrink hs hproper hstep hsettles.waiting hsettles.unlisted fun q hq msg hmsg => ?_
  -- a message that waits is in use, so no new one took its place
  exact (hsettles.parts.messages q msg hmsg).resolve_right (not_not.mpr (inUse_unreported hq))

/-- The backlog and the writes are as before. -/
theorem settles_same (hparts : s.PartsShrink t)
    (hbacklog : t.sender.m_backlog = s.sender.m_backlog) (hwrites : t.writes = s.writes) :
    s.Settles t := by
  refine ⟨hparts, ?_, fun _ _ => unlisted_of_shrinks (.refl _) hbacklog⟩
  unfold unreported
  rw [hwrites]

/-- The end of a transaction takes at most the request that was answered out of the backlog. -/
theorem settles_finish {k : Nat} {now : UInt64} (hproper : s.Proper (.finish k now))
    (hstep : s.finish k now = .ok t) : s.Settles t := by
  have hparts := partsShrink_finish hproper hstep
  rcases finish_cases hstep with ⟨rfl, -⟩ | ⟨q, data, sender, hk, hended, rfl⟩
  · exact settles_same hparts rfl rfl
  · cases hended with
    | accepted _ _ _ hremove =>
      exact ⟨hparts, .refl _,
        fun _ _ => unlisted_of_shrinks (removePendingRequest_shrinks hremove) rfl⟩
    | renewed _ _ _ _ _ => exact settles_same hparts rfl rfl
    | unrenewed _ _ _ => exact settles_same hparts rfl rfl
    | timedOut _ _ _ _ => exact settles_same hparts rfl rfl
    | unnamed _ _ _ _ => exact settles_same hparts rfl rfl

/-- A message that came into the backlog is a new entry of all three indices. -/
theorem Unlisted.added {header : MsgHeader} {entry : BacklogEntry} (h : s.Unlisted p)
    (hadded : MsgBacklog.Added s.sender.m_backlog header entry t.sender.m_backlog)
    (hne : entry.m_msg ≠ p) : t.Unlisted p := by
  refine ⟨?_, ?_, ?_⟩
  · intro item hitem
    rw [hadded.map] at hitem
    rcases List.mem_cons.mp hitem with rfl | hmem
    · exact hne
    · exact h.map item hmem
  · intro other hother
    rcases List.mem_cons.mp (hadded.set.subset hother) with rfl | hmem
    · exact hne
    · exact h.set other hmem
  · intro other hother
    rcases List.mem_cons.mp (hadded.heap.subset hother) with rfl | hmem
    · exact hne
    · exact h.heap other hmem

/-- A callback that ran takes its write away, and the message it adds has no other callback. -/
theorem settles_loopSend {k : Nat} (h : s.Written) (hstep : s.step (.loopSend k) = .ok t) :
    s.Settles t := by
  have hparts := partsShrink_loopSend hstep
  have hwaiting :
      ((s.writes.eraseIdx k).filterMap WriteRequest.userData).Sublist s.unreported :=
    (List.eraseIdx_sublist ..).filterMap _
  rcases loopSend_cases hstep with rfl | rfl | ⟨write, q, rc, b, hwrite, hq, hadd, rfl⟩
  · exact settles_same hparts rfl rfl
  · exact ⟨hparts, hwaiting, fun _ _ hold => ⟨hold.map, hold.set, hold.heap⟩⟩
  · refine ⟨hparts, hwaiting, fun q' hq' hold => ?_⟩
    have hgone : q ∉ (s.writes.eraseIdx k).filterMap WriteRequest.userData := by
      have hperm := (MsgBacklog.perm_cons_eraseIdx hwrite).filterMap WriteRequest.userData
      have hnodup := hperm.nodup_iff.mp h.distinct
      rw [List.filterMap_cons_some hq, List.nodup_cons] at hnodup
      exact hnodup.1
    rcases MsgBacklog.addPendingRequest_cases hadd with ⟨-, msg, r, -, -, -, hadded⟩ | ⟨-, rfl⟩
    · have hne : q ≠ q' := fun heq => hgone (heq ▸ hq')
      exact hold.added hadded hne
    · exact ⟨hold.map, hold.set, hold.heap⟩

/-- A visit takes at most the request of its slot out of the backlog. -/
theorem settles_visit {index : Nat} {now : UInt64} (hproper : s.Proper (.visit index now))
    (hstep : s.step (.visit index now) = .ok t) : s.Settles t := by
  have hparts := partsShrink_visit hproper hstep
  obtain ⟨sender, hcall, rfl⟩ := visit_cases hstep
  rcases MsgSender.processPendingResponse_cases hcall with
    ⟨rfl, -⟩ | ⟨r, b, calls, hr, -, htx, hsettled, -, rfl⟩
  · exact settles_same hparts rfl rfl
  · obtain ⟨-, hbacklog, hwrites, -⟩ :=
      released_fields (s.sender.settled index r b calls) r.m_request
    refine ⟨hparts, ?_, fun _ _ => unlisted_of_shrinks ?_ hbacklog⟩
    · have hsame : ((s.sender.settled index r b calls).released
          r.m_request).m_msgClient.writes = s.writes := hwrites
      unfold unreported SenderState.writes
      rw [hsame]
      exact .refl _
    · cases hsettled with
      | accepted _ _ _ _ hremove => exact removePendingRequest_shrinks hremove
      | rejected | empty | aborted | expired => exact .refl _

/-- A round of `pruneBacklog` takes its entry out of the backlog. -/
theorem settles_prune (hstep : s.prune = .ok t) : s.Settles t := by
  have hparts := partsShrink_prune hstep
  rcases prune_cases hstep with rfl | ⟨entry, rest, rc, pool, b, -, -, hround, rfl⟩
  · exact settles_same hparts rfl rfl
  · obtain ⟨msg, size, rc', -, -, hremove⟩ := MsgBacklog.pruneRound_cases hround
    have hshrinks := removePendingRequest_shrinks hremove
    exact ⟨hparts, .refl _,
      fun _ _ => unlisted_of_shrinks ⟨hshrinks.map, hshrinks.set, hshrinks.heap⟩ rfl⟩

/-- The write of a resend has no callback of the sender, and its entry was in the backlog. -/
theorem settles_resend {barrier : UInt64} {env : ResendEnv} (hs : s.Sound)
    (hproper : s.Proper (.resend barrier env)) (hstep : s.resend barrier env = .ok t) :
    s.Settles t := by
  have hparts := partsShrink_resend hs (UInt64.le_trans hproper.1 hproper.2) hstep
  rcases resend_cases hstep with
    ⟨rfl, -⟩ | ⟨entry, rest, rc, sender, sender', hset, hready, hresend, hupdate, rfl⟩
  · exact settles_same hparts rfl rfl
  · obtain ⟨msg, hmsg, hcase⟩ := MsgSender.resendRequest_cases
      (fun msg hmsg => hs.valid _ msg (inUse_set (hset ▸ List.mem_cons_self)) hmsg) hresend
    have hbefore : sender.m_backlog = s.sender.m_backlog ∧
        (sender.m_msgClient.writes.filterMap WriteRequest.userData).Sublist s.unreported := by
      rcases hcase with ⟨rfl, -⟩ | ⟨index, r, hresent⟩
      · exact ⟨rfl, .refl _⟩
      · obtain ⟨more, hmore, hnone⟩ := hresent.writes
        refine ⟨hresent.backlog, ?_⟩
        rw [hmore, List.filterMap_append, List.filterMap_eq_nil_iff.mpr hnone, List.append_nil]
        exact .refl _
    rcases hupdate with ⟨-, rfl⟩ | ⟨b, hb, rfl⟩
    · exact ⟨hparts, hbefore.2, fun _ _ => unlisted_of_shrinks (.refl _) hbefore.1⟩
    · rw [hbefore.1] at hb
      exact ⟨hparts, hbefore.2,
        fun _ _ => unlisted_of_shrinks (updateReady_shrinks hset hb) rfl⟩

/-- **One event** keeps what is known of the messages whose callback has not run. -/
theorem Written.step {e : SenderEvent} (h : s.Written) (hs : s.Sound) (hproper : s.Proper e)
    (hstep : s.step e = .ok t) : t.Written := by
  cases e with
  | allocate q msg =>
    obtain rfl := Except.ok.inj hstep
    refine h.settle hs hproper hstep (settles_same (partsShrink_allocate msg hproper) ?_ ?_)
    · unfold allocate
      split <;> rfl
    · unfold allocate
      split <;> rfl
  -- only the two sends make a message wait for a callback
  | send q env =>
    rcases send_state hproper.2.2 hstep with ⟨-, hwastes⟩ | ⟨msg, index, r, hsends⟩
    · exact h.settle hs hproper hstep
        (settles_same (hwastes.partsShrink hproper.1) hwastes.backlog hwastes.writes)
    · exact h.sent hs hproper.1 hsends
  | transact q env =>
    rcases transact_state hproper.2.2 hstep with ⟨-, hwastes⟩ | ⟨msg, index, r, hsends, -⟩
    · exact h.settle hs hproper hstep
        (settles_same (hwastes.partsShrink hproper.1) hwastes.backlog hwastes.writes)
    · exact h.sent hs hproper.1 hsends
  | finish k now => exact h.settle hs hproper hstep (settles_finish hproper hstep)
  | loopSend k => exact h.settle hs hproper hstep (settles_loopSend h hstep)
  | recv response =>
    refine h.settle hs hproper hstep ?_
    obtain rfl := Except.ok.inj hstep
    exact settles_same (partsShrink_recv response) rfl rfl
  | visit index now => exact h.settle hs hproper hstep (settles_visit hproper hstep)
  | prune => exact h.settle hs hproper hstep (settles_prune hstep)
  | resend barrier env => exact h.settle hs hproper hstep (settles_resend hs hproper hstep)
  | disconnect =>
    refine h.settle hs hproper hstep ?_
    obtain rfl := Except.ok.inj hstep
    exact settles_same partsShrink_disconnect rfl rfl
  | connect =>
    obtain rfl := Except.ok.inj hstep
    exact h

theorem written_start (poolSize : UInt32) (nextRequestId : UInt64) (byteOrder : ByteOrder)
    (config : MsgConfig) (reader : ResponseReader κ) :
    (start poolSize nextRequestId byteOrder config reader).Written :=
  ⟨.nil, nofun, nofun⟩

/-- What is known of every state of a run. -/
theorem run_written {poolSize : UInt32} {nextRequestId : UInt64} {byteOrder : ByteOrder}
    {config : MsgConfig} {reader : ResponseReader κ} {es : List SenderEvent}
    (h : RunsWith (fun s e t => s.step e = .ok t) Proper
      (start poolSize nextRequestId byteOrder config reader) es s) : s.Sound ∧ s.Written :=
  h.invariant (fun s => s.Sound ∧ s.Written)
    (fun _ _ _ hs hproper hstep =>
      ⟨hs.1.step hproper hstep, hs.2.step hs.1 hproper hstep⟩)
    ⟨sound_start .., written_start ..⟩

end SenderState

end Commutil.Client
