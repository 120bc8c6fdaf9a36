import Commutil.Client.SenderRun

/-!
# References to Requests

Who refers to a request message of a `MsgSender`: the indices of the backlog, the slots of the
pool, transactions that wait, and writes whose callback has not run.

`Sound` is the invariant of a run: wherever a reference leads to an allocated message, the message
has an id of its own and names the slot that holds it.  Two rules carry it over the events: one for
those that add no reference, `Shrinks`, and one for a message that gets a slot.
-/

namespace Commutil.Client

open Commutil.Framing Commutil.Io Commutil.Library

variable {κ : Type}

/-! ## §1 References -/

theorem refersTo_iff {s : MsgSender κ} {p : MsgPtr} : s.refersTo p = true ↔
    (∃ item ∈ s.m_backlog.m_requestMap, item.2.m_msg = p) ∨
    (∃ entry ∈ s.m_backlog.m_requestSet, entry.m_msg = p) ∨
    (∃ entry ∈ s.m_backlog.m_minHeap, entry.m_msg = p) ∨
    ∃ r ∈ s.pool.m_requests, r.isVacant = false ∧ r.m_request = some p := by
  unfold MsgSender.refersTo
  simp only [Bool.or_eq_true, List.any_eq_true, decide_eq_true_eq, Bool.and_eq_true,
    Bool.not_eq_true', or_assoc]

namespace SenderState

/-- Something refers to the message. -/
def InUse (s : SenderState κ) (p : MsgPtr) : Prop :=
  s.sender.refersTo p = true ∨ (∃ data, (p, data) ∈ s.waiting) ∨
    ∃ write ∈ s.writes, write.userData = some p

/-- The id that is issued next is not that of a request in use. -/
structure FreshId (s : SenderState κ) : Prop where
  valid : s.sender.pool.m_nextRequestId ≠ COMMUTIL_MSG_INVALID_REQUEST_ID
  messages : ∀ p msg, s.InUse p → s.sender.messages p = some msg →
    msg.m_header.m_requestId ≠ s.sender.pool.m_nextRequestId
  waiting : ∀ call ∈ s.waiting, call.2.m_requestId ≠ s.sender.pool.m_nextRequestId

/-- What a run asks of its surroundings: memory that is in use is not allocated again, a message
    that is in use is not sent again, issued ids are new, and the clock does not go back. -/
def Proper (s : SenderState κ) : SenderEvent → Prop
  | .allocate request _ => ¬ s.InUse request
  | .send request env => ¬ s.InUse request ∧ s.FreshId ∧ s.clock ≤ env.now
  | .transact request env => ¬ s.InUse request ∧ s.FreshId ∧ s.clock ≤ env.now
  | .finish _ now => s.clock ≤ now
  | .visit _ now => s.clock ≤ now
  | .resend _ env => s.clock ≤ env.now ∧ env.now ≤ env.updateNow
  | _ => True

/-- **The invariant** of the references. -/
structure Sound (s : SenderState κ) : Prop where
  size : s.slots.length ≤ 2 ^ 32
  vacant : ∀ (i : Nat) (r : MsgRequest), s.slots[i]? = some r → r.isVacant = true →
      r.m_request = none
  arrived : ∀ (i : Nat) (r : MsgRequest), s.slots[i]? = some r → r.m_requestStatus = .arrived →
      r.m_response.isSome
  past : ∀ (i : Nat) (r : MsgRequest), s.slots[i]? = some r → r.m_requestTimeMillis ≤ s.clock
  /-- A slot holds the message that names it. -/
  held : ∀ (i : Nat) (r : MsgRequest) (p : MsgPtr) (msg : Msg), s.slots[i]? = some r →
      r.m_request = some p →
    s.sender.messages p = some msg →
      msg.m_header.m_requestIndex.toNat = i ∧ msg.m_header.m_requestId = r.m_requestId
  /-- The map has messages under their ids. -/
  keys : ∀ item ∈ s.sender.m_backlog.m_requestMap, ∀ msg,
    s.sender.messages item.2.m_msg = some msg → item.1 = msg.m_header.m_requestId
  /-- An entry names the slot of its message. -/
  places : ∀ entry ∈ s.sender.m_backlog.m_requestSet, ∀ msg,
    s.sender.messages entry.m_msg = some msg → entry.m_request = msg.m_header.m_requestIndex.toNat
  /-- Messages have ids of their own. -/
  ids : ∀ p q msg msg', s.InUse p → s.InUse q → s.sender.messages p = some msg →
    s.sender.messages q = some msg' → msg.m_header.m_requestId = msg'.m_header.m_requestId → p = q
  valid : ∀ p msg, s.InUse p → s.sender.messages p = some msg →
    msg.m_header.m_requestId ≠ COMMUTIL_MSG_INVALID_REQUEST_ID
  /-- A transaction waits for the response to its message. -/
  calls : ∀ p data msg, (p, data) ∈ s.waiting → s.sender.messages p = some msg →
    msg.m_header.m_requestId = data.m_requestId ∧
      msg.m_header.m_requestIndex.toNat = data.m_requestIndex
  callIds : ∀ p data q msg, (p, data) ∈ s.waiting → s.InUse q → s.sender.messages q = some msg →
    msg.m_header.m_requestId = data.m_requestId → q = p

section References

variable {s t : SenderState κ} {p : MsgPtr}

theorem inUse_map {item : UInt64 × BacklogEntry} (h : item ∈ s.sender.m_backlog.m_requestMap) :
    s.InUse item.2.m_msg := .inl (refersTo_iff.mpr (.inl ⟨item, h, rfl⟩))

theorem inUse_set {entry : BacklogEntry} (h : entry ∈ s.sender.m_backlog.m_requestSet) :
    s.InUse entry.m_msg := .inl (refersTo_iff.mpr (.inr (.inl ⟨entry, h, rfl⟩)))

theorem inUse_heap {entry : BacklogEntry} (h : entry ∈ s.sender.m_backlog.m_minHeap) :
    s.InUse entry.m_msg := .inl (refersTo_iff.mpr (.inr (.inr (.inl ⟨entry, h, rfl⟩))))

theorem inUse_waiting {data : MsgRequestData} (h : (p, data) ∈ s.waiting) : s.InUse p :=
  .inr (.inl ⟨data, h⟩)

theorem inUse_write {write : WriteRequest} (h : write ∈ s.writes) (hp : write.userData = some p) :
    s.InUse p := .inr (.inr ⟨write, h, hp⟩)

/-- The request of a slot is in use, since vacant slots have none. -/
theorem Sound.inUse_slot (h : s.Sound) {i : Nat} {r : MsgRequest} (hr : s.slots[i]? = some r)
    (hp : r.m_request = some p) : s.InUse p := by
  refine .inl (refersTo_iff.mpr (.inr (.inr (.inr ⟨r, List.mem_of_getElem? hr, ?_, hp⟩))))
  cases hvacant : r.isVacant with
  | false => rfl
  | true =>
    rw [h.vacant i r hr hvacant] at hp
    cases hp

/-- A slot that has a request and that no call waits for is skipped only while it is pending. -/
theorem Sound.pending_of_skipped (h : s.Sound) {i : Nat} {r : MsgRequest} {p : MsgPtr}
    (hr : s.slots[i]? = some r) (hp : r.m_request = some p) (htx : r.isTx = false)
    (hskipped : r.isVacant = true ∨ r.isTx = true ∨ r.m_requestStatus = .pending) :
    r.m_requestStatus = .pending := by
  rcases hskipped with hvacant | htx' | hpending
  · rw [h.vacant i r hr hvacant] at hp
    cases hp
  · rw [htx] at htx'
    cases htx'
  · exact hpending

/-- Where each reference was one before. -/
theorem inUse_of
    (hmap : ∀ item ∈ t.sender.m_backlog.m_requestMap,
      item ∈ s.sender.m_backlog.m_requestMap ∨ s.InUse item.2.m_msg)
    (hset : ∀ entry ∈ t.sender.m_backlog.m_requestSet,
      entry ∈ s.sender.m_backlog.m_requestSet ∨ s.InUse entry.m_msg)
    (hheap : ∀ entry ∈ t.sender.m_backlog.m_minHeap,
      entry ∈ s.sender.m_backlog.m_minHeap ∨ s.InUse entry.m_msg)
    (hslots : ∀ (i : Nat) (r : MsgRequest) (p : MsgPtr), t.slots[i]? = some r →
        r.m_request = some p → s.InUse p)
    (hwaiting : ∀ call ∈ t.waiting, call ∈ s.waiting)
    (hwrites : ∀ write ∈ t.writes, write ∈ s.writes ∨ write.userData = none)
    (hp : t.InUse p) : s.InUse p := by
  rcases hp with hrefers | ⟨data, hcall⟩ | ⟨write, hwrite, hdata⟩
  · rcases refersTo_iff.mp hrefers with
      ⟨item, hitem, rfl⟩ | ⟨entry, hentry, rfl⟩ | ⟨entry, hentry, rfl⟩ | ⟨r, hr, -, hr'⟩
    · exact (hmap item hitem).elim inUse_map id
    · exact (hset entry hentry).elim inUse_set id
    · exact (hheap entry hentry).elim inUse_heap id
    · obtain ⟨i, hi⟩ := List.getElem?_of_mem hr
      exact hslots i r p hi hr'
  · exact inUse_waiting (hwaiting _ hcall)
  · rcases hwrites write hwrite with hold | hnone
    · exact inUse_write hold hdata
    · rw [hnone] at hdata
      cases hdata

end References

/-! ## §2 Events that add no reference -/

/-- Whatever is referred to in `t` was referred to in `s`, and is as it was. -/
structure Shrinks (s t : SenderState κ) : Prop where
  size : t.slots.length = s.slots.length
  vacant : ∀ (i : Nat) (r : MsgRequest), t.slots[i]? = some r → r.isVacant = true →
      r.m_request = none
  arrived : ∀ (i : Nat) (r : MsgRequest), t.slots[i]? = some r → r.m_requestStatus = .arrived →
      r.m_response.isSome
  past : ∀ (i : Nat) (r : MsgRequest), t.slots[i]? = some r → r.m_requestTimeMillis ≤ t.clock
  held : ∀ (i : Nat) (r : MsgRequest) (p : MsgPtr), t.slots[i]? = some r → r.m_request = some p →
    t.sender.messages p = none ∨
      ∃ r' : MsgRequest, s.slots[i]? = some r' ∧ r'.m_request = some p ∧
          r'.m_requestId = r.m_requestId
  messages : ∀ p msg, t.InUse p → t.sender.messages p = some msg → s.sender.messages p = some msg
  inUse : ∀ p, t.InUse p → s.InUse p
  waiting : ∀ call ∈ t.waiting, call ∈ s.waiting
  map : ∀ item ∈ t.sender.m_backlog.m_requestMap, item ∈ s.sender.m_backlog.m_requestMap ∨
    ∀ msg, t.sender.messages item.2.m_msg = some msg → item.1 = msg.m_header.m_requestId
  set : ∀ entry ∈ t.sender.m_backlog.m_requestSet, entry ∈ s.sender.m_backlog.m_requestSet ∨
    ∀ msg, t.sender.messages entry.m_msg = some msg →
      entry.m_request = msg.m_header.m_requestIndex.toNat

variable {s t : SenderState κ}

/-- **Events without new references** keep the invariant. -/
theorem Sound.shrink (h : s.Sound) (hst : s.Shrinks t) : t.Sound where
  size := hst.size ▸ h.size
  vacant := hst.vacant
  arrived := hst.arrived
  past := hst.past
  held i r p msg hr hp hmsg := by
    rcases hst.held i r p hr hp with hnone | ⟨r', hr', hp', hid⟩
    · rw [hnone] at hmsg
      cases hmsg
    -- the slot refers to the message, so the message is the old one
    · have hused : t.InUse p := by
        refine .inl (refersTo_iff.mpr (.inr (.inr (.inr ⟨r, List.mem_of_getElem? hr, ?_, hp⟩))))
        cases hvacant : r.isVacant with
        | false => rfl
        | true =>
          rw [hst.vacant i r hr hvacant] at hp
          cases hp
      rw [← hid]
      exact h.held i r' p msg hr' hp' (hst.messages p msg hused hmsg)
  keys item hitem msg hmsg := by
    rcases hst.map item hitem with hold | hnew
    · exact h.keys item hold msg (hst.messages _ msg (inUse_map hitem) hmsg)
    · exact hnew msg hmsg
  places entry hentry msg hmsg := by
    rcases hst.set entry hentry with hold | hnew
    · exact h.places entry hold msg (hst.messages _ msg (inUse_set hentry) hmsg)
    · exact hnew msg hmsg
  ids p q msg msg' hp hq hmsg hmsg' :=
    h.ids p q msg msg' (hst.inUse p hp) (hst.inUse q hq) (hst.messages p msg hp hmsg)
      (hst.messages q msg' hq hmsg')
  valid p msg hp hmsg := h.valid p msg (hst.inUse p hp) (hst.messages p msg hp hmsg)
  calls p data msg hcall hmsg :=
    h.calls p data msg (hst.waiting _ hcall) (hst.messages p msg (inUse_waiting hcall) hmsg)
  callIds p data q msg hcall hq hmsg :=
    h.callIds p data q msg (hst.waiting _ hcall) (hst.inUse q hq) (hst.messages q msg hq hmsg)

/-- A slot that has become `r` and refers to no more than it did. -/
structure SlotShrinks (r' r : MsgRequest) : Prop where
  id : r'.m_requestId = r.m_requestId
  request : r.m_request = none ∨ r.m_request = r'.m_request
  vacant : r.isVacant = true → r.m_request = none ∨ r'.isVacant = true
  arrived : r.m_requestStatus = .arrived → r.m_response.isSome ∨
    r'.m_requestStatus = .arrived ∧ r.m_response = r'.m_response
  time : r.m_requestTimeMillis = 0 ∨ r.m_requestTimeMillis = r'.m_requestTimeMillis

namespace SlotShrinks

theorem refl (r : MsgRequest) : SlotShrinks r r :=
  ⟨rfl, .inr rfl, .inr, fun h => .inr ⟨h, rfl⟩, .inr rfl⟩

theorem clearResponse (r : MsgRequest) : SlotShrinks r r.clearResponse :=
  ⟨rfl, .inl rfl, fun _ => .inl rfl, nofun, .inl rfl⟩

theorem setResponse (r : MsgRequest) (response : Msg) : SlotShrinks r (r.setResponse response) :=
  ⟨rfl, .inr rfl, nofun, fun _ => .inl rfl, .inr rfl⟩

theorem setFlags (r : MsgRequest) (flags : UInt32) : SlotShrinks r (r.setFlags flags) :=
  ⟨rfl, .inr rfl, .inr, fun h => .inr ⟨h, rfl⟩, .inr rfl⟩

theorem abortResponse (r : MsgRequest) : SlotShrinks r r.abortResponse := by
  unfold MsgRequest.abortResponse
  split
  · exact ⟨rfl, .inr rfl, nofun, nofun, .inr rfl⟩
  · exact .refl r

theorem resentSlot (r : MsgRequest) (sent : Bool) (now : UInt64) :
    SlotShrinks r (MsgSender.resentSlot r sent now) := by
  cases sent with
  | true => exact ⟨rfl, .inr rfl, .inr, fun h => .inr ⟨h, rfl⟩, .inr rfl⟩
  | false => exact ⟨rfl, .inl rfl, .inr, fun h => .inr ⟨h, rfl⟩, .inl rfl⟩

end SlotShrinks

/-- A slot that was taken for a request that is gone already. -/
structure SlotWasted (s t : SenderState κ) (r : MsgRequest) : Prop where
  pending : r.m_requestStatus = .pending
  time : r.m_requestTimeMillis ≤ t.clock
  request : ∀ p, r.m_request = some p → t.sender.messages p = none ∧ s.InUse p

/-- How the parts of the state make `Shrinks`. -/
structure PartsShrink (s t : SenderState κ) : Prop where
  size : t.slots.length = s.slots.length
  slots : ∀ (i : Nat) (r : MsgRequest), t.slots[i]? = some r →
    (∃ r', s.slots[i]? = some r' ∧ SlotShrinks r' r) ∨ s.SlotWasted t r
  clock : s.clock ≤ t.clock
  messages : ∀ p msg, t.sender.messages p = some msg →
    s.sender.messages p = some msg ∨ ¬ s.InUse p
  map : ∀ item ∈ t.sender.m_backlog.m_requestMap, item ∈ s.sender.m_backlog.m_requestMap ∨
    s.InUse item.2.m_msg ∧
      ∀ msg, t.sender.messages item.2.m_msg = some msg → item.1 = msg.m_header.m_requestId
  set : ∀ entry ∈ t.sender.m_backlog.m_requestSet, entry ∈ s.sender.m_backlog.m_requestSet ∨
    s.InUse entry.m_msg ∧ ∀ msg, t.sender.messages entry.m_msg = some msg →
      entry.m_request = msg.m_header.m_requestIndex.toNat
  heap : ∀ entry ∈ t.sender.m_backlog.m_minHeap, entry ∈ s.sender.m_backlog.m_minHeap ∨
    s.InUse entry.m_msg
  waiting : ∀ call ∈ t.waiting, call ∈ s.waiting
  writes : ∀ write ∈ t.writes, write ∈ s.writes ∨ write.userData = none

theorem PartsShrink.shrinks (h : s.PartsShrink t) (hs : s.Sound) : s.Shrinks t := by
  -- what is in use was in use: a slot is written with its own request, or with one in use
  have hinUse : ∀ p, t.InUse p → s.InUse p := fun p hp => by
    refine inUse_of (fun item hitem => (h.map item hitem).imp id And.left)
      (fun entry hentry => (h.set entry hentry).imp id And.left) h.heap ?_ h.waiting h.writes hp
    intro i r q hr hq
    rcases h.slots i r hr with ⟨r', hr', hslot⟩ | hwasted
    · rcases hslot.request with hnone | hsame
      · rw [hnone] at hq
        cases hq
      · exact hs.inUse_slot hr' (hsame.symm.trans hq)
    · exact (hwasted.request q hq).2
  refine ⟨h.size, ?_, ?_, ?_, ?_, ?_, hinUse, h.waiting,
    fun item hitem => (h.map item hitem).imp id And.right,
    fun entry hentry => (h.set entry hentry).imp id And.right⟩
  · -- a vacant slot has no request
    intro i r hr hvacant
    rcases h.slots i r hr with ⟨r', hr', hslot⟩ | hwasted
    · rcases hslot.vacant hvacant with hnone | hvacant'
      · exact hnone
      · rcases hslot.request with hnone | hsame
        · exact hnone
        · exact hsame.trans (hs.vacant i r' hr' hvacant')
    · unfold MsgRequest.isVacant at hvacant
      rw [hwasted.pending] at hvacant
      cases hvacant
  · -- a slot with an arrived response has a request
    intro i r hr harrived
    rcases h.slots i r hr with ⟨r', hr', hslot⟩ | hwasted
    · rcases hslot.arrived harrived with hsome | ⟨harrived', hsame⟩
      · exact hsome
      · rw [hsame]
        exact hs.arrived i r' hr' harrived'
    · rw [hwasted.pending] at harrived
      cases harrived
  · -- the send times are not ahead of the clock
    intro i r hr
    rcases h.slots i r hr with ⟨r', hr', hslot⟩ | hwasted
    · rcases hslot.time with hzero | hsame
      · rw [hzero]
        exact UInt64.zero_le
      · rw [hsame]
        exact UInt64.le_trans (hs.past i r' hr') h.clock
    · exact hwasted.time
  · -- a slot holds the request that it held, or a new one
    intro i r p hr hp
    rcases h.slots i r hr with ⟨r', hr', hslot⟩ | hwasted
    · rcases hslot.request with hnone | hsame
      · rw [hnone] at hp
        cases hp
      · exact .inr ⟨r', hr', hsame.symm.trans hp, hslot.id⟩
    · exact .inl (hwasted.request p hp).1
  · intro p msg hp hmsg
    exact (h.messages p msg hmsg).resolve_right (not_not.mpr (hinUse p hp))

/-! ## §3 The events one by one -/

/-- Every entry of the backlog was one before. -/
structure BacklogShrinks (b b' : MsgBacklog) : Prop where
  map : ∀ item ∈ b'.m_requestMap, item ∈ b.m_requestMap
  set : ∀ entry ∈ b'.m_requestSet, entry ∈ b.m_requestSet
  heap : ∀ entry ∈ b'.m_minHeap, entry ∈ b.m_minHeap

theorem BacklogShrinks.refl (b : MsgBacklog) : BacklogShrinks b b :=
  ⟨fun _ h => h, fun _ h => h, fun _ h => h⟩

theorem removePendingRequest_shrinks {b b' : MsgBacklog} {pool : MsgRequestPool}
    {messages : MsgPtr → Option Msg} {p : MsgPtr} {rc : ErrorCode}
    (h : b.removePendingRequest pool messages p = .ok (rc, b')) : BacklogShrinks b b' := by
  rcases MsgBacklog.removePendingRequest_cases h with ⟨-, msg, -, hremoved⟩ | ⟨-, rfl⟩
  · obtain ⟨entry, hmap⟩ := hremoved.map
    exact ⟨fun item hitem => hmap.symm.subset (List.mem_cons_of_mem _ hitem),
      fun _ he => hremoved.setOrder.subset he, fun _ he => hremoved.heapOrder.subset he⟩
  · exact .refl b'

/-- One slot changes. -/
theorem slotShrinks_set {l : List MsgRequest} {index : Nat} {r₀ r₁ : MsgRequest}
    (hslot : l[index]? = some r₀) (h : SlotShrinks r₀ r₁) (i : Nat) (r : MsgRequest)
    (hr : (l.set index r₁)[i]? = some r) : ∃ r', l[i]? = some r' ∧ SlotShrinks r' r := by
  by_cases hi : index = i
  · subst hi
    rw [List.getElem?_set_self (List.getElem?_eq_some_iff.mp hslot).1] at hr
    obtain rfl := Option.some.inj hr
    exact ⟨r₀, hslot, h⟩
  · rw [List.getElem?_set_ne hi] at hr
    exact ⟨r, hr, .refl r⟩

/-- The messages after one of them was freed. -/
theorem messages_of_update_none {messages : MsgPtr → Option Msg} {p q : MsgPtr} {msg : Msg}
    (h : Function.update messages p none q = some msg) : messages q = some msg := by
  by_cases hq : q = p
  · subst hq
    rw [Function.update_self] at h
    cases h
  · rwa [Function.update_of_ne hq] at h

theorem released_messages {a : MsgSender κ} {request : Option MsgPtr} {p : MsgPtr} {msg : Msg}
    (h : (a.released request).messages p = some msg) : a.messages p = some msg := by
  cases request with
  | none => exact h
  | some q => exact messages_of_update_none h

/-- What is released are messages, and nothing else changes. -/
theorem released_fields (a : MsgSender κ) (request : Option MsgPtr) :
    (a.released request).pool = a.pool ∧ (a.released request).m_backlog = a.m_backlog ∧
      (a.released request).m_msgClient.writes = a.m_msgClient.writes ∧
      (a.released request).m_config = a.m_config := by
  cases request <;> exact ⟨rfl, rfl, rfl, rfl⟩

/-- **Events that clear slots, free messages and shorten the backlog.** -/
theorem partsShrink_of {sender : MsgSender κ} {waiting : List (MsgPtr × MsgRequestData)}
    {handed : List MsgPtr} {clock : UInt64}
    (hsize : sender.pool.m_requests.length = s.slots.length)
    (hslots : ∀ (i : Nat) (r : MsgRequest), sender.pool.m_requests[i]? = some r →
      ∃ r', s.slots[i]? = some r' ∧ SlotShrinks r' r)
    (hmessages : ∀ p msg, sender.messages p = some msg → s.sender.messages p = some msg)
    (hbacklog : BacklogShrinks s.sender.m_backlog sender.m_backlog)
    (hwrites : ∀ write ∈ sender.m_msgClient.writes, write ∈ s.writes ∨ write.userData = none)
    (hwaiting : ∀ call ∈ waiting, call ∈ s.waiting) (hclock : s.clock ≤ clock) :
    s.PartsShrink ⟨sender, waiting, handed, clock⟩ where
  size := hsize
  slots i r hr := .inl (hslots i r hr)
  clock := hclock
  messages p msg hmsg := .inl (hmessages p msg hmsg)
  map item hitem := .inl (hbacklog.map item hitem)
  set entry hentry := .inl (hbacklog.set entry hentry)
  heap entry hentry := .inl (hbacklog.heap entry hentry)
  waiting := hwaiting
  writes := hwrites

theorem partsShrink_allocate {p : MsgPtr} (msg : Msg) (hp : ¬ s.InUse p) :
    s.PartsShrink (s.allocate p msg) := by
  unfold allocate
  split
  · exact partsShrink_of rfl (fun _ r hr => ⟨r, hr, .refl r⟩) (fun _ _ h => h) (.refl _)
      (fun _ h => .inl h) (fun _ h => h) (UInt64.le_refl _)
  · refine ⟨rfl, fun _ r hr => .inl ⟨r, hr, .refl r⟩, UInt64.le_refl _, ?_, fun _ h => .inl h,
      fun _ h => .inl h, fun _ h => .inl h, fun _ h => h, fun _ h => .inl h⟩
    intro q msg' hmsg
    by_cases hq : q = p
    · exact .inr (hq ▸ hp)
    · have hkeep : Function.update s.sender.messages p (some msg) q = some msg' := hmsg
      rw [Function.update_of_ne hq] at hkeep
      exact .inl hkeep

theorem partsShrink_recv (response : Msg) :
    s.PartsShrink { s with sender :=
      { s.sender with m_msgClient := (s.sender.m_msgClient.onMsg response).2.2 } } := by
  unfold MsgClient.onMsg MsgRequestPool.setResponse MsgRequestPool.findByHeader
  cases hfind : s.sender.m_msgClient.m_requestPool.findSlot response.m_header.m_requestIndex.toNat
      response.m_header.m_requestId with
  | error rc =>
    exact partsShrink_of rfl (fun _ r hr => ⟨r, hr, .refl r⟩) (fun _ _ h => h) (.refl _)
      (fun _ h => .inl h) (fun _ h => h) (UInt64.le_refl _)
  | ok found =>
    obtain ⟨i, r⟩ := found
    obtain ⟨rfl, hslot, -⟩ := MsgRequestPool.findSlot_eq_ok.mp hfind
    exact partsShrink_of (MsgRequestPool.setSlot_length ..)
      (slotShrinks_set hslot (.setResponse r response)) (fun _ _ h => h) (.refl _)
      (fun _ h => .inl h) (fun _ h => h) (UInt64.le_refl _)

theorem partsShrink_disconnect :
    s.PartsShrink { s with sender :=
      { s.sender with m_msgClient := s.sender.m_msgClient.onDisconnect } } := by
  refine partsShrink_of (List.length_map ..) ?_ (fun _ _ h => h) (.refl _) (fun _ h => .inl h)
    (fun _ h => h) (UInt64.le_refl _)
  intro i r hr
  have hmap : (s.slots.map MsgRequest.abortResponse)[i]? = some r := hr
  rw [List.getElem?_map] at hmap
  obtain ⟨r', hr', rfl⟩ := Option.map_eq_some_iff.mp hmap
  exact ⟨r', hr', .abortResponse r'⟩

theorem partsShrink_visit {index : Nat} {now : UInt64} (hclock : s.clock ≤ now)
    (h : s.step (.visit index now) = .ok t) : s.PartsShrink t := by
  obtain ⟨sender, hcall, rfl⟩ := visit_cases h
  rcases MsgSender.processPendingResponse_cases hcall with
    ⟨rfl, -⟩ | ⟨r, b, calls, hslot, -, -, hsettled, -, rfl⟩
  · exact partsShrink_of rfl (fun _ r hr => ⟨r, hr, .refl r⟩) (fun _ _ h => h) (.refl _)
      (fun _ h => .inl h) (fun _ h => h) hclock
  · obtain ⟨hpool, hbacklog, hwrites, -⟩ :=
      released_fields (s.sender.settled index r b calls) r.m_request
    have hmessages := @released_messages κ (s.sender.settled index r b calls) r.m_request
    refine partsShrink_of ?_ ?_ (fun _ _ hmsg => hmessages hmsg) ?_ ?_ (fun _ h => h) hclock
    · rw [hpool]
      exact MsgRequestPool.setSlot_length ..
    · rw [hpool]
      exact slotShrinks_set hslot (.clearResponse r)
    · rw [hbacklog]
      cases hsettled with
      | accepted _ _ _ _ hremove => exact removePendingRequest_shrinks hremove
      | rejected | empty | aborted | expired => exact .refl _
    · rw [hwrites]
      exact fun _ h => .inl h

theorem partsShrink_prune (h : s.prune = .ok t) : s.PartsShrink t := by
  rcases prune_cases h with rfl | ⟨entry, rest, rc, pool, b, -, -, hround, rfl⟩
  · exact partsShrink_of rfl (fun _ r hr => ⟨r, hr, .refl r⟩) (fun _ _ h => h) (.refl _)
      (fun _ h => .inl h) (fun _ h => h) (UInt64.le_refl _)
  · obtain ⟨msg, size, rc', -, hpool, hremove⟩ := MsgBacklog.pruneRound_cases hround
    have hbacklog := removePendingRequest_shrinks hremove
    rcases hpool with rfl | ⟨r, hslot, -, rfl⟩
    · exact partsShrink_of rfl (fun _ r hr => ⟨r, hr, .refl r⟩) (fun _ _ h => h)
        ⟨hbacklog.map, hbacklog.set, hbacklog.heap⟩ (fun _ h => .inl h) (fun _ h => h)
        (UInt64.le_refl _)
    · exact partsShrink_of (MsgRequestPool.setSlot_length ..)
        (slotShrinks_set hslot (.clearResponse r)) (fun _ _ h => h)
        ⟨hbacklog.map, hbacklog.set, hbacklog.heap⟩ (fun _ h => .inl h) (fun _ h => h)
        (UInt64.le_refl _)

theorem partsShrink_loopSend {k : Nat} (h : s.loopSend k = .ok t) : s.PartsShrink t := by
  have hwrites : ∀ write ∈ s.writes.eraseIdx k, write ∈ s.writes ∨ write.userData = none :=
    fun write hwrite => .inl (List.mem_of_mem_eraseIdx hwrite)
  rcases loopSend_cases h with rfl | rfl | ⟨write, p, rc, b, hwrite, hp, hadd, rfl⟩
  · exact partsShrink_of rfl (fun _ r hr => ⟨r, hr, .refl r⟩) (fun _ _ h => h) (.refl _)
      (fun _ h => .inl h) (fun _ h => h) (UInt64.le_refl _)
  · exact partsShrink_of rfl (fun _ r hr => ⟨r, hr, .refl r⟩) (fun _ _ h => h) (.refl _) hwrites
      (fun _ h => h) (UInt64.le_refl _)
  · rcases MsgBacklog.addPendingRequest_cases hadd with ⟨-, msg, r, hmsg, -, -, hadded⟩ | ⟨-, rfl⟩
    -- the entries that are added are those of the write, which was in use
    · have hused : s.InUse p := inUse_write (List.mem_of_getElem? hwrite) hp
      refine ⟨rfl, fun _ r hr => .inl ⟨r, hr, .refl r⟩, UInt64.le_refl _, fun _ _ h => .inl h,
        ?_, ?_,
        ?_, fun _ h => h, hwrites⟩
      · intro item hitem
        have hmem : item ∈ (msg.m_header.m_requestId,
            (⟨p, msg.m_header.m_requestIndex.toNat⟩ : BacklogEntry)) ::
              s.sender.m_backlog.m_requestMap := hadded.map ▸ hitem
        rcases List.mem_cons.mp hmem with rfl | hold
        · refine .inr ⟨hused, fun msg' hmsg' => ?_⟩
          rw [Option.some.inj (hmsg.symm.trans hmsg')]
        · exact .inl hold
      · intro entry hentry
        rcases List.mem_cons.mp (hadded.set.subset hentry) with rfl | hold
        · refine .inr ⟨hused, fun msg' hmsg' => ?_⟩
          rw [Option.some.inj (hmsg.symm.trans hmsg')]
        · exact .inl hold
      · intro entry hentry
        rcases List.mem_cons.mp (hadded.heap.subset hentry) with rfl | hold
        · exact .inr hused
        · exact .inl hold
    · exact partsShrink_of rfl (fun _ r hr => ⟨r, hr, .refl r⟩) (fun _ _ h => h) (.refl _) hwrites
        (fun _ h => h) (UInt64.le_refl _)

theorem updateReady_shrinks {b b' : MsgBacklog} {pool : MsgRequestPool}
    {messages : MsgPtr → Option Msg} {entry : BacklogEntry} {rest : List BacklogEntry}
    (hset : b.m_requestSet = entry :: rest)
    (h : b.updateReadyResendRequest pool messages = .ok b') : BacklogShrinks b b' := by
  rcases updateReady_cases hset h with ⟨l, rfl, hl⟩ | ⟨rfl, -⟩
  · exact ⟨fun _ h => h, fun _ h => hl.subset h, fun _ h => h⟩
  · refine ⟨fun _ h => h, fun e he => ?_, fun _ h => h⟩
    rw [hset]
    exact List.mem_cons_of_mem _ he

theorem partsShrink_resend {barrier : UInt64} {env : ResendEnv} (hs : s.Sound)
    (hclock : s.clock ≤ env.updateNow) (h : s.resend barrier env = .ok t) : s.PartsShrink t := by
  rcases resend_cases h with
    ⟨rfl, -⟩ | ⟨entry, rest, rc, sender, sender', hset, -, hresend, hupdate, rfl⟩
  · exact partsShrink_of rfl (fun _ r hr => ⟨r, hr, .refl r⟩) (fun _ _ h => h) (.refl _)
      (fun _ h => .inl h) (fun _ h => h) (UInt64.le_refl _)
  · have hused : s.InUse entry.m_msg := inUse_set (hset ▸ List.mem_cons_self)
    obtain ⟨msg, hmsg, hcase⟩ := MsgSender.resendRequest_cases
      (fun msg hmsg => hs.valid _ msg hused hmsg) hresend
    -- the update of the backlog comes on top of what `resendRequest` did
    have hafter : sender'.m_msgClient = sender.m_msgClient ∧
        (sender.m_backlog = s.sender.m_backlog →
          BacklogShrinks s.sender.m_backlog sender'.m_backlog) := by
      rcases hupdate with ⟨-, rfl⟩ | ⟨b, hb, rfl⟩
      · exact ⟨rfl, fun heq => heq ▸ .refl _⟩
      · refine ⟨rfl, fun heq => ?_⟩
        rw [← heq] at hset ⊢
        exact updateReady_shrinks hset hb
    have hpool : sender'.pool = sender.pool := congrArg MsgClient.m_requestPool hafter.1
    have hmessages : sender'.messages = sender.messages := congrArg MsgClient.messages hafter.1
    rcases hcase with ⟨rfl, -⟩ | ⟨index, r, hresent⟩
    · refine partsShrink_of ?_ ?_ ?_ (hafter.2 rfl) ?_ (fun _ h => h) hclock
      · rw [hpool]
        rfl
      · rw [hpool]
        exact fun _ r hr => ⟨r, hr, .refl r⟩
      · rw [hmessages]
        exact fun _ _ h => h
      · rw [hafter.1]
        exact fun _ h => .inl h
    · have hslot := (MsgBacklog.getRequestData_eq_some.mp hresent.data).2.1
      refine partsShrink_of ?_ ?_ ?_ (hafter.2 hresent.backlog) ?_ (fun _ h => h) hclock
      · rw [hpool, hresent.pool]
        exact MsgRequestPool.setSlot_length ..
      · rw [hpool, hresent.pool]
        exact slotShrinks_set hslot (.resentSlot r _ _)
      · rw [hmessages, hresent.messages]
        exact fun _ _ h => h
      · obtain ⟨more, hwrites, hnone⟩ := hresent.writes
        rw [hafter.1, hwrites]
        exact fun write hwrite => (List.mem_append.mp hwrite).imp id (hnone write)

theorem partsShrink_finish {k : Nat} {now : UInt64} (hclock : s.clock ≤ now)
    (h : s.finish k now = .ok t) : s.PartsShrink t := by
  rcases finish_cases h with ⟨rfl, -⟩ | ⟨p, data, sender, hk, hended, rfl⟩
  · exact partsShrink_of rfl (fun _ r hr => ⟨r, hr, .refl r⟩) (fun _ _ h => h) (.refl _)
      (fun _ h => .inl h) (fun _ h => h) (UInt64.le_refl _)
  · have hwaiting : ∀ call ∈ s.waiting.eraseIdx k, call ∈ s.waiting :=
      fun call hcall => List.mem_of_mem_eraseIdx hcall
    have hused : s.InUse p := inUse_waiting (List.mem_of_getElem? hk)
    -- the header of the request is written first, and then it is freed
    have hrewritten : ∀ msg' q msg, Function.update (Function.update s.sender.messages p msg') p
        none q = some msg → s.sender.messages q = some msg := by
      intro msg' q msg hmsg
      rw [Function.update_idem] at hmsg
      exact messages_of_update_none hmsg
    cases hended with
    | accepted hanswers _ _ hremove =>
      exact partsShrink_of (MsgRequestPool.setSlot_length ..)
        (slotShrinks_set hanswers.slot (.clearResponse _)) (fun _ _ h => messages_of_update_none h)
        (removePendingRequest_shrinks hremove) (fun _ h => .inl h) hwaiting hclock
    | @renewed r r' response verdict msg index calls hanswers _ hmsg hslot hidle =>
      have hcleared := slotShrinks_set hanswers.slot (.clearResponse r)
      refine ⟨?_, ?_, hclock, fun q msg h => .inl (hrewritten _ q msg h), fun _ h => .inl h,
        fun _ h => .inl h, fun _ h => .inl h, hwaiting, fun _ h => .inl h⟩
      · exact (MsgRequestPool.setSlot_length ..).trans (MsgRequestPool.setSlot_length ..)
      · intro i r₁ hr₁
        by_cases hi : index = i
        · -- the slot of the new id has the request, which is freed
          subst hi
          have hself := List.getElem?_set_self (List.getElem?_eq_some_iff.mp hslot).1
            (a := (r'.grabbed s.sender.pool.m_nextRequestId).setRequest p now)
          obtain rfl := Option.some.inj (hself.symm.trans hr₁)
          refine .inr ⟨rfl, UInt64.le_refl _, fun q hq => ?_⟩
          obtain rfl := Option.some.inj hq
          exact ⟨Function.update_self .., hused⟩
        · have hother : (s.slots.set data.m_requestIndex r.clearResponse)[i]? = some r₁ :=
            (List.getElem?_set_ne hi).symm.trans hr₁
          exact .inl (hcleared i r₁ hother)
    | unrenewed hanswers _ hmsg =>
      exact partsShrink_of (MsgRequestPool.setSlot_length ..)
        (slotShrinks_set hanswers.slot (.clearResponse _)) (fun q msg h => hrewritten _ q msg h)
        (.refl _) (fun _ h => .inl h) hwaiting hclock
    | timedOut _ _ hdata =>
      exact partsShrink_of (MsgRequestPool.setSlot_length ..)
        (slotShrinks_set (MsgBacklog.getRequestData_eq_some.mp hdata).2.1 (.setFlags _ _))
        (fun _ _ h => h) (.refl _) (fun _ h => .inl h) hwaiting hclock
    | unnamed _ _ hdata =>
      exact partsShrink_of (MsgRequestPool.setSlot_length ..)
        (slotShrinks_set (MsgBacklog.getRequestData_eq_some.mp hdata).2.1 (.setFlags _ _))
        (fun _ _ h => messages_of_update_none h) (.refl _) (fun _ h => .inl h) hwaiting hclock

/-! ## §4 Sends -/

/-- The message has got a vacant slot and a new id, and was written. -/
structure Sends (s : SenderState κ) (p : MsgPtr) (msg : Msg) (index : Nat) (r : MsgRequest)
    (requestFlags : UInt32) (now : UInt64) (t : SenderState κ) : Prop where
  message : s.sender.messages p = some msg
  slot : s.slots[index]? = some r
  idle : r.m_requestStatus = .idle
  slots : t.slots =
    s.slots.set index (r.holding p s.sender.pool.m_nextRequestId requestFlags now)
  messages : t.sender.messages = Function.update s.sender.messages p
    (some (stampHeader msg s.sender.pool.m_nextRequestId index))
  backlog : t.sender.m_backlog = s.sender.m_backlog
  waiting : t.waiting = s.waiting ∨
    t.waiting = s.waiting ++ [(p, ⟨s.sender.pool.m_nextRequestId, index⟩)]
  writes : ∃ bytes, t.writes = s.writes ++ [⟨bytes, some p⟩]
  clock : t.clock = now

section Sending

variable {p : MsgPtr} {msg : Msg} {index : Nat} {r : MsgRequest} {requestFlags : UInt32}
  {now : UInt64}

theorem Sends.message_ne (h : s.Sends p msg index r requestFlags now t) {q : MsgPtr} (hq : q ≠ p) :
    t.sender.messages q = s.sender.messages q := by
  rw [h.messages, Function.update_of_ne hq]

theorem Sends.message_self (h : s.Sends p msg index r requestFlags now t) :
    t.sender.messages p = some (stampHeader msg s.sender.pool.m_nextRequestId index) := by
  rw [h.messages, Function.update_self]

theorem Sends.slot_self (h : s.Sends p msg index r requestFlags now t) :
    t.slots[index]? = some (r.holding p s.sender.pool.m_nextRequestId requestFlags now) := by
  rw [h.slots]
  exact List.getElem?_set_self (List.getElem?_eq_some_iff.mp h.slot).1

theorem Sends.slot_ne (h : s.Sends p msg index r requestFlags now t) {i : Nat} (hi : index ≠ i) :
    t.slots[i]? = s.slots[i]? := by
  rw [h.slots]
  exact List.getElem?_set_ne hi

theorem Sends.inUse (h : s.Sends p msg index r requestFlags now t) (hs : s.Sound) {q : MsgPtr}
    (hq : t.InUse q) : q = p ∨ s.InUse q := by
  rcases hq with hrefers | ⟨data, hcall⟩ | ⟨write, hwrite, hdata⟩
  · rw [refersTo_iff, h.backlog] at hrefers
    rcases hrefers with
      ⟨item, hitem, rfl⟩ | ⟨entry, hentry, rfl⟩ | ⟨entry, hentry, rfl⟩ | ⟨r₁, hr₁, -, hq⟩
    · exact .inr (inUse_map hitem)
    · exact .inr (inUse_set hentry)
    · exact .inr (inUse_heap hentry)
    · obtain ⟨i, hi⟩ := List.getElem?_of_mem hr₁
      have hi' : t.slots[i]? = some r₁ := hi
      by_cases hne : index = i
      · subst hne
        rw [h.slot_self] at hi'
        obtain rfl := Option.some.inj hi'
        exact .inl (Option.some.inj hq).symm
      · rw [h.slot_ne hne] at hi'
        exact .inr (hs.inUse_slot hi' hq)
  · rcases h.waiting with hsame | hmore
    · exact .inr (inUse_waiting (hsame ▸ hcall))
    · rw [hmore] at hcall
      rcases List.mem_append.mp hcall with hold | hnew
      · exact .inr (inUse_waiting hold)
      · exact .inl (Prod.mk.inj (List.mem_singleton.mp hnew)).1
  · obtain ⟨bytes, hwrites⟩ := h.writes
    rw [hwrites] at hwrite
    rcases List.mem_append.mp hwrite with hold | hnew
    · exact .inr (inUse_write hold hdata)
    · rw [List.mem_singleton.mp hnew] at hdata
      exact .inl (Option.some.inj hdata).symm

/-- A call that waits after a send waited before, or it is the new one. -/
theorem Sends.mem_waiting (h : s.Sends p msg index r requestFlags now t)
    {q : MsgPtr} {data : MsgRequestData} (hcall : (q, data) ∈ t.waiting) :
    (q, data) ∈ s.waiting ∨ (q, data) = (p, ⟨s.sender.pool.m_nextRequestId, index⟩) := by
  rcases h.waiting with hsame | hmore
  · exact .inl (hsame ▸ hcall)
  · rw [hmore] at hcall
    exact (List.mem_append.mp hcall).imp id List.mem_singleton.mp

/-- **A message that gets a slot** keeps the invariant, if nothing refers to it and its id is
    new. -/
theorem Sound.sent (hs : s.Sound) (hp : ¬ s.InUse p) (hfresh : s.FreshId) (hclock : s.clock ≤ now)
    (h : s.Sends p msg index r requestFlags now t) : t.Sound := by
  have hne : ∀ q, s.InUse q → q ≠ p := fun q hq heq => hp (heq ▸ hq)
  have hlt : index < 2 ^ 32 :=
    Nat.lt_of_lt_of_le (List.getElem?_eq_some_iff.mp h.slot).1 hs.size
  have hindex : (UInt32.ofNat index).toNat = index := UInt32.toNat_ofNat_of_lt' hlt
  refine ⟨?_, ?_, ?_, ?_, ?_, ?_, ?_, ?_, ?_, ?_, ?_⟩
  · rw [h.slots, List.length_set]
    exact hs.size
  · intro i r₁ hr₁ hvacant
    -- each invariant of the slots: the slot that was taken, and the others
    by_cases hi : index = i
    · subst hi
      rw [h.slot_self] at hr₁
      obtain rfl := Option.some.inj hr₁
      cases hvacant
    · exact hs.vacant i r₁ (h.slot_ne hi ▸ hr₁) hvacant
  · -- a slot with a response that arrived is not the new one
    intro i r₁ hr₁ harrived
    by_cases hi : index = i
    · subst hi
      rw [h.slot_self] at hr₁
      obtain rfl := Option.some.inj hr₁
      cases harrived
    · exact hs.arrived i r₁ (h.slot_ne hi ▸ hr₁) harrived
  · -- the time of the send is not before the clock
    intro i r₁ hr₁
    rw [h.clock]
    by_cases hi : index = i
    · subst hi
      rw [h.slot_self] at hr₁
      obtain rfl := Option.some.inj hr₁
      exact UInt64.le_refl _
    · exact UInt64.le_trans (hs.past i r₁ (h.slot_ne hi ▸ hr₁)) hclock
  · -- the new header is stamped with the id and the index of the slot
    intro i r₁ q msg₁ hr₁ hq hmsg₁
    by_cases hi : index = i
    · subst hi
      rw [h.slot_self] at hr₁
      obtain rfl := Option.some.inj hr₁
      obtain rfl := Option.some.inj hq
      rw [h.message_self] at hmsg₁
      obtain rfl := Option.some.inj hmsg₁
      exact ⟨hindex, rfl⟩
    · rw [h.slot_ne hi] at hr₁
      rw [h.message_ne (hne q (hs.inUse_slot hr₁ hq))] at hmsg₁
      exact hs.held i r₁ q msg₁ hr₁ hq hmsg₁
  · -- the backlog is as before, and its messages are not the new one
    intro item hitem msg₁ hmsg₁
    rw [h.backlog] at hitem
    rw [h.message_ne (hne _ (inUse_map hitem))] at hmsg₁
    exact hs.keys item hitem msg₁ hmsg₁
  · intro entry hentry msg₁ hmsg₁
    rw [h.backlog] at hentry
    rw [h.message_ne (hne _ (inUse_set hentry))] at hmsg₁
    exact hs.places entry hentry msg₁ hmsg₁
  · intro q q' m m' hq hq' hm hm' hid
    -- two messages in use: the new one has an id that no other has
    rcases h.inUse hs hq with rfl | hold <;> rcases h.inUse hs hq' with rfl | hold'
    · rfl
    · rw [h.message_self] at hm
      obtain rfl := Option.some.inj hm
      rw [h.message_ne (hne q' hold')] at hm'
      exact absurd hid.symm (hfresh.messages q' m' hold' hm')
    · rw [h.message_self] at hm'
      obtain rfl := Option.some.inj hm'
      rw [h.message_ne (hne q hold)] at hm
      exact absurd hid (hfresh.messages q m hold hm)
    · rw [h.message_ne (hne q hold)] at hm
      rw [h.message_ne (hne q' hold')] at hm'
      exact hs.ids q q' m m' hold hold' hm hm' hid
  · -- the new message has a valid header
    intro q m hq hm
    rcases h.inUse hs hq with rfl | hold
    · rw [h.message_self] at hm
      obtain rfl := Option.some.inj hm
      exact hfresh.valid
    · rw [h.message_ne (hne q hold)] at hm
      exact hs.valid q m hold hm
  · -- the calls that wait: one more if it is a transaction
    intro q data m hcall hm
    rcases h.mem_waiting hcall with hold | hnew
    · rw [h.message_ne (hne q (inUse_waiting hold))] at hm
      exact hs.calls q data m hold hm
    · cases hnew
      rw [h.message_self] at hm
      obtain rfl := Option.some.inj hm
      exact ⟨rfl, hindex⟩
  · -- a message with the id of a call is the request of the call
    intro q data q' m hcall hq' hm hid
    rcases h.inUse hs hq' with rfl | hold' <;> rcases h.mem_waiting hcall with hold | hnew
    · rw [h.message_self] at hm
      obtain rfl := Option.some.inj hm
      exact absurd hid.symm (hfresh.waiting _ hold)
    · cases hnew
      rfl
    · rw [h.message_ne (hne q' hold')] at hm
      exact hs.callIds q data q' m hold hold' hm hid
    · cases hnew
      rw [h.message_ne (hne q' hold')] at hm
      exact absurd hid (hfresh.messages q' m hold' hm)

end Sending

/-- The message was not written; a vacant slot may have been taken for it in vain. -/
structure Wastes (s : SenderState κ) (p : MsgPtr) (t : SenderState κ) : Prop where
  slots : t.slots = s.slots ∨ ∃ index r r', s.slots[index]? = some r ∧ r.m_requestStatus = .idle ∧
    r'.m_requestStatus = .pending ∧ r'.m_request = none ∧ r'.m_requestTimeMillis = 0 ∧
    t.slots = s.slots.set index r'
  messages : ∀ q, q ≠ p → t.sender.messages q = s.sender.messages q
  backlog : t.sender.m_backlog = s.sender.m_backlog
  config : t.sender.m_config = s.sender.m_config
  waiting : t.waiting = s.waiting
  writes : t.writes = s.writes
  clock : s.clock ≤ t.clock

theorem Wastes.partsShrink {p : MsgPtr} (h : s.Wastes p t) (hp : ¬ s.InUse p) :
    s.PartsShrink t where
  size := by
    rcases h.slots with hsame | ⟨index, r, r', -, -, -, -, -, hset⟩
    · rw [hsame]
    · rw [hset, List.length_set]
  slots i r₁ hr₁ := by
    rcases h.slots with hsame | ⟨index, r, r', hslot, -, hpending, hnone, htime, hset⟩
    · exact .inl ⟨r₁, hsame ▸ hr₁, .refl r₁⟩
    · by_cases hi : index = i
      · subst hi
        have hlt := (List.getElem?_eq_some_iff.mp hslot).1
        rw [hset, List.getElem?_set_self hlt] at hr₁
        obtain rfl := Option.some.inj hr₁
        refine .inr ⟨hpending, htime ▸ UInt64.zero_le, fun q hq => ?_⟩
        rw [hnone] at hq
        cases hq
      · rw [hset, List.getElem?_set_ne hi] at hr₁
        exact .inl ⟨r₁, hr₁, .refl r₁⟩
  clock := h.clock
  messages q msg hmsg := by
    by_cases hq : q = p
    · exact .inr (hq ▸ hp)
    · exact .inl (h.messages q hq ▸ hmsg)
  map _ hitem := .inl (h.backlog ▸ hitem)
  set _ hentry := .inl (h.backlog ▸ hentry)
  heap _ hentry := .inl (h.backlog ▸ hentry)
  waiting _ hcall := h.waiting ▸ hcall
  writes _ hwrite := .inl (h.writes ▸ hwrite)

/-- The message is not sent: the sender has stopped, there is no vacant slot, or the message cannot
    be put on the wire. -/
def Refuses (s : SenderState κ) (p : MsgPtr) (env : SendEnv) : Prop :=
  s.sender.m_stopResend = true ∨ (∀ r ∈ s.slots, r.m_requestStatus ≠ .idle) ∨
    ∃ msg, s.sender.messages p = some msg ∧ SendFails s.sender.m_msgClient.byteOrder msg env

/-- What `MsgClient::sendMsg` does to the state of a run. -/
theorem sendMsg_state {p : MsgPtr} {env : SendEnv} {requestFlags : UInt32} {rc : ErrorCode}
    {data : Option MsgRequestData} {c : MsgClient}
    (hflags : requestFlags &&& COMMUTIL_REQUEST_FLAG_REUSE = 0) (hclock : s.clock ≤ env.now)
    (h : s.sender.m_msgClient.sendMsg p requestFlags env = .ok (rc, data, c)) :
    (rc ≠ .ok ∧ s.Refuses p env ∧ ∀ handed,
      s.Wastes p ⟨{ s.sender with m_msgClient := c }, s.waiting, handed, env.now⟩) ∨
    ∃ msg index r, rc = .ok ∧ data = some ⟨s.sender.pool.m_nextRequestId, index⟩ ∧
      ∀ waiting handed, (waiting = s.waiting ∨
        waiting = s.waiting ++ [(p, ⟨s.sender.pool.m_nextRequestId, index⟩)]) →
      s.Sends p msg index r requestFlags env.now
        ⟨{ s.sender with m_msgClient := c }, waiting, handed, env.now⟩ := by
  rcases MsgClient.sendMsg_new_cases hflags h with ⟨rfl, hbusy, rfl⟩ |
    ⟨msg, index, r, hmsg, hslot, hidle, hdata, hcase⟩
  · exact .inl ⟨by decide, .inr (.inl hbusy),
      fun _ => ⟨.inl rfl, fun _ _ => rfl, rfl, rfl, rfl, rfl,
      hclock⟩⟩
  · rcases hcase with ⟨rfl, bytes, rfl⟩ | ⟨hrc, hfails, rfl⟩
    · exact .inr ⟨msg, index, r, rfl, hdata, fun waiting handed hwaiting =>
        ⟨hmsg, hslot, hidle, rfl, rfl, rfl, hwaiting, ⟨bytes, rfl⟩, rfl⟩⟩
    · refine .inl ⟨hrc, .inr (.inr ⟨msg, hmsg, hfails⟩),
        fun _ => ⟨.inr ⟨index, r, _, hslot, hidle, rfl,
        rfl, rfl, List.set_set ..⟩, fun q hq => Function.update_of_ne hq .., rfl, rfl, rfl, rfl,
        hclock⟩⟩

/-- **A send** in a run. -/
theorem send_state {p : MsgPtr} {env : SendEnv} (hclock : s.clock ≤ env.now)
    (h : s.send p env = .ok t) :
    (s.Refuses p env ∧ s.Wastes p t) ∨ ∃ msg index r, s.Sends p msg index r 0 env.now t := by
  rcases send_cases h with ⟨rfl, hstop⟩ | ⟨rc, data, c, hsend, rfl⟩
  · exact .inl ⟨.inl hstop, .inl rfl, fun _ _ => rfl, rfl, rfl, rfl, rfl, hclock⟩
  · rcases sendMsg_state (by decide) hclock hsend with
      ⟨-, hrefuses, hwastes⟩ | ⟨msg, index, r, -, -, hsends⟩
    · exact .inl ⟨hrefuses, hwastes _⟩
    · exact .inr ⟨msg, index, r, hsends _ _ (.inl rfl)⟩

/-- **The first half of a transaction** in a run. -/
theorem transact_state {p : MsgPtr} {env : SendEnv} (hclock : s.clock ≤ env.now)
    (h : s.transact p env = .ok t) :
    (s.Refuses p env ∧ s.Wastes p t) ∨
      ∃ msg index r, s.Sends p msg index r COMMUTIL_REQUEST_FLAG_TX env.now t ∧
        t.waiting = s.waiting ++ [(p, ⟨s.sender.pool.m_nextRequestId, index⟩)] := by
  rcases transact_cases h with ⟨rfl, hstop⟩ | ⟨data, c, hsend, rfl⟩ |
    ⟨rc, data, c, rc', sender, hsend, hrc, hend, rfl⟩
  · exact .inl ⟨.inl hstop, .inl rfl, fun _ _ => rfl, rfl, rfl, rfl, rfl, UInt64.le_refl _⟩
  · rcases sendMsg_state (by decide) hclock hsend with ⟨hne, -⟩ | ⟨msg, index, r, -, hdata, hsends⟩
    · exact absurd rfl hne
    · obtain rfl := Option.some.inj hdata
      exact .inr ⟨msg, index, r, hsends _ _ (.inr rfl), rfl⟩
  · rcases sendMsg_state (by decide) hclock hsend with
      ⟨-, hrefuses, hwastes⟩ | ⟨msg, index, r, hok, -⟩
    · have hw := hwastes (p :: s.handed)
      refine .inl ⟨hrefuses, ?_⟩
      obtain ⟨msg, -, hcase⟩ := MsgSender.endTransaction_cases hend
      rcases hcase with ⟨-, rfl⟩ | ⟨-, -, rfl⟩
      · refine ⟨hw.slots, fun q hq => ?_, hw.backlog, hw.config, rfl, hw.writes, hw.clock⟩
        exact (Function.update_of_ne hq ..).trans (hw.messages q hq)
      · exact hw
    · exact absurd hok hrc

/-- **One event** keeps the invariant of the references. -/
theorem Sound.step {e : SenderEvent} (hs : s.Sound) (hproper : s.Proper e)
    (h : s.step e = .ok t) : t.Sound := by
  cases e with
  | allocate p msg =>
    obtain rfl := Except.ok.inj h
    exact hs.shrink ((partsShrink_allocate msg hproper).shrinks hs)
  | send p env =>
    obtain ⟨hp, hfresh, hclock⟩ := hproper
    rcases send_state hclock h with ⟨-, hwastes⟩ | ⟨msg, index, r, hsends⟩
    · exact hs.shrink ((hwastes.partsShrink hp).shrinks hs)
    · exact hs.sent hp hfresh hclock hsends
  | transact p env =>
    obtain ⟨hp, hfresh, hclock⟩ := hproper
    rcases transact_state hclock h with ⟨-, hwastes⟩ | ⟨msg, index, r, hsends, -⟩
    · exact hs.shrink ((hwastes.partsShrink hp).shrinks hs)
    · exact hs.sent hp hfresh hclock hsends
  | finish k now => exact hs.shrink ((partsShrink_finish hproper h).shrinks hs)
  | loopSend k => exact hs.shrink ((partsShrink_loopSend h).shrinks hs)
  | recv response =>
    obtain rfl := Except.ok.inj h
    exact hs.shrink ((partsShrink_recv response).shrinks hs)
  | visit index now => exact hs.shrink ((partsShrink_visit hproper h).shrinks hs)
  | prune => exact hs.shrink ((partsShrink_prune h).shrinks hs)
  | resend barrier env =>
    have hclock := UInt64.le_trans hproper.1 hproper.2
    exact hs.shrink ((partsShrink_resend hs hclock h).shrinks hs)
  | disconnect =>
    obtain rfl := Except.ok.inj h
    exact hs.shrink (partsShrink_disconnect.shrinks hs)
  | connect =>
    obtain rfl := Except.ok.inj h
    exact hs

theorem sound_start (poolSize : UInt32) (nextRequestId : UInt64) (byteOrder : ByteOrder)
    (config : MsgConfig) (reader : ResponseReader κ) :
    (start poolSize nextRequestId byteOrder config reader).Sound := by
  have hnew : ∀ (i : Nat) (r : MsgRequest),
      (start poolSize nextRequestId byteOrder config reader).slots[i]? = some r → r = .new :=
    fun i r hr => List.eq_of_mem_replicate (List.mem_of_getElem? hr)
  refine ⟨?_, ?_, ?_, ?_, ?_, nofun, nofun, ?_, ?_, nofun, nofun⟩
  · have hlength : (start poolSize nextRequestId byteOrder config reader).slots.length =
        poolSize.toNat := List.length_replicate
    have := poolSize.toNat_lt
    omega
  · intro i r hr _
    rw [hnew i r hr]
    rfl
  · intro i r hr harrived
    rw [hnew i r hr] at harrived
    cases harrived
  · intro i r hr
    rw [hnew i r hr]
    exact UInt64.le_refl _
  · intro i r p msg hr hp
    rw [hnew i r hr] at hp
    cases hp
  · exact fun p q msg msg' _ _ hmsg => nomatch hmsg
  · exact fun p msg _ hmsg => nomatch hmsg

/-- **The references of a run** are sound. -/
theorem run_sound {poolSize : UInt32} {nextRequestId : UInt64} {byteOrder : ByteOrder}
    {config : MsgConfig} {reader : ResponseReader κ} {es : List SenderEvent}
    (h : RunsWith (fun s e t => s.step e = .ok t) Proper
      (start poolSize nextRequestId byteOrder config reader) es s) : s.Sound :=
  h.invariant Sound (fun _ _ _ hs hproper hstep => hs.step hproper hstep)
    (sound_start poolSize nextRequestId byteOrder config reader)

end SenderState

end Commutil.Client
