import Commutil.Client.DoubleFrees
import Commutil.Client.ResponseOrder

/-!
# Owners of Requests

A request message belongs to the slot that holds it and to the backlog, until it is freed.

`Owned` is the invariant: the indices of the backlog have the same entries, every entry, slot and
waiting transaction leads to an allocated message, and nothing referred to a message when it was
freed.  A slot whose request is in the backlog may only be given back with an accepted response to
the first request of the backlog; the other ways out (a disconnect, the age of the request, a
response that is rejected or comes out of turn) free a message that the backlog still has.
`Careful` excludes them, and the visit of a transaction that still waits.

`Keeps` is what keeps a message that was handed over from being lost without being freed.
-/

namespace Commutil.Client

open Commutil.Framing Commutil.Io Commutil.Library

variable {κ : Type}

/-! ## §1 The entries of the backlog -/

section Entries

variable {b b' : MsgBacklog} {pool : MsgRequestPool} {messages messages' : MsgPtr → Option Msg}
  {contents : List BacklogEntry} {p : MsgPtr}

namespace Recorded

/-- The messages of the entries are as before. -/
theorem congr (h : Recorded b messages contents)
    (hsame : ∀ e ∈ contents, messages' e.m_msg = messages e.m_msg) :
    Recorded b messages' contents := by
  have hid : ∀ e ∈ contents, requestIdOf messages' e.m_msg = requestIdOf messages e.m_msg := by
    intro e he
    unfold requestIdOf
    rw [hsame e he]
  refine ⟨fun e he => hsame e he ▸ h.live e he, ?_, ?_, h.set, h.heap⟩
  · rw [List.map_congr_left hid]
    exact h.distinct
  · rw [List.map_congr_left fun e he => by rw [hid e he]]
    exact h.map

/-- The indices have the same entries as before. -/
theorem indices (h : Recorded b messages contents) (hmap : b'.m_requestMap = b.m_requestMap)
    (hset : b'.m_requestSet.Perm b.m_requestSet) (hheap : b'.m_minHeap = b.m_minHeap) :
    Recorded b' messages contents :=
  ⟨h.live, h.distinct, hmap ▸ h.map, hset.trans h.set, hheap ▸ h.heap⟩

/-- A request whose id is new was added. -/
theorem added (h : Recorded b messages contents) {msg : Msg} (hmsg : messages p = some msg)
    (hnew : ∀ item ∈ b.m_requestMap, item.1 ≠ msg.m_header.m_requestId)
    (hadded : MsgBacklog.Added b msg.m_header ⟨p, msg.m_header.m_requestIndex.toNat⟩ b') :
    Recorded b' messages (⟨p, msg.m_header.m_requestIndex.toNat⟩ :: contents) := by
  have hid := requestIdOf_eq hmsg
  refine ⟨List.forall_mem_cons.mpr ⟨?_, h.live⟩, ?_, ?_, hadded.set.trans (h.set.cons _),
    hadded.heap.trans (h.heap.cons _)⟩
  · exact Option.isSome_iff_exists.mpr ⟨msg, hmsg⟩
  · rw [List.map_cons, List.nodup_cons]
    refine ⟨fun hmem => ?_, h.distinct⟩
    obtain ⟨e, he, heq⟩ := List.mem_map.mp hmem
    exact hnew _ (h.map.symm.subset (List.mem_map_of_mem he)) (heq.trans hid)
  · rw [hadded.map, List.map_cons, hid]
    exact h.map.cons _

/-- A removal takes out the entry of the request, or changes nothing. -/
theorem shrunk (h : Recorded b messages contents) {rc : ErrorCode}
    (hremove : b.removePendingRequest pool messages p = .ok (rc, b')) :
    rc = .ok ∧ Recorded b' messages (contents.filter fun e => e.m_msg ≠ p) ∨
      rc ≠ .ok ∧ b' = b := by
  rcases MsgBacklog.removePendingRequest_cases hremove with ⟨hrc, msg, hmsg, hremoved⟩ | hsame
  · obtain ⟨e, he, hperm⟩ := hremoved.set
    have hmem := h.set.subset (hperm.symm.subset List.mem_cons_self)
    exact .inl ⟨hrc, h.removed hmsg hmem he hremoved⟩
  · exact .inr hsame

/-- The backlog has no entry of the request. -/
theorem filter_eq (hnone : ∀ e ∈ contents, e.m_msg ≠ p) :
    (contents.filter fun e => e.m_msg ≠ p) = contents :=
  List.filter_eq_self.mpr fun e he => decide_eq_true (hnone e he)

/-- A removal that succeeds if there is something to remove. -/
theorem taken (h : Recorded b messages contents) {rc : ErrorCode}
    (hremove : b.removePendingRequest pool messages p = .ok (rc, b'))
    (hfound : (∃ e ∈ contents, e.m_msg = p) → rc = .ok) :
    Recorded b' messages (contents.filter fun e => e.m_msg ≠ p) := by
  rcases h.shrunk hremove with ⟨-, hrecorded⟩ | ⟨hrc, rfl⟩
  · exact hrecorded
  · rw [filter_eq fun e he heq => hrc (hfound ⟨e, he, heq⟩)]
    exact h

/-- The first entry of the set is put back, since no other one has its id. -/
theorem updateReady (h : Recorded b messages contents) {entry : BacklogEntry}
    {rest : List BacklogEntry} (hset : b.m_requestSet = entry :: rest)
    (hupdate : b.updateReadyResendRequest pool messages = .ok b') :
    Recorded b' messages contents := by
  rcases SenderState.updateReady_cases hset hupdate with ⟨l, rfl, hl⟩ | ⟨rfl, hposition⟩
  · exact h.indices rfl hl rfl
  · obtain ⟨y, hy, hless, hgreater⟩ := SenderState.insertPosition_none hposition
    obtain ⟨mx, my, hmx, hmy, hid⟩ := SenderState.entryTimeCmp_equal hless hgreater
    have hperm := h.set
    rw [hset] at hperm
    have hsame : entry = y := by
      apply h.eq_of_id (hperm.subset List.mem_cons_self) (hperm.subset (List.mem_cons_of_mem _ hy))
      rw [requestIdOf_eq hmx, requestIdOf_eq hmy, hid]
    have hnodup := hperm.nodup_iff.mpr (h.distinct.of_map _)
    rw [List.nodup_cons] at hnodup
    exact absurd (hsame ▸ hy) hnodup.1

/-- The sender refers to the messages of the entries. -/
theorem refersTo {a : MsgSender κ} (h : Recorded a.m_backlog messages contents)
    {e : BacklogEntry} (he : e ∈ contents) : a.refersTo e.m_msg = true :=
  refersTo_iff.mpr (.inr (.inl ⟨e, h.set.symm.subset he, rfl⟩))

/-- Nothing refers to a message without an entry and without a slot. -/
theorem not_refersTo {a : MsgSender κ} (h : Recorded a.m_backlog messages contents)
    (hentries : ∀ e ∈ contents, e.m_msg ≠ p)
    (hslots : ∀ r ∈ a.pool.m_requests, r.m_request ≠ some p) : a.refersTo p = false := by
  rw [Bool.eq_false_iff]
  intro hrefers
  rcases refersTo_iff.mp hrefers with
    ⟨item, hitem, heq⟩ | ⟨e, he, heq⟩ | ⟨e, he, heq⟩ | ⟨r, hr, -, heq⟩
  · obtain ⟨e, he, rfl⟩ := List.mem_map.mp (h.map.subset hitem)
    exact hentries e he heq
  · exact hentries e (h.set.subset he) heq
  · exact hentries e (h.heap.subset he) heq
  · exact hslots r hr heq

end Recorded

end Entries

namespace SenderState

variable {s t : SenderState κ} {p : MsgPtr} {msg : Msg} {contents : List BacklogEntry}

/-! ## §2 The invariant -/

/-- **Every reference leads to an allocated message**, the indices of the backlog agree, and no
    message that was freed was referred to. -/
structure Owned (s : SenderState κ) (contents : List BacklogEntry) : Prop where
  recorded : Recorded s.sender.m_backlog s.sender.messages contents
  slots : ∀ (i : Nat) (r : MsgRequest) (p : MsgPtr), s.slots[i]? = some r →
    r.m_request = some p → (s.sender.messages p).isSome
  waiting : ∀ call ∈ s.waiting, (s.sender.messages call.1).isSome
  calls : (s.waiting.map Prod.fst).Nodup
  freed : ∀ f ∈ s.sender.freed, f.referenced = false

/-- The slot is given back by a visit at this time, unless it is vacant. -/
def GivenBack (s : SenderState κ) (r : MsgRequest) (now : UInt64) : Prop :=
  r.m_requestStatus = .pending →
    now - r.m_requestTimeMillis > s.sender.m_config.m_expireTimeoutMillis

/-- The slot has an accepted response to its request, and the request will be found in the backlog:
    when the slot is cleared, all requests before it have the request time 0. -/
structure LeavesBacklog (s : SenderState κ) (index : Nat) (r : MsgRequest) (p : MsgPtr) : Prop where
  arrived : r.m_requestStatus = .arrived
  accepts : ∃ response, r.m_response = some response ∧ s.sender.Accepts response
  first : s.sender.m_backlog.FirstInTime (s.sender.pool.setSlot index r.clearResponse) p

/-- No request is freed that the backlog keeps or a transaction waits for, and no response to a
    transaction is rejected. -/
def Careful (s : SenderState κ) : SenderEvent → Prop
  | .visit index now => ∀ (r : MsgRequest) (p : MsgPtr), s.slots[index]? = some r →
    r.m_request = some p → r.isTx = false → s.GivenBack r now →
      (∀ data, (p, data) ∉ s.waiting) ∧ (s.Listed p → s.LeavesBacklog index r p)
  | .finish k _ => ∀ (p : MsgPtr) (data : MsgRequestData) (r : MsgRequest) (response : Msg),
    s.waiting[k]? = some (p, data) → s.sender.Answers data r response →
      s.sender.Accepts response ∧ (s.Listed p → s.LeavesBacklog data.m_requestIndex r p)
  | _ => True

namespace Owned

theorem listed_iff (h : s.Owned contents) : s.Listed p ↔ ∃ e ∈ contents, e.m_msg = p := by
  unfold Listed
  constructor
  · rintro ⟨e, he, heq⟩
    exact ⟨e, h.recorded.set.subset he, heq⟩
  · rintro ⟨e, he, heq⟩
    exact ⟨e, h.recorded.set.symm.subset he, heq⟩

/-- **Events that free nothing.** -/
theorem quiet {contents' : List BacklogEntry} (h : s.Owned contents)
    (hrecorded : Recorded t.sender.m_backlog t.sender.messages contents')
    (hlive : ∀ q, (s.sender.messages q).isSome → (t.sender.messages q).isSome)
    (hslots : ∀ (i : Nat) (r : MsgRequest), t.slots[i]? = some r → r.m_request = none ∨
      ∃ r', s.slots[i]? = some r' ∧ r'.m_request = r.m_request)
    (hwaiting : t.waiting.Sublist s.waiting) (hfreed : t.sender.freed = s.sender.freed) :
    t.Owned contents' where
  recorded := hrecorded
  slots i r q hr hq := by
    rcases hslots i r hr with hnone | ⟨r', hr', hsame⟩
    · rw [hnone] at hq
      cases hq
    · exact hlive q (h.slots i r' q hr' (hsame.trans hq))
  waiting call hcall := hlive _ (h.waiting call (hwaiting.subset hcall))
  calls := h.calls.sublist (hwaiting.map _)
  freed := hfreed ▸ h.freed

/-- **A message is freed** that nothing refers to. -/
theorem free (h : s.Owned contents) (hentries : ∀ e ∈ contents, e.m_msg ≠ p)
    (hslots : ∀ r ∈ s.slots, r.m_request ≠ some p) (hcalls : ∀ call ∈ s.waiting, call.1 ≠ p)
    (ht : t.sender = s.sender.released (some p)) (hwaiting : t.waiting = s.waiting) :
    t.Owned contents := by
  have hmessages : t.sender.messages = Function.update s.sender.messages p none := by
    rw [ht]
    rfl
  have hlive : ∀ q, q ≠ p → (s.sender.messages q).isSome → (t.sender.messages q).isSome := by
    intro q hq hsome
    rw [hmessages, Function.update_of_ne hq]
    exact hsome
  refine ⟨?_, ?_, ?_, hwaiting ▸ h.calls, ?_⟩
  · rw [ht]
    exact h.recorded.congr fun e he => Function.update_of_ne (hentries e he) ..
  · intro i r q hr hq
    have hr' : s.slots[i]? = some r := by
      unfold SenderState.slots at hr ⊢
      rw [ht] at hr
      exact hr
    -- the slots refer to other messages, and those are still there
    refine hlive q ?_ (h.slots i r q hr' hq)
    rintro rfl
    exact hslots r (List.mem_of_getElem? hr') hq
  · intro call hcall
    rw [hwaiting] at hcall
    exact hlive _ (hcalls call hcall) (h.waiting call hcall)
  · intro f hf
    rw [ht] at hf
    -- the new record of a free says that nothing referred to the message
    rcases List.mem_append.mp hf with hold | hnew
    · exact h.freed f hold
    · rw [List.mem_singleton.mp hnew]
      exact h.recorded.not_refersTo hentries hslots

/-- A request whose slot is cleared leaves the backlog, if it is the first one there. -/
theorem taken (h : s.Owned contents) (hs : s.Sound) {r : MsgRequest} {rc : ErrorCode}
    {b : MsgBacklog} (hmsg : s.sender.messages p = some msg)
    (hr : s.slots[msg.m_header.m_requestIndex.toNat]? = some r)
    (hremove : s.sender.m_backlog.removePendingRequest
      (s.sender.pool.setSlot msg.m_header.m_requestIndex.toNat r.clearResponse) s.sender.messages
        p = .ok (rc, b))
    (hleaves : s.Listed p → s.LeavesBacklog msg.m_header.m_requestIndex.toNat r p) :
    Recorded b s.sender.messages (contents.filter fun e => e.m_msg ≠ p) := by
  apply h.recorded.taken hremove
  rintro ⟨e, he, rfl⟩
  have hplace := hs.places e (h.recorded.set.symm.subset he) msg hmsg
  have htime : ((s.sender.pool.setSlot msg.m_header.m_requestIndex.toNat r.clearResponse).slot
      e.m_request).m_requestTimeMillis = 0 := by
    rw [hplace, slot_setSlot_self (List.getElem?_eq_some_iff.mp hr).1]
    rfl
  obtain ⟨rc', b', hcall, hiff⟩ := h.recorded.removePendingRequest_zero he htime
  rw [hremove] at hcall
  cases hcall
  exact hiff.mpr (hleaves (h.listed_iff.mpr ⟨e, he, rfl⟩)).first

/-- **A slot is given back** and its request freed, which has left the backlog. -/
theorem settle (h : s.Owned contents) (hs : s.Sound) {r : MsgRequest} {b : MsgBacklog}
    {calls : List (Dispatch.Call κ)} (hmsg : s.sender.messages p = some msg)
    (hr : s.slots[msg.m_header.m_requestIndex.toNat]? = some r)
    (hb : Recorded b s.sender.messages (contents.filter fun e => e.m_msg ≠ p))
    (ht : t.sender =
      (s.sender.settled msg.m_header.m_requestIndex.toNat r b calls).released (some p))
    (hwaiting : t.waiting.Sublist s.waiting) (hcalls : ∀ call ∈ t.waiting, call.1 ≠ p) :
    t.Owned (contents.filter fun e => e.m_msg ≠ p) := by
  let u : SenderState κ :=
    { t with sender := s.sender.settled msg.m_header.m_requestIndex.toNat r b calls }
  have hslots : u.slots = s.slots.set msg.m_header.m_requestIndex.toNat r.clearResponse := rfl
  have hlt := (List.getElem?_eq_some_iff.mp hr).1
  have hu : u.Owned (contents.filter fun e => e.m_msg ≠ p) := by
    refine h.quiet hb (fun _ hlive => hlive) (fun i r' hr' => ?_) hwaiting rfl
    rw [hslots] at hr'
    by_cases hi : msg.m_header.m_requestIndex.toNat = i
    · subst hi
      rw [List.getElem?_set_self hlt] at hr'
      obtain rfl := Option.some.inj hr'
      exact .inl rfl
    · rw [List.getElem?_set_ne hi] at hr'
      exact .inr ⟨r', hr', rfl⟩
  refine hu.free (fun e he => of_decide_eq_true (List.mem_filter.mp he).2) ?_ hcalls ht rfl
  -- only the slot that was cleared held the message
  intro r' hr' hp
  obtain ⟨i, hi⟩ := List.getElem?_of_mem hr'
  rw [hslots] at hi
  by_cases hne : msg.m_header.m_requestIndex.toNat = i
  · subst hne
    rw [List.getElem?_set_self hlt] at hi
    obtain rfl := Option.some.inj hi
    cases hp
  · rw [List.getElem?_set_ne hne] at hi
    exact hne (hs.held i r' p msg hi hp hmsg).1

/-- What is left of the entries when a message was freed. -/
theorem left_or_freed {contents : List BacklogEntry} (hgone : t.sender.messages p = none) :
    ∀ e ∈ contents, (e ∈ contents.filter fun e => e.m_msg ≠ p) ∨
      t.sender.messages e.m_msg = none := by
  intro e he
  by_cases hp : e.m_msg = p
  · exact .inr (hp ▸ hgone)
  · exact .inl (List.mem_filter.mpr ⟨he, decide_eq_true hp⟩)

/-- **A visit.** -/
theorem visit (h : s.Owned contents) (hs : s.Sound) {index : Nat} {now : UInt64}
    (hcareful : s.Careful (.visit index now)) (hstep : s.step (.visit index now) = .ok t) :
    ∃ contents', t.Owned contents' ∧
      ∀ e ∈ contents, e ∈ contents' ∨ t.sender.messages e.m_msg = none := by
  obtain ⟨sender, hcall, rfl⟩ := visit_cases hstep
  rcases MsgSender.processPendingResponse_cases hcall with
    ⟨rfl, -⟩ | ⟨r, b, calls, hr, -, htx, hsettled, hlive, rfl⟩
  · exact ⟨contents, h.quiet h.recorded (fun _ hlive => hlive) (fun i r hr => .inr ⟨r, hr, rfl⟩)
      (.refl _) rfl, fun e he => .inl he⟩
  · cases hp : r.m_request with
    | none =>
      -- a slot without a request
      have hsame : b = s.sender.m_backlog := by
        cases hsettled with
        | accepted _ _ _ hq =>
          rw [hp] at hq
          cases hq
        | rejected | empty | aborted | expired => rfl
      refine ⟨contents, h.quiet (hsame ▸ h.recorded) (fun _ hlive => hlive) (fun i r' hr' => ?_)
        (.refl _) rfl, fun e he => .inl he⟩
      have hset : (s.slots.set index r.clearResponse)[i]? = some r' := hr'
      obtain ⟨r₀, hr₀, hshrinks⟩ := slotShrinks_set hr (.clearResponse r) i r' hset
      exact hshrinks.request.imp id fun heq => ⟨r₀, hr₀, heq.symm⟩
    | some p =>
      obtain ⟨msg, hmsg⟩ := Option.isSome_iff_exists.mp (hlive p hp)
      obtain ⟨rfl, -⟩ := hs.held index r p msg hr hp hmsg
      have hgiven : s.GivenBack r now := fun hpending => hsettled.age_of_pending hpending
      obtain ⟨hcalls, hleaves⟩ := hcareful r p hr hp htx hgiven
      -- a request that is not in the backlog leaves it as it is
      have hunlisted : (s.Listed p → False) →
          Recorded s.sender.m_backlog s.sender.messages
            (contents.filter fun e => e.m_msg ≠ p) := by
        intro hnot
        rw [Recorded.filter_eq fun e he heq => hnot (h.listed_iff.mpr ⟨e, he, heq⟩)]
        exact h.recorded
      have hb : Recorded b s.sender.messages (contents.filter fun e => e.m_msg ≠ p) := by
        cases hsettled with
        | accepted _ _ _ hq hremove =>
          obtain rfl := Option.some.inj (hp.symm.trans hq)
          exact h.taken hs hmsg hr hremove hleaves
        | rejected _ hresponse hrejects =>
          refine hunlisted fun hlisted => ?_
          obtain ⟨response', hresponse', haccepts⟩ := (hleaves hlisted).accepts
          obtain rfl := Option.some.inj (hresponse.symm.trans hresponse')
          exact accepts_not_rejects haccepts hrejects
        | empty _ hnone =>
          refine hunlisted fun hlisted => ?_
          obtain ⟨response', hresponse', -⟩ := (hleaves hlisted).accepts
          rw [hnone] at hresponse'
          cases hresponse'
        | aborted haborted =>
          refine hunlisted fun hlisted => ?_
          rw [(hleaves hlisted).arrived] at haborted
          cases haborted
        | expired hpending =>
          refine hunlisted fun hlisted => ?_
          rw [(hleaves hlisted).arrived] at hpending
          cases hpending
      refine ⟨_, h.settle hs hmsg hr hb rfl (.refl _) ?_, left_or_freed (Function.update_self ..)⟩
      rintro ⟨q, data⟩ hcall rfl
      exact hcalls data hcall

/-- **The end of a transaction.** -/
theorem finish (h : s.Owned contents) (hs : s.Sound) {k : Nat} {now : UInt64}
    (hcareful : s.Careful (.finish k now)) (hstep : s.finish k now = .ok t) :
    ∃ contents', t.Owned contents' ∧
      ∀ e ∈ contents, e ∈ contents' ∨ t.sender.messages e.m_msg = none := by
  rcases finish_cases hstep with ⟨rfl, -⟩ | ⟨p, data, sender, hk, hended, rfl⟩
  · exact ⟨contents, h, fun e he => .inl he⟩
  · have hcall := List.mem_of_getElem? hk
    cases hended with
    | @accepted r response b rc calls hanswers _ hlive hremove =>
      obtain ⟨msg, hmsg⟩ := Option.isSome_iff_exists.mp hlive
      have hindex := (hs.calls p data msg hcall hmsg).2
      obtain ⟨-, hleaves⟩ := hcareful p data r response hk hanswers
      have hr := hanswers.slot
      rw [← hindex] at hr hremove hleaves ⊢
      have hb := h.taken hs hmsg hr hremove hleaves
      refine ⟨_, h.settle hs hmsg hr hb rfl (List.eraseIdx_sublist ..) ?_,
        left_or_freed (Function.update_self ..)⟩
      -- no other transaction waits with this message
      intro call hmem heq
      have hperm := ((MsgBacklog.perm_cons_eraseIdx hk).map Prod.fst).nodup_iff.mp h.calls
      rw [List.map_cons, List.nodup_cons] at hperm
      exact hperm.1 (List.mem_map.mpr ⟨call, hmem, heq⟩)
    | renewed hanswers hrejects =>
      exact absurd hrejects (accepts_not_rejects (hcareful p data _ _ hk hanswers).1)
    | unrenewed hanswers hrejects =>
      exact absurd hrejects (accepts_not_rejects (hcareful p data _ _ hk hanswers).1)
    | @timedOut msg index r _ hmsg hdata _ =>
      refine ⟨contents, h.quiet h.recorded (fun _ hlive => hlive) (fun i r' hr' => ?_)
        (List.eraseIdx_sublist ..) rfl, fun e he => .inl he⟩
      have hslot := (MsgBacklog.getRequestData_eq_some.mp hdata).2.1
      obtain ⟨r₀, hr₀, hshrinks⟩ := slotShrinks_set hslot (.setFlags r _) i r' hr'
      exact hshrinks.request.imp id fun heq => ⟨r₀, hr₀, heq.symm⟩
    | unnamed _ hmsg _ hinvalid =>
      exact absurd hinvalid (hs.valid p _ (inUse_waiting hcall) hmsg)

/-- A message that is not in use has no entry. -/
theorem unlisted (h : s.Owned contents) (hp : ¬ s.InUse p) : ∀ e ∈ contents, e.m_msg ≠ p := by
  rintro e he rfl
  exact hp (.inl (h.recorded.refersTo he))

/-- **A message is allocated.** -/
theorem allocate (h : s.Owned contents) {msg : Msg} (hp : ¬ s.InUse p) :
    (s.allocate p msg).Owned contents := by
  unfold SenderState.allocate
  split
  · exact h
  · refine h.quiet ?_ (fun q hlive => ?_) (fun i r hr => .inr ⟨r, hr, rfl⟩) (.refl _) rfl
    · exact h.recorded.congr fun e he => Function.update_of_ne (h.unlisted hp e he) ..
    · show (Function.update s.sender.messages p (some msg) q).isSome
      by_cases hq : q = p
      · rw [hq, Function.update_self]
        rfl
      · rw [Function.update_of_ne hq]
        exact hlive

/-- **A message gets a slot.** -/
theorem sent (h : s.Owned contents) (hp : ¬ s.InUse p) {index : Nat}
    {r : MsgRequest} {flags : UInt32} {now : UInt64}
    (hsends : s.Sends p msg index r flags now t) (hfreed : t.sender.freed = s.sender.freed) :
    t.Owned contents := by
  have hself : (t.sender.messages p).isSome := by
    rw [hsends.message_self]
    rfl
  have hlive : ∀ q, (s.sender.messages q).isSome → (t.sender.messages q).isSome := by
    intro q hq
    by_cases hqp : q = p
    · exact hqp ▸ hself
    · rw [hsends.message_ne hqp]
      exact hq
  -- the request was not in use, so no call waits for it
  have hnew : p ∉ s.waiting.map Prod.fst := by
    intro hmem
    obtain ⟨⟨q, data⟩, hcall, rfl⟩ := List.mem_map.mp hmem
    exact hp (inUse_waiting hcall)
  refine ⟨?_, ?_, ?_, ?_, hfreed ▸ h.freed⟩
  · rw [hsends.backlog]
    exact h.recorded.congr fun e he => hsends.message_ne (h.unlisted hp e he)
  · intro i r₁ q hr₁ hq
    by_cases hi : index = i
    · subst hi
      rw [hsends.slot_self] at hr₁
      obtain rfl := Option.some.inj hr₁
      obtain rfl := Option.some.inj hq
      exact hself
    · rw [hsends.slot_ne hi] at hr₁
      exact hlive q (h.slots i r₁ q hr₁ hq)
  · intro call hcall
    rcases hsends.waiting with hsame | hmore
    · exact hlive _ (h.waiting call (hsame ▸ hcall))
    · rw [hmore] at hcall
      rcases List.mem_append.mp hcall with hold | hlast
      · exact hlive _ (h.waiting call hold)
      · rw [List.mem_singleton.mp hlast]
        exact hself
  · rcases hsends.waiting with hsame | hmore
    · exact hsame ▸ h.calls
    · rw [hmore, List.map_append, List.map_singleton, ← List.concat_eq_append, List.nodup_concat]
      exact ⟨hnew, h.calls⟩

/-- A message stays allocated when it is not sent. -/
theorem wasted (h : s.Owned contents) (hp : ¬ s.InUse p) {env : SendEnv} {flags : UInt32}
    {rc : ErrorCode} {data : Option MsgRequestData} {c : MsgClient} {handed : List MsgPtr}
    {clock : UInt64} (hflags : flags &&& COMMUTIL_REQUEST_FLAG_REUSE = 0)
    (hsend : s.sender.m_msgClient.sendMsg p flags env = .ok (rc, data, c))
    (hwastes : s.Wastes p ⟨{ s.sender with m_msgClient := c }, s.waiting, handed, clock⟩) :
    (⟨{ s.sender with m_msgClient := c }, s.waiting, handed, clock⟩ : SenderState κ).Owned
      contents := by
  refine h.quiet ?_ (fun q hlive => ?_) (fun i r hr => ?_) (.refl _) rfl
  · exact h.recorded.congr fun e he => hwastes.messages _ (h.unlisted hp e he)
  · by_cases hq : q = p
    · subst hq
      rcases MsgClient.sendMsg_new_cases hflags hsend with
        ⟨-, -, rfl⟩ | ⟨msg, index, r, -, -, -, -, ⟨-, bytes, rfl⟩ | ⟨-, -, rfl⟩⟩
      · exact hlive
      · exact Option.isSome_iff_exists.mpr ⟨_, Function.update_self ..⟩
      · exact Option.isSome_iff_exists.mpr ⟨_, Function.update_self ..⟩
    · rw [hwastes.messages q hq]
      exact hlive
  · rcases hwastes.slots with hsame | ⟨index, r₀, r', hslot, -, -, hnone, -, hset⟩
    · exact .inr ⟨r, hsame ▸ hr, rfl⟩
    · rw [hset] at hr
      by_cases hi : index = i
      · subst hi
        rw [List.getElem?_set_self (List.getElem?_eq_some_iff.mp hslot).1] at hr
        obtain rfl := Option.some.inj hr
        exact .inl hnone
      · rw [List.getElem?_set_ne hi] at hr
        exact .inr ⟨r, hr, rfl⟩

/-- **A send.** -/
theorem send (h : s.Owned contents) {env : SendEnv} (hp : ¬ s.InUse p)
    (hclock : s.clock ≤ env.now) (hstep : s.send p env = .ok t) : t.Owned contents := by
  rcases send_cases hstep with ⟨rfl, -⟩ | ⟨rc, data, c, hsend, rfl⟩
  · exact h.quiet h.recorded (fun _ hlive => hlive) (fun i r hr => .inr ⟨r, hr, rfl⟩) (.refl _) rfl
  · rcases sendMsg_state (by decide) hclock hsend with
      ⟨-, -, hwastes⟩ | ⟨msg, index, r, -, -, hsends⟩
    · exact h.wasted hp (by decide) hsend (hwastes _)
    · exact h.sent hp (hsends s.waiting (p :: s.handed) (.inl rfl)) rfl

/-- **The first half of a transaction.** -/
theorem transact (h : s.Owned contents) (hs : s.Sound) {env : SendEnv} (hp : ¬ s.InUse p)
    (hclock : s.clock ≤ env.now) (hstep : s.transact p env = .ok t) : t.Owned contents := by
  rcases transact_cases hstep with ⟨rfl, -⟩ | ⟨data, c, hsend, rfl⟩ |
    ⟨rc, data, c, rc', sender, hsend, hrc, hend, rfl⟩
  -- the sender is stopped
  · exact h.quiet h.recorded (fun _ hlive => hlive) (fun i r hr => .inr ⟨r, hr, rfl⟩) (.refl _) rfl
  · rcases sendMsg_state (by decide) hclock hsend with ⟨hne, -⟩ | ⟨msg, index, r, -, hdata, hsends⟩
    · exact absurd rfl hne
    · obtain rfl := Option.some.inj hdata
      exact h.sent hp (hsends _ (p :: s.handed) (.inr rfl)) rfl
  · rcases sendMsg_state (by decide) hclock hsend with ⟨-, -, hwastes⟩ | ⟨msg, index, r, hok, -⟩
    · have hu := h.wasted hp (by decide) hsend (hwastes (p :: s.handed))
      obtain ⟨msg, -, ⟨-, rfl⟩ | ⟨-, -, rfl⟩⟩ := MsgSender.endTransaction_cases hend
      -- the request is freed, unless its header is valid
      · refine hu.free (h.unlisted hp) ?_ ?_ rfl rfl
        · -- the slot that was taken in vain does not hold the message
          intro r hr hq
          obtain ⟨i, hi⟩ := List.getElem?_of_mem hr
          rcases (hwastes (p :: s.handed)).slots with
            hsame | ⟨index, r₀, r', hslot, -, -, hnone, -, hset⟩
          · exact hp (hs.inUse_slot (hsame ▸ hi) hq)
          · rw [hset] at hi
            by_cases hne : index = i
            · subst hne
              rw [List.getElem?_set_self (List.getElem?_eq_some_iff.mp hslot).1] at hi
              obtain rfl := Option.some.inj hi
              rw [hnone] at hq
              cases hq
            · rw [List.getElem?_set_ne hne] at hi
              exact hp (hs.inUse_slot hi hq)
        · rintro ⟨q, data'⟩ hcall rfl
          exact hp (inUse_waiting hcall)
      · exact hu
    · exact absurd hok hrc

/-- **A write reaches the I/O loop**: the request may get entries. -/
theorem loopSend (h : s.Owned contents) {k : Nat} (hstep : s.loopSend k = .ok t) :
    ∃ contents', t.Owned contents' ∧ ∀ e ∈ contents, e ∈ contents' := by
  have hquiet : ∀ (u : SenderState κ) (contents' : List BacklogEntry), u.slots = s.slots →
      u.sender.messages = s.sender.messages → u.waiting = s.waiting →
      u.sender.freed = s.sender.freed →
      Recorded u.sender.m_backlog s.sender.messages contents' → u.Owned contents' := by
    intro u contents' hslots hmessages hwaiting hfreed hrecorded
    refine h.quiet (hmessages ▸ hrecorded) (fun q hlive => hmessages ▸ hlive)
      (fun i r hr => .inr ⟨r, hslots ▸ hr, rfl⟩) (hwaiting ▸ .refl _) hfreed
  rcases loopSend_cases hstep with rfl | rfl | ⟨write, p, rc, b, -, -, hadd, rfl⟩
  · exact ⟨contents, h, fun _ he => he⟩
  · exact ⟨contents, hquiet _ _ rfl rfl rfl rfl h.recorded, fun _ he => he⟩
  · rcases MsgBacklog.addPendingRequest_cases hadd with
      ⟨-, msg, r, hmsg, -, hnew, hadded⟩ | ⟨-, rfl⟩
    · exact ⟨_, hquiet _ _ rfl rfl rfl rfl (h.recorded.added hmsg hnew hadded),
        fun _ he => List.mem_cons_of_mem _ he⟩
    · exact ⟨contents, hquiet _ _ rfl rfl rfl rfl h.recorded, fun _ he => he⟩

/-- **A message arrives.** -/
theorem recv (h : s.Owned contents) (response : Msg) :
    ({ s with sender := { s.sender with
      m_msgClient := (s.sender.m_msgClient.onMsg response).2.2 } } : SenderState κ).Owned
        contents := by
  unfold MsgClient.onMsg MsgRequestPool.setResponse MsgRequestPool.findByHeader
  cases hfind : s.sender.m_msgClient.m_requestPool.findSlot response.m_header.m_requestIndex.toNat
      response.m_header.m_requestId with
  | error rc =>
    exact h.quiet h.recorded (fun _ hlive => hlive) (fun i r hr => .inr ⟨r, hr, rfl⟩) (.refl _) rfl
  | ok found =>
    obtain ⟨index, r⟩ := found
    obtain ⟨rfl, hslot, -⟩ := MsgRequestPool.findSlot_eq_ok.mp hfind
    refine h.quiet h.recorded (fun _ hlive => hlive) (fun i r' hr' => ?_) (.refl _) rfl
    obtain ⟨r₀, hr₀, hshrinks⟩ := slotShrinks_set hslot (.setResponse r response) i r' hr'
    exact hshrinks.request.imp id fun heq => ⟨r₀, hr₀, heq.symm⟩

/-- **A disconnect.** -/
theorem disconnect (h : s.Owned contents) :
    ({ s with sender := { s.sender with
      m_msgClient := s.sender.m_msgClient.onDisconnect } } : SenderState κ).Owned contents := by
  refine h.quiet h.recorded (fun _ hlive => hlive) (fun i r hr => ?_) (.refl _) rfl
  have hmap : (s.slots.map MsgRequest.abortResponse)[i]? = some r := hr
  rw [List.getElem?_map] at hmap
  obtain ⟨r', hr', rfl⟩ := Option.map_eq_some_iff.mp hmap
  exact (SlotShrinks.abortResponse r').request.imp id fun heq => ⟨r', hr', heq.symm⟩

/-- **A round of pruning** takes the first request out of the backlog, and does not free it. -/
theorem prune (h : s.Owned contents) (hstep : s.prune = .ok t) :
    ∃ contents', t.Owned contents' ∧ ∀ e ∈ contents, e ∈ contents' ∨ s.Loses e.m_msg .prune := by
  rcases prune_cases hstep with rfl | ⟨entry, rest, rc, pool, b, hlimit, hset, hround, rfl⟩
  · exact ⟨contents, h, fun e he => .inl he⟩
  · obtain ⟨msg, size, rc', -, hpool, hremove⟩ := MsgBacklog.pruneRound_cases hround
    have hquiet : ∀ contents', Recorded b s.sender.messages contents' →
        ({ s with sender := { s.sender.withPool pool with m_backlog := b } } :
          SenderState κ).Owned contents' := by
      intro contents' hrecorded
      refine h.quiet hrecorded (fun _ hlive => hlive) (fun i r' hr' => ?_) (.refl _) rfl
      rcases hpool with rfl | ⟨r, hslot, -, rfl⟩
      · exact .inr ⟨r', hr', rfl⟩
      · obtain ⟨r₀, hr₀, hshrinks⟩ := slotShrinks_set hslot (.clearResponse r) i r' hr'
        exact hshrinks.request.imp id fun heq => ⟨r₀, hr₀, heq.symm⟩
    have hsized : Recorded { s.sender.m_backlog with m_backlogSizeBytes := size }
        s.sender.messages contents := h.recorded.indices rfl (.refl _) rfl
    rcases hsized.shrunk hremove with ⟨-, hrecorded⟩ | ⟨-, rfl⟩
    · refine ⟨_, hquiet _ hrecorded, fun e he => ?_⟩
      by_cases hp : e.m_msg = entry.m_msg
      · exact .inr (.pruned hset hp.symm hlimit)
      · exact .inl (List.mem_filter.mpr ⟨he, decide_eq_true hp⟩)
    · exact ⟨contents, hquiet _ hsized, fun e he => .inl he⟩

/-- **A round of resending.** -/
theorem resend (h : s.Owned contents) (hs : s.Sound) {barrier : UInt64} {env : ResendEnv}
    (hstep : s.resend barrier env = .ok t) : t.Owned contents := by
  rcases resend_cases hstep with
    ⟨rfl, -⟩ | ⟨entry, rest, rc, sender, sender', hset, -, hresend, hupdate, rfl⟩
  · exact h
  · have hused : s.InUse entry.m_msg := inUse_set (hset ▸ List.mem_cons_self)
    obtain ⟨msg, -, hcase⟩ := MsgSender.resendRequest_cases
      (fun msg hmsg => hs.valid _ msg hused hmsg) hresend
    -- what `resendRequest` leaves
    have hafter : sender.messages = s.sender.messages ∧
        sender.m_backlog = s.sender.m_backlog ∧ sender.freed = s.sender.freed ∧
        ∀ (i : Nat) (r : MsgRequest), sender.pool.m_requests[i]? = some r → r.m_request = none ∨
          ∃ r' : MsgRequest, s.slots[i]? = some r' ∧ r'.m_request = r.m_request := by
      rcases hcase with ⟨rfl, -⟩ | ⟨index, r, hresent⟩
      · exact ⟨rfl, rfl, rfl, fun i r hr => .inr ⟨r, hr, rfl⟩⟩
      · refine ⟨hresent.messages, hresent.backlog, hresent.freed, fun i r' hr' => ?_⟩
        have hslot := (MsgBacklog.getRequestData_eq_some.mp hresent.data).2.1
        rw [hresent.pool] at hr'
        obtain ⟨r₀, hr₀, hshrinks⟩ := slotShrinks_set hslot (.resentSlot r _ _) i r' hr'
        exact hshrinks.request.imp id fun heq => ⟨r₀, hr₀, heq.symm⟩
    obtain ⟨hmessages, hbacklog, hfreed, hslots⟩ := hafter
    rcases hupdate with ⟨-, rfl⟩ | ⟨b, hb, rfl⟩
    · refine h.quiet ?_ (fun q hlive => ?_) hslots (.refl _) hfreed
      · exact hbacklog ▸ hmessages ▸ h.recorded
      · exact hmessages ▸ hlive
    · rw [hbacklog, hmessages] at hb
      refine h.quiet ?_ (fun q hlive => ?_) hslots (.refl _) hfreed
      · have hrecorded := h.recorded.updateReady hset hb
        exact hmessages ▸ hrecorded
      · exact hmessages ▸ hlive

/-- **One event** keeps the references to allocated messages; an entry only goes when its message
    is freed or pruned. -/
theorem step (h : s.Owned contents) (hs : s.Sound) {e : SenderEvent} (hproper : s.Proper e)
    (hcareful : s.Careful e) (hstep : s.step e = .ok t) :
    ∃ contents', t.Owned contents' ∧ ∀ entry ∈ contents, entry ∈ contents' ∨
      t.sender.messages entry.m_msg = none ∨ e = .prune ∧ s.Loses entry.m_msg .prune := by
  have hsame : t.Owned contents → ∃ contents', t.Owned contents' ∧ ∀ entry ∈ contents,
      entry ∈ contents' ∨ t.sender.messages entry.m_msg = none ∨
        e = .prune ∧ s.Loses entry.m_msg .prune :=
    fun ht => ⟨contents, ht, fun _ he => .inl he⟩
  cases e with
  | allocate p msg =>
    obtain rfl := Except.ok.inj hstep
    exact hsame (h.allocate hproper)
  | send p env => exact hsame (h.send hproper.1 hproper.2.2 hstep)
  | transact p env => exact hsame (h.transact hs hproper.1 hproper.2.2 hstep)
  | finish k now =>
    obtain ⟨contents', ht, hleft⟩ := h.finish hs hcareful hstep
    exact ⟨contents', ht, fun entry he => (hleft entry he).imp id .inl⟩
  | loopSend k =>
    obtain ⟨contents', ht, hleft⟩ := h.loopSend hstep
    exact ⟨contents', ht, fun entry he => .inl (hleft entry he)⟩
  | recv response =>
    obtain rfl := Except.ok.inj hstep
    exact hsame (h.recv response)
  | visit index now =>
    obtain ⟨contents', ht, hleft⟩ := h.visit hs hcareful hstep
    exact ⟨contents', ht, fun entry he => (hleft entry he).imp id .inl⟩
  | prune =>
    obtain ⟨contents', ht, hleft⟩ := h.prune hstep
    exact ⟨contents', ht, fun entry he => (hleft entry he).imp id fun hl => .inr ⟨rfl, hl⟩⟩
  | resend barrier env => exact hsame (h.resend hs hstep)
  | disconnect =>
    obtain rfl := Except.ok.inj hstep
    exact hsame h.disconnect
  | connect =>
    obtain rfl := Except.ok.inj hstep
    exact hsame h

end Owned

theorem owned_start (poolSize : UInt32) (nextRequestId : UInt64) (byteOrder : ByteOrder)
    (config : MsgConfig) (reader : ResponseReader κ) :
    (start poolSize nextRequestId byteOrder config reader).Owned [] := by
  refine ⟨⟨nofun, .nil, .nil, .nil, .nil⟩, ?_, nofun, .nil, nofun⟩
  intro i r p hr hp
  obtain rfl : r = .new := List.eq_of_mem_replicate (List.mem_of_getElem? hr)
  cases hp

/-! ## §3 Messages that were handed over -/

/-- A message that was handed to a send or a transaction is freed, or the pool or the backlog has
    it. -/
def HandedKept (s : SenderState κ) : Prop :=
  ∀ p ∈ s.handed, s.sender.messages p = none ∨ s.sender.refersTo p = true

/-- No send fails, a transaction that is not sent is one without an id for which there is no slot,
    and nothing is pruned. -/
def Keeps (s : SenderState κ) : SenderEvent → Prop
  | .send p env => ¬ s.Refuses p env
  | .transact p env => s.Refuses p env → s.sender.m_stopResend = false ∧
    (∀ r ∈ s.slots, r.m_requestStatus ≠ .idle) ∧ ∃ msg, s.sender.messages p = some msg ∧
      msg.m_header.m_requestId = COMMUTIL_MSG_INVALID_REQUEST_ID
  | .prune => ∀ p, ¬ s.Loses p .prune
  | _ => True

theorem update_none_of_none {messages : MsgPtr → Option Msg} {p q : MsgPtr}
    (h : messages q = none) : Function.update messages p none q = none := by
  by_cases hq : q = p
  · rw [hq, Function.update_self]
  · rw [Function.update_of_ne hq, h]

/-- A send allocates nothing. -/
theorem sendMsg_gone {c c' : MsgClient} {p q : MsgPtr} {env : SendEnv} {flags : UInt32}
    {rc : ErrorCode} {data : Option MsgRequestData}
    (hflags : flags &&& COMMUTIL_REQUEST_FLAG_REUSE = 0)
    (hsend : c.sendMsg p flags env = .ok (rc, data, c')) (h : c.messages q = none) :
    c'.messages q = none := by
  rcases MsgClient.sendMsg_new_cases hflags hsend with
    ⟨-, -, rfl⟩ | ⟨msg, index, r, hmsg, -, -, -, hcase⟩
  · exact h
  · have hne : q ≠ p := by
      rintro rfl
      rw [hmsg] at h
      cases h
    rcases hcase with ⟨-, bytes, rfl⟩ | ⟨-, -, rfl⟩
    · exact (Function.update_of_ne hne ..).trans h
    · exact (Function.update_of_ne hne ..).trans h

/-- **Only an allocation** brings a message back. -/
theorem gone_step {e : SenderEvent} {q : MsgPtr} (hs : s.Sound) (hstep : s.step e = .ok t)
    (hnot : ∀ msg, e ≠ .allocate q msg) (h : s.sender.messages q = none) :
    t.sender.messages q = none := by
  cases e with
  -- only an allocation under the same address would bring it back
  | allocate p msg =>
    obtain rfl := Except.ok.inj hstep
    have hne : q ≠ p := fun heq => hnot msg (heq ▸ rfl)
    unfold allocate
    split
    · exact h
    · exact (Function.update_of_ne hne ..).trans h
  -- a send stamps the header of its own message only
  | send p env =>
    rcases send_cases hstep with ⟨rfl, -⟩ | ⟨rc, data, c, hsend, rfl⟩
    · exact h
    · exact sendMsg_gone (by decide) hsend h
  -- a transaction that fails may free its request
  | transact p env =>
    rcases transact_cases hstep with ⟨rfl, -⟩ | ⟨data, c, hsend, rfl⟩ |
      ⟨rc, data, c, rc', sender, hsend, -, hend, rfl⟩
    · exact h
    · exact sendMsg_gone (by decide) hsend h
    · have hgone := sendMsg_gone (by decide) hsend h
      obtain ⟨msg, -, ⟨-, rfl⟩ | ⟨-, -, rfl⟩⟩ := MsgSender.endTransaction_cases hend
      · exact update_none_of_none hgone
      · exact hgone
  | finish k now =>
    rcases finish_cases hstep with ⟨rfl, -⟩ | ⟨p, data, sender, hk, hended, rfl⟩
    · exact h
    · cases hended with
      | accepted => exact update_none_of_none h
      | renewed =>
        -- the header is written before the message is freed
        show Function.update (Function.update s.sender.messages p _) p none q = none
        rw [Function.update_idem]
        exact update_none_of_none h
      | unrenewed =>
        show Function.update (Function.update s.sender.messages p _) p none q = none
        rw [Function.update_idem]
        exact update_none_of_none h
      | timedOut => exact h
      | unnamed => exact update_none_of_none h
  | loopSend k =>
    rcases loopSend_cases hstep with rfl | rfl | ⟨write, p, rc, b, -, -, -, rfl⟩
    · exact h
    · exact h
    · exact h
  | recv response =>
    obtain rfl := Except.ok.inj hstep
    unfold MsgClient.onMsg MsgRequestPool.setResponse
    dsimp only
    split <;> exact h
  -- a visit may free the message of the slot, which is no matter
  | visit index now =>
    obtain ⟨sender, hcall, rfl⟩ := visit_cases hstep
    rcases MsgSender.processPendingResponse_cases hcall with
      ⟨rfl, -⟩ | ⟨r, b, calls, -, -, -, -, -, rfl⟩
    · exact h
    · cases r.m_request with
      | none => exact h
      | some p => exact update_none_of_none h
  | prune =>
    rcases prune_cases hstep with rfl | ⟨entry, rest, rc, pool, b, -, -, -, rfl⟩
    · exact h
    · exact h
  -- a resend touches messages that are alive
  | resend barrier env =>
    rcases resend_cases hstep with
      ⟨rfl, -⟩ | ⟨entry, rest, rc, sender, sender', hset, -, hresend, hupdate, rfl⟩
    · exact h
    · have hused : s.InUse entry.m_msg := inUse_set (hset ▸ List.mem_cons_self)
      obtain ⟨msg, -, hcase⟩ := MsgSender.resendRequest_cases
        (fun msg hmsg => hs.valid _ msg hused hmsg) hresend
      have hmessages : sender.messages = s.sender.messages := by
        rcases hcase with ⟨rfl, -⟩ | ⟨index, r, hresent⟩
        · rfl
        · exact hresent.messages
      have hgone : sender.messages q = none := by
        rw [hmessages]
        exact h
      rcases hupdate with ⟨-, rfl⟩ | ⟨b, -, rfl⟩
      · exact hgone
      · exact hgone
  | disconnect =>
    obtain rfl := Except.ok.inj hstep
    exact h
  | connect =>
    obtain rfl := Except.ok.inj hstep
    exact h

/-- The slot that holds a message refers to it. -/
theorem InSlot.refersTo (h : s.InSlot p msg) (hs : s.Sound) : s.sender.refersTo p = true := by
  obtain ⟨r, hr, hp⟩ := h.slot
  refine refersTo_iff.mpr (.inr (.inr (.inr ⟨r, List.mem_of_getElem? hr, ?_, hp⟩)))
  cases hvacant : r.isVacant with
  | false => rfl
  | true =>
    rw [hs.vacant _ r hr hvacant] at hp
    cases hp

/-- **What is referred to stays referred to**, until it is freed or pruned. -/
theorem refersTo_step {contents contents' : List BacklogEntry} {e : SenderEvent}
    (h : s.Owned contents) (h' : t.Owned contents')
    (hleft : ∀ entry ∈ contents, entry ∈ contents' ∨ t.sender.messages entry.m_msg = none ∨
      e = .prune ∧ s.Loses entry.m_msg .prune)
    (hs : s.Sound) (hproper : s.Proper e) (hkeeps : s.Keeps e) (hstep : s.step e = .ok t)
    (hmsg : s.sender.messages p = some msg) (hlive : t.sender.messages p ≠ none)
    (hrefers : s.sender.refersTo p = true) : t.sender.refersTo p = true := by
  have hlisted : ∀ entry ∈ contents, entry.m_msg = p → t.sender.refersTo p = true := by
    rintro entry hentry rfl
    rcases hleft entry hentry with hin | hgone | ⟨rfl, hloses⟩
    · exact h'.recorded.refersTo hin
    · exact absurd hgone hlive
    · exact absurd hloses (hkeeps entry.m_msg)
  -- a reference from the backlog stays with its entry, one from a slot with the slot
  rcases refersTo_iff.mp hrefers with
    ⟨item, hitem, heq⟩ | ⟨entry, hentry, heq⟩ | ⟨entry, hentry, heq⟩ | ⟨r, hr, -, hp⟩
  · obtain ⟨entry, hentry, rfl⟩ := List.mem_map.mp (h.recorded.map.subset hitem)
    exact hlisted entry hentry heq
  · exact hlisted entry (h.recorded.set.subset hentry) heq
  · exact hlisted entry (h.recorded.heap.subset hentry) heq
  · obtain ⟨i, hi⟩ := List.getElem?_of_mem hr
    obtain ⟨rfl, -⟩ := hs.held i r p msg hi hp hmsg
    have hin : s.InSlot p msg := ⟨hmsg, r, hi, hp⟩
    rcases inSlot_step hs hproper hin hstep with hin' | ⟨-, hgone | ⟨entry, hentry, heq⟩⟩
    · exact hin'.refersTo (hs.step hproper hstep)
    · exact absurd hgone hlive
    · exact hlisted entry (h.recorded.set.subset hentry) heq

/-- A message that got a slot is referred to. -/
theorem Sends.refersTo {index : Nat} {r : MsgRequest} {flags : UInt32} {now : UInt64}
    (hsends : s.Sends p msg index r flags now t) : t.sender.refersTo p = true := by
  refine refersTo_iff.mpr (.inr (.inr (.inr ⟨_, List.mem_of_getElem? hsends.slot_self, ?_, rfl⟩)))
  rfl

/-- Only the two calls hand a message over, and only an allocation takes one back. -/
theorem handed_step {e : SenderEvent} (hstep : s.step e = .ok t)
    (hallocate : ∀ q msg, e ≠ .allocate q msg) (hsend : ∀ q env, e ≠ .send q env)
    (htransact : ∀ q env, e ≠ .transact q env) : t.handed = s.handed := by
  cases e with
  | allocate q msg => exact absurd rfl (hallocate q msg)
  | send q env => exact absurd rfl (hsend q env)
  | transact q env => exact absurd rfl (htransact q env)
  | finish k now =>
    rcases finish_cases hstep with ⟨rfl, -⟩ | ⟨_, _, _, -, -, rfl⟩
    · rfl
    · rfl
  | loopSend k =>
    rcases loopSend_cases hstep with rfl | rfl | ⟨_, _, _, _, -, -, -, rfl⟩
    · rfl
    · rfl
    · rfl
  | recv response =>
    obtain rfl := Except.ok.inj hstep
    rfl
  | visit index now =>
    obtain ⟨sender, -, rfl⟩ := visit_cases hstep
    rfl
  | prune =>
    rcases prune_cases hstep with rfl | ⟨_, _, _, _, _, -, -, -, rfl⟩
    · rfl
    · rfl
  | resend barrier env =>
    rcases resend_cases hstep with ⟨rfl, -⟩ | ⟨_, _, _, _, _, -, -, -, -, rfl⟩
    · rfl
    · rfl
  | disconnect =>
    obtain rfl := Except.ok.inj hstep
    rfl
  | connect =>
    obtain rfl := Except.ok.inj hstep
    rfl

/-- A message that is allocated again is no longer the one that was handed over. -/
theorem handed_allocate (q : MsgPtr) (msg : Msg) :
    s.allocate q msg = s ∨ (s.allocate q msg).handed = s.handed.filter (· ≠ q) := by
  unfold allocate
  split
  · exact .inl rfl
  · exact .inr rfl

/-- The request of a transaction is in its slot, or the transaction has freed it. -/
theorem transact_keeps {p : MsgPtr} {env : SendEnv} (hproper : s.Proper (.transact p env))
    (hkeeps : s.Keeps (.transact p env)) (hstep : s.step (.transact p env) = .ok t) :
    t.sender.messages p = none ∨ t.sender.refersTo p = true := by
  rcases transact_state hproper.2.2 hstep with ⟨hrefuses, -⟩ | ⟨msg, index, r, hsends, -⟩
  · obtain ⟨hrun, hbusy, msg, hmsg, hinvalid⟩ := hkeeps hrefuses
    rcases transact_cases hstep with ⟨-, hstop⟩ | ⟨data, c, hsend, -⟩ |
      ⟨rc, data, c, rc', sender, hsend, hrc, hend, rfl⟩
    · rw [hrun] at hstop
      cases hstop
    · -- the message was sent, but no slot is idle
      rcases MsgClient.sendMsg_new_cases (by decide) hsend with
        ⟨hrc, -⟩ | ⟨_, index, r, -, hslot, hidle, -⟩
      · cases hrc
      · exact absurd hidle (hbusy r (List.mem_of_getElem? hslot))
    · -- there is no slot, and the message is freed
      rcases MsgClient.sendMsg_new_cases (by decide) hsend with
        ⟨-, -, rfl⟩ | ⟨_, index, r, -, hslot, hidle, -⟩
      · obtain ⟨msg', hmsg', ⟨-, rfl⟩ | ⟨-, hvalid, -⟩⟩ := MsgSender.endTransaction_cases hend
        · exact .inl (Function.update_self ..)
        · obtain rfl := Option.some.inj (hmsg.symm.trans hmsg')
          exact absurd hinvalid hvalid
      · exact absurd hidle (hbusy r (List.mem_of_getElem? hslot))
  · exact .inr hsends.refersTo

/-- **One event** keeps what was handed over. -/
theorem handedKept_step {contents contents' : List BacklogEntry} {e : SenderEvent}
    (h : s.Owned contents) (h' : t.Owned contents')
    (hleft : ∀ entry ∈ contents, entry ∈ contents' ∨ t.sender.messages entry.m_msg = none ∨
      e = .prune ∧ s.Loses entry.m_msg .prune)
    (hs : s.Sound) (hproper : s.Proper e) (hkeeps : s.Keeps e) (hstep : s.step e = .ok t)
    (hkept : s.HandedKept) : t.HandedKept := by
  -- what was handed over before is freed or still referred to
  have hold : ∀ q ∈ s.handed, (∀ msg, e ≠ .allocate q msg) →
      t.sender.messages q = none ∨ t.sender.refersTo q = true := by
    intro q hq hnot
    by_cases hlive : t.sender.messages q = none
    · exact .inl hlive
    · right
      cases hmsg : s.sender.messages q with
      | none => exact absurd (gone_step hs hstep hnot hmsg) hlive
      | some msg =>
        have hrefers := (hkept q hq).resolve_left (hmsg ▸ Option.some_ne_none msg)
        exact refersTo_step h h' hleft hs hproper hkeeps hstep hmsg hlive hrefers
  cases e with
  | allocate p msg =>
    obtain rfl := Except.ok.inj hstep
    intro q hq
    rcases handed_allocate p msg with hsame | hhanded
    · rw [hsame] at hq ⊢
      exact hkept q hq
    · rw [hhanded] at hq
      obtain ⟨hin, hne⟩ := List.mem_filter.mp hq
      refine hold q hin ?_
      rintro msg' ⟨⟩
      exact of_decide_eq_true hne rfl
  | send p env =>
    rcases send_state hproper.2.2 hstep with ⟨hrefuses, -⟩ | ⟨msg, index, r, hsends⟩
    · exact absurd hrefuses hkeeps
    · have hhanded : t.handed = p :: s.handed := by
        rcases send_cases hstep with ⟨rfl, -⟩ | ⟨_, _, _, -, rfl⟩
        · rfl
        · rfl
      intro q hq
      rw [hhanded] at hq
      rcases List.mem_cons.mp hq with rfl | hq
      · exact .inr hsends.refersTo
      · exact hold q hq nofun
  | transact p env =>
    have hhanded : t.handed = p :: s.handed := by
      rcases transact_cases hstep with ⟨rfl, -⟩ | ⟨_, _, -, rfl⟩ | ⟨_, _, _, _, _, -, -, -, rfl⟩
      · rfl
      · rfl
      · rfl
    intro q hq
    rw [hhanded] at hq
    rcases List.mem_cons.mp hq with rfl | hq
    · exact transact_keeps hproper hkeeps hstep
    · exact hold q hq nofun
  -- no other event hands anything over
  | finish | loopSend | recv | visit | prune | resend | disconnect | connect =>
    have hhanded := handed_step hstep nofun nofun nofun
    exact fun q hq => hold q (hhanded ▸ hq) nofun

/-! ## §4 Runs -/

/-- **Freed requests.**  In every run whose steps are careful, no message is referred to when it is
    freed, none is freed twice, and what waits is allocated.  If the steps keep their messages too,
    every message that was handed over is freed, or the pool or the backlog has it. -/
theorem freed_requests_unreferenced {poolSize : UInt32} {nextRequestId : UInt64}
    {byteOrder : ByteOrder} {config : MsgConfig} {reader : ResponseReader κ}
    {es : List SenderEvent}
    (hrun : RunsWith (fun s e t => s.step e = .ok t) (fun s e => s.Proper e ∧ s.Careful e)
      (start poolSize nextRequestId byteOrder config reader) es s) :
    (∀ f ∈ s.sender.freed, f.referenced = false) ∧ (∀ e, s.step e ≠ .error .doubleFree) ∧
    (∀ call ∈ s.waiting, (s.sender.messages call.1).isSome) ∧
    (RunsWith (fun s e t => s.step e = .ok t) (fun s e => (s.Proper e ∧ s.Careful e) ∧ s.Keeps e)
      (start poolSize nextRequestId byteOrder config reader) es s → s.HandedKept) := by
  have hstart := owned_start poolSize nextRequestId byteOrder config reader
  have hsound := sound_start poolSize nextRequestId byteOrder config reader
  obtain ⟨-, contents, h⟩ := hrun.invariant (fun s => s.Sound ∧ ∃ contents, s.Owned contents)
    (fun s e t ⟨hs, _, h⟩ he hstep => ⟨hs.step he.1 hstep,
      (h.step hs he.1 he.2 hstep).imp fun _ ht => ht.1⟩) ⟨hsound, [], hstart⟩
  refine ⟨h.freed, ?_, h.waiting, ?_⟩
  · intro e he
    -- a second free would need a slot whose message is gone
    obtain ⟨i, r, p, hr, hp, hnone⟩ := step_doubleFree he
    have hlive := h.slots i r p hr hp
    rw [hnone] at hlive
    cases hlive
  · intro hkeeps
    have hinv := hkeeps.invariant
      (fun s => s.Sound ∧ (∃ contents, s.Owned contents) ∧ s.HandedKept) ?_
      ⟨hsound, ⟨[], hstart⟩, nofun⟩
    · exact hinv.2.2
    · rintro s e t ⟨hs, ⟨contents, h⟩, hkept⟩ ⟨⟨hproper, hcareful⟩, hkeep⟩ hstep
      obtain ⟨contents', h', hleft⟩ := h.step hs hproper hcareful hstep
      exact ⟨hs.step hproper hstep, ⟨contents', h'⟩,
        handedKept_step h h' hleft hs hproper hkeep hstep hkept⟩

/-- The response to the only request frees it, when nothing refers to it any more. -/
theorem freed_requests_unreferenced_one_request : ∃ t,
    RunsWith (fun s e t => s.step e = .ok t) (fun s e => s.Proper e ∧ s.Careful e) oneSlot
      [.allocate 0 oneByte, .send 0 ⟨10, true, .ok⟩, .loopSend 0,
        .recv (MsgSender.answer 5), .visit 0 20] t ∧
    (∀ f ∈ t.sender.freed, f.referenced = false) ∧ (∀ e, t.step e ≠ .error .doubleFree) ∧
    t.HandedKept := by
  obtain ⟨sent, hsend, hadds⟩ := onePending_run
  have hsent : ¬ (oneSlot.allocate 0 oneByte).Refuses 0 ⟨10, true, .ok⟩ := by
    rintro (hstop | hbusy | ⟨msg, hmsg, rc, hfails⟩)
    · cases hstop
    · exact hbusy .new List.mem_cons_self rfl
    · obtain rfl := Option.some.inj hmsg
      cases hfails
  have hresponse : ∃ s, onePending.step (.recv (MsgSender.answer 5)) = .ok s ∧
     s.GoodResponse (.visit 0 20) ∧ s.Careful (.visit 0 20) := by
    refine ⟨_, rfl, ⟨?_, fun r hr _ _ => .inr ?_⟩, ?_⟩
    · exact (by decide : (10 : UInt64) ≤ 20)
    · obtain rfl := Option.some.inj hr
      exact ⟨0, _, ⟨_, List.mem_cons_self, rfl⟩, ⟨_, rfl, rfl, rfl, rfl, rfl⟩,
        answer_accepted 5 0 rfl⟩
    · intro r p hr hp _ _
      obtain rfl := Option.some.inj hr
      obtain rfl := Option.some.inj hp
      exact ⟨nofun, fun _ => ⟨rfl, ⟨_, rfl, answer_accepted 5 0 rfl⟩, nofun⟩⟩
  obtain ⟨s, hrecv, hgood, hcareful⟩ := hresponse
  obtain ⟨-, hpending⟩ := onePending_pendingIn.recv hrecv
  obtain ⟨t, hvisit⟩ := hpending.returns hgood
  have hkeeps : RunsWith (fun s e t => s.step e = .ok t)
      (fun s e => (s.Proper e ∧ s.Careful e) ∧ s.Keeps e) oneSlot
      [.allocate 0 oneByte, .send 0 ⟨10, true, .ok⟩, .loopSend 0,
        .recv (MsgSender.answer 5), .visit 0 20] t := by
    cases hsend with
    | cons hallocate hstep hrest =>
      obtain rfl := Except.ok.inj hstep
      cases hrest with
      | cons hproper hstep hdone =>
        cases hdone
        exact .cons ⟨⟨hallocate, trivial⟩, trivial⟩ rfl (.cons ⟨⟨hproper, trivial⟩, hsent⟩ hstep
          (.cons ⟨⟨trivial, trivial⟩, trivial⟩ hadds.step
            (.cons ⟨⟨trivial, trivial⟩, trivial⟩ hrecv
              (.cons ⟨⟨hgood.1, hcareful⟩, trivial⟩ hvisit (.nil t)))))
  have hrun := hkeeps.imp fun _ _ h => h.1
  obtain ⟨hfreed, honce, -, hkept⟩ := freed_requests_unreferenced hrun
  exact ⟨t, hrun, hfreed, honce, hkept hkeeps⟩

/-- A request that is too old is freed, while the backlog still has it. -/
theorem expiry_frees_referenced_request : ∃ s t,
    RunsWith (fun s e t => s.step e = .ok t) Proper oneSlot
      [.allocate 0 oneByte, .send 0 ⟨10, true, .ok⟩] s ∧
    RunsWith (fun s e t => s.step e = .ok t) Proper s [.loopSend 0, .visit 0 70000] t ∧
    t.sender.freed = [⟨0, true⟩] := by
  obtain ⟨s, hrun, hadds⟩ := onePending_run
  refine ⟨s, _, hrun, .cons trivial hadds.step (.cons ?_ rfl (.nil _)), rfl⟩
  exact (by decide : (10 : UInt64) ≤ 70000)

end SenderState

end Commutil.Client
