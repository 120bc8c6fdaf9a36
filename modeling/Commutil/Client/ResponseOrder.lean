import Commutil.Client.BacklogIndices
import Commutil.Client.KeptRequests

/-!
# Responses in Any Order

Responses to the requests of a backlog are processed one after the other, by visits of
`processPendingResponses` and by the ends of transactions.  Each is to take its request out of the
three indices of the backlog, and nothing else.

The slot of a request is cleared before the request is looked for, so that it is looked for with
the request time 0.  The search starts at the first entry and goes on as long as it meets this
time: it finds the request exactly if all requests before it were sent at the time 0.
-/

namespace Commutil.Client

open Commutil.Framing Commutil.Io Commutil.Library

variable {κ : Type}

/-! ## §1 The search with the time 0 -/

section Search

variable {b : MsgBacklog} {pool : MsgRequestPool} {messages : MsgPtr → Option Msg}
  {contents : List BacklogEntry} {p : MsgPtr}

theorem MsgBacklog.scanByTime_isSome {t : UInt64} {l : List BacklogEntry} :
    (scanByTime pool t p l).isSome = true ↔ (∃ e ∈ l, e.m_msg = p) ∧
      ∀ e ∈ l.takeWhile fun e => e.m_msg ≠ p,
        (pool.slot e.m_request).m_requestTimeMillis = t := by
  induction l with
  | nil =>
    refine iff_of_false ?_ ?_
    · rintro ⟨⟩
    · rintro ⟨⟨e, hmem, -⟩, -⟩
      cases hmem
  | cons e es ih =>
    rw [scanByTime]
    by_cases he : e.m_msg = p
    · rw [if_pos he, List.takeWhile_cons_of_neg (by simpa using he)]
      refine iff_of_true rfl ⟨⟨e, List.mem_cons_self, he⟩, ?_⟩
      rintro e' ⟨⟩
    · rw [if_neg he, List.takeWhile_cons_of_pos (by simpa using he), List.forall_mem_cons]
      have hexists : (∃ x ∈ e :: es, x.m_msg = p) ↔ ∃ x ∈ es, x.m_msg = p := by
        rw [List.exists_mem_cons_iff]
        exact or_iff_right he
      rw [hexists]
      by_cases ht : (pool.slot e.m_request).m_requestTimeMillis = t
      · rw [if_pos ht, Option.isSome_map, ih, and_iff_right ht]
      · rw [if_neg ht]
        refine iff_of_false ?_ fun h => ht h.2.1
        rintro ⟨⟩

/-- No time is below 0. -/
theorem MsgBacklog.findRequestByTime_zero :
    b.findRequestByTime pool 0 p = scanByTime pool 0 p b.m_requestSet := by
  have hstart : lowerBound (fun entry : BacklogEntry =>
      decide ((pool.slot entry.m_request).m_requestTimeMillis < 0)) b.m_requestSet = 0 :=
    lowerBound_eq_zero fun _ _ => decide_eq_false UInt64.not_lt_zero
  unfold findRequestByTime
  rw [hstart]
  simp

/-- All requests before this one in the set have the request time 0. -/
def MsgBacklog.FirstInTime (b : MsgBacklog) (pool : MsgRequestPool) (p : MsgPtr) : Prop :=
  ∀ e ∈ b.m_requestSet.takeWhile fun e => e.m_msg ≠ p,
    (pool.slot e.m_request).m_requestTimeMillis = 0

/-- **`removePendingRequest` of a request with the time 0** succeeds exactly if the request is the
    first one, up to requests of the time 0. -/
theorem Recorded.removePendingRequest_zero (h : Recorded b messages contents)
    {entry : BacklogEntry} (hmem : entry ∈ contents)
    (htime : (pool.slot entry.m_request).m_requestTimeMillis = 0) :
    ∃ rc b', b.removePendingRequest pool messages entry.m_msg = .ok (rc, b') ∧
      (rc = .ok ↔ b.FirstInTime pool entry.m_msg) := by
  obtain ⟨msg, hmsg⟩ := Option.isSome_iff_exists.mp (h.live entry hmem)
  have hread : readHeader messages entry.m_msg = .ok msg.m_header := by
    unfold readHeader
    rw [hmsg]
  have hfind := h.find_entry hmem (requestIdOf_eq hmsg)
  obtain ⟨heapItr, hheap⟩ := h.findIdx_heap hmem rfl
  have hscan : (MsgBacklog.scanByTime pool 0 entry.m_msg b.m_requestSet).isSome = true ↔
      b.FirstInTime pool entry.m_msg := by
    rw [MsgBacklog.scanByTime_isSome]
    exact and_iff_right ⟨entry, h.set.symm.subset hmem, rfl⟩
  unfold MsgBacklog.removePendingRequest
  rw [hread]
  dsimp only
  rw [hfind]
  dsimp only
  rw [htime, MsgBacklog.findRequestByTime_zero]
  cases hres : MsgBacklog.scanByTime pool 0 entry.m_msg b.m_requestSet with
  | none =>
    rw [hres] at hscan
    exact ⟨_, _, rfl, iff_of_false nofun fun hfirst => nomatch hscan.mpr hfirst⟩
  | some setItr =>
    rw [hres] at hscan
    rw [hheap]
    exact ⟨_, _, rfl, iff_of_true rfl (hscan.mp rfl)⟩

/-- The slot that is cleared is not that of another request. -/
theorem Recorded.removePendingRequest_cleared (h : Recorded b messages contents)
    {entry : BacklogEntry} (hmem : entry ∈ contents) {r : MsgRequest}
    (hslot : pool.m_requests[entry.m_request]? = some r)
    (hslots : ∀ e ∈ contents, e.m_msg ≠ entry.m_msg → entry.m_request ≠ e.m_request) :
    ∃ rc b', b.removePendingRequest (pool.setSlot entry.m_request r.clearResponse) messages
        entry.m_msg = .ok (rc, b') ∧ (rc = .ok ↔ b.FirstInTime pool entry.m_msg) := by
  have htime : ((pool.setSlot entry.m_request r.clearResponse).slot
      entry.m_request).m_requestTimeMillis = 0 := by
    rw [slot_setSlot_self (List.getElem?_eq_some_iff.mp hslot).1]
    rfl
  obtain ⟨rc, b', hcall, hturn⟩ := h.removePendingRequest_zero hmem htime
  refine ⟨rc, b', hcall, hturn.trans (forall₂_congr fun e he => ?_)⟩
  have hne : e.m_msg ≠ entry.m_msg := by simpa using List.mem_takeWhile_imp he
  have hin : e ∈ contents := h.set.subset ((List.takeWhile_sublist _).subset he)
  rw [slot_setSlot_ne (hslots e hin hne)]

end Search

namespace SenderState

variable {s t : SenderState κ} {e : SenderEvent} {p : MsgPtr} {contents : List BacklogEntry}

/-! ## §2 Good responses -/

/-- The backlog has these requests in its three indices, in whatever order, and their slots hold
    them. -/
structure PendingIn (s : SenderState κ) (contents : List BacklogEntry) : Prop where
  sound : s.Sound
  recorded : Recorded s.sender.m_backlog s.sender.messages contents
  inSlot : ∀ entry ∈ contents, ∃ msg, s.InSlot entry.m_msg msg

/-- The backlog has the request. -/
def Listed (s : SenderState κ) (p : MsgPtr) : Prop :=
  ∃ entry ∈ s.sender.m_backlog.m_requestSet, entry.m_msg = p

/-- A good response to the request is processed. -/
inductive Processes (s : SenderState κ) : SenderEvent → MsgPtr → Prop where
  | visited {p : MsgPtr} {index : Nat} {now : UInt64} {response : Msg} :
      s.Arrived p index response → s.sender.Accepts response → Processes s (.visit index now) p
  | ended {p : MsgPtr} {k : Nat} {now : UInt64} {data : MsgRequestData} {r : MsgRequest}
      {response : Msg} :
      s.waiting[k]? = some (p, data) → s.sender.Answers data r response →
      s.sender.Accepts response → Processes s (.finish k now) p

/-- Messages arrive in any order, and those that are processed are good responses to requests of
    the backlog. -/
def GoodResponse (s : SenderState κ) : SenderEvent → Prop
  | .recv _ => True
  | .visit index now => s.clock ≤ now ∧ ∀ r : MsgRequest, s.slots[index]? = some r →
    r.isVacant = false → r.isTx = false →
      r.m_requestStatus = .pending ∧
        ¬ now - r.m_requestTimeMillis > s.sender.m_config.m_expireTimeoutMillis ∨
      ∃ p response, s.Listed p ∧ s.Arrived p index response ∧ s.sender.Accepts response
  | .finish k now => s.clock ≤ now ∧ ∀ p data, s.waiting[k]? = some (p, data) →
    s.Listed p ∧ ∃ r response, s.sender.Answers data r response ∧ s.sender.Accepts response
  | _ => False

theorem GoodResponse.proper (h : s.GoodResponse e) : s.Proper e := by
  cases e with
  | recv => trivial
  | visit => exact h.1
  | finish => exact h.1
  | allocate | send | transact | loopSend | prune | resend | disconnect | connect => exact h.elim

/-- A response is not accepted and rejected. -/
theorem accepts_not_rejects {a : MsgSender κ} {response : Msg} {verdict : ErrorCode}
    (haccepts : a.Accepts response) : ¬ a.Rejects response verdict := by
  rintro ⟨hne, s₁, hrejects⟩
  obtain ⟨s₂, hcall⟩ := haccepts
  rw [hrejects] at hcall
  cases hcall
  exact hne rfl

/-- One answer was processed: its slot was cleared, the request looked for in the backlog, and
    freed. -/
structure Answered (s : SenderState κ) (entry : BacklogEntry) (t : SenderState κ) : Prop where
  call : ∃ r rc b calls, s.slots[entry.m_request]? = some r ∧
    s.sender.m_backlog.removePendingRequest
      (s.sender.pool.setSlot entry.m_request r.clearResponse) s.sender.messages entry.m_msg =
        .ok (rc, b) ∧
    t.sender = (s.sender.settled entry.m_request r b calls).released (some entry.m_msg)

namespace PendingIn

/-- The entry of a request names the slot that holds it. -/
theorem entry_of_listed (h : s.PendingIn contents) (hlisted : s.Listed p) :
    ∃ entry ∈ contents, entry.m_msg = p ∧ ∃ msg, s.InSlot p msg ∧
      entry.m_request = msg.m_header.m_requestIndex.toNat := by
  obtain ⟨entry, hentry, rfl⟩ := hlisted
  have hmem := h.recorded.set.subset hentry
  obtain ⟨msg, hin⟩ := h.inSlot entry hmem
  exact ⟨entry, hmem, rfl, msg, hin, h.sound.places entry hentry msg hin.message⟩

/-- Different entries have different slots. -/
theorem slot_ne (h : s.PendingIn contents) {entry e : BacklogEntry} (hmem : entry ∈ contents)
    (he : e ∈ contents) (hne : e.m_msg ≠ entry.m_msg) : entry.m_request ≠ e.m_request := by
  intro heq
  obtain ⟨msg, hin⟩ := h.inSlot entry hmem
  obtain ⟨msg', hin'⟩ := h.inSlot e he
  obtain ⟨r, hr, hp⟩ := hin.slot
  obtain ⟨r', hr', hp'⟩ := hin'.slot
  -- both slots are the one that the entries name, and it holds one message
  rw [← h.sound.places entry (h.recorded.set.symm.subset hmem) msg hin.message, heq] at hr
  rw [← h.sound.places e (h.recorded.set.symm.subset he) msg' hin'.message, hr] at hr'
  obtain rfl := Option.some.inj hr'
  exact hne (Option.some.inj (hp'.symm.trans hp))

/-- The backlog and its messages are as before. -/
theorem same (h : s.PendingIn contents) (hproper : s.Proper e) (hstep : s.step e = .ok t)
    (hbacklog : t.sender.m_backlog = s.sender.m_backlog)
    (hmessages : t.sender.messages = s.sender.messages)
    (hkeeps : ∀ entry ∈ contents, ¬ s.Loses entry.m_msg e) : t.PendingIn contents where
  sound := h.sound.step hproper hstep
  recorded := by
    rw [hbacklog, hmessages]
    exact h.recorded
  inSlot entry hentry := by
    obtain ⟨msg, hin⟩ := h.inSlot entry hentry
    exact ⟨msg, (inSlot_step h.sound hproper hin hstep).resolve_right
      fun hloses => hkeeps entry hentry hloses.1⟩

/-- **A message arrives**: the slot that it is for is not cleared, and the backlog does not read
    it. -/
theorem recv (h : s.PendingIn contents) {response : Msg} (hstep : s.step (.recv response) = .ok t) :
    t.sender.m_backlog = s.sender.m_backlog ∧ t.PendingIn contents := by
  have hsame : t.sender.m_backlog = s.sender.m_backlog ∧
      t.sender.messages = s.sender.messages := by
    obtain rfl := Except.ok.inj hstep
    exact ⟨rfl, rfl⟩
  exact ⟨hsame.1, h.same (e := .recv response) trivial hstep hsame.1 hsame.2 nofun⟩

/-- **A slot is visited**: nothing happens, or its request is answered. -/
theorem visit (h : s.PendingIn contents) {index : Nat} {now : UInt64}
    (hgood : s.GoodResponse (.visit index now)) (hstep : s.step (.visit index now) = .ok t) :
    ((∀ p, ¬ s.Processes (.visit index now) p) ∧ t.sender.m_backlog = s.sender.m_backlog ∧
      t.PendingIn contents) ∨
    ∃ entry ∈ contents, s.Processes (.visit index now) entry.m_msg ∧ s.Answered entry t := by
  have hproper := hgood.proper
  obtain ⟨sender, hcall, rfl⟩ := visit_cases hstep
  rcases MsgSender.processPendingResponse_cases hcall with
    ⟨rfl, hidle⟩ | ⟨r, b, calls, hr, hbusy, htx, hsettled, -, rfl⟩
  · refine .inl ⟨?_, rfl, h.same hproper hstep rfl rfl ?_⟩
    · rintro p ⟨⟨r, hr, hp, htx, harrived, -⟩, -⟩
      have hpending := h.sound.pending_of_skipped hr hp htx (hidle r hr)
      rw [harrived] at hpending
      cases hpending
    · intro entry _ hloses
      cases hloses with
      | visited hr hp htx hsettled =>
        have hpending := h.sound.pending_of_skipped hr hp htx (hidle _ hr)
        -- so its slot would have expired, and the requests here are young
        have hage := hsettled.age_of_pending hpending
        have hbusy : ∀ r : MsgRequest, r.m_requestStatus = .pending → r.isVacant = false := by
          intro r hr
          unfold MsgRequest.isVacant
          rw [hr]
          rfl
        rcases hgood.2 _ hr (hbusy _ hpending) htx with
          ⟨-, hyoung⟩ | ⟨q, response, -, ⟨r', hr', -, -, harrived, -⟩, -⟩
        · exact hyoung hage
        · obtain rfl := Option.some.inj (hr.symm.trans hr')
          rw [harrived] at hpending
          cases hpending
  · right
    rcases hgood.2 r hr hbusy htx with
      ⟨hpending, hyoung⟩ |
      ⟨p, response, hlisted, ⟨r', hr', hp, htx', harrived, hresponse⟩, haccepts⟩
    · -- a young request that waits is left alone
      exact absurd (hsettled.age_of_pending hpending) hyoung
    · obtain rfl := Option.some.inj (hr.symm.trans hr')
      -- the response is there: its request has an entry, which names this very slot
      obtain ⟨entry, hmem, rfl, msg, hin, hplace⟩ := h.entry_of_listed hlisted
      refine ⟨entry, hmem, .visited ⟨r, hr, hp, htx, harrived, hresponse⟩ haccepts, ?_⟩
      have hindex := (h.sound.held index r _ msg hr hp hin.message).1
      rw [hindex] at hplace
      cases hsettled with
      | @accepted response' q rc b harrived' hresponse' haccepts' hq hremove =>
        obtain rfl := Option.some.inj (hp.symm.trans hq)
        rw [hp]
        rw [← hplace] at hr hremove ⊢
        exact ⟨r, rc, b, calls, hr, hremove, rfl⟩
      | @rejected response' verdict harrived' hresponse' hrejects =>
        obtain rfl := Option.some.inj (hresponse.symm.trans hresponse')
        exact absurd hrejects (accepts_not_rejects haccepts)
      | empty _ hnone =>
        rw [hresponse] at hnone
        cases hnone
      | aborted haborted =>
        rw [harrived] at haborted
        cases haborted
      | expired hpending =>
        rw [harrived] at hpending
        cases hpending

/-- **A transaction ends**: nothing happens, or its request is answered. -/
theorem finish (h : s.PendingIn contents) {k : Nat} {now : UInt64}
    (hgood : s.GoodResponse (.finish k now)) (hstep : s.finish k now = .ok t) :
    ((∀ p, ¬ s.Processes (.finish k now) p) ∧ t = s) ∨
    ∃ entry ∈ contents, s.Processes (.finish k now) entry.m_msg ∧ s.Answered entry t := by
  rcases finish_cases hstep with ⟨rfl, hnone⟩ | ⟨p, data, sender, hk, hended, rfl⟩
  · refine .inl ⟨?_, rfl⟩
    rintro p (_ | ⟨hk, _, _⟩)
    rw [hnone] at hk
    cases hk
  · right
    obtain ⟨hlisted, r, response, hanswers, haccepts⟩ := hgood.2 p data hk
    obtain ⟨entry, hmem, rfl, msg, hin, hplace⟩ := h.entry_of_listed hlisted
    refine ⟨entry, hmem, .ended hk hanswers haccepts, ?_⟩
    have hindex := (h.sound.calls _ data msg (List.mem_of_getElem? hk) hin.message).2
    cases hended with
    | @accepted r' response' b rc calls hanswers' _ _ hremove =>
      obtain ⟨rfl, rfl⟩ := answers_unique hanswers hanswers'
      have hslot := hanswers.slot
      rw [← hindex, ← hplace] at hslot hremove ⊢
      exact ⟨r, rc, b, calls, hslot, hremove, rfl⟩
    | renewed hanswers' hrejects _ _ _ =>
      obtain ⟨rfl, rfl⟩ := answers_unique hanswers hanswers'
      exact absurd hrejects (accepts_not_rejects haccepts)
    | unrenewed hanswers' hrejects _ =>
      obtain ⟨rfl, rfl⟩ := answers_unique hanswers hanswers'
      exact absurd hrejects (accepts_not_rejects haccepts)
    | timedOut hnone _ _ _ => exact absurd hanswers (hnone r response)
    | unnamed hnone _ _ _ => exact absurd hanswers (hnone r response)

end PendingIn

/-! ## §3 What a response removes -/

/-- The request has left all three indices, and nothing else. -/
structure RemovedOnly (b : MsgBacklog) (p : MsgPtr) (size : Nat) (b' : MsgBacklog) : Prop where
  map : b'.m_requestMap.Perm (b.m_requestMap.filter fun item => item.2.m_msg ≠ p)
  set : b'.m_requestSet.Perm (b.m_requestSet.filter fun entry => entry.m_msg ≠ p)
  heap : b'.m_minHeap.Perm (b.m_minHeap.filter fun entry => entry.m_msg ≠ p)
  size : b.m_backlogSizeBytes.toNat = b'.m_backlogSizeBytes.toNat + size

/-- The indices without a request, where they have the same entries and the counter has its
    bytes. -/
theorem removedOnly_of_recorded {b b' : MsgBacklog} {messages : MsgPtr → Option Msg} {msg : Msg}
    (h : Recorded b messages contents) {entry : BacklogEntry} (hmem : entry ∈ contents)
    (hmsg : messages entry.m_msg = some msg)
    (hremove : MsgBacklog.Removed b msg.m_header entry.m_msg b')
    (hsize : payloadSizeOf messages entry.m_msg ≤ b.m_backlogSizeBytes.toNat) :
    RemovedOnly b entry.m_msg (payloadSizeOf messages entry.m_msg) b' := by
  have h' := h.removed hmsg hmem rfl hremove
  refine ⟨?_, h'.set.trans (h.set.filter _).symm, h'.heap.trans (h.heap.filter _).symm, ?_⟩
  · refine h'.map.trans ?_
    have hmap := (h.map.filter fun item => item.2.m_msg ≠ entry.m_msg).symm
    rw [List.filter_map] at hmap
    exact hmap
  · have hpayload : (UInt64.ofNat (payloadSizeOf messages entry.m_msg)).toNat =
        payloadSizeOf messages entry.m_msg :=
      UInt64.toNat_ofNat_of_lt' (lt_trans (payloadSizeOf_lt messages _) (by decide))
    rw [hremove.size, ← payloadSizeOf_eq hmsg, UInt64.toNat_sub_of_le, hpayload,
      Nat.sub_add_cancel hsize]
    rw [UInt64.le_iff_toNat_le, hpayload]
    exact hsize

/-- The answered request has left the backlog, and where no request is answered nothing has. -/
structure RemovesAnswered (s : SenderState κ) (e : SenderEvent) (t : SenderState κ) : Prop where
  answered : ∀ p, s.Processes e p →
    RemovedOnly s.sender.m_backlog p (payloadSizeOf s.sender.messages p) t.sender.m_backlog
  other : (∀ p, ¬ s.Processes e p) → t.sender.m_backlog = s.sender.m_backlog

/-- The request whose response is processed is the first in the backlog, up to requests that were
    sent at the time 0, and the counter has its bytes. -/
def InTurn (s : SenderState κ) (e : SenderEvent) : Prop :=
  ∀ p, s.Processes e p → s.sender.m_backlog.FirstInTime s.sender.pool p ∧
    payloadSizeOf s.sender.messages p ≤ s.sender.m_backlog.m_backlogSizeBytes.toNat

/-- At most one request is answered. -/
theorem Processes.unique {q : MsgPtr} (h : s.Processes e p) (h' : s.Processes e q) : p = q := by
  cases h with
  | visited harrived _ =>
    cases h' with
    | visited harrived' _ =>
      obtain ⟨r, hr, hp, -⟩ := harrived
      obtain ⟨r', hr', hq, -⟩ := harrived'
      obtain rfl := Option.some.inj (hr.symm.trans hr')
      exact Option.some.inj (hp.symm.trans hq)
  | ended hk _ _ =>
    cases h' with
    | ended hk' _ _ => exact (Prod.mk.inj (Option.some.inj (hk.symm.trans hk'))).1

/-- The other requests are pending as before when one was answered and found. -/
theorem Answered.others {entry : BacklogEntry} {msg : Msg} (hanswered : s.Answered entry t)
    (h : s.PendingIn contents) (hmem : entry ∈ contents) (hsound : t.Sound)
    (hmsg : s.sender.messages entry.m_msg = some msg)
    (hremoved : MsgBacklog.Removed s.sender.m_backlog msg.m_header entry.m_msg
      t.sender.m_backlog) :
    t.PendingIn (contents.filter fun e => e.m_msg ≠ entry.m_msg) := by
  obtain ⟨r, rc, b, calls, -, -, hsender⟩ := hanswered.call
  have hslots : t.slots = s.slots.set entry.m_request r.clearResponse := by
    unfold slots
    rw [hsender]
    rfl
  have hmessages : ∀ q, q ≠ entry.m_msg → t.sender.messages q = s.sender.messages q := by
    intro q hq
    rw [hsender]
    exact Function.update_of_ne hq ..
  have hothers : ∀ e ∈ contents.filter fun e => e.m_msg ≠ entry.m_msg,
      e ∈ contents ∧ e.m_msg ≠ entry.m_msg := fun e he =>
    ⟨(List.mem_filter.mp he).1, of_decide_eq_true (List.mem_filter.mp he).2⟩
  refine ⟨hsound, ?_, fun e he => ?_⟩
  · exact (h.recorded.removed hmsg hmem rfl hremoved).of_messages_eq
      fun e he => hmessages _ (hothers e he).2
  · obtain ⟨hin, hne⟩ := hothers e he
    obtain ⟨msg', hin'⟩ := h.inSlot e hin
    have hplace := h.sound.places e (h.recorded.set.symm.subset hin) msg' hin'.message
    exact ⟨msg', hin'.set_ne hslots (hplace ▸ h.slot_ne hmem hin hne) (hmessages _ hne)⟩

/-- **One answer**: the request is removed exactly if it is in turn, and then the other requests
    are pending as before. -/
theorem Answered.spec {entry : BacklogEntry} (hanswered : s.Answered entry t)
    (h : s.PendingIn contents) (hmem : entry ∈ contents) (hproper : s.Proper e)
    (hstep : s.step e = .ok t) :
    (RemovedOnly s.sender.m_backlog entry.m_msg (payloadSizeOf s.sender.messages entry.m_msg)
        t.sender.m_backlog ↔
      s.sender.m_backlog.FirstInTime s.sender.pool entry.m_msg ∧
        payloadSizeOf s.sender.messages entry.m_msg ≤
          s.sender.m_backlog.m_backlogSizeBytes.toNat) ∧
    (s.sender.m_backlog.FirstInTime s.sender.pool entry.m_msg →
      t.PendingIn (contents.filter fun e => e.m_msg ≠ entry.m_msg)) := by
  obtain ⟨r, rc, b, calls, hr, hremove, hsender⟩ := hanswered.call
  obtain ⟨rc', b', hcall, hturn⟩ := h.recorded.removePendingRequest_cleared hmem hr
    fun e he hne => h.slot_ne hmem he hne
  rw [hremove] at hcall
  cases hcall
  obtain ⟨msg, hmsg⟩ := Option.isSome_iff_exists.mp (h.recorded.live entry hmem)
  have hbacklog : t.sender.m_backlog = b := by
    rw [hsender]
    exact (released_fields _ _).2.1
  rcases MsgBacklog.removePendingRequest_cases hremove with ⟨hrc, msg', hmsg', hremoved⟩ | ⟨hrc, hb⟩
  · -- the request is found, and leaves; what is left to see is whether the counter has its bytes
    obtain rfl := Option.some.inj (hmsg.symm.trans hmsg')
    rw [← hbacklog] at hremoved
    refine ⟨⟨fun honly => ⟨hturn.mp hrc, ?_⟩, fun hinTurn => ?_⟩,
      fun _ => hanswered.others h hmem (h.sound.step hproper hstep) hmsg hremoved⟩
    · rw [honly.size]
      exact Nat.le_add_left ..
    · exact removedOnly_of_recorded h.recorded hmem hmsg hremoved hinTurn.2
  · -- the request is not found, and stays
    have hnot : ¬ s.sender.m_backlog.FirstInTime s.sender.pool entry.m_msg :=
      fun hfirst => hrc (hturn.mpr hfirst)
    refine ⟨iff_of_false (fun honly => ?_) fun hinTurn => hnot hinTurn.1,
      fun hfirst => absurd hfirst hnot⟩
    have hset := honly.set
    rw [hbacklog, hb] at hset
    have hstays := hset.subset (h.recorded.set.symm.subset hmem)
    exact of_decide_eq_true (List.mem_filter.mp hstays).2 rfl

/-- **One event**: what it answers is removed exactly if it is in turn. -/
theorem PendingIn.step (h : s.PendingIn contents) (hgood : s.GoodResponse e)
    (hstep : s.step e = .ok t) :
    (s.RemovesAnswered e t ↔ s.InTurn e) ∧ (s.InTurn e → ∃ contents, t.PendingIn contents) := by
  -- an event that answers nobody leaves the backlog alone
  have hnothing : (∀ p, ¬ s.Processes e p) → t.sender.m_backlog = s.sender.m_backlog →
      t.PendingIn contents →
      (s.RemovesAnswered e t ↔ s.InTurn e) ∧ (s.InTurn e → ∃ contents, t.PendingIn contents) := by
    intro hnone hbacklog hpending
    exact ⟨iff_of_true ⟨fun p hp => absurd hp (hnone p), fun _ => hbacklog⟩
      fun p hp => absurd hp (hnone p), fun _ => ⟨contents, hpending⟩⟩
  -- and an event that answers one request concerns no other
  have hanswer : (∃ entry ∈ contents, s.Processes e entry.m_msg ∧ s.Answered entry t) →
      (s.RemovesAnswered e t ↔ s.InTurn e) ∧ (s.InTurn e → ∃ contents, t.PendingIn contents) := by
    rintro ⟨entry, hmem, hprocesses, hanswered⟩
    obtain ⟨hiff, hkeeps⟩ := hanswered.spec h hmem hgood.proper hstep
    refine ⟨⟨fun hremoves p hp => ?_, fun hturn => ⟨fun p hp => ?_, fun hnone => ?_⟩⟩,
      fun hturn => ⟨_, hkeeps (hturn _ hprocesses).1⟩⟩
    · obtain rfl := hp.unique hprocesses
      exact hiff.mp (hremoves.answered _ hp)
    · obtain rfl := hp.unique hprocesses
      exact hiff.mpr (hturn _ hp)
    · exact absurd hprocesses (hnone _)
  cases e with
  | recv response =>
    obtain ⟨hbacklog, hpending⟩ := h.recv hstep
    exact hnothing (fun p hp => nomatch hp) hbacklog hpending
  | visit index now =>
    rcases h.visit hgood hstep with ⟨hnone, hbacklog, hpending⟩ | hanswered
    · exact hnothing hnone hbacklog hpending
    · exact hanswer hanswered
  | finish k now =>
    rcases h.finish hgood hstep with ⟨hnone, rfl⟩ | hanswered
    · exact hnothing hnone rfl h
    · exact hanswer hanswered
  | allocate | send | transact | loopSend | prune | resend | disconnect | connect =>
    exact hgood.elim

theorem removeFromBacklog_ok {a : MsgSender κ} {rc : ErrorCode} {b : MsgBacklog}
    (h : a.m_backlog.removePendingRequest a.pool a.messages p = .ok (rc, b)) :
    a.removeFromBacklog (some p) = .ok (rc, { a with m_backlog := b }) := by
  unfold MsgSender.removeFromBacklog
  dsimp only
  rw [h]

/-- An accepted response is looked at, its request looked for in the backlog and freed. -/
theorem PendingIn.takes (h : s.PendingIn contents) {entry : BacklogEntry} (hmem : entry ∈ contents)
    {r : MsgRequest} (hr : s.slots[entry.m_request]? = some r) {response : Msg}
    (haccepts : s.sender.Accepts response) :
    ∃ t₁ rc t₂ t₃, (s.sender.setSlot entry.m_request r.clearResponse).handleResponse response =
        .ok (.ok, t₁) ∧
      t₁.removeFromBacklog (some entry.m_msg) = .ok (rc, t₂) ∧
      t₂.freeMsg (some entry.m_msg) = .ok t₃ ∧ (t₂.messages entry.m_msg).isSome := by
  obtain ⟨s₁, hhandle⟩ := haccepts
  have hcleared := MsgSender.handleResponse_congr
    (s := s.sender.setSlot entry.m_request r.clearResponse) hhandle rfl rfl
  obtain ⟨rc, b, hremove, -⟩ := h.recorded.removePendingRequest_cleared hmem hr
    fun e he hne => h.slot_ne hmem he hne
  have hlive := h.recorded.live entry hmem
  refine ⟨_, rc, _, _, hcleared, removeFromBacklog_ok hremove,
    MsgSender.freeMsg_eq_released.mpr ⟨fun p hp => ?_, rfl⟩, hlive⟩
  obtain rfl := Option.some.inj hp
  exact hlive

/-- **Good responses are processed**, in whatever order they come. -/
theorem PendingIn.returns (h : s.PendingIn contents) (hgood : s.GoodResponse e) :
    ∃ t, s.step e = .ok t := by
  cases e with
  | recv response => exact ⟨_, rfl⟩
  | visit index now =>
    have hreturns : (∃ sender, s.sender.processPendingResponse index now = .ok sender) →
        ∃ t, s.step (.visit index now) = .ok t := by
      rintro ⟨sender, hcall⟩
      refine ⟨{ s with sender := sender, clock := now }, ?_⟩
      show s.moveOn now _ = _
      rw [hcall]
      rfl
    -- no slot is visited that makes the code follow a bad pointer
    refine hreturns ?_
    unfold MsgSender.processPendingResponse
    dsimp only
    by_cases hskip : ((s.sender.pool.slot index).isVacant || (s.sender.pool.slot index).isTx) = true
    · rw [if_pos hskip]
      exact ⟨_, rfl⟩
    · rw [if_neg hskip]
      obtain ⟨hvacant, htx⟩ := not_or.mp fun hor => hskip ((Bool.or_eq_true _ _).mpr hor)
      -- a slot that does not exist counts as vacant
      cases hr : s.slots[index]? with
      | none =>
        have hnew : s.sender.pool.slot index = .new := by
          unfold MsgRequestPool.slot
          have hnone : s.sender.pool.m_requests[index]? = none := hr
          rw [hnone]
          rfl
        rw [hnew] at hvacant
        exact absurd rfl hvacant
      | some r =>
        rw [slot_eq hr] at hvacant htx ⊢
        unfold MsgRequest.waitResponse
        -- the slot is pending and not expired, or it has a response that the listener accepts
        rcases hgood.2 r hr (Bool.eq_false_iff.mpr hvacant) (Bool.eq_false_iff.mpr htx) with
          ⟨hpending, hyoung⟩ |
          ⟨p, response, hlisted, ⟨r', hr', hp, -, harrived, hresponse⟩, haccepts⟩
        · rw [hpending]
          dsimp only
          rw [if_neg (not_or.mpr ⟨not_not.mpr rfl, hyoung⟩)]
          exact ⟨_, rfl⟩
        · obtain rfl := Option.some.inj (hr.symm.trans hr')
          obtain ⟨entry, hmem, rfl, msg, hin, hplace⟩ := h.entry_of_listed hlisted
          rw [(h.sound.held index r _ msg hr hp hin.message).1] at hplace
          subst hplace
          obtain ⟨t₁, rc, t₂, t₃, hhandle, hremove, hfree, -⟩ := h.takes hmem hr haccepts
          rw [harrived, hresponse, hp]
          dsimp only
          rw [MsgSender.takeResponse, hhandle]
          dsimp only [bind, Except.bind]
          rw [if_pos rfl, hremove]
          dsimp only [pure, Except.pure]
          exact ⟨t₃, hfree⟩
  -- the call returns with its response and removes its request
  | finish k now =>
    show ∃ t, s.finish k now = .ok t
    unfold SenderState.finish
    cases hk : s.waiting[k]? with
    | none => exact ⟨_, rfl⟩
    | some call =>
      obtain ⟨p, data⟩ := call
      dsimp only
      obtain ⟨hlisted, r, response, hanswers, haccepts⟩ := hgood.2 p data hk
      obtain ⟨entry, hmem, rfl, msg, hin, hplace⟩ := h.entry_of_listed hlisted
      rw [(h.sound.calls _ data msg (List.mem_of_getElem? hk) hin.message).2] at hplace
      obtain ⟨t₁, rc, t₂, t₃, hhandle, hremove, hfree, hlive⟩ :=
        h.takes hmem (hplace ▸ hanswers.slot) haccepts
      -- the slot of the call has the response, which is accepted
      have hrecv : s.sender.recvResponse data entry.m_msg now = .ok (.ok, t₂) := by
        have hfind := MsgRequestPool.findSlot_eq_ok.mpr ⟨rfl, hanswers.slot, hanswers.id_eq⟩
        rw [hplace] at hhandle
        unfold MsgSender.recvResponse MsgRequestPool.waitPendingResponse MsgRequest.waitResponse
        simp only [hfind, hanswers.arrived, hanswers.response_eq]
        have hcleared : (s.sender.withPool (s.sender.pool.setSlot data.m_requestIndex
            r.clearResponse)).handleResponse response = .ok (.ok, t₁) := hhandle
        rw [hcleared]
        dsimp only [bind, Except.bind]
        rw [if_neg (not_not.mpr rfl), hremove]
        rfl
      -- the request is still alive at the end of the transaction
      obtain ⟨msg', hmsg'⟩ := Option.isSome_iff_exists.mp hlive
      have hend : t₂.endTransaction entry.m_msg .ok = .ok (.ok, t₃) := by
        unfold MsgSender.endTransaction
        rw [load_eq hmsg']
        dsimp only
        rw [if_pos (.inl rfl), hfree]
        rfl
      rw [hrecv]
      dsimp only [bind, Except.bind]
      rw [hend]
      exact ⟨_, rfl⟩
  | allocate | send | transact | loopSend | prune | resend | disconnect | connect =>
    exact hgood.elim

/-! ## §4 Any order -/

/-- **Responses in any order.**  Good responses are processed in each order, and each removes its
    request and nothing else exactly if each is in turn. -/
theorem responses_in_any_order (h : s.PendingIn contents) (es : List SenderEvent) :
    (∀ t, RunsWith (fun s e t => s.step e = .ok t ∧ s.RemovesAnswered e t) GoodResponse s es t ↔
      RunsWith (fun s e t => s.step e = .ok t) (fun s e => s.GoodResponse e ∧ s.InTurn e) s es t) ∧
    ∀ t e, RunsWith (fun s e t => s.step e = .ok t) (fun s e => s.GoodResponse e ∧ s.InTurn e)
      s es t → t.GoodResponse e → ∃ u, t.step e = .ok u := by
  constructor
  · intro t
    refine RunsWith.each_iff (fun s => ∃ contents, s.PendingIn contents) ?_ ?_ ⟨contents, h⟩
    · rintro s e t ⟨contents, h⟩ hgood hstep hremoves
      obtain ⟨hiff, hkeeps⟩ := h.step hgood hstep
      exact hkeeps (hiff.mp hremoves)
    · rintro s e t ⟨contents, h⟩ hgood hstep
      exact (h.step hgood hstep).1
  · intro t e hrun hgood
    obtain ⟨contents', h'⟩ := hrun.invariant (fun s => ∃ contents, s.PendingIn contents)
      (fun s e t ⟨_, h⟩ he hstep => (h.step he.1 hstep).2 he.2) ⟨contents, h⟩
    exact h'.returns hgood

/-- A visit of a slot with a good response. -/
theorem Arrived.good {index : Nat} {now : UInt64} {response : Msg}
    (harrived : s.Arrived p index response) (haccepts : s.sender.Accepts response)
    (hlisted : s.Listed p) (hclock : s.clock ≤ now) : s.GoodResponse (.visit index now) :=
  ⟨hclock, fun _ _ _ _ => .inr ⟨p, response, hlisted, harrived, haccepts⟩⟩

theorem answer_accepted {a : MsgSender Unit} (requestId : UInt64) (requestIndex : UInt32)
    (hreader : a.m_frameReader = oneSlot.sender.m_frameReader) :
    a.Accepts (MsgSender.answer requestId requestIndex) := by
  have hhandle := MsgSender.handleResponse_single
    (MsgSender.answer_payload a.m_frameReader.z requestId requestIndex)
    (MsgSender.answer_flags requestId requestIndex).2
  rw [hreader] at hhandle
  exact ⟨_, hhandle⟩

theorem onePending_pendingIn : onePending.PendingIn [⟨0, 0⟩] := by
  obtain ⟨s, hrun, hadds⟩ := onePending_run
  refine ⟨(run_sound hrun).step (e := .loopSend 0) trivial hadds.step, ?_, ?_⟩
  · exact ⟨by decide, by decide, .refl _, .refl _, .refl _⟩
  · intro entry hentry
    obtain rfl := List.mem_singleton.mp hentry
    exact ⟨_, rfl, _, rfl, rfl⟩

/-- A sender over a pool of two slots. -/
def twoSlots : SenderState Unit :=
  start 2 5 .networkOrder ⟨1000, 60000, 1000000⟩
    ⟨.ofWhole some some, .networkOrder, fun _ _ => .ok, ()⟩

/-- What becomes of it when all writes have reached the I/O loop. -/
def twoSlotsWith (pool : MsgRequestPool) (messages : MsgPtr → Option Msg) (b : MsgBacklog)
    (handed : List MsgPtr) (clock : UInt64) : SenderState Unit where
  sender := { twoSlots.sender with
    m_msgClient := ⟨pool, .networkOrder, messages, []⟩
    m_backlog := b }
  waiting := []
  handed := handed
  clock := clock

/-- One request was sent, at the time 5. -/
def oneOfTwo : SenderState Unit :=
  twoSlotsWith ⟨[.new, ⟨5, .pending, 0, some 0, none, 5, 5⟩], 6⟩
    (Function.update (Function.update (Function.update (fun _ => none) 0 (some oneByte))
      1 (some oneByte)) 0 (some (stampHeader oneByte 5 1)))
    ⟨1, [(5, ⟨0, 1⟩)], [⟨0, 1⟩], [⟨0, 1⟩]⟩ [0] 5

/-- Another one was sent, at the time 6, and the response to it arrived. -/
def twoPending : SenderState Unit :=
  twoSlotsWith
    ⟨[⟨6, .arrived, 0, some 1, some (MsgSender.answer 6), 6, 6⟩,
      ⟨5, .pending, 0, some 0, none, 5, 5⟩], 7⟩
    (Function.update oneOfTwo.sender.messages 1 (some (stampHeader oneByte 6 0)))
    ⟨2, [(6, ⟨1, 0⟩), (5, ⟨0, 1⟩)], [⟨0, 1⟩, ⟨1, 0⟩], [⟨0, 1⟩, ⟨1, 0⟩]⟩ [1, 0] 6

theorem twoPending_run : RunsWith (fun s e t => s.step e = .ok t) Proper twoSlots
    [.allocate 0 oneByte, .allocate 1 oneByte, .send 0 ⟨5, true, .ok⟩, .loopSend 0,
      .send 1 ⟨6, true, .ok⟩, .loopSend 0, .recv (MsgSender.answer 6)] twoPending := by
  have hnone : ∀ p, ¬ twoSlots.InUse p :=
    fun p hp => List.not_mem_nil
      (inUse_mem rfl (by decide) (by decide) (by decide) (by decide) (by decide) hp)
  have hfirst : ∀ p, oneOfTwo.InUse p → p = 0 := fun p hp => List.mem_singleton.mp
    (inUse_mem rfl (by decide) (by decide) (by decide) (by decide) (by decide) hp)
  have hsend : RunsWith (fun s e t => s.step e = .ok t) Proper twoSlots
      [.allocate 0 oneByte, .allocate 1 oneByte, .send 0 ⟨5, true, .ok⟩, .loopSend 0] oneOfTwo :=
    .cons (hnone 0) rfl (.cons (hnone 1) rfl (.cons
      ⟨hnone 0, ⟨by decide, fun p _ hp => absurd hp (hnone p), nofun⟩, by decide⟩ rfl
      (.cons trivial rfl (.nil _))))
  refine hsend.append (.cons ⟨fun hused => absurd (hfirst 1 hused) (by decide),
    ⟨by decide, fun p msg hused hmsg => ?_, nofun⟩, by decide⟩ rfl
      (.cons trivial rfl (.cons trivial rfl (.nil _))))
  obtain rfl := hfirst p hused
  obtain rfl := Option.some.inj hmsg
  decide

theorem twoPending_pendingIn : twoPending.PendingIn [⟨0, 1⟩, ⟨1, 0⟩] := by
  refine ⟨run_sound twoPending_run, ?_, ?_⟩
  · exact ⟨by decide, by decide, by decide, .refl _, .refl _⟩
  · exact List.forall_mem_cons.mpr ⟨⟨_, rfl, _, rfl, rfl⟩,
      List.forall_mem_cons.mpr ⟨⟨_, rfl, _, rfl, rfl⟩, nofun⟩⟩

/-- The response to the younger of two requests arrived before that to the older one.  The older
    request is processed first, then the younger one, and each leaves the backlog. -/
theorem responses_in_any_order_two_requests : ∃ t,
    RunsWith (fun s e t => s.step e = .ok t ∧ s.RemovesAnswered e t) GoodResponse twoPending
      [.recv (MsgSender.answer 5 1), .visit 1 20, .visit 0 20] t ∧
    t.sender.m_backlog.m_requestSet = [] := by
  obtain ⟨s, hrecv, harrived, hyounger⟩ : ∃ s,
      twoPending.step (.recv (MsgSender.answer 5 1)) = .ok s ∧
      s.Arrived 0 1 (MsgSender.answer 5 1) ∧ s.Arrived 1 0 (MsgSender.answer 6) :=
    ⟨_, rfl, ⟨_, rfl, rfl, rfl, rfl, rfl⟩, ⟨_, rfl, rfl, rfl, rfl, rfl⟩⟩
  obtain ⟨hbacklog, hpending⟩ := twoPending_pendingIn.recv hrecv
  obtain ⟨hreader, hclock, hmessages⟩ : s.sender.m_frameReader = oneSlot.sender.m_frameReader ∧
      s.clock = 6 ∧ s.sender.messages = twoPending.sender.messages := by
    obtain rfl := Except.ok.inj hrecv
    exact ⟨rfl, rfl, rfl⟩
  -- the older request is the first of the set, and the counter has its byte
  have haccepts : s.sender.Accepts (MsgSender.answer 5 1) := answer_accepted 5 1 hreader
  have hgood : s.GoodResponse (.visit 1 20) :=
    harrived.good haccepts ⟨⟨0, 1⟩, by rw [hbacklog]; exact List.mem_cons_self, rfl⟩
      (by rw [hclock]; decide)
  have hturn : s.InTurn (.visit 1 20) := by
    intro p hp
    obtain rfl := hp.unique (.visited harrived haccepts)
    rw [hbacklog, hmessages]
    exact ⟨nofun, by decide⟩
  obtain ⟨t, hvisit⟩ := hpending.returns hgood
  rcases hpending.visit hgood hvisit with ⟨hnone, -, -⟩ | ⟨entry, hentry, hprocesses, hanswered⟩
  · exact absurd (.visited harrived haccepts) (hnone 0)
  have hmsg : entry.m_msg = 0 := hprocesses.unique (.visited harrived haccepts)
  obtain rfl : entry = ⟨0, 1⟩ := by
    rcases List.mem_cons.mp hentry with rfl | hentry
    · rfl
    · obtain rfl := List.mem_singleton.mp hentry
      cases hmsg
  have hpending' := (hanswered.spec hpending hentry hgood.proper hvisit).2
    (hturn _ hprocesses).1
  have hremoved := ((hpending.step hgood hvisit).1.mpr hturn).answered _ hprocesses
  -- then the younger one is the only one that is left
  obtain ⟨r, rc, b, calls, -, -, hsender⟩ := hanswered.call
  have hslot : t.slots[0]? = s.slots[0]? := by
    have hslots : t.slots = s.slots.set 1 r.clearResponse := by
      unfold slots
      rw [hsender]
      rfl
    rw [hslots, List.getElem?_set_ne (by decide)]
  have harrived' : t.Arrived 1 0 (MsgSender.answer 6) := ⟨hslot ▸ hyounger.slot⟩
  have haccepts' : t.sender.Accepts (MsgSender.answer 6) := answer_accepted 6 0 (by
    rw [hsender]
    exact hreader)
  have hset : t.sender.m_backlog.m_requestSet = [⟨1, 0⟩] :=
    List.perm_singleton.mp hpending'.recorded.set
  have hclock' : t.clock ≤ 20 := by
    obtain ⟨sender, -, rfl⟩ := visit_cases hvisit
    exact UInt64.le_refl _
  have hgood' : t.GoodResponse (.visit 0 20) :=
    harrived'.good haccepts' ⟨⟨1, 0⟩, hset ▸ List.mem_cons_self, rfl⟩ hclock'
  have hturn' : t.InTurn (.visit 0 20) := by
    intro p hp
    obtain rfl := hp.unique (.visited harrived' haccepts')
    constructor
    · unfold MsgBacklog.FirstInTime
      rw [hset]
      exact nofun
    · have hsize := hremoved.size
      rw [hbacklog, hmessages] at hsize
      have hyoung : t.sender.messages 1 = twoPending.sender.messages 1 := by
        rw [hsender, ← hmessages]
        exact Function.update_of_ne (v := none) (by decide : (1 : MsgPtr) ≠ 0) _
      have hbyte : payloadSizeOf t.sender.messages 1 = 1 := by
        unfold payloadSizeOf
        rw [hyoung]
        rfl
      have hold : payloadSizeOf twoPending.sender.messages 0 = 1 := rfl
      have hcounter : twoPending.sender.m_backlog.m_backlogSizeBytes.toNat = 2 := rfl
      rw [hold, hcounter] at hsize
      omega
  obtain ⟨u, hvisit'⟩ := hpending'.returns hgood'
  refine ⟨u, ((responses_in_any_order twoPending_pendingIn _).1 u).mpr ?_, ?_⟩
  · exact .cons ⟨trivial, fun p hp => nomatch hp⟩ hrecv (.cons ⟨hgood, hturn⟩ hvisit
      (.cons ⟨hgood', hturn'⟩ hvisit' (.nil u)))
  · have honly := ((hpending'.step hgood' hvisit').1.mpr hturn').answered 1
      (.visited harrived' haccepts')
    have hempty := honly.set
    rw [hset] at hempty
    exact List.perm_nil.mp hempty

/-- The response to the younger of two requests is processed first: the request is freed, and stays
    in the backlog. -/
theorem younger_response_not_removed :
    twoPending.PendingIn [⟨0, 1⟩, ⟨1, 0⟩] ∧ twoPending.GoodResponse (.visit 0 10) ∧
    twoPending.Processes (.visit 0 10) 1 ∧
    (∃ t, twoPending.step (.visit 0 10) = .ok t) ∧
    ∀ t, twoPending.step (.visit 0 10) = .ok t → ¬ twoPending.RemovesAnswered (.visit 0 10) t := by
  have harrived : twoPending.Arrived 1 0 (MsgSender.answer 6) := ⟨_, rfl, rfl, rfl, rfl, rfl⟩
  have haccepts : twoPending.sender.Accepts (MsgSender.answer 6) := answer_accepted 6 0 rfl
  have hgood : twoPending.GoodResponse (.visit 0 10) :=
    harrived.good haccepts ⟨_, List.mem_cons_of_mem _ List.mem_cons_self, rfl⟩ (by decide)
  have hprocesses : twoPending.Processes (.visit 0 10) 1 := .visited harrived haccepts
  refine ⟨twoPending_pendingIn, hgood, hprocesses, twoPending_pendingIn.returns hgood, ?_⟩
  intro t hstep hremoves
  have hturn := (twoPending_pendingIn.step hgood hstep).1.mp hremoves 1 hprocesses
  exact absurd (hturn.1 ⟨0, 1⟩ List.mem_cons_self) (by decide)

end SenderState

end Commutil.Client
