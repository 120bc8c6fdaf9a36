import Commutil.Client.PendingRequests

/-!
# Kept Requests

A request that was handed to the transport and added to the backlog is to stay there, in its slot
and ready to be resent, until its response is accepted, it is too old, or the backlog is pruned.

`Releases` are these three reasons, and `Spares` is what has to hold besides: no tick between a
disconnect and the response, no response that the frame listener rejects, no resend that cannot be
put on the wire.  One event keeps the request exactly under this condition (`kept_step`), and so
does a run.
-/

namespace Commutil.Client

open Commutil.Framing Commutil.Io Commutil.Library

variable {κ : Type}

namespace SenderState

variable {s t : SenderState κ} {p : MsgPtr} {msg : Msg}

/-! ## §1 Kept requests -/

/-- The request is in all indices of the backlog, and the slot that it names holds it, so that
    `resendRequest` finds it. -/
structure Kept (s : SenderState κ) (p : MsgPtr) (msg : Msg) : Prop where
  message : s.sender.messages p = some msg
  found : s.sender.FoundUnder p msg.m_header.m_requestId msg.m_header.m_requestIndex.toNat
  slot : ∃ r, s.sender.pool.getRequestData msg.m_header =
    some (msg.m_header.m_requestIndex.toNat, r) ∧ r.isVacant = false ∧ r.m_request = some p

theorem Kept.inSlot (h : s.Kept p msg) : s.InSlot p msg := by
  obtain ⟨r, hdata, -, hp⟩ := h.slot
  exact ⟨h.message, r, (MsgBacklog.getRequestData_eq_some.mp hdata).2.1, hp⟩

theorem InSlot.kept (h : s.InSlot p msg) (hs : s.Sound)
    (hfound : s.sender.FoundUnder p msg.m_header.m_requestId msg.m_header.m_requestIndex.toNat) :
    s.Kept p msg := by
  obtain ⟨r, hr, hp⟩ := h.slot
  refine ⟨h.message, hfound, r, MsgBacklog.getRequestData_eq_some.mpr ⟨rfl, hr, ?_⟩, ?_, hp⟩
  · exact (h.slot_id hs hr).2
  · cases hvacant : r.isVacant with
    | false => rfl
    | true =>
      rw [hs.vacant _ r hr hvacant] at hp
      cases hp

/-- The request is older than the configuration allows. -/
def Outdated (s : SenderState κ) (p : MsgPtr) (now : UInt64) : Prop :=
  ∃ (i : Nat) (r : MsgRequest), s.slots[i]? = some r ∧ r.m_request = some p ∧
    s.sender.m_config.m_expireTimeoutMillis.toNat < now.toNat - r.m_requestTimeMillis.toNat

/-- The slot of the request has a response, and `processPendingResponses` takes it. -/
structure Arrived (s : SenderState κ) (p : MsgPtr) (index : Nat) (response : Msg) : Prop where
  slot : ∃ r : MsgRequest, s.slots[index]? = some r ∧ r.m_request = some p ∧ r.isTx = false ∧
    r.m_requestStatus = .arrived ∧ r.m_response = some response

/-- Why a request need not be kept any longer: an accepted response, its age, or the limit of the
    backlog. -/
def Releases (s : SenderState κ) (p : MsgPtr) : SenderEvent → Prop
  | .visit index now => s.Outdated p now ∨
    ∃ response, s.Arrived p index response ∧ s.sender.Accepts response
  | .finish k now => s.Outdated p now ∨ ∃ data r response, s.waiting[k]? = some (p, data) ∧
    s.sender.Answers data r response ∧ s.sender.Accepts response
  | .resend _ env => s.Outdated p env.now
  | .prune => s.sender.m_config.m_backlogLimitBytes < s.sender.m_backlog.m_backlogSizeBytes ∧
    ∃ entry rest, s.sender.m_backlog.m_requestSet = entry :: rest ∧ entry.m_msg = p
  | _ => False

/-- The slot of the request is not visited after a disconnect, no response to it is rejected, and
    its resends can be put on the wire. -/
def Spares (s : SenderState κ) (p : MsgPtr) : SenderEvent → Prop
  | .visit index _ =>
    (∀ r : MsgRequest, s.slots[index]? = some r → r.m_request = some p → r.isTx = false →
      r.m_requestStatus ≠ .aborted) ∧
    ∀ response, s.Arrived p index response → s.sender.Accepts response
  | .finish k _ => ∀ data r response, s.waiting[k]? = some (p, data) →
    s.sender.Answers data r response → s.sender.Accepts response
  | .resend barrier env => ∀ entry rest msg index r,
    s.sender.m_backlog.m_requestSet = entry :: rest → entry.m_msg = p →
    (s.sender.pool.slot entry.m_request).m_resendTimeMillis < barrier →
    s.sender.messages p = some msg → s.sender.pool.getRequestData msg.m_header = some (index, r) →
    s.sender.shouldResend r env.now = true → ¬ SendFails s.sender.m_msgClient.byteOrder msg env.send
  | _ => True

/-- The age that the code computes is that of the request, since the clock does not go back. -/
theorem Sound.outdated (hs : s.Sound) {index : Nat} {r : MsgRequest} {now : UInt64}
    (hr : s.slots[index]? = some r) (hp : r.m_request = some p) (hclock : s.clock ≤ now)
    (h : now - r.m_requestTimeMillis > s.sender.m_config.m_expireTimeoutMillis) :
    s.Outdated p now := by
  refine ⟨index, r, hr, hp, ?_⟩
  have hpast := UInt64.le_trans (hs.past index r hr) hclock
  have hlt := UInt64.lt_iff_toNat_lt.mp h
  rwa [UInt64.toNat_sub_of_le _ _ hpast] at hlt

/-- An event that loses a request is one that may, or does not spare it. -/
theorem Loses.releases {e : SenderEvent} (hloses : s.Loses p e) (hs : s.Sound)
    (hproper : s.Proper e) (hspares : s.Spares p e) : s.Releases p e := by
  cases hloses with
  | @visited index now r b hr hp htx hsettled =>
    cases hsettled with
    | accepted harrived hresponse haccepts _ _ =>
      exact .inr ⟨_, ⟨r, hr, hp, htx, harrived, hresponse⟩, haccepts⟩
    | rejected harrived hresponse _ =>
      have hin : s.Arrived p index _ := ⟨r, hr, hp, htx, harrived, hresponse⟩
      exact .inr ⟨_, hin, hspares.2 _ hin⟩
    | empty harrived hnone =>
      have hsome := hs.arrived index r hr harrived
      rw [hnone] at hsome
      cases hsome
    | aborted haborted => exact absurd haborted (hspares.1 r hr hp htx)
    | expired _ hage => exact .inl (hs.outdated hr hp hproper hage)
  | @ended k now data r response hk hanswers =>
    exact .inr ⟨data, r, response, hk, hanswers, hspares data r response hk hanswers⟩
  | @pruned entry rest hset hp hlimit => exact ⟨hlimit, entry, rest, hset, hp⟩
  | @unsent barrier env entry rest msg index r hset hp hready hmsg hdata hdue hfails =>
    exact absurd hfails (hspares entry rest msg index r hset hp hready hmsg hdata hdue)

/-- Only one answer is in a slot. -/
theorem answers_unique {data : MsgRequestData} {r r' : MsgRequest} {response response' : Msg}
    (h : s.sender.Answers data r response) (h' : s.sender.Answers data r' response') :
    r = r' ∧ response = response' := by
  obtain rfl := Option.some.inj (h.slot.symm.trans h'.slot)
  exact ⟨rfl, Option.some.inj (h.response_eq.symm.trans h'.response_eq)⟩

/-- **One event** that need not take a request out of the backlog keeps it exactly if it spares
    it. -/
theorem kept_step {e : SenderEvent} (hs : s.Sound) (hproper : s.Proper e) (h : s.Kept p msg)
    (hreleases : ¬ s.Releases p e) (hstep : s.step e = .ok t) :
    (∃ msg, t.Kept p msg) ↔ s.Spares p e := by
  constructor
  · rintro ⟨msg', hkept⟩
    -- a message that is freed is not kept
    have hgone : t.sender.messages p = none → False := by
      intro hnone
      have hlive := hkept.message
      rw [hnone] at hlive
      cases hlive
    cases e with
    | visit index now =>
      obtain ⟨sender, hcall, rfl⟩ := visit_cases hstep
      rcases MsgSender.processPendingResponse_cases hcall with
        ⟨rfl, hidle⟩ | ⟨r, b, calls, hr, -, htx, hsettled, -, rfl⟩
      · -- the slot is not looked at, or its request waits
        refine ⟨fun r hr hp htx haborted => ?_, ?_⟩
        · have hpending := hs.pending_of_skipped hr hp htx (hidle r hr)
          rw [haborted] at hpending
          cases hpending
        · rintro response ⟨r, hr, hp, htx, harrived, -⟩
          have hpending := hs.pending_of_skipped hr hp htx (hidle r hr)
          rw [harrived] at hpending
          cases hpending
      -- the visit freed the request of its slot, so that was another one
      · have hother : r.m_request ≠ some p := by
          intro hp
          refine hgone ?_
          rw [hp]
          exact Function.update_self ..
        refine ⟨fun r' hr' hp' => ?_, ?_⟩
        · exact absurd (Option.some.inj (hr.symm.trans hr') ▸ hp') hother
        · rintro response ⟨r', hr', hp', -⟩
          exact absurd (Option.some.inj (hr.symm.trans hr') ▸ hp') hother
    -- the answer frees its request unless it is accepted
    | finish k now =>
      intro data r response hk hanswers
      by_contra haccepts
      rcases finish_cases hstep with ⟨-, hnone⟩ | ⟨q, data', sender, hk', hended, rfl⟩
      · rw [hnone] at hk
        cases hk
      · obtain ⟨rfl, rfl⟩ := Prod.mk.inj (Option.some.inj (hk.symm.trans hk'))
        cases hended with
        | accepted hanswers' haccepts' _ _ =>
          exact haccepts ((answers_unique hanswers hanswers').2 ▸ haccepts')
        | renewed _ _ _ _ _ => exact hgone (Function.update_self ..)
        | unrenewed _ _ _ => exact hgone (Function.update_self ..)
        | timedOut hnone _ _ _ => exact hnone r response hanswers
        | unnamed _ _ _ _ => exact hgone (Function.update_self ..)
    -- a resend that fails takes its request out of the slot
    | resend barrier env =>
      rintro entry rest msg₁ index r hset rfl hready hmsg₁ hdata hdue hfails
      rcases resend_cases hstep with
        ⟨-, hnot⟩ | ⟨entry', rest', rc, sender, sender', hset', -, hresend, hupdate, rfl⟩
      · exact hnot entry rest hset hready
      · obtain ⟨rfl, rfl⟩ := List.cons.inj (hset.symm.trans hset')
        have hused : s.InUse entry.m_msg := inUse_set (hset ▸ List.mem_cons_self)
        obtain ⟨msg₂, hmsg₂, hcase⟩ := MsgSender.resendRequest_cases
          (fun msg hmsg => hs.valid _ msg hused hmsg) hresend
        obtain rfl := Option.some.inj (hmsg₁.symm.trans hmsg₂)
        rcases hcase with ⟨-, hearly⟩ | ⟨index', r', hresent⟩
        · rw [hearly index r hdata] at hdue
          cases hdue
        · -- the slot is without its request
          have hclient : sender'.m_msgClient = sender.m_msgClient := by
            rcases hupdate with ⟨-, rfl⟩ | ⟨b, -, rfl⟩ <;> rfl
          have hlive : sender'.messages entry.m_msg = some msg₁ := by
            have hmessages : sender'.messages = s.sender.messages :=
              (congrArg MsgClient.messages hclient).trans hresent.messages
            rw [hmessages]
            exact hmsg₁
          obtain rfl := Option.some.inj (hlive.symm.trans hkept.message)
          obtain ⟨rfl, hr', -⟩ := MsgBacklog.getRequestData_eq_some.mp hresent.data
          obtain ⟨r₂, hr₂, hp₂⟩ := hkept.inSlot.slot
          have hpool : sender'.pool = s.sender.pool.setSlot msg₁.m_header.m_requestIndex.toNat
              (MsgSender.resentSlot r' (rc == .ok) env.updateNow) :=
            (congrArg MsgClient.m_requestPool hclient).trans hresent.pool
          have hself : sender'.pool.m_requests[msg₁.m_header.m_requestIndex.toNat]? =
              some (MsgSender.resentSlot r' (rc == .ok) env.updateNow) := by
            rw [hpool]
            exact List.getElem?_set_self (List.getElem?_eq_some_iff.mp hr').1
          obtain rfl := Option.some.inj (hself.symm.trans hr₂)
          rw [beq_eq_false_iff_ne.mpr (hresent.fails.mpr hfails)] at hp₂
          cases hp₂
    | allocate | send | transact | loopSend | recv | prune | disconnect | connect => trivial
  · intro hspares
    have hloses : ¬ s.Loses p e :=
      fun hloses => hreleases (hloses.releases hs hproper hspares)
    have hin := (inSlot_step hs hproper h.inSlot hstep).resolve_right fun hl => hloses hl.1
    have hfound := (found_step hs h.inSlot h.found hproper hstep).resolve_right hloses
    exact ⟨msg, hin.kept (hs.step hproper hstep) hfound⟩

/-! ## §2 Whole runs -/

/-- `onLoopSend` adds the request of a write to the backlog. -/
structure Adds (s : SenderState κ) (k : Nat) (p : MsgPtr) (t : SenderState κ) : Prop where
  write : ∃ write, s.writes[k]? = some write ∧ write.userData = some p
  step : s.step (.loopSend k) = .ok t
  listed : ∃ item ∈ t.sender.m_backlog.m_requestMap, item.2.m_msg = p

/-- A request that is added is kept so far. -/
theorem Adds.kept {k : Nat} (h : s.Adds k p t) (hs : s.Sound) (hw : s.Written) :
    ∃ msg, t.Kept p msg := by
  obtain ⟨write, hwrite, hp⟩ := h.write
  obtain ⟨item, hitem, hlisted⟩ := h.listed
  have hunreported : p ∈ s.unreported :=
    List.mem_filterMap.mpr ⟨write, List.mem_of_getElem? hwrite, hp⟩
  have hnew := (hw.unlisted p hunreported).map item
  have hsound := hs.step (e := .loopSend k) trivial h.step
  rcases loopSend_cases h.step with rfl | rfl | ⟨write', q, rc, b, hwrite', hq, hadd, rfl⟩
  · exact absurd hlisted (hnew hitem)
  · exact absurd hlisted (hnew hitem)
  · obtain rfl := Option.some.inj (hwrite.symm.trans hwrite')
    obtain rfl := Option.some.inj (hp.symm.trans hq)
    rcases MsgBacklog.addPendingRequest_cases hadd with ⟨-, msg, r, hmsg, -, -, hadded⟩ | ⟨-, rfl⟩
    · have hin := hw.inSlot p hunreported msg hmsg
      refine ⟨msg, InSlot.kept (hin.same rfl rfl) hsound ⟨?_, ?_, ?_⟩⟩
      · show _ ∈ b.m_requestMap
        rw [hadded.map]
        exact List.mem_cons_self
      · exact hadded.set.symm.subset List.mem_cons_self
      · exact hadded.heap.symm.subset List.mem_cons_self
    · exact absurd hlisted (hnew hitem)

/-- **Pending requests** -/
theorem pending_requests_kept {poolSize : UInt32} {nextRequestId : UInt64} {byteOrder : ByteOrder}
    {config : MsgConfig} {reader : ResponseReader κ} {es es' : List SenderEvent}
    {s t u : SenderState κ} {k : Nat} {p : MsgPtr}
    (hrun : RunsWith (fun s e t => s.step e = .ok t) Proper
      (start poolSize nextRequestId byteOrder config reader) es s)
    (hadds : s.Adds k p t)
    (hspared : RunsWith (fun s e t => s.step e = .ok t)
      (fun s e => (s.Proper e ∧ ¬ s.Releases p e) ∧ s.Spares p e) t es' u) :
    (∃ msg, u.Kept p msg) ∧
    ∀ e v, u.Proper e → ¬ u.Releases p e → u.step e = .ok v →
      ((∃ msg, v.Kept p msg) ↔ u.Spares p e) := by
  obtain ⟨hs, hw⟩ := run_written hrun
  obtain ⟨hsound, hkept⟩ := hspared.invariant (fun s => s.Sound ∧ ∃ msg, s.Kept p msg)
    (fun a e b ha he hstep => by
      obtain ⟨hsound, msg, hkept⟩ := ha
      exact ⟨hsound.step he.1.1 hstep, (kept_step hsound he.1.1 hkept he.1.2 hstep).mpr he.2⟩)
    ⟨hs.step (e := .loopSend k) trivial hadds.step, hadds.kept hs hw⟩
  refine ⟨hkept, fun e v hproper hreleases hstep => ?_⟩
  obtain ⟨msg, hmsg⟩ := hkept
  exact kept_step hsound hproper hmsg hreleases hstep

/-! ## §3 A sender of one slot -/

/-- A message of one byte. -/
def oneByte : Msg := ⟨.mk' 41 1 0 0 0, [97]⟩

/-- A sender over a pool of one slot, whose frame listener accepts every response. -/
def oneSlot : SenderState Unit :=
  start 1 5 .networkOrder ⟨1000, 60000, 1000000⟩
    ⟨.ofWhole some some, .networkOrder, fun _ _ => .ok, ()⟩

/-- The sender after a request was sent at the time 10 and added to the backlog. -/
def onePending : SenderState Unit where
  sender := { oneSlot.sender with
    m_msgClient :=
      { m_requestPool := ⟨[⟨5, .pending, 0, some 0, none, 10, 10⟩], 6⟩
        byteOrder := .networkOrder
        messages := Function.update (Function.update (fun _ => none) 0 (some oneByte)) 0
          (some (stampHeader oneByte 5 0))
        writes := [] }
    m_backlog := ⟨1, [(5, ⟨0, 0⟩)], [⟨0, 0⟩], [⟨0, 0⟩]⟩ }
  waiting := []
  handed := [0]
  clock := 10

/-- All that refers to messages, where no transaction waits. -/
theorem inUse_mem {l : List MsgPtr} (hwaiting : s.waiting = [])
    (hmap : ∀ item ∈ s.sender.m_backlog.m_requestMap, item.2.m_msg ∈ l)
    (hset : ∀ entry ∈ s.sender.m_backlog.m_requestSet, entry.m_msg ∈ l)
    (hheap : ∀ entry ∈ s.sender.m_backlog.m_minHeap, entry.m_msg ∈ l)
    (hslots : ∀ r ∈ s.slots, ∀ q ∈ r.m_request, q ∈ l)
    (hwrites : ∀ write ∈ s.writes, ∀ q ∈ write.userData, q ∈ l) (hp : s.InUse p) : p ∈ l := by
  rcases hp with hrefers | ⟨data, hcall⟩ | ⟨write, hwrite, hdata⟩
  · rcases refersTo_iff.mp hrefers with
      ⟨_, hmem, rfl⟩ | ⟨_, hmem, rfl⟩ | ⟨_, hmem, rfl⟩ | ⟨r, hr, -, hrp⟩
    · exact hmap _ hmem
    · exact hset _ hmem
    · exact hheap _ hmem
    · exact hslots r hr p hrp
  · rw [hwaiting] at hcall
    cases hcall
  · exact hwrites write hwrite p hdata

theorem onePending_run : ∃ s, RunsWith (fun s e t => s.step e = .ok t) Proper oneSlot
    [.allocate 0 oneByte, .send 0 ⟨10, true, .ok⟩] s ∧ s.Adds 0 0 onePending := by
  have hnone : ∀ p, ¬ oneSlot.InUse p :=
    fun p hp => List.not_mem_nil
      (inUse_mem rfl (by decide) (by decide) (by decide) (by decide) (by decide) hp)
  have hnone' : ∀ p, ¬ (oneSlot.allocate 0 oneByte).InUse p :=
    fun p hp => List.not_mem_nil
      (inUse_mem rfl (by decide) (by decide) (by decide) (by decide) (by decide) hp)
  exact ⟨_, .cons (hnone 0) rfl (.cons ⟨hnone' 0,
    ⟨by decide, fun p _ hp => absurd hp (hnone' p), nofun⟩, by decide⟩ rfl (.nil _)),
    ⟨_, rfl, rfl⟩, rfl, _, List.mem_cons_self, rfl⟩

/-- A reconnection between two ticks does no harm. -/
theorem pending_requests_kept_reconnect : ∃ s u,
    RunsWith (fun s e t => s.step e = .ok t) Proper oneSlot
      [.allocate 0 oneByte, .send 0 ⟨10, true, .ok⟩] s ∧ s.Adds 0 0 onePending ∧
    RunsWith (fun s e t => s.step e = .ok t)
      (fun s e => (s.Proper e ∧ ¬ s.Releases 0 e) ∧ s.Spares 0 e) onePending
      [.visit 0 20, .disconnect, .connect] u ∧ ∃ msg, u.Kept 0 msg := by
  obtain ⟨s, hrun, hadds⟩ := onePending_run
  obtain ⟨u, hspared⟩ : ∃ u, RunsWith (fun s e t => s.step e = .ok t)
      (fun s e => (s.Proper e ∧ ¬ s.Releases 0 e) ∧ s.Spares 0 e) onePending
      [.visit 0 20, .disconnect, .connect] u := by
    refine ⟨_, .cons ⟨⟨?_, ?_⟩, ?_, ?_⟩ rfl
      (.cons ⟨⟨trivial, id⟩, trivial⟩ rfl (.cons ⟨⟨trivial, id⟩, trivial⟩ rfl (.nil _)))⟩
    · exact (by decide : (10 : UInt64) ≤ 20)
    · rintro (⟨i, r, hr, -, hage⟩ | ⟨response, ⟨r, hr, -, -, harrived, -⟩, -⟩)
      · rw [List.mem_singleton.mp (List.mem_of_getElem? hr)] at hage
        exact absurd hage (by decide)
      · rw [List.mem_singleton.mp (List.mem_of_getElem? hr)] at harrived
        cases harrived
    · intro r hr _ _
      rw [List.mem_singleton.mp (List.mem_of_getElem? hr)]
      decide
    · rintro response ⟨r, hr, -, -, harrived, -⟩
      rw [List.mem_singleton.mp (List.mem_of_getElem? hr)] at harrived
      cases harrived
  exact ⟨s, u, hrun, hadds, hspared, (pending_requests_kept hrun hadds hspared).1⟩

/-- A tick between a disconnect and a reconnection frees the request, which the backlog still
    has. -/
theorem disconnect_drops_request : ∃ s u,
    RunsWith (fun s e t => s.step e = .ok t) Proper oneSlot
      [.allocate 0 oneByte, .send 0 ⟨10, true, .ok⟩] s ∧ s.Adds 0 0 onePending ∧
    RunsWith (fun s e t => s.step e = .ok t) (fun s e => s.Proper e ∧ ¬ s.Releases 0 e)
      onePending [.disconnect, .visit 0 20] u ∧
    u.sender.freed = [⟨0, true⟩] ∧ u.sender.pool.m_requests.all MsgRequest.isVacant = true ∧
    ¬ ∃ msg, u.Kept 0 msg := by
  obtain ⟨s, hrun, hadds⟩ := onePending_run
  refine ⟨s, _, hrun, hadds, .cons ⟨trivial, id⟩ rfl (.cons ⟨?_, ?_⟩ rfl (.nil _)), rfl, rfl, ?_⟩
  · exact (by decide : (10 : UInt64) ≤ 20)
  · rintro (⟨i, r, hr, -, hage⟩ | ⟨response, ⟨r, hr, -, -, harrived, -⟩, -⟩)
    · rw [List.mem_singleton.mp (List.mem_of_getElem? hr)] at hage
      exact absurd hage (by decide)
    · rw [List.mem_singleton.mp (List.mem_of_getElem? hr)] at harrived
      cases harrived
  · rintro ⟨msg, hkept⟩
    have hlive : none = some msg := hkept.message
    cases hlive

end SenderState

end Commutil.Client
