import Commutil.Client.MsgBacklog
import Commutil.Client.MsgClient
import Commutil.Library.Transitions

/-!
# Failed Sends

What an error of `MsgClient::sendMsg` leaves in the request pool.  A send takes a
slot, fills it and then puts the message on the wire; on failure the slot loses
its request, but not its status.

The main result says for which calls a failed send of a message without a slot
leaves every slot as it was, and that runs of such sends lose no slot.
-/

namespace Commutil.Client

open Commutil.Framing Commutil.Io Commutil.Library

/-! ## §1 Slots -/

/-- A slot that is taken holds the message. -/
def MsgRequestPool.Holds (pool : MsgRequestPool) (request : MsgPtr) : Prop :=
  ∃ r ∈ pool.m_requests, r.m_requestStatus ≠ .idle ∧ r.m_request = some request

/-- A slot that is taken and holds no message. -/
def MsgRequest.isLost (r : MsgRequest) : Bool :=
  !r.isVacant && r.m_request.isNone

/-- The number of slots that are taken and hold no message. -/
def MsgRequestPool.lostSlots (pool : MsgRequestPool) : Nat :=
  pool.m_requests.countP MsgRequest.isLost

/-- The number of slots that `getVacantRequest` can find. -/
def MsgRequestPool.vacantSlots (pool : MsgRequestPool) : Nat :=
  pool.m_requests.countP MsgRequest.isVacant

/-! ## §2 When putting a message on the wire fails -/

/-- No buffer is allocated, the message cannot be serialized into it, or it is not written. -/
def SendFails (order : ByteOrder) (msg : Msg) (env : SendEnv) : Prop :=
  ∃ rc, transmit order msg env = .ok (.error rc)

/-- Two writes that meet the same room: both run out of it, or none does. -/
private def SameRoom :
    Except ErrorCode FixedOutputStream → Except ErrorCode FixedOutputStream → Prop
  | .ok os, .ok os' =>
    os.m_bufferSize = os'.m_bufferSize ∧ os.m_buffer.length = os'.m_buffer.length
  | .error rc, .error rc' => rc = .nomem ∧ rc' = .nomem
  | _, _ => False

private theorem SameRoom.bind {x y : Except ErrorCode FixedOutputStream}
    {f g : FixedOutputStream → Except ErrorCode FixedOutputStream} (h : SameRoom x y)
    (hnext : ∀ os os', SameRoom (.ok os) (.ok os') → SameRoom (f os) (g os')) :
    SameRoom (x >>= f) (y >>= g) := by
  cases x with
  | error rc =>
    cases y with
    | error rc' => exact h
    | ok os' => exact h.elim
  | ok os =>
    cases y with
    | error rc' => exact h.elim
    | ok os' => exact hnext os os' h

/-- Writing needs room for the length of what is written. -/
private theorem SameRoom.writeBytes {os os' : FixedOutputStream} {bytes bytes' : List UInt8}
    (h : SameRoom (.ok os) (.ok os')) (hlen : bytes.length = bytes'.length) :
    SameRoom (os.writeBytes bytes) (os'.writeBytes bytes') := by
  obtain ⟨hsize, hbuffer⟩ := h
  unfold FixedOutputStream.writeBytes
  rw [← hsize, ← hbuffer, ← hlen]
  split
  · exact ⟨rfl, rfl⟩
  · refine ⟨rfl, ?_⟩
    simp only [List.length_append, hbuffer, hlen]

private theorem SameRoom.serializeUInt {os os' : FixedOutputStream} (n v v' : Nat)
    (h : SameRoom (.ok os) (.ok os')) :
    SameRoom (os.serializeUInt n v) (os'.serializeUInt n v') := by
  apply SameRoom.writeBytes h
  rw [encodeUInt_length, encodeUInt_length]

private theorem MsgHeader.serialize_sameRoom {h h' : MsgHeader}
    (hmagic : h.m_magic.length = h'.m_magic.length) {os os' : FixedOutputStream}
    (hroom : SameRoom (.ok os) (.ok os')) : SameRoom (h.serialize os) (h'.serialize os') := by
  unfold MsgHeader.serialize
  refine (hroom.writeBytes hmagic).bind fun _ _ hroom => ?_
  iterate 7 refine (hroom.serializeUInt _ _ _).bind fun _ _ hroom => ?_
  exact hroom.serializeUInt _ _ _

/-- Two serializations that both succeed, both run out of room or both fault. -/
private def SameOutcome : Except Fault (Except ErrorCode FixedOutputStream) →
    Except Fault (Except ErrorCode FixedOutputStream) → Prop
  | .error fault, .error fault' => fault = fault'
  | .ok x, .ok y => SameRoom x y
  | _, _ => False

/-- The second part of `Msg::serialize`. -/
private def writePayload (size : Nat) (payload : List UInt8) :
    Except ErrorCode FixedOutputStream → Except Fault (Except ErrorCode FixedOutputStream)
  | .error rc => .ok (.error rc)
  | .ok os =>
    if payload.length < size then .error .outOfBounds
    else .ok (os.writeBytes (payload.take size))

private theorem writePayload_sameOutcome {x y : Except ErrorCode FixedOutputStream}
    (h : SameRoom x y) (size : Nat) (payload : List UInt8) :
    SameOutcome (writePayload size payload x) (writePayload size payload y) := by
  cases x with
  | error rc =>
    cases y with
    | error rc' => exact h
    | ok os' => exact h.elim
  | ok os =>
    cases y with
    | error rc' => exact h.elim
    | ok os' =>
      unfold writePayload
      dsimp only
      split
      · rfl
      · exact SameRoom.writeBytes h rfl

/-- Stamping a header does not change whether there is room for the message. -/
private theorem serialize_stampHeader (msg : Msg) (requestId : UInt64) (requestIndex : Nat)
    (os : FixedOutputStream) :
    SameOutcome (msg.serialize os) ((stampHeader msg requestId requestIndex).serialize os) := by
  have hheader := @MsgHeader.serialize_sameRoom msg.m_header
    (stampHeader msg requestId requestIndex).m_header rfl os os ⟨rfl, rfl⟩
  exact writePayload_sameOutcome hheader (getPayloadSizeBytes msg.m_header) msg.m_payload

theorem sendFails_stampHeader (order : ByteOrder) (msg : Msg) (env : SendEnv) (requestId : UInt64)
    (requestIndex : Nat) :
    SendFails order (stampHeader msg requestId requestIndex) env ↔ SendFails order msg env := by
  have houtcome := serialize_stampHeader msg requestId requestIndex
    (.new msg.m_header.m_length.toNat order)
  have hlength : (stampHeader msg requestId requestIndex).m_header.m_length =
      msg.m_header.m_length := rfl
  unfold SendFails transmit
  rw [hlength]
  cases env.allocated with
  | false => exact Iff.rfl
  | true =>
    cases hfirst : msg.serialize (.new msg.m_header.m_length.toNat order) <;>
      cases hsecond : (stampHeader msg requestId requestIndex).serialize
        (.new msg.m_header.m_length.toNat order) <;>
      rw [hfirst, hsecond] at houtcome
    · simp
    · exact houtcome.elim
    · exact houtcome.elim
    · rename_i x y
      cases x <;> cases y
      · simp
      · exact houtcome.elim
      · exact houtcome.elim
      · by_cases hwrite : env.write = .ok <;> simp [hwrite]

private theorem serialize_error {msg : Msg} {os : FixedOutputStream} {rc : ErrorCode}
    (h : msg.serialize os = .ok (.error rc)) : rc = .nomem := by
  have houtcome := serialize_stampHeader msg 0 0 os
  rw [h] at houtcome
  cases hsecond : (stampHeader msg 0 0).serialize os with
  | error fault =>
    rw [hsecond] at houtcome
    exact houtcome.elim
  | ok y =>
    rw [hsecond] at houtcome
    cases y with
    | error rc' => exact houtcome.1
    | ok os' => exact houtcome.elim

/-- A send that fails returns an error. -/
theorem transmit_error_ne_ok {order : ByteOrder} {msg : Msg} {env : SendEnv} {rc : ErrorCode}
    (h : transmit order msg env = .ok (.error rc)) : rc ≠ .ok := by
  unfold transmit at h
  split at h
  · cases h
    decide
  · split at h
    · cases h
    · rename_i hserialize
      cases h
      rw [serialize_error hserialize]
      decide
    · split at h
      · rename_i hwrite
        cases h
        exact hwrite
      · cases h

/-! ## §3 What a failed send does to the slots -/

/-- A call of `sendMsg` and what it meets. -/
structure SendCall where
  request : MsgPtr
  requestFlags : UInt32
  env : SendEnv
  deriving DecidableEq, Repr

namespace SendCall

/-- The message keeps the slot that its header names. -/
def reuses (call : SendCall) : Prop :=
  call.requestFlags &&& COMMUTIL_REQUEST_FLAG_REUSE ≠ 0

instance (call : SendCall) : Decidable call.reuses := inferInstanceAs (Decidable (_ ≠ _))

/-- The call returns an error. -/
def FailsWith (call : SendCall) (c c' : MsgClient) : Prop :=
  ∃ rc data, c.sendMsg call.request call.requestFlags call.env = .ok (rc, data, c') ∧ rc ≠ .ok

end SendCall

private theorem set_of_getElem? {α : Type} {l : List α} {i : Nat} {a : α} (h : l[i]? = some a) :
    l.set i a = l := by
  obtain ⟨hlt, rfl⟩ := List.getElem?_eq_some_iff.mp h
  exact List.set_getElem_self hlt

section Sends

variable {c c' : MsgClient} {call : SendCall} {msg : Msg}

private theorem sendThrough_fails {index : Nat} {r : MsgRequest} {userData : Option MsgPtr}
    {env : SendEnv} (h : SendFails c.byteOrder msg env) :
    ∃ rc, rc ≠ .ok ∧
      c.sendThrough msg index r userData env = .ok (rc, c.setSlot index r.clearRequest) := by
  obtain ⟨rc, htransmit⟩ := h
  refine ⟨rc, transmit_error_ne_ok htransmit, ?_⟩
  unfold MsgClient.sendThrough
  rw [htransmit]

private theorem sendThrough_ok {index : Nat} {r : MsgRequest} {userData : Option MsgPtr}
    {env : SendEnv} (h : ¬ SendFails c.byteOrder msg env) {rc : ErrorCode}
    (hsend : c.sendThrough msg index r userData env = .ok (rc, c')) : rc = .ok := by
  unfold MsgClient.sendThrough at hsend
  split at hsend
  · cases hsend
  · rename_i htransmit
    exact absurd ⟨_, htransmit⟩ h
  · cases hsend
    rfl

theorem sendMsg_new (h : ¬ call.reuses) :
    c.sendMsg call.request call.requestFlags call.env =
      c.sendNew call.request call.requestFlags call.env := if_neg h

theorem sendMsg_reused (h : call.reuses) :
    c.sendMsg call.request call.requestFlags call.env =
      c.sendReused call.request call.requestFlags call.env := if_pos h

/-- The slot that a failed send leaves behind. -/
structure LeftBehind (c : MsgClient) (index : Nat) (left : MsgRequest) (c' : MsgClient) : Prop where
  slots : c'.m_requestPool.m_requests = c.m_requestPool.m_requests.set index left
  in_range : index < c.m_requestPool.m_requests.length
  empty : left.m_request = none

/-- A message that gets the slot `r` is put on the wire from there. -/
theorem sendNew_eq {index : Nat} {r : MsgRequest} {request : MsgPtr} {requestFlags : UInt32}
    {env : SendEnv} (hslot : c.m_requestPool.m_requests[index]? = some r)
    (hgrab : c.m_requestPool.grabSlot = .ok (c.m_requestPool.m_nextRequestId, some index,
      c.m_requestPool.issued.setSlot index (r.grabbed c.m_requestPool.m_nextRequestId)))
    (hmsg : c.messages request = some msg) :
    c.sendNew request requestFlags env =
      match (c.installed request msg index r requestFlags env.now).sendThrough
          (stampHeader msg c.m_requestPool.m_nextRequestId index) index
          (r.holding request c.m_requestPool.m_nextRequestId requestFlags env.now) (some request)
          env with
      | .error fault => .error fault
      | .ok (rc, c') => .ok (rc, some ⟨c.m_requestPool.m_nextRequestId, index⟩, c') := by
  have hlt := (List.getElem?_eq_some_iff.mp hslot).1
  have hread := MsgRequestPool.setSlot_self c.m_requestPool.issued hlt
    (r.grabbed c.m_requestPool.m_nextRequestId)
  unfold MsgClient.sendNew
  simp only [hgrab, hread, MsgClient.load, hmsg, MsgClient.setSlot, MsgClient.store,
    MsgRequestPool.setSlot_setSlot]
  rfl

/-- A message that has no slot takes a vacant one and, when it cannot be sent, leaves it pending
    and without a message. -/
theorem sendNew_leaves (hnew : ¬ call.reuses) (hmsg : c.messages call.request = some msg)
    (hfail : SendFails c.byteOrder msg call.env)
    (hvacant : ∃ r ∈ c.m_requestPool.m_requests, r.m_requestStatus = .idle) :
    ∃ c' index r left, call.FailsWith c c' ∧ c.m_requestPool.m_requests[index]? = some r ∧
      r.m_requestStatus = .idle ∧ left.m_requestStatus = .pending ∧ LeftBehind c index left c' := by
  rcases c.m_requestPool.grabSlot_cases with
    ⟨index, r, hslot, hidle, hgrab⟩ | ⟨-, hbusy, -⟩ | ⟨hnil, -⟩
  · have hlt := (List.getElem?_eq_some_iff.mp hslot).1
    have hstamped : SendFails
        (c.installed call.request msg index r call.requestFlags call.env.now).byteOrder
        (stampHeader msg c.m_requestPool.m_nextRequestId index) call.env :=
      (sendFails_stampHeader _ _ _ _ _).mpr hfail
    obtain ⟨rc, hrc, hsend⟩ := @sendThrough_fails _ _ index
      (r.holding call.request c.m_requestPool.m_nextRequestId call.requestFlags call.env.now)
      (some call.request) _ hstamped
    have hcall : call.FailsWith c
        ((c.installed call.request msg index r call.requestFlags call.env.now).setSlot index
          (r.holding call.request c.m_requestPool.m_nextRequestId call.requestFlags
            call.env.now).clearRequest) := by
      refine ⟨rc, some ⟨c.m_requestPool.m_nextRequestId, index⟩, ?_, hrc⟩
      rw [sendMsg_new hnew, sendNew_eq hslot hgrab hmsg, hsend]
    exact ⟨_, index, r, _, hcall, hslot, hidle, rfl, ⟨List.set_set .., hlt, rfl⟩⟩
  · obtain ⟨r, hr, hidle⟩ := hvacant
    exact absurd hidle (hbusy r hr)
  · obtain ⟨r, hr, -⟩ := hvacant
    rw [hnil] at hr
    cases hr

/-- Otherwise a send with a new slot returns an error only where it finds no slot. -/
theorem sendNew_keeps (hnew : ¬ call.reuses)
    (hkeeps : (∀ msg, c.messages call.request = some msg → ¬ SendFails c.byteOrder msg call.env) ∨
      ∀ r ∈ c.m_requestPool.m_requests, r.m_requestStatus ≠ .idle)
    (hfails : call.FailsWith c c') :
    c'.m_requestPool.m_requests = c.m_requestPool.m_requests := by
  obtain ⟨rc, data, hsend, hrc⟩ := hfails
  rw [sendMsg_new hnew] at hsend
  rcases c.m_requestPool.grabSlot_cases with
    ⟨index, r, hslot, hidle, hgrab⟩ | ⟨-, hbusy, hgrab⟩ | ⟨-, hgrab⟩
  · cases hmsg : c.messages call.request with
    | none =>
      -- a message that is not there is a fault, not an error
      have hlt := (List.getElem?_eq_some_iff.mp hslot).1
      have hread := MsgRequestPool.setSlot_self c.m_requestPool.issued hlt
        (r.grabbed c.m_requestPool.m_nextRequestId)
      simp only [MsgClient.sendNew, hgrab, hread, MsgClient.load, hmsg, reduceCtorEq] at hsend
    | some msg =>
      rw [sendNew_eq hslot hgrab hmsg] at hsend
      split at hsend
      · cases hsend
      · rename_i rc' c'' hthrough
        cases hsend
        -- a slot was grabbed, so one was idle, and then no step after it fails
        rcases hkeeps with hok | hbusy
        · have hstamped : ¬ SendFails
              (c.installed call.request msg index r call.requestFlags call.env.now).byteOrder
              (stampHeader msg c.m_requestPool.m_nextRequestId index) call.env :=
            fun h => hok msg hmsg ((sendFails_stampHeader _ _ _ _ _).mp h)
          exact absurd (sendThrough_ok hstamped hthrough) hrc
        · exact absurd hidle (hbusy r (List.mem_of_getElem? hslot))
  · unfold MsgClient.sendNew at hsend
    rw [hgrab] at hsend
    cases hsend
    rfl
  · unfold MsgClient.sendNew at hsend
    rw [hgrab] at hsend
    cases hsend

/-- A message that is sent again from the slot it names takes its request out of that slot when it
    cannot be sent. -/
theorem sendReused_leaves (hreuse : call.reuses) (hmsg : c.messages call.request = some msg)
    (hfail : SendFails c.byteOrder msg call.env) {index : Nat} {r : MsgRequest}
    (hdata : c.m_requestPool.getRequestData msg.m_header = some (index, r)) :
    ∃ c', call.FailsWith c c' ∧
      LeftBehind c index (r.setFlags call.requestFlags).clearRequest c' := by
  have hlt : index < c.m_requestPool.m_requests.length :=
    (List.getElem?_eq_some_iff.mp (MsgBacklog.getRequestData_eq_some.mp hdata).2.1).1
  obtain ⟨rc, hrc, hsend⟩ := @sendThrough_fails
    (c.setSlot index (r.setFlags call.requestFlags)) msg index (r.setFlags call.requestFlags) none
      call.env hfail
  have hcall : call.FailsWith c ((c.setSlot index (r.setFlags call.requestFlags)).setSlot index
      (r.setFlags call.requestFlags).clearRequest) := by
    refine ⟨rc, some ⟨msg.m_header.m_requestId, 0⟩, ?_, hrc⟩
    rw [sendMsg_reused hreuse]
    simp only [MsgClient.sendReused, MsgClient.load, hmsg, hdata, hsend]
  exact ⟨_, hcall, List.set_set .., hlt, rfl⟩

/-- Otherwise a send from the slot of the message returns an error only where it finds no slot, or
    where the slot was empty and is left so. -/
theorem sendReused_keeps (hreuse : call.reuses)
    (hkeeps : ∀ msg, c.messages call.request = some msg → SendFails c.byteOrder msg call.env →
      ∀ index r, c.m_requestPool.getRequestData msg.m_header = some (index, r) →
        (r.setFlags call.requestFlags).clearRequest = r)
    (hfails : call.FailsWith c c') :
    c'.m_requestPool.m_requests = c.m_requestPool.m_requests := by
  obtain ⟨rc, data, hsend, hrc⟩ := hfails
  rw [sendMsg_reused hreuse] at hsend
  unfold MsgClient.sendReused MsgClient.load at hsend
  cases hmsg : c.messages call.request with
  | none =>
    rw [hmsg] at hsend
    -- the message names no slot
    cases hsend
  | some msg =>
    simp only [hmsg] at hsend
    split at hsend
    · cases hsend
      rfl
    · rename_i index r hdata
      split at hsend
      · cases hsend
      · rename_i rc' c'' hthrough
        cases hsend
        by_cases hfail : SendFails c.byteOrder msg call.env
        · obtain ⟨rc', -, hfailed⟩ := @sendThrough_fails
            (c.setSlot index (r.setFlags call.requestFlags)) msg index
              (r.setFlags call.requestFlags) none call.env hfail
          rw [hfailed] at hthrough
          cases hthrough
          have hslot := (MsgBacklog.getRequestData_eq_some.mp hdata).2.1
          -- `clearRequest` takes out what was not there
          have hset :
              (c.m_requestPool.m_requests.set index (r.setFlags call.requestFlags)).set index
              (r.setFlags call.requestFlags).clearRequest = c.m_requestPool.m_requests := by
            rw [List.set_set, hkeeps msg hmsg hfail index r hdata]
            exact set_of_getElem? hslot
          exact hset
        · exact absurd (sendThrough_ok (c := c.setSlot index (r.setFlags call.requestFlags)) hfail
            hthrough) hrc

end Sends

/-! ## §4 Which failed sends leave the slots as they were -/

/-- The slots are as before, or the message is in one of them; none more is lost. -/
def NoHalfUsedSlot (c : MsgClient) (request : MsgPtr) (c' : MsgClient) : Prop :=
  (c'.m_requestPool.m_requests = c.m_requestPool.m_requests ∨ c'.m_requestPool.Holds request) ∧
    c'.m_requestPool.lostSlots ≤ c.m_requestPool.lostSlots

/-- A call that fails on a message without a slot leaves no slot half used. -/
def Restores (c : MsgClient) (call : SendCall) : Prop :=
  ∀ c', call.FailsWith c c' → ¬ c.m_requestPool.Holds call.request →
    NoHalfUsedSlot c call.request c'

/-- The message has a slot, or is not left behind by the call: it can be put on the wire, or the
    call finds no slot, or an empty one with the same flags. -/
def KeepsSlots (c : MsgClient) (call : SendCall) : Prop :=
  c.m_requestPool.Holds call.request ∨
    ∀ msg, c.messages call.request = some msg → SendFails c.byteOrder msg call.env →
      if call.reuses then
        ∀ index r, c.m_requestPool.getRequestData msg.m_header = some (index, r) →
          r.m_flags = call.requestFlags ∧ r.m_request = none ∧ r.m_requestTimeMillis = 0
      else ∀ r ∈ c.m_requestPool.m_requests, r.m_requestStatus ≠ .idle

section Restoring

variable {c c' : MsgClient} {call : SendCall}

theorem clearRequest_setFlags_eq {r : MsgRequest} {flags : UInt32} :
    (r.setFlags flags).clearRequest = r ↔
      r.m_flags = flags ∧ r.m_request = none ∧ r.m_requestTimeMillis = 0 := by
  cases r
  simp only [MsgRequest.setFlags, MsgRequest.clearRequest, MsgRequest.mk.injEq, true_and, and_true]
  tauto

/-- A call that meets the condition, and fails on a message without a slot, changes no slot. -/
theorem KeepsSlots.slots_eq (h : KeepsSlots c call) (hfails : call.FailsWith c c')
    (hfree : ¬ c.m_requestPool.Holds call.request) :
    c'.m_requestPool.m_requests = c.m_requestPool.m_requests := by
  have hkeeps := h.resolve_left hfree
  by_cases hreuse : call.reuses
  · refine sendReused_keeps hreuse (fun msg hmsg hfail index r hdata => ?_) hfails
    have hempty := hkeeps msg hmsg hfail
    rw [if_pos hreuse] at hempty
    exact clearRequest_setFlags_eq.mpr (hempty index r hdata)
  · refine sendNew_keeps hreuse ?_ hfails
    by_cases hfail : ∃ msg, c.messages call.request = some msg ∧ SendFails c.byteOrder msg call.env
    · obtain ⟨msg, hmsg, hfail⟩ := hfail
      have hbusy := hkeeps msg hmsg hfail
      rw [if_neg hreuse] at hbusy
      exact .inr hbusy
    · exact .inl fun msg hmsg hsend => hfail ⟨msg, hmsg, hsend⟩

/-- What is left behind is not the pool as it was, and the message is in no slot. -/
theorem LeftBehind.not_restored {index : Nat} {left r : MsgRequest}
    (h : LeftBehind c index left c') (hslot : c.m_requestPool.m_requests[index]? = some r)
    (hleft : left ≠ r) (hfree : ¬ c.m_requestPool.Holds call.request) :
    ¬ NoHalfUsedSlot c call.request c' := by
  rintro ⟨hsame | ⟨r', hmem, hbusy, hrequest⟩, -⟩
  · rw [h.slots] at hsame
    have hread := List.getElem?_set_self (a := left) h.in_range
    rw [hsame, hslot] at hread
    exact hleft (Option.some.inj hread).symm
  · rw [h.slots] at hmem
    rcases List.mem_or_eq_of_mem_set hmem with hold | rfl
    · exact hfree ⟨r', hold, hbusy, hrequest⟩
    · rw [h.empty] at hrequest
      cases hrequest

theorem restores_iff (c : MsgClient) (call : SendCall) : Restores c call ↔ KeepsSlots c call := by
  constructor
  · intro hrestores
    by_cases hfree : c.m_requestPool.Holds call.request
    · exact .inl hfree
    refine .inr fun msg hmsg hfail => ?_
    split
    · rename_i hreuse
      intro index r hdata
      -- the failing call that the code makes leaves the slot changed
      obtain ⟨c', hcall, hleft⟩ := sendReused_leaves hreuse hmsg hfail hdata
      have hslot := (MsgBacklog.getRequestData_eq_some.mp hdata).2.1
      by_contra hne
      exact hleft.not_restored hslot (fun heq => hne (clearRequest_setFlags_eq.mp heq)) hfree
        (hrestores c' hcall hfree)
    · rename_i hnew
      intro r hr hidle
      obtain ⟨c', index, r', left, hcall, hslot, hidle', hpending, hleft⟩ :=
        sendNew_leaves hnew hmsg hfail ⟨r, hr, hidle⟩
      refine hleft.not_restored hslot ?_ hfree (hrestores c' hcall hfree)
      rintro rfl
      rw [hidle'] at hpending
      cases hpending
  · intro hkeeps c' hfails hfree
    have hslots := hkeeps.slots_eq hfails hfree
    refine ⟨.inl hslots, ?_⟩
    unfold MsgRequestPool.lostSlots
    rw [hslots]

end Restoring

/-- **Failed sends.**  A call that fails on a message without a slot leaves no slot half used
    exactly if it meets the condition; and a run of such calls, each of which meets it, leaves as
    many slots to be found as before. -/
theorem failed_send_restores_iff (c : MsgClient) :
    (∀ call : SendCall, Restores c call ↔ KeepsSlots c call) ∧
    ∀ (calls : List SendCall) (c' : MsgClient),
      RunsWith (fun c call c' => call.FailsWith c c' ∧ ¬ c.m_requestPool.Holds call.request)
          KeepsSlots c calls c' →
        c'.m_requestPool.m_requests = c.m_requestPool.m_requests ∧
        c'.m_requestPool.vacantSlots = c.m_requestPool.vacantSlots ∧
        c'.m_requestPool.lostSlots = c.m_requestPool.lostSlots := by
  refine ⟨restores_iff c, fun calls c' hrun => ?_⟩
  have hslots := hrun.invariant
    (fun s => s.m_requestPool.m_requests = c.m_requestPool.m_requests)
    (fun s call t hs hkeeps hstep => (hkeeps.slots_eq hstep.1 hstep.2).trans hs) rfl
  unfold MsgRequestPool.vacantSlots MsgRequestPool.lostSlots
  rw [hslots]
  exact ⟨rfl, rfl, rfl⟩

/-- A client with one slot of the given status, and a message. -/
def clientOfSlot (status : MsgRequestStatus) : MsgClient where
  m_requestPool := ⟨[⟨7, status, 0, none, none, 0, 0⟩], 8⟩
  byteOrder := .networkOrder
  messages := fun _ => some ⟨.mk' 41 1 0 0 0, [97]⟩
  writes := []

/-- A call that gets no buffer. -/
def callWithoutBuffer : SendCall := ⟨0, 0, ⟨5, false, .ok⟩⟩

/-- Without a vacant slot, nothing is left half used. -/
theorem failed_send_restores_busy :
    Restores (clientOfSlot .pending) callWithoutBuffer ∧
      ∃ c', RunsWith (fun c call c' => call.FailsWith c c' ∧ ¬ c.m_requestPool.Holds call.request)
          KeepsSlots (clientOfSlot .pending) [callWithoutBuffer] c' ∧
        c'.m_requestPool.lostSlots = (clientOfSlot .pending).m_requestPool.lostSlots := by
  have hkeeps : KeepsSlots (clientOfSlot .pending) callWithoutBuffer :=
    .inr fun _ _ _ => by
      rw [if_neg (by decide)]
      decide
  have hrun : RunsWith
      (fun c call c' => call.FailsWith c c' ∧ ¬ c.m_requestPool.Holds call.request) KeepsSlots
      (clientOfSlot .pending) [callWithoutBuffer]
      { clientOfSlot .pending with
        m_requestPool := (clientOfSlot .pending).m_requestPool.issued } :=
    .cons hkeeps ⟨⟨.resourceLimit, none, rfl, by decide⟩,
      by simp [MsgRequestPool.Holds, clientOfSlot]⟩ (.nil _)
  exact ⟨((failed_send_restores_iff _).1 _).mpr hkeeps, _, hrun,
    ((failed_send_restores_iff _).2 _ _ hrun).2.2⟩

/-- The only slot is taken for a message that gets no buffer, and stays taken without it. -/
theorem failed_send_loses_slot :
    ∃ c', callWithoutBuffer.FailsWith (clientOfSlot .idle) c' ∧
      ¬ (clientOfSlot .idle).m_requestPool.Holds callWithoutBuffer.request ∧
      (clientOfSlot .idle).m_requestPool.vacantSlots = 1 ∧
      c'.m_requestPool.vacantSlots = 0 ∧ c'.m_requestPool.lostSlots = 1 ∧
      ¬ NoHalfUsedSlot (clientOfSlot .idle) callWithoutBuffer.request c' := by
  refine ⟨_, ⟨.nomem, _, rfl, by decide⟩, by simp [MsgRequestPool.Holds, clientOfSlot], rfl,
    rfl, rfl,
    ?_⟩
  rintro ⟨-, hlost⟩
  exact absurd hlost (by decide)

end Commutil.Client
