import Commutil.Client.MsgClient
import Commutil.Framing.Decoding
import Mathlib.Data.List.Pairwise

/-!
# Request and Response Correlation

What a client sends can be told apart by what comes back.  Along any sequence of
sends, with slots cleared in between, the requests that are still outstanding have
slots and ids of their own, the bytes on the wire name the slot that holds the
message, and a reply that echoes index and id ends up in that slot and nowhere else.

The ids are taken from a 64-bit counter, so they are distinct as long as fewer than
2^64 were issued; `IssuedBefore` says so without naming the start of the counter.
-/

namespace Commutil.Client

open Commutil.Framing Commutil.Io SegmentedInputStream

/-! ## §1 Runs of a client -/

/-- A call of the user of a client. -/
inductive ClientOp where
  /-- `sendMsg`; the message has these contents, and the buffer may not be allocated. -/
  | send (request : MsgPtr) (msg : Msg) (requestFlags : UInt32) (now : UInt64) (allocated : Bool)
  /-- The result in a slot is cleared. -/
  | clear (index : Nat)

/-- A message as `allocMsg` lays it out, sent without `COMMUTIL_REQUEST_FLAG_REUSE`. -/
def ClientOp.Admissible : ClientOp → Prop
  | .send _ msg requestFlags _ _ =>
    Consistent msg ∧ requestFlags &&& COMMUTIL_REQUEST_FLAG_REUSE = 0
  | .clear _ => True

instance (op : ClientOp) : Decidable op.Admissible :=
  match op with
  | .send _ _ _ _ _ => inferInstanceAs (Decidable (_ ∧ _))
  | .clear _ => .isTrue trivial

/-- A successful send: the message, its request data and the bytes that were written. -/
structure SendRecord where
  request : MsgPtr
  data : MsgRequestData
  bytes : List UInt8
  deriving DecidableEq, Repr

/-- What a call of `sendMsg` adds to the outstanding requests. -/
def recordOf (request : MsgPtr) (rc : ErrorCode) (data : Option MsgRequestData) (c : MsgClient) :
    List SendRecord :=
  match rc, data, c.writes.getLast? with
  | .ok, some data, some write => [⟨request, data, write.bytes⟩]
  | _, _, _ => []

/-- The calls, with a transport that accepts every write; returned are the client and the
    successful sends whose slots have not been cleared. -/
def runClient : MsgClient → List SendRecord → List ClientOp →
    Except Fault (MsgClient × List SendRecord)
  | c, live, [] => .ok (c, live)
  | c, live, .send request msg requestFlags now allocated :: ops =>
    match (c.store request msg).sendMsg request requestFlags ⟨now, allocated, .ok⟩ with
    | .error fault => .error fault
    | .ok (rc, data, c') => runClient c' (live ++ recordOf request rc data c') ops
  | c, live, .clear index :: ops =>
    match c.m_requestPool.m_requests[index]? with
    | none => .error .outOfBounds
    | some r =>
      runClient (c.setSlot index r.clearResponse)
        (live.filter fun record => record.data.m_requestIndex ≠ index) ops

/-- Every slot that is cleared exists. -/
def ClearsExist (size : Nat) (ops : List ClientOp) : Prop :=
  ∀ op ∈ ops, ∀ index, op = .clear index → index < size

/-! ## §2 The invariant -/

/-- One of the last `n` ids before `next`. -/
def IssuedBefore (next : UInt64) (n : Nat) (requestId : UInt64) : Prop :=
  ∃ k, 0 < k ∧ k ≤ n ∧ (requestId.toNat + k) % 2 ^ 64 = next.toNat

private theorem toNat_succ (next : UInt64) : (next + 1).toNat = (next.toNat + 1) % 2 ^ 64 := by
  rw [UInt64.toNat_add]
  rfl

theorem IssuedBefore.succ {next requestId : UInt64} {n : Nat} (h : IssuedBefore next n requestId) :
    IssuedBefore (next + 1) (n + 1) requestId := by
  obtain ⟨k, hpos, hle, hk⟩ := h
  refine ⟨k + 1, by omega, by omega, ?_⟩
  rw [toNat_succ, ← hk]
  omega

theorem issuedBefore_next (next : UInt64) (n : Nat) : IssuedBefore (next + 1) (n + 1) next :=
  ⟨1, by omega, by omega, (toNat_succ next).symm⟩

/-- The next id is new. -/
theorem IssuedBefore.ne_next {next requestId : UInt64} {n : Nat} (hn : n < 2 ^ 64)
    (h : IssuedBefore next n requestId) : requestId ≠ next := by
  obtain ⟨k, hpos, hle, hk⟩ := h
  rintro rfl
  have hlt := requestId.toNat_lt
  omega

/-- The record is in its slot, and its bytes name the slot. -/
structure InSlot (c : MsgClient) (n : Nat) (record : SendRecord) : Prop where
  slot : ∃ r, c.m_requestPool.m_requests[record.data.m_requestIndex]? = some r ∧
    r.m_request = some record.request ∧ r.m_requestId = record.data.m_requestId ∧
    r.m_requestStatus ≠ .idle
  issued : IssuedBefore c.m_requestPool.m_nextRequestId n record.data.m_requestId
  bytes : ∃ msg : Msg, Consistent msg ∧
    record.bytes = headerBytes c.byteOrder (stampHeader msg record.data.m_requestId
      record.data.m_requestIndex).m_header ++ msg.m_payload

/-- Every outstanding request is in its slot; slots and ids are distinct. -/
structure Correlated (c : MsgClient) (n : Nat) (live : List SendRecord) : Prop where
  inSlot : ∀ record ∈ live, InSlot c n record
  distinct : live.Pairwise fun a b =>
    a.data.m_requestIndex ≠ b.data.m_requestIndex ∧ a.data.m_requestId ≠ b.data.m_requestId

/-- An index of a pool that a client can have fits the header field. -/
theorem toNat_ofNat_index {size index : Nat} (hsize : size ≤ COMMUTIL_MAX_CONCURRENT_REQUESTS)
    (hlt : index < size) : (UInt32.ofNat index).toNat = index := by
  apply UInt32.toNat_ofNat_of_lt
  unfold COMMUTIL_MAX_CONCURRENT_REQUESTS at hsize
  exact Nat.lt_of_lt_of_le hlt (Nat.le_trans hsize (by decide))

theorem InSlot.index_lt {c : MsgClient} {n : Nat} {record : SendRecord} (h : InSlot c n record) :
    record.data.m_requestIndex < c.m_requestPool.m_requests.length := by
  obtain ⟨r, hr, -⟩ := h.slot
  exact (List.getElem?_eq_some_iff.mp hr).1

/-- A record survives a change of another slot. -/
theorem InSlot.setSlot_ne {c c' : MsgClient} {n m : Nat} {record : SendRecord} {index : Nat}
    {r : MsgRequest} (h : InSlot c n record) (hne : record.data.m_requestIndex ≠ index)
    (hslots : c'.m_requestPool.m_requests = c.m_requestPool.m_requests.set index r)
    (horder : c'.byteOrder = c.byteOrder)
    (hissued : IssuedBefore c'.m_requestPool.m_nextRequestId m record.data.m_requestId) :
    InSlot c' m record := by
  refine ⟨?_, hissued, by rw [horder]; exact h.bytes⟩
  obtain ⟨s, hs, hrest⟩ := h.slot
  refine ⟨s, ?_, hrest⟩
  rw [hslots, List.getElem?_set_ne (Ne.symm hne)]
  exact hs

/-- Clearing a slot ends the request in it and no other. -/
theorem Correlated.clear {c : MsgClient} {n : Nat} {live : List SendRecord}
    (h : Correlated c n live) (index : Nat) (r : MsgRequest) :
    Correlated (c.setSlot index r) n
      (live.filter fun record => record.data.m_requestIndex ≠ index) := by
  refine ⟨fun record hmem => ?_, h.distinct.filter _⟩
  obtain ⟨hlive, hne⟩ := List.mem_filter.mp hmem
  have hin := h.inSlot record hlive
  exact hin.setSlot_ne (by simpa using hne) rfl rfl hin.issued

/-- A send whose slot was vacant adds a request of its own. -/
theorem Correlated.sent {c c' : MsgClient} {n : Nat} {live : List SendRecord}
    (h : Correlated c n live) (hn : n < 2 ^ 64) {index : Nat} {r : MsgRequest} {record : SendRecord}
    (hslot : c.m_requestPool.m_requests[index]? = some r) (hidle : r.m_requestStatus = .idle)
    {r' : MsgRequest}
    (hslots : c'.m_requestPool.m_requests = c.m_requestPool.m_requests.set index r')
    (hnext : c'.m_requestPool.m_nextRequestId = c.m_requestPool.m_nextRequestId + 1)
    (horder : c'.byteOrder = c.byteOrder)
    (hindex : record.data.m_requestIndex = index)
    (hid : record.data.m_requestId = c.m_requestPool.m_nextRequestId)
    (hrecord : InSlot c' (n + 1) record) : Correlated c' (n + 1) (live ++ [record]) := by
  have hother : ∀ a ∈ live, a.data.m_requestIndex ≠ index := by
    intro a ha heq
    obtain ⟨s, hs, -, -, hbusy⟩ := (h.inSlot a ha).slot
    rw [heq, hslot] at hs
    cases hs
    exact hbusy hidle
  refine ⟨fun a ha => ?_, ?_⟩
  · rcases List.mem_append.mp ha with hlive | hnew
    · have hin := h.inSlot a hlive
      exact hin.setSlot_ne (hother a hlive) hslots horder (by rw [hnext]; exact hin.issued.succ)
    · obtain rfl := List.mem_singleton.mp hnew
      exact hrecord
  · rw [List.pairwise_append]
    refine ⟨h.distinct, List.pairwise_singleton _ _, fun a ha b hb => ?_⟩
    obtain rfl := List.mem_singleton.mp hb
    exact ⟨by rw [hindex]; exact hother a ha, by rw [hid]; exact (h.inSlot a ha).issued.ne_next hn⟩

/-- A send that fails, or finds no vacant slot, keeps the outstanding requests. -/
theorem Correlated.unsent {c c' : MsgClient} {n : Nat} {live : List SendRecord}
    (h : Correlated c n live) (index : Nat) (r : MsgRequest)
    (hother : ∀ a ∈ live, a.data.m_requestIndex ≠ index)
    (hslots : c'.m_requestPool.m_requests = c.m_requestPool.m_requests.set index r)
    (hnext : c'.m_requestPool.m_nextRequestId = c.m_requestPool.m_nextRequestId + 1)
    (horder : c'.byteOrder = c.byteOrder) : Correlated c' (n + 1) live := by
  refine ⟨fun a ha => ?_, h.distinct⟩
  have hin := h.inSlot a ha
  exact hin.setSlot_ne (hother a ha) hslots horder (by rw [hnext]; exact hin.issued.succ)

/-! ## §3 Runs keep it -/

/-- The number of ids that the calls issue. -/
def sendCount : List ClientOp → Nat
  | [] => 0
  | .send _ _ _ _ _ :: ops => sendCount ops + 1
  | .clear _ :: ops => sendCount ops

/-- **One send**: it returns, and what it leaves outstanding is correlated. -/
theorem Correlated.send {c : MsgClient} {n : Nat} {live : List SendRecord} (h : Correlated c n live)
    (hn : n < 2 ^ 64) (hne : c.m_requestPool.m_requests ≠ []) {request : MsgPtr} {msg : Msg}
    {requestFlags : UInt32} (now : UInt64) (allocated : Bool) (hmsg : Consistent msg)
    (hflags : requestFlags &&& COMMUTIL_REQUEST_FLAG_REUSE = 0) :
    ∃ rc data c', (c.store request msg).sendMsg request requestFlags ⟨now, allocated, .ok⟩ =
        .ok (rc, data, c') ∧
      Correlated c' (n + 1) (live ++ recordOf request rc data c') ∧
      c'.m_requestPool.m_requests.length = c.m_requestPool.m_requests.length ∧
      c'.byteOrder = c.byteOrder := by
  unfold MsgClient.sendMsg
  rw [if_neg (not_not.mpr hflags)]
  have hload : (c.store request msg).messages request = some msg := by simp [MsgClient.store]
  rcases (c.store request msg).sendNew_cases requestFlags ⟨now, allocated, .ok⟩ hne hload hmsg with
    ⟨index, r, hslot, hidle, ⟨-, -, hsend⟩ | ⟨rc, hrc, -, hsend⟩⟩ | ⟨-, hsend⟩
  · -- sent: the new request is in the slot that was vacant
    refine ⟨_, _, _, hsend, ?_, by simp [MsgClient.installed, MsgClient.store], rfl⟩
    have hrecord : recordOf request .ok (some ⟨c.m_requestPool.m_nextRequestId, index⟩)
        { (c.store request msg).installed request msg index r requestFlags now with
          writes := c.writes ++ [⟨headerBytes c.byteOrder
            (stampHeader msg c.m_requestPool.m_nextRequestId index).m_header ++ msg.m_payload,
            some request⟩] } =
        [⟨request, ⟨c.m_requestPool.m_nextRequestId, index⟩, headerBytes c.byteOrder
          (stampHeader msg c.m_requestPool.m_nextRequestId index).m_header ++ msg.m_payload⟩] := by
      simp [recordOf]
    have hlt := (List.getElem?_eq_some_iff.mp hslot).1
    have hread := MsgRequestPool.setSlot_self c.m_requestPool.issued hlt
      (r.holding request c.m_requestPool.m_nextRequestId requestFlags now)
    exact hrecord ▸ h.sent hn hslot hidle rfl rfl rfl rfl rfl
      ⟨⟨_, hread, rfl, rfl, by rintro ⟨⟩⟩, issuedBefore_next _ n, msg, hmsg, rfl⟩
  · -- not written: the slot stays taken, but the request is not outstanding
    refine ⟨_, _, _, hsend, ?_,
      by simp [MsgClient.installed, MsgClient.setSlot, MsgClient.store], rfl⟩
    have hnone : ∀ c', recordOf request rc
        (some ⟨(c.store request msg).m_requestPool.m_nextRequestId, index⟩) c' = [] := by
      intro c'
      unfold recordOf
      split
      · exact absurd rfl hrc
      · rfl
    rw [hnone, List.append_nil]
    refine h.unsent index
      (r.holding request c.m_requestPool.m_nextRequestId requestFlags now).clearRequest ?_ ?_
      rfl rfl
    · intro a ha heq
      obtain ⟨s, hs, -, -, hbusy⟩ := (h.inSlot a ha).slot
      have hslot' : c.m_requestPool.m_requests[index]? = some r := hslot
      rw [heq, hslot'] at hs
      cases hs
      exact hbusy hidle
    · simp only [MsgClient.installed, MsgClient.setSlot, MsgRequestPool.setSlot_setSlot]
      rfl
  · -- no vacant slot
    refine ⟨_, _, _, hsend, ?_, rfl, rfl⟩
    have hnone : ∀ c', recordOf request .resourceLimit none c' = [] := fun c' => rfl
    rw [hnone, List.append_nil]
    refine ⟨fun a ha => ?_, h.distinct⟩
    have hin := h.inSlot a ha
    exact ⟨hin.slot, hin.issued.succ, hin.bytes⟩

/-- **Every run returns** and keeps the outstanding requests correlated. -/
theorem runClient_correlated {ops : List ClientOp} {c : MsgClient} {n : Nat}
    {live : List SendRecord} (h : Correlated c n live) (hne : c.m_requestPool.m_requests ≠ [])
    (hops : ∀ op ∈ ops, op.Admissible) (hclears : ClearsExist c.m_requestPool.m_requests.length ops)
    (hn : n + sendCount ops < 2 ^ 64) :
    ∃ c' live', runClient c live ops = .ok (c', live') ∧
      (∃ n', Correlated c' n' live') ∧
      c'.m_requestPool.m_requests.length = c.m_requestPool.m_requests.length ∧
      c'.byteOrder = c.byteOrder := by
  -- induction on the calls, with the number of ids issued so far
  induction ops generalizing c n live with
  | nil => exact ⟨c, live, rfl, ⟨n, h⟩, rfl, rfl⟩
  | cons op ops ih =>
    have hops' : ∀ op ∈ ops, op.Admissible := fun o ho => hops o (List.mem_cons_of_mem _ ho)
    have hclears' : ClearsExist c.m_requestPool.m_requests.length ops :=
      fun o ho => hclears o (List.mem_cons_of_mem _ ho)
    cases op with
    | send request msg requestFlags now allocated =>
      obtain ⟨hmsg, hflags⟩ := hops _ List.mem_cons_self
      rw [sendCount] at hn
      obtain ⟨rc, data, c₁, hsend, hcorr, hlen, horder⟩ :=
        h.send (by omega) hne now allocated hmsg hflags
      have hne₁ : c₁.m_requestPool.m_requests ≠ [] := by
        intro hnil
        rw [hnil, List.length_nil] at hlen
        exact hne (List.eq_nil_of_length_eq_zero hlen.symm)
      obtain ⟨c', live', hrun, hcorr', hlen', horder'⟩ :=
        ih hcorr hne₁ hops' (by rw [hlen]; exact hclears') (by omega)
      refine ⟨c', live', ?_, hcorr', hlen'.trans hlen, horder'.trans horder⟩
      rw [runClient, hsend]
      exact hrun
    | clear index =>
      have hlt := hclears _ List.mem_cons_self index rfl
      have hslot := List.getElem?_eq_getElem hlt
      rw [sendCount] at hn
      obtain ⟨c', live', hrun, hcorr', hlen', horder'⟩ :=
        ih (h.clear index (c.m_requestPool.m_requests[index]).clearResponse)
          (by
            intro hnil
            have hlen := congrArg List.length hnil
            simp only [MsgClient.setSlot, MsgRequestPool.setSlot_length, List.length_nil] at hlen
            omega)
          hops' (by simpa [MsgClient.setSlot] using hclears') hn
      refine ⟨c', live', ?_, hcorr', by simpa [MsgClient.setSlot] using hlen', horder'⟩
      rw [runClient, hslot]
      exact hrun

/-! ## §4 Replies -/

/-- The reply carries the index and the id of the request. -/
def Echoes (reply : Msg) (record : SendRecord) : Prop :=
  reply.m_header.m_requestIndex.toNat = record.data.m_requestIndex ∧
    reply.m_header.m_requestId = record.data.m_requestId

/-- The slot holds the request, which was answered with the reply. -/
structure Replied (record : SendRecord) (reply : Msg) (r : MsgRequest) : Prop where
  request : r.m_request = some record.request
  requestId : r.m_requestId = record.data.m_requestId
  response : r.m_response = some reply
  arrived : r.m_requestStatus = .arrived

/-- `setResponse` for some replies, one after the other. -/
def setResponses : MsgRequestPool → List Msg → List ErrorCode × MsgRequestPool
  | pool, [] => ([], pool)
  | pool, reply :: replies =>
    let (rc, _, pool) := pool.setResponse reply
    let (rcs, pool) := setResponses pool replies
    (rc :: rcs, pool)

theorem setResponse_of_slot {pool : MsgRequestPool} {reply : Msg} {r : MsgRequest}
    (hslot : pool.m_requests[reply.m_header.m_requestIndex.toNat]? = some r)
    (hid : r.m_requestId = reply.m_header.m_requestId) :
    pool.setResponse reply = (.ok, r.m_flags,
      pool.setSlot reply.m_header.m_requestIndex.toNat (r.setResponse reply)) := by
  have hfind := MsgRequestPool.findSlot_eq_ok.mpr ⟨rfl, hslot, hid⟩
  unfold MsgRequestPool.setResponse MsgRequestPool.findByHeader
  rw [hfind]

theorem setResponse_of_no_slot {pool : MsgRequestPool} {msg : Msg}
    (h : ∀ r, pool.m_requests[msg.m_header.m_requestIndex.toNat]? = some r →
      r.m_requestId ≠ msg.m_header.m_requestId) :
    (pool.setResponse msg).1 ≠ .ok ∧ (pool.setResponse msg).2.2 = pool := by
  unfold MsgRequestPool.setResponse MsgRequestPool.findByHeader
  cases hfind : pool.findSlot msg.m_header.m_requestIndex.toNat msg.m_header.m_requestId with
  | error rc => exact ⟨(MsgRequestPool.findSlot_eq_error hfind).1, rfl⟩
  | ok found =>
    obtain ⟨-, hslot, hid⟩ := MsgRequestPool.findSlot_eq_ok.mp hfind
    exact absurd hid (h _ hslot)

/-- **Replies in any order**: each one is stored in the slot of its request, and the slots of
    other requests stay as they are. -/
theorem setResponses_stored {replies : List (SendRecord × Msg)} {pool : MsgRequestPool}
    (hslots : ∀ p ∈ replies, ∃ r, pool.m_requests[p.1.data.m_requestIndex]? = some r ∧
      r.m_request = some p.1.request ∧ r.m_requestId = p.1.data.m_requestId)
    (hecho : ∀ p ∈ replies, Echoes p.2 p.1)
    (hdistinct : replies.Pairwise fun p q => p.1.data.m_requestIndex ≠ q.1.data.m_requestIndex) :
    (∀ rc ∈ (setResponses pool (replies.map Prod.snd)).1, rc = .ok) ∧
    (∀ p ∈ replies, ∃ r,
      (setResponses pool (replies.map Prod.snd)).2.m_requests[p.1.data.m_requestIndex]? = some r ∧
      Replied p.1 p.2 r) ∧
    ∀ j, (∀ p ∈ replies, p.1.data.m_requestIndex ≠ j) →
      (setResponses pool (replies.map Prod.snd)).2.m_requests[j]? = pool.m_requests[j]? := by
  induction replies generalizing pool with
  | nil => exact ⟨nofun, nofun, fun _ _ => rfl⟩
  | cons p replies ih =>
    obtain ⟨r, hr, hrequest, hid⟩ := hslots p List.mem_cons_self
    obtain ⟨hindex, hreqid⟩ := hecho p List.mem_cons_self
    obtain ⟨hhead, htail⟩ := List.pairwise_cons.mp hdistinct
    have hlt := (List.getElem?_eq_some_iff.mp hr).1
    -- the first reply goes into its own slot
    have hstep := @setResponse_of_slot pool p.2 r (by rw [hindex]; exact hr)
      (by rw [hid, hreqid])
    rw [hindex] at hstep
    -- which leaves the slots of the replies behind it as they were
    have hrec := @ih (pool.setSlot p.1.data.m_requestIndex (r.setResponse p.2))
      (by
        intro q hq
        obtain ⟨s, hs, hheld⟩ := hslots q (List.mem_cons_of_mem _ hq)
        exact ⟨s, by rw [MsgRequestPool.setSlot_ne (hhead q hq)]; exact hs, hheld⟩)
      (fun q hq => hecho q (List.mem_cons_of_mem _ hq)) htail
    obtain ⟨hcodes, hstored, hother⟩ := hrec
    simp only [List.map_cons, setResponses, hstep]
    refine ⟨?_, ?_, ?_⟩
    · intro rc hrc
      rcases List.mem_cons.mp hrc with rfl | hmem
      · rfl
      · exact hcodes rc hmem
    · intro q hq
      rcases List.mem_cons.mp hq with rfl | hmem
      · refine ⟨r.setResponse q.2, ?_, hrequest, hid, rfl, rfl⟩
        rw [hother _ fun q hq => (hhead q hq).symm, MsgRequestPool.setSlot_self _ hlt]
      · exact hstored q hmem
    · intro j hj
      rw [hother j fun q hq => hj q (List.mem_cons_of_mem _ hq),
        MsgRequestPool.setSlot_ne (hj p List.mem_cons_self)]

/-! ## §5 Correlation -/

/-- What is written for a record decodes to a header that names its slot. -/
theorem InSlot.decodes {c : MsgClient} {n : Nat} {record : SendRecord} (h : InSlot c n record)
    (hsize : c.m_requestPool.m_requests.length ≤ COMMUTIL_MAX_CONCURRENT_REQUESTS)
    {s : SegmentedInputStream} (hinv : s.Inv) (horder : s.m_byteOrder = c.byteOrder)
    (hunread : s.unread = record.bytes) :
    ∃ header s', MsgHeader.deserialize s = .ok (.ok header, s') ∧
      header.m_requestIndex.toNat = record.data.m_requestIndex ∧
      header.m_requestId = record.data.m_requestId := by
  obtain ⟨msg, hmsg, hbytes⟩ := h.bytes
  have hstamped := stampHeader_consistent hmsg record.data.m_requestId record.data.m_requestIndex
  have hlen := headerBytes_length c.byteOrder _ hstamped.magic_length
  obtain ⟨s', hread, -⟩ := reads_deserialize s hinv
    (by rw [hunread, hbytes, List.length_append, hlen]; omega)
  refine ⟨_, s', hread, ?_⟩
  rw [hunread, hbytes, horder, headerAt_headerBytes _ _ hstamped.magic_length]
  exact ⟨toNat_ofNat_index hsize h.index_lt, rfl⟩

/-- **Request and response correlation**: every sequence of sends on a client returns; the
    outstanding requests have slots and ids of their own, their bytes decode to the index and
    the id of the slot that holds the message, replies that echo them are stored there in
    whatever order they come, and a message that names no slot is refused. -/
theorem requests_correlate (c : MsgClient) (hne : c.m_requestPool.m_requests ≠ [])
    (hsize : c.m_requestPool.m_requests.length ≤ COMMUTIL_MAX_CONCURRENT_REQUESTS)
    (ops : List ClientOp) (hops : ∀ op ∈ ops, op.Admissible)
    (hclears : ClearsExist c.m_requestPool.m_requests.length ops)
    (hids : sendCount ops < 2 ^ 64) :
    ∃ c' live, runClient c [] ops = .ok (c', live) ∧
      live.Pairwise (fun a b => a.data.m_requestIndex ≠ b.data.m_requestIndex ∧
        a.data.m_requestId ≠ b.data.m_requestId) ∧
      (∀ record ∈ live,
        (∃ r, c'.m_requestPool.m_requests[record.data.m_requestIndex]? = some r ∧
          r.m_request = some record.request ∧ r.m_requestId = record.data.m_requestId) ∧
        ∀ s : SegmentedInputStream, s.Inv → s.m_byteOrder = c.byteOrder →
          s.unread = record.bytes →
          ∃ header s', MsgHeader.deserialize s = .ok (.ok header, s') ∧
            header.m_requestIndex.toNat = record.data.m_requestIndex ∧
            header.m_requestId = record.data.m_requestId) ∧
      (∀ replies : List (SendRecord × Msg), (∀ p ∈ replies, p.1 ∈ live ∧ Echoes p.2 p.1) →
        (replies.map Prod.fst).Nodup →
        (∀ rc ∈ (setResponses c'.m_requestPool (replies.map Prod.snd)).1, rc = .ok) ∧
        (∀ p ∈ replies, ∃ r,
          (setResponses c'.m_requestPool (replies.map Prod.snd)).2.m_requests[
            p.1.data.m_requestIndex]? = some r ∧ Replied p.1 p.2 r) ∧
        ∀ j, (∀ p ∈ replies, p.1.data.m_requestIndex ≠ j) →
          (setResponses c'.m_requestPool (replies.map Prod.snd)).2.m_requests[j]? =
            c'.m_requestPool.m_requests[j]?) ∧
      ∀ msg, (∀ r, c'.m_requestPool.m_requests[msg.m_header.m_requestIndex.toNat]? = some r →
          r.m_requestId ≠ msg.m_header.m_requestId) →
        (c'.m_requestPool.setResponse msg).1 ≠ .ok ∧
          (c'.m_requestPool.setResponse msg).2.2 = c'.m_requestPool := by
  have hstart : Correlated c 0 [] := ⟨nofun, .nil⟩
  obtain ⟨c', live, hrun, ⟨n, hcorr⟩, hlen, horder⟩ :=
    runClient_correlated hstart hne hops hclears (by omega)
  refine ⟨c', live, hrun, hcorr.distinct, fun record hmem => ?_, fun replies hreplies hnodup => ?_,
    fun msg hmsg => setResponse_of_no_slot hmsg⟩
  · have hin := hcorr.inSlot record hmem
    refine ⟨?_, fun s hinv hs hunread => ?_⟩
    · obtain ⟨r, hr, hrequest, hid, -⟩ := hin.slot
      exact ⟨r, hr, hrequest, hid⟩
    · exact hin.decodes (by rw [hlen]; exact hsize) hinv (by rw [hs, horder]) hunread
  -- the replies are stored in the order in which they come
  · refine setResponses_stored (fun p hp => ?_) (fun p hp => (hreplies p hp).2) ?_
    · obtain ⟨r, hr, hrequest, hid, -⟩ := (hcorr.inSlot p.1 (hreplies p hp).1).slot
      exact ⟨r, hr, hrequest, hid⟩
    · -- replies to different requests have different slots
      rw [List.Nodup, List.pairwise_map] at hnodup
      refine hnodup.imp_of_mem fun {p q} hp hq hpq => ?_
      have hsymm : Std.Symm fun a b : SendRecord =>
          a.data.m_requestIndex ≠ b.data.m_requestIndex ∧ a.data.m_requestId ≠ b.data.m_requestId :=
        ⟨fun a b hab => ⟨hab.1.symm, hab.2.symm⟩⟩
      exact (hcorr.distinct.forall (hreplies p hp).1 (hreplies q hq).1 hpq).1

/-- Two requests in a pool of two slots, sent with ids that start at the largest one.  The reply to
    the second one comes first, and each is stored with its request. -/
theorem requests_correlate_two_slots :
    ∃ c' live, runClient
        ⟨.initializePool 2 0xFFFFFFFFFFFFFFFF, .networkOrder, fun _ => none, []⟩ []
        [.send 100 ⟨.mk' 41 7 0 0 0, [9]⟩ 0 10 true,
          .send 200 ⟨.mk' 42 7 0 0 0, [8, 8]⟩ 0 11 true] =
          .ok (c', live) ∧
      live.map (fun record => (record.request, record.data)) =
        [(100, ⟨0xFFFFFFFFFFFFFFFF, 1⟩), (200, ⟨0, 0⟩)] ∧
      live.Pairwise (fun a b => a.data.m_requestIndex ≠ b.data.m_requestIndex ∧
        a.data.m_requestId ≠ b.data.m_requestId) ∧
      ∃ first second,
        (setResponses c'.m_requestPool [⟨.mk' 41 7 0 0 0, [2]⟩,
          ⟨.mk' 41 7 0 0xFFFFFFFFFFFFFFFF 1, [1]⟩]).2.m_requests[1]? = some first ∧
        first.m_request = some 100 ∧
          first.m_response = some ⟨.mk' 41 7 0 0xFFFFFFFFFFFFFFFF 1, [1]⟩ ∧
        (setResponses c'.m_requestPool [⟨.mk' 41 7 0 0 0, [2]⟩,
          ⟨.mk' 41 7 0 0xFFFFFFFFFFFFFFFF 1, [1]⟩]).2.m_requests[0]? = some second ∧
        second.m_request = some 200 ∧ second.m_response = some ⟨.mk' 41 7 0 0 0, [2]⟩ := by
  obtain ⟨c', live, hrun, hdistinct, -, hreplies, -⟩ := requests_correlate
    ⟨.initializePool 2 0xFFFFFFFFFFFFFFFF, .networkOrder, fun _ => none, []⟩ (by decide) (by decide)
    [.send 100 ⟨.mk' 41 7 0 0 0, [9]⟩ 0 10 true, .send 200 ⟨.mk' 42 7 0 0 0, [8, 8]⟩ 0 11 true]
    (by decide) (by rintro op hop index rfl; simp at hop) (by decide)
  have hmap := congrArg (Except.map fun p => p.2.map fun record => (record.request, record.data))
    hrun
  have hlive : live.map (fun record => (record.request, record.data)) =
      [(100, ⟨0xFFFFFFFFFFFFFFFF, 1⟩), (200, ⟨0, 0⟩)] := (Except.ok.inj hmap).symm.trans rfl
  refine ⟨c', live, hrun, hlive, hdistinct, ?_⟩
  -- the two records, by what they were sent with
  obtain ⟨a, l, rfl, ha, hl⟩ := List.map_eq_cons_iff.mp hlive
  obtain ⟨b, l', rfl, hb, hnil⟩ := List.map_eq_cons_iff.mp hl
  obtain rfl := List.map_eq_nil_iff.mp hnil
  obtain ⟨hrequest, hdata⟩ := Prod.mk.inj ha
  obtain ⟨hrequest', hdata'⟩ := Prod.mk.inj hb
  have hecho : Echoes ⟨.mk' 41 7 0 0xFFFFFFFFFFFFFFFF 1, [1]⟩ a := by
    unfold Echoes
    rw [hdata]
    decide
  have hecho' : Echoes ⟨.mk' 41 7 0 0 0, [2]⟩ b := by
    unfold Echoes
    rw [hdata']
    decide
  have hne : b ≠ a := by
    rintro rfl
    rw [hrequest] at hrequest'
    cases hrequest'
  obtain ⟨-, hstored, -⟩ := hreplies
    [(b, ⟨.mk' 41 7 0 0 0, [2]⟩), (a, ⟨.mk' 41 7 0 0xFFFFFFFFFFFFFFFF 1, [1]⟩)]
    (List.forall_mem_cons.mpr ⟨⟨List.mem_cons_of_mem _ List.mem_cons_self, hecho'⟩,
      List.forall_mem_cons.mpr ⟨⟨List.mem_cons_self, hecho⟩, nofun⟩⟩)
    (List.nodup_cons.mpr ⟨fun h => hne (List.mem_singleton.mp h), List.pairwise_singleton _ a⟩)
  obtain ⟨second, hsecond, hreplied'⟩ := hstored _ List.mem_cons_self
  obtain ⟨first, hfirst, hreplied⟩ := hstored _ (List.mem_cons_of_mem _ List.mem_cons_self)
  rw [hdata] at hfirst
  rw [hdata'] at hsecond
  exact ⟨first, second, hfirst, hrequest ▸ hreplied.request, hreplied.response, hsecond,
    hrequest' ▸ hreplied'.request, hreplied'.response⟩

end Commutil.Client
