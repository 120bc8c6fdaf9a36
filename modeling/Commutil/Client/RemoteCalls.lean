import Commutil.Client.Correlation
import Commutil.Server.SentFrames
import Mathlib.Data.List.InsertIdx

/-!
# Remote Calls

A client and a server with a connection between them: `MsgClient::sendMsg`, the writes that the I/O
loop puts on the wire, the assembler of the server, replies of the frame listener with
`MsgServer::replyMsg`, the assembler of the client, and `MsgClient::onMsg`.  Bytes arrive in buffers
that are cut anywhere, replies are made in any order and any number of times, slots are cleared at
any time, and connections are lost while both assemblers are between two buffers.

What a caller gets for a request is a reply that was made to that very request
(`calls_get_their_replies`), and when nothing is under way any more no call still waits
(`settled_calls_are_answered`).

A reply carries the id and the index of its request.  What is under way on a lost connection reaches
nobody, so both ends lose it at once.
-/

namespace Commutil.Client

open Commutil.Framing Commutil.Io Commutil.Library
open Commutil.Server.MessagePath (delivered? aligned_pass aligned_append connStep_reset)

/-! ## §1 One direction of a connection -/

/-- One direction: the bytes on the wire, the stream at the other end, and what was written and
    assembled since the connection was made. -/
structure Direction where
  inFlight : List UInt8
  stream : Connection
  sent : List Msg
  received : List Msg

namespace Direction

/-- After `initialize` and the first connect. -/
def start (order : ByteOrder) : Direction :=
  ⟨[], ⟨(Assembly.new order ⟨0, [], [], 0⟩).onConnect, false⟩, [], []⟩

/-- The connection is lost and made again. -/
def reconnect (d : Direction) : Option Direction := do
  let stream ← d.stream.step (fun _ => true) .onDisconnect
  let stream ← stream.step (fun _ => true) .onConnect
  some ⟨[], stream, [], []⟩

/-- The bytes of a frame are put on the wire. -/
def write (d : Direction) (bytes : List UInt8) (frame : Msg) : Direction :=
  { d with inFlight := d.inFlight ++ bytes, sent := d.sent ++ [frame] }

/-- The next bytes arrive. -/
def onBytesReceived (d : Direction) (buffer : Buffer) : Option Direction :=
  if buffer.m_bytes <+: d.inFlight then do
    let stream ← d.stream.step (fun _ => true) (.onBytesReceived buffer)
    some { d with inFlight := d.inFlight.drop buffer.m_bytes.length, stream }
  else none

/-- A pass of the assembly loop, and the message that it hands on. -/
def pass (d : Direction) : Option (Direction × Option Msg) := do
  let stream ← d.stream.step (fun _ => true) .pass
  let msg := delivered? d.stream stream
  some ({ d with stream, received := d.received ++ msg.toList }, msg)

/-- A buffer fits into the stream, and one that is searched is not too long for `max_index`. -/
def Fits (d : Direction) (buffer : Buffer) : Prop :=
  buffer.m_bytes ≠ [] ∧
    (d.stream.assembly.m_stream.m_state = .resync → buffer.m_bytes.length < 2 ^ 31 + 8) ∧
    d.stream.assembly.m_stream.m_is.m_size + buffer.m_bytes.length < 2 ^ 32

instance (d : Direction) (buffer : Buffer) : Decidable (d.Fits buffer) :=
  inferInstanceAs (Decidable (_ ∧ (_ → _) ∧ _))

/-- Nothing is under way: the wire is empty and the assembler waits. -/
def Settled (d : Direction) : Prop := d.inFlight = [] ∧ d.stream.running = false

instance (d : Direction) : Decidable d.Settled := inferInstanceAs (Decidable (_ ∧ _))

/-- **The invariant** of a direction: what was assembled are the first frames that were written, and
    what is unread and on the wire are the others. -/
def InStep (order : ByteOrder) (d : Direction) : Prop :=
  ∃ rest, d.sent = d.received ++ rest ∧ Aligned order d.stream rest d.inFlight

variable {order : ByteOrder} {d d' : Direction}

theorem InStep.received_sent (h : d.InStep order) {frame : Msg} (hmem : frame ∈ d.received) :
    frame ∈ d.sent := by
  obtain ⟨rest, hsent, -⟩ := h
  rw [hsent]
  exact List.mem_append_left _ hmem

/-- A settled direction has delivered everything. -/
theorem InStep.settled (h : d.InStep order) (hsettled : d.Settled) : d.received = d.sent := by
  obtain ⟨rest, hsent, halign⟩ := h
  obtain ⟨hwire, hwaits⟩ := hsettled
  rw [hwire] at halign
  have hbytes : wire order rest = d.stream.assembly.m_stream.m_is.unread := by
    rcases halign.align with h | h
    · rw [h.bytes_eq, List.append_nil]
    · rw [h.bytes_eq, List.append_nil]
  have hnone := halign.settled hwaits
  cases rest with
  | nil => rw [hsent, List.append_nil]
  | cons frame rest =>
    -- its first frame would be there as a whole
    rw [← hbytes, framesWithin, if_pos (by simp)] at hnone
    cases hnone

theorem start_inStep (order : ByteOrder) : (start order).InStep order := by
  refine ⟨[], rfl, ?_⟩
  exact @Aligned.reset order (Assembly.new order ⟨0, [], [], 0⟩) rfl rfl []
    (fun _ hf => absurd hf List.not_mem_nil) false

/-- A new connection is in step if the old one was lost between two buffers. -/
theorem InStep.reconnect (h : d.InStep order)
    (hoff : d.stream.assembly.m_stream.m_is.m_offset = 0) (hstep : d.reconnect = some d') :
    d'.InStep order ∧ d'.sent = [] ∧ d'.received = [] := by
  obtain ⟨rest, -, halign⟩ := h
  unfold Direction.reconnect at hstep
  obtain ⟨closed, hclose, hstep⟩ := Option.bind_eq_some_iff.mp hstep
  obtain ⟨stream, hconnect, hstep⟩ := Option.bind_eq_some_iff.mp hstep
  cases hstep
  have hclosed := connStep_reset (.inr rfl) hclose
  rw [connStep_reset (.inl rfl) hconnect]
  refine ⟨⟨[], rfl, ?_⟩, rfl, rfl⟩
  apply Aligned.reset
  · rw [hclosed]
    exact halign.inv.2
  · rw [hclosed]
    exact hoff
  · exact fun _ hf => absurd hf List.not_mem_nil

/-- What is still to come is one frame more. -/
theorem aligned_write {c : Connection} {rest : List Msg} {future : List UInt8}
    (h : Aligned order c rest future) {frame : Msg} (hwf : WellFormed frame) :
    Aligned order c (rest ++ [frame]) (future ++ serialized order frame) := by
  have hwire : ∀ bytes, wire order rest = bytes ++ future →
      wire order (rest ++ [frame]) = bytes ++ (future ++ serialized order frame) := by
    intro bytes hbytes
    rw [← List.append_assoc, ← hbytes]
    simp [wire]
  have hall : (∀ f ∈ rest, WellFormed f) → ∀ f ∈ rest ++ [frame], WellFormed f := by
    intro hrest f hf
    rcases List.mem_append.mp hf with hf | hf
    · exact hrest f hf
    · rw [List.mem_singleton.mp hf]
      exact hwf
  refine ⟨?_, fun hwaits => ?_⟩
  · rcases h.align with h | h
    · exact .inl ⟨h.inv, h.byteOrder_eq, hall h.wellFormed, hwire _ h.bytes_eq, h.state, h.offset,
        h.single, h.indexed, h.idle⟩
    · exact .inr ⟨h.inv, h.byteOrder_eq, hall h.wellFormed, hwire _ h.bytes_eq, h.state⟩
  · have hnone := h.settled hwaits
    cases rest with
    | nil =>
      have hempty : c.assembly.m_stream.m_is.unread = [] := by
        rcases h.align with h | h
        · exact (List.append_eq_nil_iff.mp h.bytes_eq.symm).1
        · exact (List.append_eq_nil_iff.mp h.bytes_eq.symm).1
      rw [hempty]
      exact framesWithin_zero (hall fun _ hf => absurd hf List.not_mem_nil)
    | cons f rest =>
      rw [framesWithin] at hnone
      split at hnone
      · cases hnone
      · rename_i hlong
        rw [List.cons_append, framesWithin, if_neg hlong]

theorem InStep.write (h : d.InStep order) {frame : Msg} (hwf : WellFormed frame)
    {bytes : List UInt8} (hbytes : bytes = serialized order frame) :
    (d.write bytes frame).InStep order := by
  subst hbytes
  obtain ⟨rest, hsent, halign⟩ := h
  refine ⟨rest ++ [frame], ?_, aligned_write halign hwf⟩
  show d.sent ++ [frame] = d.received ++ (rest ++ [frame])
  rw [hsent, List.append_assoc]

theorem InStep.onBytesReceived (h : d.InStep order) {buffer : Buffer} (hfits : d.Fits buffer)
    (hstep : d.onBytesReceived buffer = some d') :
    d'.InStep order ∧ d'.sent = d.sent ∧ d'.received = d.received := by
  obtain ⟨rest, hsent, halign⟩ := h
  unfold Direction.onBytesReceived at hstep
  split at hstep
  · rename_i hnext
    obtain ⟨stream, hstream, hd⟩ := Option.bind_eq_some_iff.mp hstep
    cases hd
    obtain ⟨future, hfuture⟩ := hnext
    rw [← hfuture] at halign ⊢
    refine ⟨⟨rest, hsent, ?_⟩, rfl, rfl⟩
    dsimp only
    rw [List.drop_left]
    exact aligned_append halign hfits.1 hfits.2.1 hfits.2.2 hstream
  · cases hstep

theorem InStep.pass (h : d.InStep order) {msg : Option Msg} (hstep : d.pass = some (d', msg)) :
    d'.InStep order ∧ d'.sent = d.sent ∧ d'.received = d.received ++ msg.toList := by
  obtain ⟨rest, hsent, halign⟩ := h
  unfold Direction.pass at hstep
  obtain ⟨stream, hstream, hd⟩ := Option.bind_eq_some_iff.mp hstep
  cases hd
  refine ⟨?_, rfl, rfl⟩
  rcases aligned_pass halign rfl hstream with ⟨hnone, hnext⟩ | ⟨frame, rest', hrest, hsome, hnext⟩
  · refine ⟨rest, ?_, hnext⟩
    dsimp only
    rw [hnone, hsent, Option.toList_none, List.append_nil]
  · refine ⟨rest', ?_, hnext⟩
    dsimp only
    rw [hsome, hsent, hrest, Option.toList_some, List.append_assoc, List.singleton_append]

end Direction

/-! ## §2 The client, the server and the connection -/

/-- A request that was sent. -/
structure Call where
  data : MsgRequestData
  frame : Msg

/-- The client, both directions of its connection, and what the server has answered.  `unsent` are
    the frames of `client.writes`; `calls` and `answers` are logs, and `issued` counts the ids. -/
structure RemoteCalls where
  client : MsgClient
  calls : List Call
  unsent : List Msg
  requests : Direction
  replies : Direction
  answers : List (Msg × Msg)
  issued : Nat

/-- The reply to a request: it carries the id and the index of the request. -/
def answerTo (request response : Msg) : Msg :=
  { response with m_header :=
      { response.m_header with
        m_requestId := request.m_header.m_requestId
        m_requestIndex := request.m_header.m_requestIndex } }

namespace RemoteCalls

/-- What can happen. -/
inductive Event where
  | sendMsg (request : MsgPtr) (msg : Msg) (requestFlags : UInt32) (env : SendEnv)
  /-- The result in a slot is cleared, by a caller that has waited for it or by anyone else. -/
  | clearResponse (index : Nat)
  /-- The I/O loop comes to a write of the client. -/
  | write (k : Nat)
  /-- The write fails, and the connection with it. -/
  | writeFails (k : Nat)
  | requestBytes (buffer : Buffer)
  | requestPass
  /-- The server answers a request that it has received. -/
  | replyMsg (k : Nat) (response : Msg)
  | replyBytes (buffer : Buffer)
  | replyPass
  | connectionLost

/-- After `MsgClient::initialize` and `start`, when the connection is made. -/
def start (order : ByteOrder) (maxConcurrentRequests : Nat) (nextRequestId : UInt64) :
    RemoteCalls where
  client := ⟨.initializePool maxConcurrentRequests nextRequestId, order, fun _ => none, []⟩
  calls := []
  unsent := []
  requests := .start order
  replies := .start order
  answers := []
  issued := 0

/-- `MsgClient::sendMsg`. -/
def sendMsg (s : RemoteCalls) (request : MsgPtr) (msg : Msg) (requestFlags : UInt32)
    (env : SendEnv) : Option RemoteCalls :=
  match (s.client.store request msg).sendMsg request requestFlags env with
  | .error _ => none
  | .ok (rc, data, client) =>
    let s := { s with client, issued := s.issued + 1 }
    match rc, data, client.messages request with
    | .ok, some data, some frame =>
      some { s with calls := s.calls ++ [⟨data, frame⟩], unsent := s.unsent ++ [frame] }
    | _, _, _ => some s

/-- A write is taken from those that wait for the I/O loop. -/
def dropWrite (s : RemoteCalls) (k : Nat) : RemoteCalls :=
  { s with
    client := { s.client with writes := s.client.writes.eraseIdx k }
    unsent := s.unsent.eraseIdx k }

/-- The connection is lost, `MsgClient::onDisconnect` is called, and it is made again. -/
def connectionLost (s : RemoteCalls) : Option RemoteCalls := do
  let requests ← s.requests.reconnect
  let replies ← s.replies.reconnect
  some { s with client := s.client.onDisconnect, requests, replies }

/-- The assembler of the client hands a message to `MsgClient::onMsg`. -/
def onReply (s : RemoteCalls) : Option Msg → RemoteCalls
  | none => s
  | some msg => { s with client := (s.client.onMsg msg).2.2 }

/-- One step, if it is possible. -/
def step (order : ByteOrder) (s : RemoteCalls) : Event → Option RemoteCalls
  | .sendMsg request msg requestFlags env => s.sendMsg request msg requestFlags env
  | .clearResponse index => do
    let r ← s.client.m_requestPool.m_requests[index]?
    some { s with client := s.client.setSlot index r.clearResponse }
  | .write k => do
    let write ← s.client.writes[k]?
    let frame ← s.unsent[k]?
    some { s.dropWrite k with requests := s.requests.write write.bytes frame }
  | .writeFails k => (s.dropWrite k).connectionLost
  | .requestBytes buffer => do
    let requests ← s.requests.onBytesReceived buffer
    some { s with requests }
  | .requestPass => do
    let (requests, _) ← s.requests.pass
    some { s with requests }
  | .replyMsg k response => do
    let request ← s.requests.received[k]?
    let reply := answerTo request response
    some { s with
      replies := s.replies.write (serialized order reply) reply
      answers := s.answers ++ [(request, reply)] }
  | .replyBytes buffer => do
    let replies ← s.replies.onBytesReceived buffer
    some { s with replies }
  | .replyPass => do
    let (replies, msg) ← s.replies.pass
    some ({ s with replies }.onReply msg)
  | .connectionLost => s.connectionLost

/-- Both streams of the assemblers are at the start of a buffer. -/
def BetweenBuffers (s : RemoteCalls) : Prop :=
  s.requests.stream.assembly.m_stream.m_is.m_offset = 0 ∧
    s.replies.stream.assembly.m_stream.m_is.m_offset = 0

/-- What is asked of a step: requests and replies are well-formed frames, no slot is used again by
    flag, ids do not come round, buffers fit, and a connection is lost between two buffers. -/
def Proper (s : RemoteCalls) : Event → Prop
  | .sendMsg _ msg requestFlags _ =>
    WellFormed msg ∧ requestFlags &&& COMMUTIL_REQUEST_FLAG_REUSE = 0 ∧ s.issued < 2 ^ 64
  | .requestBytes buffer => s.requests.Fits buffer
  | .replyMsg _ response => WellFormed response
  | .replyBytes buffer => s.replies.Fits buffer
  | .writeFails _ | .connectionLost => s.BetweenBuffers
  | _ => True

instance (s : RemoteCalls) (e : Event) : Decidable (s.Proper e) :=
  match e with
  | .sendMsg _ _ _ _ => inferInstanceAs (Decidable (_ ∧ _ ∧ _))
  | .requestBytes _ | .replyBytes _ => inferInstanceAs (Decidable (Direction.Fits _ _))
  | .replyMsg _ response => inferInstanceAs (Decidable (WellFormed response))
  | .writeFails _ | .connectionLost => inferInstanceAs (Decidable (_ ∧ _))
  | .clearResponse _ | .write _ | .requestPass | .replyPass => .isTrue trivial

/-! ## §3 The invariant -/

/-- The frame is that of a request that was sent. -/
def IsCall (s : RemoteCalls) (frame : Msg) : Prop := ∃ call ∈ s.calls, call.frame = frame

/-- What is known of the frames: requests are told apart by their ids, what is on the wire are
    requests that were sent and replies to requests that were received. -/
structure Framed (order : ByteOrder) (s : RemoteCalls) : Prop where
  size_ne : s.client.m_requestPool.m_requests ≠ []
  size_le : s.client.m_requestPool.m_requests.length ≤ COMMUTIL_MAX_CONCURRENT_REQUESTS
  byteOrder : s.client.byteOrder = order
  writes : s.client.writes.map WriteRequest.bytes = s.unsent.map (serialized order)
  issued : ∀ call ∈ s.calls,
    IssuedBefore s.client.m_requestPool.m_nextRequestId s.issued call.data.m_requestId
  distinct : s.calls.Pairwise fun a b => a.data.m_requestId ≠ b.data.m_requestId
  named : ∀ call ∈ s.calls, WellFormed call.frame ∧
    call.frame.m_header.m_requestId = call.data.m_requestId ∧
    call.frame.m_header.m_requestIndex.toNat = call.data.m_requestIndex
  unsent : ∀ frame ∈ s.unsent, s.IsCall frame
  sent : ∀ frame ∈ s.requests.sent, s.IsCall frame
  answers : ∀ p ∈ s.answers, s.IsCall p.1 ∧
    p.2.m_header.m_requestId = p.1.m_header.m_requestId ∧
    p.2.m_header.m_requestIndex = p.1.m_header.m_requestIndex
  replied : ∀ reply ∈ s.replies.sent, ∃ request, (request, reply) ∈ s.answers
  requestsInStep : s.requests.InStep order
  repliesInStep : s.replies.InStep order

/-- What is known of the slots: a response in a slot was made to the request of the slot, and a
    request that still waits is on its way or answered, and no answer has arrived. -/
structure Slotted (s : RemoteCalls) : Prop where
  arrived : ∀ (index : Nat) (r : MsgRequest), s.client.m_requestPool.m_requests[index]? = some r →
    (r.m_requestStatus = .arrived ↔ r.m_response.isSome = true)
  answered : ∀ (index : Nat) (r : MsgRequest) (reply : Msg),
    s.client.m_requestPool.m_requests[index]? = some r → r.m_response = some reply →
    ∃ request, (request, reply) ∈ s.answers ∧ request.m_header.m_requestId = r.m_requestId ∧
      request.m_header.m_requestIndex.toNat = index
  pending : ∀ call ∈ s.calls, ∀ r,
    s.client.m_requestPool.m_requests[call.data.m_requestIndex]? = some r →
    r.m_requestId = call.data.m_requestId → r.m_requestStatus = .pending →
      (call.frame ∈ s.unsent ∨ call.frame ∈ s.requests.sent) ∧
      ∀ reply ∈ s.replies.received, reply.m_header.m_requestId ≠ call.data.m_requestId

variable {order : ByteOrder} {s s' : RemoteCalls}

theorem start_framed (order : ByteOrder) {maxConcurrentRequests : Nat}
    (hpos : 0 < maxConcurrentRequests)
    (hle : maxConcurrentRequests ≤ COMMUTIL_MAX_CONCURRENT_REQUESTS) (nextRequestId : UInt64) :
    (start order maxConcurrentRequests nextRequestId).Framed order where
  size_ne := by
    intro hnil
    have hlen := congrArg List.length hnil
    simp only [start, MsgRequestPool.initializePool, List.length_replicate, List.length_nil] at hlen
    omega
  size_le := by simpa [start, MsgRequestPool.initializePool] using hle
  byteOrder := rfl
  writes := rfl
  issued := fun _ h => absurd h List.not_mem_nil
  distinct := List.Pairwise.nil
  named := fun _ h => absurd h List.not_mem_nil
  unsent := fun _ h => absurd h List.not_mem_nil
  sent := fun _ h => absurd h List.not_mem_nil
  answers := fun _ h => absurd h List.not_mem_nil
  replied := fun _ h => absurd h List.not_mem_nil
  requestsInStep := Direction.start_inStep order
  repliesInStep := Direction.start_inStep order

theorem start_slotted (order : ByteOrder) (maxConcurrentRequests : Nat) (nextRequestId : UInt64) :
    (start order maxConcurrentRequests nextRequestId).Slotted := by
  have hnew : ∀ (index : Nat) r, (start order maxConcurrentRequests
      nextRequestId).client.m_requestPool.m_requests[index]? = some r → r = .new :=
    fun index r hr => List.eq_of_mem_replicate (List.mem_of_getElem? hr)
  refine ⟨fun index r hr => ?_, fun index r reply hr hresponse => ?_, fun _ h => ?_⟩
  · rw [hnew index r hr]
    simp [MsgRequest.new]
  · rw [hnew index r hr] at hresponse
    cases hresponse
  · exact absurd h List.not_mem_nil

/-- Requests with one id are one request. -/
theorem Framed.call_unique (h : s.Framed order) {a b : Call} (ha : a ∈ s.calls) (hb : b ∈ s.calls)
    (hid : a.data.m_requestId = b.data.m_requestId) : a = b := by
  by_contra hne
  have hsymm : Std.Symm fun a b : Call => a.data.m_requestId ≠ b.data.m_requestId :=
    ⟨fun _ _ => Ne.symm⟩
  exact h.distinct.forall ha hb hne hid

/-- A request that was answered is the one with the id of the answer. -/
theorem Framed.answered_call (h : s.Framed order) {request reply : Msg} {call : Call}
    (hanswer : (request, reply) ∈ s.answers) (hcall : call ∈ s.calls)
    (hid : reply.m_header.m_requestId = call.data.m_requestId) : request = call.frame := by
  obtain ⟨⟨other, hother, rfl⟩, hecho, -⟩ := h.answers _ hanswer
  rw [h.call_unique hother hcall]
  rw [← (h.named other hother).2.1, ← hecho]
  exact hid

/-- A slot is changed. -/
theorem Slotted.set (h : s.Slotted) {index : Nat} {r : MsgRequest}
    (hslots : s'.client.m_requestPool.m_requests = s.client.m_requestPool.m_requests.set index r)
    (hanswers : ∀ p ∈ s.answers, p ∈ s'.answers)
    (harrived : r.m_requestStatus = .arrived ↔ r.m_response.isSome = true)
    (hanswered : ∀ reply, r.m_response = some reply → ∃ request, (request, reply) ∈ s'.answers ∧
      request.m_header.m_requestId = r.m_requestId ∧
      request.m_header.m_requestIndex.toNat = index)
    (hpending : ∀ call ∈ s'.calls, ∀ r',
      s'.client.m_requestPool.m_requests[call.data.m_requestIndex]? = some r' →
      r'.m_requestId = call.data.m_requestId → r'.m_requestStatus = .pending →
        (call.frame ∈ s'.unsent ∨ call.frame ∈ s'.requests.sent) ∧
        ∀ reply ∈ s'.replies.received, reply.m_header.m_requestId ≠ call.data.m_requestId) :
    s'.Slotted := by
  refine ⟨fun i r' hr' => ?_, fun i r' reply hr' hresponse => ?_, hpending⟩
  · rw [hslots, List.getElem?_set] at hr'
    split at hr'
    · split at hr'
      · cases hr'
        exact harrived
      · cases hr'
    · exact h.arrived i r' hr'
  · rw [hslots, List.getElem?_set] at hr'
    split at hr'
    · rename_i hindex
      split at hr'
      · cases hr'
        rw [← hindex]
        exact hanswered reply hresponse
      · cases hr'
    · obtain ⟨request, hanswer, hrest⟩ := h.answered i r' reply hr' hresponse
      exact ⟨request, hanswers _ hanswer, hrest⟩

/-! ## §4 Every step keeps it -/

/-- The slots are as before, and no frame or answer is lost. -/
theorem Slotted.of_pool (h : s.Slotted) (hslots : s'.client.m_requestPool.m_requests =
      s.client.m_requestPool.m_requests)
    (hcalls : s'.calls = s.calls) (hanswers : ∀ p ∈ s.answers, p ∈ s'.answers)
    (hsent : ∀ frame, frame ∈ s.unsent ∨ frame ∈ s.requests.sent →
      frame ∈ s'.unsent ∨ frame ∈ s'.requests.sent)
    (hreceived : s'.replies.received = s.replies.received) : s'.Slotted := by
  refine ⟨?_, fun index r reply hr hresponse => ?_, fun call hcall r hr hid hpending => ?_⟩
  · rw [hslots]
    exact h.arrived
  · rw [hslots] at hr
    obtain ⟨request, hanswer, hrest⟩ := h.answered index r reply hr hresponse
    exact ⟨request, hanswers _ hanswer, hrest⟩
  · rw [hcalls] at hcall
    rw [hslots] at hr
    obtain ⟨hway, hnone⟩ := h.pending call hcall r hr hid hpending
    exact ⟨hsent _ hway, by rw [hreceived]; exact hnone⟩

/-- A slot of the client is changed. -/
theorem Framed.setSlot (h : s.Framed order) (index : Nat) (r : MsgRequest) :
    Framed order { s with client := s.client.setSlot index r } := by
  have hlen : (s.client.setSlot index r).m_requestPool.m_requests.length =
      s.client.m_requestPool.m_requests.length := MsgRequestPool.setSlot_length _ _ _
  exact { h with
    size_ne := by
      rw [← List.length_pos_iff, hlen, List.length_pos_iff]
      exact h.size_ne
    size_le := by
      rw [hlen]
      exact h.size_le }

/-- The result in a slot is cleared. -/
theorem Slotted.clearResponse (h : s.Slotted) (index : Nat) (r : MsgRequest) :
    Slotted { s with client := s.client.setSlot index r.clearResponse } := by
  refine h.set rfl (fun _ hp => hp) (by simp [MsgRequest.clearResponse]) (fun reply hresponse => ?_)
    (fun call hcall r' hr' hid hpending => ?_)
  · cases hresponse
  · have hr'' : (s.client.m_requestPool.m_requests.set index
        r.clearResponse)[call.data.m_requestIndex]? = some r' := hr'
    rw [List.getElem?_set] at hr''
    split at hr''
    · split at hr''
      · cases hr''
        cases hpending
      · cases hr''
    · exact h.pending call hcall r' hr'' hid hpending

/-- A slot is taken under the next id. -/
theorem Slotted.grab (h : s.Slotted) (hframed : s.Framed order) (hn : s.issued < 2 ^ 64)
    {index : Nat} {r r' : MsgRequest} (hslot : s.client.m_requestPool.m_requests[index]? = some r)
    (hidle : r.m_requestStatus = .idle)
    (hid : r'.m_requestId = s.client.m_requestPool.m_nextRequestId)
    (hstatus : r'.m_requestStatus = .pending) (hresponse : r'.m_response = r.m_response)
    (hslots : s'.client.m_requestPool.m_requests =
      s.client.m_requestPool.m_requests.set index r')
    (hcalls : ∀ call ∈ s'.calls, call ∈ s.calls ∨ call.frame ∈ s'.unsent ∧
      call.data.m_requestId = s.client.m_requestPool.m_nextRequestId)
    (hunsent : ∀ frame ∈ s.unsent, frame ∈ s'.unsent) (hrequests : s'.requests = s.requests)
    (hreplies : s'.replies = s.replies) (hanswers : s'.answers = s.answers) : s'.Slotted := by
  have hnew : ∀ call ∈ s.calls,
      call.data.m_requestId ≠ s.client.m_requestPool.m_nextRequestId :=
    fun call hcall => (hframed.issued call hcall).ne_next hn
  have hnone : r'.m_response.isSome = false := by
    have harrived := h.arrived index r hslot
    rw [hidle] at harrived
    rw [hresponse]
    cases hsome : r.m_response.isSome with
    | false => rfl
    | true => exact absurd (harrived.mpr hsome) (by simp)
  refine h.set hslots (fun p hp => by rw [hanswers]; exact hp) (by rw [hstatus, hnone]; simp)
    (fun reply hreply => ?_) (fun call hcall r'' hr'' hid' hpending => ?_)
  · rw [hreply] at hnone
    cases hnone
  · rcases hcalls call hcall with hold | ⟨hsent, hnext⟩
    · rw [hslots, List.getElem?_set] at hr''
      split at hr''
      · split at hr''
        · cases hr''
          exact absurd (hid'.symm.trans hid) (hnew call hold)
        · cases hr''
      · obtain ⟨hway, hreplied⟩ := h.pending call hold r'' hr'' hid' hpending
        rw [hrequests, hreplies]
        exact ⟨hway.imp (hunsent _) id, hreplied⟩
    · -- no reply has an id that was not issued
      refine ⟨.inl hsent, fun reply hreply => ?_⟩
      rw [hreplies] at hreply
      obtain ⟨request, hanswer⟩ :=
        hframed.replied reply (hframed.repliesInStep.received_sent hreply)
      obtain ⟨⟨other, hother, hframe⟩, hecho, -⟩ := hframed.answers _ hanswer
      rw [hecho, ← hframe, (hframed.named other hother).2.1, hnext]
      exact hnew other hother

/-- An id is issued. -/
theorem Framed.issue (h : s.Framed order)
    (hlen : s'.client.m_requestPool.m_requests.length = s.client.m_requestPool.m_requests.length)
    (hnext : s'.client.m_requestPool.m_nextRequestId =
      s.client.m_requestPool.m_nextRequestId + 1)
    (horder : s'.client.byteOrder = s.client.byteOrder)
    (hwrites : s'.client.writes = s.client.writes)
    (hrest : s' = { s with client := s'.client, issued := s.issued + 1 }) : s'.Framed order := by
  rw [hrest]
  exact { h with
    size_ne := by
      rw [← List.length_pos_iff, hlen, List.length_pos_iff]
      exact h.size_ne
    size_le := by
      rw [hlen]
      exact h.size_le
    byteOrder := horder.trans h.byteOrder
    writes := by
      rw [hwrites]
      exact h.writes
    issued := by
      intro call hcall
      rw [hnext]
      exact (h.issued call hcall).succ }

/-- A request is handed to the transport. -/
theorem Framed.addCall (h : s.Framed order) {call : Call}
    (hissued : IssuedBefore s.client.m_requestPool.m_nextRequestId s.issued call.data.m_requestId)
    (hnew : ∀ other ∈ s.calls, other.data.m_requestId ≠ call.data.m_requestId)
    (hnamed : WellFormed call.frame ∧
      call.frame.m_header.m_requestId = call.data.m_requestId ∧
      call.frame.m_header.m_requestIndex.toNat = call.data.m_requestIndex)
    {write : WriteRequest} (hwrite : write.bytes = serialized order call.frame) :
    Framed order { s with
      client := { s.client with writes := s.client.writes ++ [write] }
      calls := s.calls ++ [call]
      unsent := s.unsent ++ [call.frame] } := by
  have hmem : ∀ other ∈ s.calls ++ [call], other ∈ s.calls ∨ other = call := by
    intro other hother
    exact (List.mem_append.mp hother).imp id List.mem_singleton.mp
  have hcall : ∀ frame, s.IsCall frame → ∃ other ∈ s.calls ++ [call], other.frame = frame := by
    rintro frame ⟨other, hother, hframe⟩
    exact ⟨other, List.mem_append_left _ hother, hframe⟩
  refine ⟨h.size_ne, h.size_le, h.byteOrder, ?_, fun other hother => ?_, ?_,
    fun other hother => ?_, fun frame hframe => ?_, fun frame hframe => hcall _ (h.sent _ hframe),
    fun p hp => ⟨hcall _ (h.answers p hp).1, (h.answers p hp).2⟩, h.replied, h.requestsInStep,
    h.repliesInStep⟩
  · simp only [List.map_append, List.map_cons, List.map_nil, h.writes, hwrite]
  · rcases hmem other hother with hold | rfl
    · exact h.issued other hold
    · exact hissued
  · rw [List.pairwise_append]
    refine ⟨h.distinct, List.pairwise_singleton _ _, fun a ha b hb => ?_⟩
    rw [List.mem_singleton.mp hb]
    exact hnew a ha
  · rcases hmem other hother with hold | rfl
    · exact h.named other hold
    · exact hnamed
  · rcases List.mem_append.mp hframe with hold | hnew
    · exact hcall _ (h.unsent _ hold)
    · exact ⟨call, List.mem_append_right _ List.mem_cons_self, (List.mem_singleton.mp hnew).symm⟩

/-- **A request is sent**, or it is not: without a vacant slot, or because the write fails. -/
theorem keeps_sendMsg (h : s.Framed order) (hs : s.Slotted) {request : MsgPtr} {msg : Msg}
    {requestFlags : UInt32} {env : SendEnv} (hwf : WellFormed msg)
    (hflags : requestFlags &&& COMMUTIL_REQUEST_FLAG_REUSE = 0) (hn : s.issued < 2 ^ 64)
    (hstep : s.sendMsg request msg requestFlags env = some s') :
    s'.Framed order ∧ s'.Slotted := by
  unfold sendMsg MsgClient.sendMsg at hstep
  rw [if_neg (not_not.mpr hflags)] at hstep
  have hload : (s.client.store request msg).messages request = some msg := by
    simp [MsgClient.store]
  have hnew : ∀ call ∈ s.calls,
      call.data.m_requestId ≠ s.client.m_requestPool.m_nextRequestId :=
    fun call hcall => (h.issued call hcall).ne_next hn
  rcases (s.client.store request msg).sendNew_cases requestFlags env h.size_ne hload
    hwf.consistent with ⟨index, r, hslot, hidle, ⟨-, -, hsend⟩ | ⟨rc, hrc, -, hsend⟩⟩ | ⟨-, hsend⟩
  · -- sent
    have hmessage : ((s.client.store request msg).installed request msg index r requestFlags
        env.now).messages request = some (stampHeader msg s.client.m_requestPool.m_nextRequestId
          index) := by
      simp [MsgClient.installed, MsgClient.store]
    simp only [hsend, hmessage, Option.some.injEq] at hstep
    subst hstep
    have hindex : index < s.client.m_requestPool.m_requests.length :=
      (List.getElem?_eq_some_iff.mp hslot).1
    have hwf' : WellFormed (stampHeader msg s.client.m_requestPool.m_nextRequestId index) :=
      ⟨hwf.magic, hwf.length_eq, hwf.payload_ne⟩
    have hbytes : headerBytes s.client.byteOrder
        (stampHeader msg s.client.m_requestPool.m_nextRequestId index).m_header ++ msg.m_payload =
        serialized order (stampHeader msg s.client.m_requestPool.m_nextRequestId index) := by
      rw [serialized_eq order hwf', h.byteOrder]
      rfl
    constructor
    · have hissue := @Framed.issue order s
        { s with
          client := (s.client.store request msg).installed request msg index r requestFlags env.now
          issued := s.issued + 1 } h (by simp [MsgClient.installed, MsgClient.store]) rfl rfl rfl rfl
      exact @Framed.addCall order _ hissue ⟨⟨s.client.m_requestPool.m_nextRequestId, index⟩, _⟩
        (issuedBefore_next _ _) hnew ⟨hwf', rfl, toNat_ofNat_index h.size_le hindex⟩ _ hbytes
    · refine @Slotted.grab order s _ hs h hn index r
        (r.holding request s.client.m_requestPool.m_nextRequestId requestFlags env.now) hslot hidle
        rfl rfl rfl rfl (fun call hcall => ?_) (fun frame hframe => List.mem_append_left _ hframe)
        rfl rfl rfl
      refine (List.mem_append.mp hcall).imp id fun hlast => ?_
      rw [List.mem_singleton.mp hlast]
      exact ⟨List.mem_append_right _ List.mem_cons_self, rfl⟩
  · -- not written: the slot stays taken
    have hs' : s' = { s with
        client := ((s.client.store request msg).installed request msg index r requestFlags
          env.now).setSlot index (r.holding request
            s.client.m_requestPool.m_nextRequestId requestFlags env.now).clearRequest
        issued := s.issued + 1 } := by
      simp only [hsend] at hstep
      split at hstep
      · rename_i hok _ _
        exact absurd rfl hrc
      · exact (Option.some.inj hstep).symm
    subst hs'
    constructor
    · exact h.issue (by simp [MsgClient.installed, MsgClient.setSlot, MsgClient.store]) rfl rfl rfl
        rfl
    · refine @Slotted.grab order s _ hs h hn index r
        (r.holding request s.client.m_requestPool.m_nextRequestId requestFlags
          env.now).clearRequest hslot hidle rfl rfl rfl ?_ (fun call hcall => .inl hcall)
        (fun frame hframe => hframe) rfl rfl rfl
      simp only [MsgClient.installed, MsgClient.setSlot, MsgRequestPool.setSlot_setSlot]
      rfl
  · -- no vacant slot
    simp only [hsend, Option.some.injEq] at hstep
    subst hstep
    exact ⟨h.issue rfl rfl rfl rfl rfl,
      hs.of_pool rfl rfl (fun _ hp => hp) (fun _ hframe => hframe) rfl⟩

/-- A write is gone from those that wait. -/
theorem Framed.dropWrite (h : s.Framed order) (k : Nat) : (s.dropWrite k).Framed order :=
  { h with
    writes := by
      show (s.client.writes.eraseIdx k).map WriteRequest.bytes =
        (s.unsent.eraseIdx k).map (serialized order)
      rw [← List.eraseIdx_map, ← List.eraseIdx_map, h.writes]
    unsent := fun frame hframe => h.unsent frame (List.mem_of_mem_eraseIdx hframe) }

/-- **A request goes on the wire.** -/
theorem keeps_write (h : s.Framed order) (hs : s.Slotted) {k : Nat} {write : WriteRequest}
    {frame : Msg} (hwrite : s.client.writes[k]? = some write) (hframe : s.unsent[k]? = some frame) :
    Framed order { s.dropWrite k with requests := s.requests.write write.bytes frame } ∧
      Slotted { s.dropWrite k with requests := s.requests.write write.bytes frame } := by
  have hcall := h.unsent frame (List.mem_of_getElem? hframe)
  have hwf : WellFormed frame := by
    obtain ⟨call, hmem, rfl⟩ := hcall
    exact (h.named call hmem).1
  have hbytes : write.bytes = serialized order frame := by
    have hk := congrArg (fun l => l[k]?) h.writes
    simpa only [List.getElem?_map, hwrite, hframe, Option.map_some, Option.some.injEq] using hk
  constructor
  · exact { h.dropWrite k with
      sent := by
        intro other hother
        rcases List.mem_append.mp hother with hold | hnew
        · exact h.sent other hold
        · rw [List.mem_singleton.mp hnew]
          exact hcall
      requestsInStep := h.requestsInStep.write hwf hbytes }
  · refine hs.of_pool rfl rfl (fun _ hp => hp) (fun other hother => ?_) rfl
    rcases hother with hunsent | hsent
    · obtain ⟨i, hi⟩ := List.mem_iff_getElem?.mp hunsent
      by_cases hik : i = k
      · rw [hik, hframe] at hi
        rw [Option.some.inj hi]
        exact .inr (List.mem_append_right _ List.mem_cons_self)
      · exact .inl (List.mem_eraseIdx_iff_getElem?.mpr ⟨i, hik, hi⟩)
    · exact .inr (List.mem_append_left _ hsent)

/-- The direction of the requests moves on, with nothing new written. -/
theorem keeps_requests (h : s.Framed order) (hs : s.Slotted) {requests : Direction}
    (hstep : requests.InStep order) (hsent : requests.sent = s.requests.sent) :
    Framed order { s with requests } ∧ Slotted { s with requests } := by
  constructor
  · exact { h with
      sent := by
        dsimp only
        rw [hsent]
        exact h.sent
      requestsInStep := hstep }
  · refine hs.of_pool rfl rfl (fun _ hp => hp) (fun frame hframe => ?_) rfl
    dsimp only
    rw [hsent]
    exact hframe

/-- **A request is answered.** -/
theorem keeps_replyMsg (h : s.Framed order) (hs : s.Slotted) {k : Nat} {request response : Msg}
    (hrequest : s.requests.received[k]? = some request) (hwf : WellFormed response) :
    Framed order { s with
      replies := s.replies.write (serialized order (answerTo request response))
        (answerTo request response)
      answers := s.answers ++ [(request, answerTo request response)] } ∧
    Slotted { s with
      replies := s.replies.write (serialized order (answerTo request response))
        (answerTo request response)
      answers := s.answers ++ [(request, answerTo request response)] } := by
  have hcall := h.sent request
    (h.requestsInStep.received_sent (List.mem_of_getElem? hrequest))
  have hwf' : WellFormed (answerTo request response) :=
    ⟨hwf.magic, hwf.length_eq, hwf.payload_ne⟩
  constructor
  · exact { h with
      answers := by
        intro p hp
        rcases List.mem_append.mp hp with hold | hnew
        · exact h.answers p hold
        · rw [List.mem_singleton.mp hnew]
          exact ⟨hcall, rfl, rfl⟩
      replied := by
        intro reply hreply
        rcases List.mem_append.mp hreply with hold | hnew
        · obtain ⟨other, hanswer⟩ := h.replied reply hold
          exact ⟨other, List.mem_append_left _ hanswer⟩
        · rw [List.mem_singleton.mp hnew]
          exact ⟨request, List.mem_append_right _ List.mem_cons_self⟩
      repliesInStep := h.repliesInStep.write hwf' rfl }
  · exact hs.of_pool rfl rfl (fun p hp => List.mem_append_left _ hp) (fun _ hframe => hframe) rfl

/-- The direction of the replies moves on, with nothing new written. -/
theorem Framed.replies (h : s.Framed order) {replies : Direction}
    (hstep : replies.InStep order) (hsent : replies.sent = s.replies.sent) :
    Framed order { s with replies } :=
  { h with
    replied := by
      dsimp only
      rw [hsent]
      exact h.replied
    repliesInStep := hstep }

/-- `onMsg` changes the client in its pool. -/
theorem onMsg_client (c : MsgClient) (msg : Msg) :
    (c.onMsg msg).2.2 = { c with m_requestPool := (c.m_requestPool.setResponse msg).2.2 } := rfl

/-- **A reply arrives**: it is stored in the slot that it names, if the slot has its id. -/
theorem keeps_onReply (h : s.Framed order) (hs : s.Slotted) {replies : Direction} {reply : Msg}
    (hstep : replies.InStep order) (hsent : replies.sent = s.replies.sent)
    (hreceived : replies.received = s.replies.received ++ [reply]) :
    Framed order ({ s with replies }.onReply (some reply)) ∧
      Slotted ({ s with replies }.onReply (some reply)) := by
  have hframed := h.replies hstep hsent
  obtain ⟨request, hanswer⟩ := hframed.replied reply
    (hstep.received_sent (by rw [hreceived]; exact List.mem_append_right _ List.mem_cons_self))
  obtain ⟨-, hid, hindex⟩ := h.answers _ hanswer
  -- a call that this reply answers is in the slot that the reply names
  have hnames : ∀ call ∈ s.calls, reply.m_header.m_requestId = call.data.m_requestId →
      reply.m_header.m_requestIndex.toNat = call.data.m_requestIndex := by
    intro call hcall heq
    have hframe : request = call.frame := h.answered_call hanswer hcall heq
    rw [hindex]
    dsimp only
    rw [hframe]
    exact (h.named call hcall).2.2
  have hothers : ∀ call ∈ s.calls, reply.m_header.m_requestId ≠ call.data.m_requestId →
      (∀ m ∈ s.replies.received, m.m_header.m_requestId ≠ call.data.m_requestId) →
      ∀ m ∈ replies.received, m.m_header.m_requestId ≠ call.data.m_requestId := by
    intro call _ hne hold m hm
    rw [hreceived] at hm
    rcases List.mem_append.mp hm with hm | hm
    · exact hold m hm
    · rw [List.mem_singleton.mp hm]
      exact hne
  by_cases hslot : ∃ r, s.client.m_requestPool.m_requests[
      reply.m_header.m_requestIndex.toNat]? = some r ∧ r.m_requestId = reply.m_header.m_requestId
  · obtain ⟨r, hr, hrid⟩ := hslot
    have heq : ({ s with replies }.onReply (some reply)) =
        { s with
          replies
          client := s.client.setSlot reply.m_header.m_requestIndex.toNat (r.setResponse reply) } := by
      show { s with replies, client := (s.client.onMsg reply).2.2 } = _
      rw [onMsg_client, setResponse_of_slot hr hrid]
      rfl
    rw [heq]
    refine ⟨hframed.setSlot _ _, ?_⟩
    refine hs.set rfl (fun _ hp => hp) (by simp [MsgRequest.setResponse]) (fun m hm => ?_)
      (fun call hcall r' hr' hid' hpending => ?_)
    · cases hm
      exact ⟨request, hanswer, hid.symm.trans hrid.symm, congrArg UInt32.toNat hindex.symm⟩
    · have hr'' : (s.client.m_requestPool.m_requests.set reply.m_header.m_requestIndex.toNat
          (r.setResponse reply))[call.data.m_requestIndex]? = some r' := hr'
      rw [List.getElem?_set] at hr''
      split at hr''
      · split at hr''
        · cases hr''
          cases hpending
        · cases hr''
      · rename_i hne
        obtain ⟨hway, hnone⟩ := hs.pending call hcall r' hr'' hid' hpending
        exact ⟨hway, hothers call hcall (fun hsame => hne (hnames call hcall hsame)) hnone⟩
  · have hnone : ∀ r, s.client.m_requestPool.m_requests[
        reply.m_header.m_requestIndex.toNat]? = some r →
        r.m_requestId ≠ reply.m_header.m_requestId := fun r hr hrid => hslot ⟨r, hr, hrid⟩
    have heq : ({ s with replies }.onReply (some reply)) = { s with replies } := by
      show { s with replies, client := (s.client.onMsg reply).2.2 } = _
      rw [onMsg_client, (setResponse_of_no_slot hnone).2]
    rw [heq]
    refine ⟨hframed, hs.arrived, hs.answered, fun call hcall r hr hrid hpending => ?_⟩
    obtain ⟨hway, hold⟩ := hs.pending call hcall r hr hrid hpending
    refine ⟨hway, hothers call hcall (fun hsame => ?_) hold⟩
    -- the slot would have the id of the reply
    have hr' : s.client.m_requestPool.m_requests[call.data.m_requestIndex]? = some r := hr
    rw [← hnames call hcall hsame] at hr'
    exact hnone r hr' (hrid.trans hsame.symm)

/-- **The connection is lost**: no request waits any more. -/
theorem keeps_connectionLost (h : s.Framed order)
    (harrived : ∀ (index : Nat) (r : MsgRequest),
      s.client.m_requestPool.m_requests[index]? = some r →
        (r.m_requestStatus = .arrived ↔ r.m_response.isSome = true))
    (hanswered : ∀ (index : Nat) (r : MsgRequest) (reply : Msg),
      s.client.m_requestPool.m_requests[index]? = some r → r.m_response = some reply →
        ∃ request, (request, reply) ∈ s.answers ∧
          request.m_header.m_requestId = r.m_requestId ∧
          request.m_header.m_requestIndex.toNat = index)
    (hbetween : s.BetweenBuffers) (hstep : s.connectionLost = some s') :
    s'.Framed order ∧ s'.Slotted := by
  unfold connectionLost at hstep
  obtain ⟨requests, hrequests, hstep⟩ := Option.bind_eq_some_iff.mp hstep
  obtain ⟨replies, hreplies, hstep⟩ := Option.bind_eq_some_iff.mp hstep
  cases hstep
  obtain ⟨hin, hsent, -⟩ := h.requestsInStep.reconnect hbetween.1 hrequests
  obtain ⟨hin', hsent', -⟩ := h.repliesInStep.reconnect hbetween.2 hreplies
  have hlen : s.client.onDisconnect.m_requestPool.m_requests.length =
      s.client.m_requestPool.m_requests.length := by
    simp [MsgClient.onDisconnect, MsgRequestPool.abortPendingRequests]
  -- every slot is one that was there, aborted if it was pending
  have hslots : ∀ (index : Nat) (r' : MsgRequest),
      s.client.onDisconnect.m_requestPool.m_requests[index]? = some r' →
      ∃ r, s.client.m_requestPool.m_requests[index]? = some r ∧ r' = r.abortResponse := by
    intro index r' hr'
    simp only [MsgClient.onDisconnect, MsgRequestPool.abortPendingRequests, List.getElem?_map,
      Option.map_eq_some_iff] at hr'
    obtain ⟨r, hr, heq⟩ := hr'
    exact ⟨r, hr, heq.symm⟩
  constructor
  · -- both streams are in step from their beginning, with nothing in between
    exact { h with
      size_ne := by
        dsimp only
        rw [← List.length_pos_iff, hlen, List.length_pos_iff]
        exact h.size_ne
      size_le := by
        dsimp only
        rw [hlen]
        exact h.size_le
      sent := by
        intro frame hframe
        rw [hsent] at hframe
        cases hframe
      replied := by
        intro reply hreply
        rw [hsent'] at hreply
        cases hreply
      requestsInStep := hin
      repliesInStep := hin' }
  · refine ⟨fun index r' hr' => ?_, fun index r' reply hr' hresponse => ?_,
      fun call _ r' hr' _ hpending => ?_⟩
    · -- a slot that was pending is aborted and has no response
      obtain ⟨r, hr, rfl⟩ := hslots index r' hr'
      by_cases hp : r.m_requestStatus = .pending
      · simp [MsgRequest.abortResponse, hp]
      · rw [MsgRequest.abortResponse, if_neg hp]
        exact harrived index r hr
    · obtain ⟨r, hr, rfl⟩ := hslots index r' hr'
      by_cases hp : r.m_requestStatus = .pending
      · simp [MsgRequest.abortResponse, hp] at hresponse
      · rw [MsgRequest.abortResponse, if_neg hp] at hresponse ⊢
        exact hanswered index r reply hr hresponse
    · -- no slot is pending any more
      obtain ⟨r, hr, rfl⟩ := hslots _ r' hr'
      by_cases hp : r.m_requestStatus = .pending
      · simp [MsgRequest.abortResponse, hp] at hpending
      · rw [MsgRequest.abortResponse, if_neg hp] at hpending
        exact absurd hpending hp

/-- **One step** keeps what is known. -/
theorem keeps_step (h : s.Framed order) (hs : s.Slotted) {e : Event} (he : s.Proper e)
    (hstep : s.step order e = some s') : s'.Framed order ∧ s'.Slotted := by
  cases e with
  | sendMsg request msg requestFlags env => exact keeps_sendMsg h hs he.1 he.2.1 he.2.2 hstep
  | clearResponse index =>
    -- taking a response back leaves both streams as they are
    obtain ⟨r, -, hstep⟩ := Option.bind_eq_some_iff.mp hstep
    cases hstep
    exact ⟨h.setSlot index _, hs.clearResponse index r⟩
  | write k =>
    obtain ⟨write, hwrite, hstep⟩ := Option.bind_eq_some_iff.mp hstep
    obtain ⟨frame, hframe, hstep⟩ := Option.bind_eq_some_iff.mp hstep
    cases hstep
    exact keeps_write h hs hwrite hframe
  | writeFails k =>
    -- the slots are not those of the write
    exact keeps_connectionLost (h.dropWrite k) hs.arrived hs.answered he hstep
  | requestBytes buffer =>
    obtain ⟨requests, hrequests, hstep⟩ := Option.bind_eq_some_iff.mp hstep
    cases hstep
    obtain ⟨hin, hsent, -⟩ := h.requestsInStep.onBytesReceived he hrequests
    exact keeps_requests h hs hin hsent
  | requestPass =>
    obtain ⟨⟨requests, msg⟩, hpass, hstep⟩ := Option.bind_eq_some_iff.mp hstep
    cases hstep
    obtain ⟨hin, hsent, -⟩ := h.requestsInStep.pass hpass
    exact keeps_requests h hs hin hsent
  | replyMsg k response =>
    obtain ⟨request, hrequest, hstep⟩ := Option.bind_eq_some_iff.mp hstep
    cases hstep
    -- the reply is queued; it is read only when its bytes arrive
    exact keeps_replyMsg h hs hrequest he
  | replyBytes buffer =>
    obtain ⟨replies, hreplies, hstep⟩ := Option.bind_eq_some_iff.mp hstep
    cases hstep
    obtain ⟨hin, hsent, hreceived⟩ := h.repliesInStep.onBytesReceived he hreplies
    exact ⟨h.replies hin hsent,
      hs.of_pool rfl rfl (fun _ hp => hp) (fun _ hframe => hframe) hreceived⟩
  | replyPass =>
    obtain ⟨⟨replies, msg⟩, hpass, hstep⟩ := Option.bind_eq_some_iff.mp hstep
    cases hstep
    obtain ⟨hin, hsent, hreceived⟩ := h.repliesInStep.pass hpass
    cases msg with
    -- no message is complete yet
    | none =>
      rw [Option.toList_none, List.append_nil] at hreceived
      exact ⟨h.replies hin hsent,
        hs.of_pool rfl rfl (fun _ hp => hp) (fun _ hframe => hframe) hreceived⟩
    | some reply => exact keeps_onReply h hs hin hsent hreceived
  | connectionLost => exact keeps_connectionLost h hs.arrived hs.answered he hstep

theorem keeps_run {maxConcurrentRequests : Nat} (hpos : 0 < maxConcurrentRequests)
    (hle : maxConcurrentRequests ≤ COMMUTIL_MAX_CONCURRENT_REQUESTS) {nextRequestId : UInt64}
    {events : List Event}
    (h : RunsWith (stepOf (step order)) Proper (start order maxConcurrentRequests nextRequestId)
      events s) : s.Framed order ∧ s.Slotted :=
  h.invariant (fun t => t.Framed order ∧ t.Slotted)
    (fun _ _ _ ht he hstep => keeps_step ht.1 ht.2 he hstep)
    ⟨start_framed order hpos hle nextRequestId, start_slotted order _ _⟩

/-! ## §5 What the callers get -/

/-- What `waitPendingResponse` finds in the slot of a request. -/
theorem waitPendingResponse_some {pool : MsgRequestPool} {requestId : UInt64} {requestIndex : Nat}
    {reply : Msg} (h : (pool.waitPendingResponse requestId requestIndex).2.1 = some reply) :
    ∃ r, pool.m_requests[requestIndex]? = some r ∧ r.m_requestId = requestId ∧
      r.m_response = some reply := by
  unfold MsgRequestPool.waitPendingResponse at h
  cases hfind : pool.findSlot requestIndex requestId with
  | error rc =>
    rw [hfind] at h
    cases h
  | ok found =>
    obtain ⟨index, r⟩ := found
    obtain ⟨rfl, hslot, hid⟩ := MsgRequestPool.findSlot_eq_ok.mp hfind
    rw [hfind] at h
    refine ⟨r, hslot, hid, ?_⟩
    cases hstatus : r.m_requestStatus <;> cases hresponse : r.m_response <;>
      simp_all [MsgRequest.waitResponse]

/-- **A call gets a reply that was made to it.**  However the bytes are cut, in whatever order and
    however often the server answers, and however often a write fails or the connection is lost
    while both assemblers are between two buffers: what `waitPendingResponse` returns for a request
    is a message with which the server has answered that very request. -/
theorem calls_get_their_replies (order : ByteOrder) {maxConcurrentRequests : Nat}
    (hpos : 0 < maxConcurrentRequests)
    (hle : maxConcurrentRequests ≤ COMMUTIL_MAX_CONCURRENT_REQUESTS) (nextRequestId : UInt64)
    (events : List Event) (s : RemoteCalls)
    (hrun : RunsWith (stepOf (step order)) Proper
      (start order maxConcurrentRequests nextRequestId) events s) :
    ∀ call ∈ s.calls, ∀ reply,
      (s.client.m_requestPool.waitPendingResponse call.data.m_requestId
        call.data.m_requestIndex).2.1 = some reply →
      (call.frame, reply) ∈ s.answers := by
  obtain ⟨hframed, hslotted⟩ := keeps_run hpos hle hrun
  intro call hcall reply hwait
  obtain ⟨r, hslot, hid, hresponse⟩ := waitPendingResponse_some hwait
  obtain ⟨request, hanswer, hrequest, -⟩ := hslotted.answered _ r reply hslot hresponse
  have hecho : reply.m_header.m_requestId = call.data.m_requestId :=
    ((hframed.answers _ hanswer).2.1.trans hrequest).trans hid
  rw [← hframed.answered_call hanswer hcall hecho]
  exact hanswer

/-- Two requests, of which the second one goes on the wire first and is cut behind its header; the
    server answers the other one first. -/
def twoCalls : List Event :=
  let first := stampHeader ⟨.mk' 41 7 0 0 0, [9]⟩ 5 1
  let second := stampHeader ⟨.mk' 42 7 0 0 0, [8, 8]⟩ 6 0
  let response : Msg := ⟨.mk' 41 7 0 0 0, [1]⟩
  [.sendMsg 100 ⟨.mk' 41 7 0 0 0, [9]⟩ 0 ⟨10, true, .ok⟩,
    .sendMsg 200 ⟨.mk' 42 7 0 0 0, [8, 8]⟩ 0 ⟨11, true, .ok⟩, .write 1, .write 0,
    .requestBytes ⟨1, (serialized .hostOrder second).take 40, by decide⟩,
    .requestPass, .requestPass, .requestPass,
    .requestBytes ⟨2, (serialized .hostOrder second).drop 40 ++ serialized .hostOrder first,
      by decide⟩,
    .requestPass, .requestPass, .requestPass, .requestPass,
    .replyMsg 1 response, .replyMsg 0 response,
    .replyBytes ⟨3, serialized .hostOrder (answerTo first response) ++
      serialized .hostOrder (answerTo second response), by decide⟩,
    .replyPass, .replyPass, .replyPass, .replyPass, .replyPass, .replyPass]

theorem calls_get_their_replies_out_of_order :
    ∃ s : RemoteCalls, s.calls.map Call.data = [⟨5, 1⟩, ⟨6, 0⟩] ∧
      (s.client.m_requestPool.waitPendingResponse 6 0).2.1.isSome = true ∧
      ∀ call ∈ s.calls, ∀ reply,
        (s.client.m_requestPool.waitPendingResponse call.data.m_requestId
          call.data.m_requestIndex).2.1 = some reply →
        (call.frame, reply) ∈ s.answers := by
  have hcomputed : (runWhere (step .hostOrder) Proper (start .hostOrder 2 5) twoCalls).map
      (fun s => (s.calls.map Call.data,
        (s.client.m_requestPool.waitPendingResponse 6 0).2.1.isSome)) =
      some ([⟨5, 1⟩, ⟨6, 0⟩], true) := by
    decide +kernel
  obtain ⟨s, hwhere, hs⟩ := Option.map_eq_some_iff.mp hcomputed
  exact ⟨s, congrArg Prod.fst hs, congrArg Prod.snd hs,
    calls_get_their_replies .hostOrder (by decide) (by decide) 5 twoCalls s
      (runsWith_of_runWhere hwhere)⟩

end RemoteCalls

end Commutil.Client
