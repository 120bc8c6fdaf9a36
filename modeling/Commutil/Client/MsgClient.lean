import Commutil.Client.RequestPool

/-!
# The Message Client

`msg_client.cpp`: sending a message, with a new slot or with the one it has
already, and what the client does when a message arrives or the connection is
lost.

`messages` holds the request messages that are allocated.  The outcome of a call
depends on the clock, on the allocation of the send buffer and on the transport;
`SendEnv` names the three.  What the transport has accepted, and has not handed
to the I/O loop yet, is kept in `writes` together with the user data that
`onLoopSend` will get.
-/

namespace Commutil.Client

open Commutil.Framing Commutil.Io

/-! ## §1 State -/

/-- `COMMUTIL_MAX_CONCURRENT_REQUESTS`. -/
def COMMUTIL_MAX_CONCURRENT_REQUESTS : Nat := 1024

/-- `struct MsgRequestData`. -/
structure MsgRequestData where
  m_requestId : UInt64
  m_requestIndex : Nat
  deriving DecidableEq, Repr

/-- What `sendMsg` meets: the clock, whether the buffer is allocated, the transport's answer. -/
structure SendEnv where
  now : UInt64
  allocated : Bool
  write : ErrorCode
  deriving DecidableEq, Repr

/-- A buffer handed to the transport, and the user data that goes with it. -/
structure WriteRequest where
  bytes : List UInt8
  userData : Option MsgPtr
  deriving DecidableEq, Repr

/-- `class MsgClient`. -/
structure MsgClient where
  m_requestPool : MsgRequestPool
  byteOrder : ByteOrder
  /-- The request messages that are allocated. -/
  messages : MsgPtr → Option Msg
  /-- Writes accepted by the transport and not yet handed to the I/O loop. -/
  writes : List WriteRequest

/-- `enum class MsgAction`. -/
inductive MsgAction where
  | noAction
  | canDelete
  | cannotDelete
  deriving DecidableEq, Repr

/-! ## §2 Sending -/

/-- `setRequestIndex` and `setRequestId` on a message header. -/
def stampHeader (msg : Msg) (requestId : UInt64) (requestIndex : Nat) : Msg :=
  { msg with m_header :=
      { msg.m_header with m_requestId := requestId, m_requestIndex := .ofNat requestIndex } }

/-- Serialize a message into a new buffer and write it: the bytes the transport accepts. -/
def transmit (order : ByteOrder) (msg : Msg) (env : SendEnv) :
    Except Fault (Except ErrorCode (List UInt8)) :=
  if !env.allocated then .ok (.error .nomem)
  else
    match msg.serialize (FixedOutputStream.new msg.m_header.m_length.toNat order) with
    | .error fault => .error fault
    | .ok (.error rc) => .ok (.error rc)
    | .ok (.ok os) => if env.write ≠ .ok then .ok (.error env.write) else .ok (.ok os.m_buffer)

namespace MsgClient

/-- Read a request message. -/
def load (c : MsgClient) (request : MsgPtr) : Except Fault Msg :=
  match c.messages request with
  | some msg => .ok msg
  | none => .error .useAfterFree

/-- Change a slot of the pool. -/
def setSlot (c : MsgClient) (index : Nat) (r : MsgRequest) : MsgClient :=
  { c with m_requestPool := c.m_requestPool.setSlot index r }

/-- Change a request message. -/
def store (c : MsgClient) (request : MsgPtr) (msg : Msg) : MsgClient :=
  { c with messages := Function.update c.messages request (some msg) }

/-- The end of `sendMsg`, with the slot and its contents: on failure the slot loses its request. -/
def sendThrough (c : MsgClient) (msg : Msg) (index : Nat) (r : MsgRequest)
    (userData : Option MsgPtr) (env : SendEnv) : Except Fault (ErrorCode × MsgClient) :=
  match transmit c.byteOrder msg env with
  | .error fault => .error fault
  -- the slot gives up the request, not its status
  | .ok (.error rc) => .ok (rc, c.setSlot index r.clearRequest)
  | .ok (.ok bytes) => .ok (.ok, { c with writes := c.writes ++ [⟨bytes, userData⟩] })

/-- `sendMsg` of a message that gets a new id and a new slot. -/
def sendNew (c : MsgClient) (request : MsgPtr) (requestFlags : UInt32) (env : SendEnv) :
    Except Fault (ErrorCode × Option MsgRequestData × MsgClient) :=
  match c.m_requestPool.grabSlot with
  | .error fault => .error fault
  | .ok (_, none, pool) => .ok (.resourceLimit, none, { c with m_requestPool := pool })
  | .ok (requestId, some requestIndex, pool) =>
    match pool.m_requests[requestIndex]?, c.load request with
    | some r, .ok msg =>
      let r := (r.setFlags requestFlags).setRequest request env.now
      let msg := stampHeader msg requestId requestIndex
      -- the slot and the header are set before the write
      let c := ({ c with m_requestPool := pool }.setSlot requestIndex r).store request msg
      match c.sendThrough msg requestIndex r (some request) env with
      | .error fault => .error fault
      | .ok (rc, c) => .ok (rc, some ⟨requestId, requestIndex⟩, c)
    | _, .error fault => .error fault
    | none, _ => .error .outOfBounds

/-- `sendMsg` of a message that keeps its id and its slot. -/
def sendReused (c : MsgClient) (request : MsgPtr) (requestFlags : UInt32) (env : SendEnv) :
    Except Fault (ErrorCode × Option MsgRequestData × MsgClient) :=
  match c.load request with
  | .error fault => .error fault
  | .ok msg =>
    match c.m_requestPool.getRequestData msg.m_header with
    | none => .ok (.resourceLimit, none, c)
    | some (index, r) =>
      let r := r.setFlags requestFlags
      let c := c.setSlot index r
      match c.sendThrough msg index r none env with
      | .error fault => .error fault
      -- the local `requestIndex` keeps its initial value
      | .ok (rc, c) => .ok (rc, some ⟨msg.m_header.m_requestId, 0⟩, c)

/-- `MsgClient::sendMsg`. -/
def sendMsg (c : MsgClient) (request : MsgPtr) (requestFlags : UInt32) (env : SendEnv) :
    Except Fault (ErrorCode × Option MsgRequestData × MsgClient) :=
  if requestFlags &&& COMMUTIL_REQUEST_FLAG_REUSE ≠ 0 then c.sendReused request requestFlags env
  else c.sendNew request requestFlags env

/-! ## §3 Events -/

/-- `MsgClient::onDisconnect`. -/
def onDisconnect (c : MsgClient) : MsgClient :=
  { c with m_requestPool := c.m_requestPool.abortPendingRequests }

/-- `MsgClient::onMsg`: the action, whether the listener is notified, and the client. -/
def onMsg (c : MsgClient) (msg : Msg) : MsgAction × Bool × MsgClient :=
  match c.m_requestPool.setResponse msg with
  | (rc, requestFlags, pool) =>
    (if rc = .ok then .cannotDelete else .canDelete,
      requestFlags &&& COMMUTIL_REQUEST_FLAG_TX = 0, { c with m_requestPool := pool })

end MsgClient

/-! ## §4 What sending does -/

/-- A consistent message is put on the wire whole, if it is put on the wire. -/
theorem transmit_eq (order : ByteOrder) {msg : Msg} (h : Consistent msg) (env : SendEnv) :
    transmit order msg env =
      if env.allocated = false then .ok (.error .nomem)
      else if env.write ≠ .ok then .ok (.error env.write)
      else .ok (.ok (headerBytes order msg.m_header ++ msg.m_payload)) := by
  have hser := h.serialize_eq (FixedOutputStream.new msg.m_header.m_length.toNat order)
    (by rw [h.length_eq]; simp [FixedOutputStream.new])
  unfold transmit
  cases env.allocated with
  | false => rfl
  | true =>
    simp only [hser, Bool.not_true, Bool.false_eq_true, if_false, reduceCtorEq]
    rfl

theorem stampHeader_consistent {msg : Msg} (h : Consistent msg) (requestId : UInt64)
    (requestIndex : Nat) : Consistent (stampHeader msg requestId requestIndex) :=
  ⟨h.magic, h.length_eq⟩

/-- A slot that was taken for a message and holds it. -/
def MsgRequest.holding (r : MsgRequest) (request : MsgPtr) (requestId : UInt64)
    (requestFlags : UInt32) (now : UInt64) : MsgRequest :=
  ((r.grabbed requestId).setFlags requestFlags).setRequest request now

namespace MsgClient

/-- The client when a message has got its id and its slot. -/
def installed (c : MsgClient) (request : MsgPtr) (msg : Msg) (index : Nat) (r : MsgRequest)
    (requestFlags : UInt32) (now : UInt64) : MsgClient :=
  { c with
    m_requestPool := c.m_requestPool.issued.setSlot index
      (r.holding request c.m_requestPool.m_nextRequestId requestFlags now)
    messages := Function.update c.messages request
      (some (stampHeader msg c.m_requestPool.m_nextRequestId index)) }

/-- **Specification of `sendMsg` with a new slot**: a vacant slot is taken and holds the message,
    which is written or, on failure, taken out of the slot again; without a vacant slot nothing
    but the id counter changes. -/
theorem sendNew_cases (c : MsgClient) {request : MsgPtr} {msg : Msg} (requestFlags : UInt32)
    (env : SendEnv) (hne : c.m_requestPool.m_requests ≠ []) (hload : c.messages request = some msg)
    (hmsg : Consistent msg) :
    (∃ index r, c.m_requestPool.m_requests[index]? = some r ∧ r.m_requestStatus = .idle ∧
      (env.allocated = true ∧ env.write = .ok ∧
        c.sendNew request requestFlags env = .ok (.ok,
          some ⟨c.m_requestPool.m_nextRequestId, index⟩,
          { c.installed request msg index r requestFlags env.now with
            writes := c.writes ++ [⟨headerBytes c.byteOrder
              (stampHeader msg c.m_requestPool.m_nextRequestId index).m_header ++ msg.m_payload,
              some request⟩] }) ∨
      ∃ rc, rc ≠ .ok ∧ (env.allocated = false ∨ env.write ≠ .ok) ∧
        c.sendNew request requestFlags env = .ok (rc,
          some ⟨c.m_requestPool.m_nextRequestId, index⟩,
          (c.installed request msg index r requestFlags env.now).setSlot index
            (r.holding request c.m_requestPool.m_nextRequestId requestFlags
                env.now).clearRequest))) ∨
    ((∀ r ∈ c.m_requestPool.m_requests, r.m_requestStatus ≠ .idle) ∧
      c.sendNew request requestFlags env =
        .ok (.resourceLimit, none, { c with m_requestPool := c.m_requestPool.issued })) := by
  unfold sendNew
  rcases c.m_requestPool.grabSlot_cases with
    ⟨index, r, hslot, hidle, hgrab⟩ | ⟨-, hbusy, hgrab⟩ | ⟨hnil, -⟩
  · refine .inl ⟨index, r, hslot, hidle, ?_⟩
    -- a slot was found: what remains to go wrong is the write
    have hlt := (List.getElem?_eq_some_iff.mp hslot).1
    have hread := MsgRequestPool.setSlot_self c.m_requestPool.issued hlt
      (r.grabbed c.m_requestPool.m_nextRequestId)
    have hmsg' := stampHeader_consistent hmsg c.m_requestPool.m_nextRequestId index
    simp only [hgrab, hread, load, hload, sendThrough, setSlot, store,
      MsgRequestPool.setSlot_setSlot,
      transmit_eq _ hmsg']
    cases halloc : env.allocated with
    | false =>
      refine .inr ⟨.nomem, by decide, .inl rfl, ?_⟩
      simp [installed, MsgRequest.holding]
    | true =>
      by_cases hwrite : env.write = .ok
      · refine .inl ⟨rfl, hwrite, ?_⟩
        simp only [hwrite, ne_eq, not_true_eq_false, if_false, reduceCtorEq]
        rfl
      · refine .inr ⟨env.write, hwrite, .inr hwrite, ?_⟩
        simp [hwrite, installed, MsgRequest.holding]
  · refine .inr ⟨hbusy, ?_⟩
    rw [hgrab]
  · exact absurd hnil hne

end MsgClient

end Commutil.Client
