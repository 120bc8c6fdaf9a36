import Mathlib.Data.Prod.Lex
import Mathlib.Data.List.Perm.Basic
import Commutil.Library.OrderedSets
import Commutil.Client.RequestPool

/-!
# The Backlog

`msg_backlog.h` and `msg_backlog.cpp`: the index of the requests that wait for a
response, by id, by request time and by resend time.

A backlog entry points to a request message and to its slot in the pool.  A slot
is never freed, a message may be, so reading a message can be a fault.  The two
sets are ordered by what the entries point to at the time of the comparison; they
are the lists of their entries, in the order in which an iterator visits them.
-/

namespace Commutil.Client

open Commutil.Framing Commutil.Library

/-! ## §1 Entries -/

/-- `struct BacklogEntry`; the slot is named by its index in the pool. -/
structure BacklogEntry where
  m_msg : MsgPtr
  m_request : Nat
  deriving DecidableEq, Repr

/-- A slot of the pool, read through a pointer to it. -/
def MsgRequestPool.slot (pool : MsgRequestPool) (index : Nat) : MsgRequest :=
  (pool.m_requests[index]?).getD .new

/-- The header of a message, read through a pointer to it. -/
def readHeader (messages : MsgPtr → Option Msg) (request : MsgPtr) : Except Fault MsgHeader :=
  match messages request with
  | some msg => .ok msg.m_header
  | none => .error .useAfterFree

/-- The comparison of both sets: by a time of the slot, then by the id of the message. -/
def entryTimeCmp (time : MsgRequest → UInt64) (pool : MsgRequestPool)
    (messages : MsgPtr → Option Msg) (lhs rhs : BacklogEntry) : Except Fault Bool :=
  let lhsTime := time (pool.slot lhs.m_request)
  let rhsTime := time (pool.slot rhs.m_request)
  if lhsTime < rhsTime then .ok true
  else if lhsTime > rhsTime then .ok false
  else
    match readHeader messages lhs.m_msg, readHeader messages rhs.m_msg with
    | .error fault, _ => .error fault
    | .ok _, .error fault => .error fault
    | .ok lhsHeader, .ok rhsHeader =>
      .ok (decide (lhsHeader.m_requestId < rhsHeader.m_requestId))

/-- `EntryRequestTimeCmp`. -/
def entryRequestTimeCmp := entryTimeCmp MsgRequest.m_requestTimeMillis

/-- `EntryResendTimeCmp`. -/
def entryResendTimeCmp := entryTimeCmp MsgRequest.m_resendTimeMillis

/-! ## §2 The backlog -/

/-- `class MsgBacklog`. -/
structure MsgBacklog where
  m_backlogSizeBytes : UInt64
  m_requestMap : List (UInt64 × BacklogEntry)
  m_requestSet : List BacklogEntry
  m_minHeap : List BacklogEntry
  deriving DecidableEq, Repr

namespace MsgBacklog

/-- The constructor. -/
def new : MsgBacklog := ⟨0, [], [], []⟩

/-- `addPendingRequest`. -/
def addPendingRequest (b : MsgBacklog) (pool : MsgRequestPool) (messages : MsgPtr → Option Msg)
    (pendingRequest : MsgPtr) : Except Fault (ErrorCode × MsgBacklog) :=
  match readHeader messages pendingRequest with
  | .error fault => .error fault
  | .ok h =>
    match pool.getRequestData h with
    | none => .ok (.notFound, b)
    | some (requestData, _) =>
      let entry : BacklogEntry := ⟨pendingRequest, requestData⟩
      if b.m_requestMap.any fun item => item.1 = h.m_requestId then .ok (.alreadyExists, b)
      else
        let b := { b with m_requestMap := (h.m_requestId, entry) :: b.m_requestMap }
        match insertPosition (entryRequestTimeCmp pool messages) entry b.m_requestSet with
        | .error fault => .error fault
        -- an equal entry is in the set: the map forgets the new one
        | .ok none => .ok (.dataCorrupt, { b with m_requestMap := b.m_requestMap.eraseIdx 0 })
        | .ok (some setItr) =>
          let b := { b with m_requestSet := b.m_requestSet.insertIdx setItr entry }
          match insertPosition (entryResendTimeCmp pool messages) entry b.m_minHeap with
          | .error fault => .error fault
          | .ok none =>
            -- an equal entry is in the heap: the set and the map forget the new one
            let b := { b with m_requestSet := b.m_requestSet.eraseIdx setItr }
            .ok (.dataCorrupt, { b with m_requestMap := b.m_requestMap.eraseIdx 0 })
          | .ok (some heapItr) =>
            .ok (.ok, { b with
              m_minHeap := b.m_minHeap.insertIdx heapItr entry
              m_backlogSizeBytes := b.m_backlogSizeBytes + .ofNat (getPayloadSizeBytes h) })

/-- The scan of `findRequestByTime` from the first entry that may have the time. -/
def scanByTime (pool : MsgRequestPool) (requestTimeMillis : UInt64) (request : MsgPtr) :
    List BacklogEntry → Option Nat
  | [] => none
  | entry :: rest =>
    if entry.m_msg = request then some 0
    else if (pool.slot entry.m_request).m_requestTimeMillis = requestTimeMillis then
      -- another request of the same time
      (scanByTime pool requestTimeMillis request rest).map (· + 1)
    else none

/-- `findRequestByTime`: the position in the set. -/
def findRequestByTime (b : MsgBacklog) (pool : MsgRequestPool) (requestTimeMillis : UInt64)
    (request : MsgPtr) : Option Nat :=
  let setItr := lowerBound (fun entry =>
    decide ((pool.slot entry.m_request).m_requestTimeMillis < requestTimeMillis)) b.m_requestSet
  (scanByTime pool requestTimeMillis request (b.m_requestSet.drop setItr)).map (setItr + ·)

/-- `removePendingRequest`. -/
def removePendingRequest (b : MsgBacklog) (pool : MsgRequestPool)
    (messages : MsgPtr → Option Msg) (request : MsgPtr) :
    Except Fault (ErrorCode × MsgBacklog) :=
  match readHeader messages request with
  | .error fault => .error fault
  | .ok h =>
    match b.m_requestMap.find? fun item => item.1 = h.m_requestId with
    | none => .ok (.notFound, b)
    | some mapItr =>
      let requestTimeMillis := (pool.slot mapItr.2.m_request).m_requestTimeMillis
      match b.findRequestByTime pool requestTimeMillis request with
      | none => .ok (.dataCorrupt, b)
      | some setItr =>
        -- the loop after `std::find_if` never runs: the entry it found is the request's
        match b.m_minHeap.findIdx? fun entry => entry.m_msg = request with
        | none => .ok (.dataCorrupt, b)
        | some heapItr =>
          .ok (.ok, {
            m_requestMap := b.m_requestMap.eraseP fun item => item.1 = h.m_requestId
            m_requestSet := b.m_requestSet.eraseIdx setItr
            m_minHeap := b.m_minHeap.eraseIdx heapItr
            m_backlogSizeBytes := b.m_backlogSizeBytes - .ofNat (getPayloadSizeBytes h) })

/-- One round of the loop of `pruneBacklog`: the oldest request goes from the pool and from the
    backlog.  The result is the first error of the round. -/
def pruneRound (b : MsgBacklog) (pool : MsgRequestPool) (messages : MsgPtr → Option Msg)
    (entry : BacklogEntry) : Except Fault (ErrorCode × MsgRequestPool × MsgBacklog) :=
  match readHeader messages entry.m_msg with
  | .error fault => .error fault
  | .ok h =>
    let messageSize : UInt64 := .ofNat (getPayloadSizeBytes h)
    -- the size goes down here, and again when the request leaves the backlog
    let b := { b with m_backlogSizeBytes :=
      if messageSize > b.m_backlogSizeBytes then 0 else b.m_backlogSizeBytes - messageSize }
    let (rc, pool) := pool.clearPendingRequest h
    match b.removePendingRequest pool messages entry.m_msg with
    | .error fault => .error fault
    | .ok (rc2, b) => .ok (if rc ≠ .ok then rc else rc2, pool, b)

/-- `hasReadyResendRequest` and `getReadyResendRequest`: the request, if there is one. -/
def readyResendRequest (b : MsgBacklog) (pool : MsgRequestPool) (timerBarrierMillis : UInt64) :
    Option MsgPtr :=
  match b.m_requestSet with
  | [] => none
  | entry :: _ =>
    if (pool.slot entry.m_request).m_resendTimeMillis < timerBarrierMillis then some entry.m_msg
    else none

/-- `updateReadyResendRequest`. -/
def updateReadyResendRequest (b : MsgBacklog) (pool : MsgRequestPool)
    (messages : MsgPtr → Option Msg) : Except Fault MsgBacklog :=
  match b.m_requestSet with
  -- the first entry of an empty set is read
  | [] => .error .outOfBounds
  | entry :: rest =>
    match insertPosition (entryRequestTimeCmp pool messages) entry rest with
    | .error fault => .error fault
    | .ok none => .ok { b with m_requestSet := rest }
    | .ok (some position) => .ok { b with m_requestSet := rest.insertIdx position entry }

/-! ## §3 What the operations do to the indices -/

section Cases

variable {b : MsgBacklog} {pool : MsgRequestPool} {messages : MsgPtr → Option Msg}
  {request : MsgPtr}

theorem getRequestData_eq_some {h : MsgHeader} {index : Nat} {r : MsgRequest} :
    pool.getRequestData h = some (index, r) ↔ index = h.m_requestIndex.toNat ∧
      pool.m_requests[index]? = some r ∧ r.m_requestId = h.m_requestId := by
  have hopt : pool.getRequestData h = some (index, r) ↔
      pool.findSlot h.m_requestIndex.toNat h.m_requestId = .ok (index, r) := by
    unfold MsgRequestPool.getRequestData MsgRequestPool.findByHeader
    cases pool.findSlot h.m_requestIndex.toNat h.m_requestId <;> simp [Except.toOption]
  rw [hopt, MsgRequestPool.findSlot_eq_ok]
  constructor
  · rintro ⟨rfl, hslot, hid⟩
    exact ⟨rfl, hslot, hid⟩
  · rintro ⟨rfl, hslot, hid⟩
    exact ⟨rfl, hslot, hid⟩

/-- The backlog with one more entry. -/
structure Added (b : MsgBacklog) (h : MsgHeader) (entry : BacklogEntry) (b' : MsgBacklog) :
    Prop where
  map : b'.m_requestMap = (h.m_requestId, entry) :: b.m_requestMap
  set : b'.m_requestSet.Perm (entry :: b.m_requestSet)
  heap : b'.m_minHeap.Perm (entry :: b.m_minHeap)
  size : b'.m_backlogSizeBytes = b.m_backlogSizeBytes + .ofNat (getPayloadSizeBytes h)

/-- **Specification of `addPendingRequest`**: a call that returns has added the entry to all three
    indices, or has changed nothing. -/
theorem addPendingRequest_cases {rc : ErrorCode} {b' : MsgBacklog}
    (hcall : b.addPendingRequest pool messages request = .ok (rc, b')) :
    (rc = .ok ∧ ∃ msg r, messages request = some msg ∧
      pool.getRequestData msg.m_header = some (msg.m_header.m_requestIndex.toNat, r) ∧
      (∀ item ∈ b.m_requestMap, item.1 ≠ msg.m_header.m_requestId) ∧
      Added b msg.m_header ⟨request, msg.m_header.m_requestIndex.toNat⟩ b') ∨
    rc ≠ .ok ∧ b' = b := by
  unfold addPendingRequest readHeader at hcall
  cases hmsg : messages request with
  | none =>
    rw [hmsg] at hcall
    cases hcall
  | some msg =>
    simp only [hmsg] at hcall
    split at hcall
    · cases hcall
      exact .inr ⟨by decide, rfl⟩
    · rename_i index r hdata
      obtain ⟨rfl, -, -⟩ := getRequestData_eq_some.mp hdata
      split at hcall
      · cases hcall
        exact .inr ⟨by decide, rfl⟩
      · rename_i hnew
        split at hcall
        · cases hcall
        · cases hcall
          exact .inr ⟨by decide, rfl⟩
        · rename_i setItr hset
          split at hcall
          · cases hcall
          -- the set entry is taken out of the place where it was put
          · cases hcall
            exact .inr ⟨by decide, by simp [List.eraseIdx_insertIdx_self]⟩
          · rename_i heapItr hheap
            cases hcall
            refine .inl ⟨rfl, msg, r, rfl, hdata, ?_, rfl, ?_, ?_, rfl⟩
            · exact fun item hitem heq =>
                hnew (List.any_eq_true.mpr ⟨item, hitem, decide_eq_true heq⟩)
            · exact List.perm_insertIdx _ _ (insertPosition_le hset)
            · exact List.perm_insertIdx _ _ (insertPosition_le hheap)

theorem scanByTime_eq_some {t : UInt64} {l : List BacklogEntry} {i : Nat}
    (h : scanByTime pool t request l = some i) :
    ∃ entry, l[i]? = some entry ∧ entry.m_msg = request := by
  induction l generalizing i with
  | nil => cases h
  | cons e es ih =>
    rw [scanByTime] at h
    split at h
    · rename_i hmsg
      cases h
      exact ⟨e, rfl, hmsg⟩
    · split at h
      · obtain ⟨j, hj, rfl⟩ := Option.map_eq_some_iff.mp h
        obtain ⟨entry, hentry, hmsg⟩ := ih hj
        exact ⟨entry, by simpa using hentry, hmsg⟩
      · cases h

theorem findRequestByTime_eq_some {t : UInt64} {i : Nat}
    (h : b.findRequestByTime pool t request = some i) :
    ∃ entry, b.m_requestSet[i]? = some entry ∧ entry.m_msg = request := by
  obtain ⟨j, hj, rfl⟩ := Option.map_eq_some_iff.mp h
  obtain ⟨entry, hentry, hmsg⟩ := scanByTime_eq_some hj
  exact ⟨entry, by rwa [List.getElem?_drop] at hentry, hmsg⟩

/-- The backlog with one entry less in each index. -/
structure Removed (b : MsgBacklog) (h : MsgHeader) (request : MsgPtr) (b' : MsgBacklog) :
    Prop where
  map : ∃ entry, b.m_requestMap.Perm ((h.m_requestId, entry) :: b'.m_requestMap)
  set : ∃ entry, entry.m_msg = request ∧ b.m_requestSet.Perm (entry :: b'.m_requestSet)
  setOrder : b'.m_requestSet.Sublist b.m_requestSet
  heap : ∃ entry, entry.m_msg = request ∧ b.m_minHeap.Perm (entry :: b'.m_minHeap)
  heapOrder : b'.m_minHeap.Sublist b.m_minHeap
  size : b'.m_backlogSizeBytes = b.m_backlogSizeBytes - .ofNat (getPayloadSizeBytes h)

theorem perm_cons_eraseIdx {α : Type} {l : List α} {i : Nat} {a : α} (h : l[i]? = some a) :
    l.Perm (a :: l.eraseIdx i) := by
  obtain ⟨hlt, rfl⟩ := List.getElem?_eq_some_iff.mp h
  exact (List.getElem_cons_eraseIdx_perm hlt).symm

theorem perm_cons_eraseP {α : Type} {l : List α} {p : α → Bool} {a : α} (h : l.find? p = some a) :
    l.Perm (a :: l.eraseP p) := by
  obtain ⟨hp, as, bs, rfl, has⟩ := List.find?_eq_some_iff_append.mp h
  rw [List.eraseP_append_right _ (by simpa using has), List.eraseP_cons_of_pos hp]
  exact List.perm_middle

/-- **Specification of `removePendingRequest`**: a call that returns has taken an entry out of all
    three indices, or has changed nothing. -/
theorem removePendingRequest_cases {rc : ErrorCode} {b' : MsgBacklog}
    (hcall : b.removePendingRequest pool messages request = .ok (rc, b')) :
    (rc = .ok ∧ ∃ msg, messages request = some msg ∧ Removed b msg.m_header request b') ∨
    rc ≠ .ok ∧ b' = b := by
  unfold removePendingRequest readHeader at hcall
  cases hmsg : messages request with
  | none =>
    rw [hmsg] at hcall
    cases hcall
  | some msg =>
    simp only [hmsg] at hcall
    split at hcall
    · cases hcall
      exact .inr ⟨by decide, rfl⟩
    -- each index is searched before any is changed
    · rename_i mapItr hmap
      split at hcall
      · cases hcall
        exact .inr ⟨by decide, rfl⟩
      · rename_i setItr hset
        split at hcall
        · cases hcall
          exact .inr ⟨by decide, rfl⟩
        · rename_i heapItr hheap
          cases hcall
          obtain ⟨setEntry, hsetEntry, hsetMsg⟩ := findRequestByTime_eq_some hset
          obtain ⟨hlt, hheapMsg, -⟩ := List.findIdx?_eq_some_iff_getElem.mp hheap
          refine .inl ⟨rfl, msg, rfl, ⟨mapItr.2, ?_⟩, ⟨setEntry, hsetMsg, ?_⟩,
            List.eraseIdx_sublist .., ⟨b.m_minHeap[heapItr], by simpa using hheapMsg, ?_⟩,
            List.eraseIdx_sublist .., rfl⟩
          · obtain ⟨id, mapEntry⟩ := mapItr
            obtain rfl : id = msg.m_header.m_requestId := by simpa using List.find?_some hmap
            exact perm_cons_eraseP hmap
          · exact perm_cons_eraseIdx hsetEntry
          · exact perm_cons_eraseIdx (List.getElem?_eq_getElem hlt)

end Cases

end MsgBacklog

end Commutil.Client
