import Mathlib.Algebra.Group.Action.Defs
import Mathlib.Algebra.Order.BigOperators.Group.List
import Mathlib.Algebra.Order.Ring.Nat
import Mathlib.Data.List.Nodup
import Mathlib.Data.List.Perm.Subperm
import Commutil.Client.MsgBacklog
import Commutil.Library.Transitions

/-!
# The Indices of the Backlog Agree

A run of calls of `addPendingRequest` and `removePendingRequest`.  Between the
calls the pool and the messages may change, as long as what the entries of the
backlog read stays the same.

`contents` records the entries that were added and not removed since.  The
invariant `Indexed` says that each of the three indices holds these entries, and
that `m_requestSet` is in its order.

Nothing is asked of the order of `m_minHeap`.  Its key is the resend time, which is
read from the slot: one resend that writes a new time there leaves the entry where
it was.  A removal finds its entry in `m_minHeap` by the message and not by the key,
so the indices agree all the same.
-/

namespace Commutil.Client

open Commutil.Framing Commutil.Library

/-! ## §1 What an entry reads -/

/-- The request id of a message. -/
def requestIdOf (messages : MsgPtr → Option Msg) (request : MsgPtr) : UInt64 :=
  match messages request with
  | some msg => msg.m_header.m_requestId
  | none => 0

/-- The payload size of a message. -/
def payloadSizeOf (messages : MsgPtr → Option Msg) (request : MsgPtr) : Nat :=
  match messages request with
  | some msg => getPayloadSizeBytes msg.m_header
  | none => 0

/-- What the indices read through an entry: the id and the payload size of the message, and the id
    and the request time of the slot. -/
def BacklogEntry.reads (entry : BacklogEntry) (pool : MsgRequestPool)
    (messages : MsgPtr → Option Msg) : Option (UInt64 × Nat) × UInt64 × UInt64 :=
  let r := pool.slot entry.m_request
  ((messages entry.m_msg).map fun msg =>
      (msg.m_header.m_requestId, getPayloadSizeBytes msg.m_header),
    r.m_requestId, r.m_requestTimeMillis)

/-- The entry that is added for a message: its slot is the one its header names. -/
def entryOf (messages : MsgPtr → Option Msg) (request : MsgPtr) : BacklogEntry :=
  ⟨request, match messages request with
    | some msg => msg.m_header.m_requestIndex.toNat
    | none => 0⟩

/-- The key that orders a set: a time of the slot, then the id of the message. -/
def entryKey (time : MsgRequest → UInt64) (pool : MsgRequestPool)
    (messages : MsgPtr → Option Msg) (entry : BacklogEntry) : ℕ ×ₗ ℕ :=
  toLex ((time (pool.slot entry.m_request)).toNat, (requestIdOf messages entry.m_msg).toNat)

/-- The entries of a set in its order. -/
def InOrder (time : MsgRequest → UInt64) (pool : MsgRequestPool)
    (messages : MsgPtr → Option Msg) (l : List BacklogEntry) : Prop :=
  l.Pairwise fun a b => entryKey time pool messages a ≤ entryKey time pool messages b

section Keys

variable {pool : MsgRequestPool} {messages : MsgPtr → Option Msg} {request : MsgPtr} {msg : Msg}

theorem requestIdOf_eq (h : messages request = some msg) :
    requestIdOf messages request = msg.m_header.m_requestId := by
  unfold requestIdOf
  rw [h]

theorem payloadSizeOf_eq (h : messages request = some msg) :
    payloadSizeOf messages request = getPayloadSizeBytes msg.m_header := by
  unfold payloadSizeOf
  rw [h]

theorem payloadSizeOf_lt (messages : MsgPtr → Option Msg) (request : MsgPtr) :
    payloadSizeOf messages request < 2 ^ 32 := by
  unfold payloadSizeOf
  split
  · unfold getPayloadSizeBytes sub32
    omega
  · omega

theorem entryOf_eq (h : messages request = some msg) :
    entryOf messages request = ⟨request, msg.m_header.m_requestIndex.toNat⟩ := by
  unfold entryOf
  rw [h]

/-- Between entries whose messages exist, the comparison of the code is that of the keys. -/
theorem entryTimeCmp_eq (time : MsgRequest → UInt64) {lhs rhs : BacklogEntry}
    (hl : (messages lhs.m_msg).isSome) (hr : (messages rhs.m_msg).isSome) :
    entryTimeCmp time pool messages lhs rhs =
      .ok (decide (entryKey time pool messages lhs < entryKey time pool messages rhs)) := by
  obtain ⟨lm, hlm⟩ := Option.isSome_iff_exists.mp hl
  obtain ⟨rm, hrm⟩ := Option.isSome_iff_exists.mp hr
  unfold entryTimeCmp entryKey readHeader
  simp only [hlm, hrm, requestIdOf_eq hlm, requestIdOf_eq hrm, Prod.Lex.toLex_lt_toLex,
    UInt64.lt_iff_toNat_lt, gt_iff_lt]
  split
  · rename_i hlt
    simp [hlt]
  · split
    · rename_i hge hgt
      have hne : (time (pool.slot lhs.m_request)).toNat ≠
          (time (pool.slot rhs.m_request)).toNat := Nat.ne_of_gt hgt
      simp [hge, hne]
    · rename_i hge hle
      have heq : (time (pool.slot lhs.m_request)).toNat =
          (time (pool.slot rhs.m_request)).toNat := Nat.le_antisymm (not_lt.mp hle) (not_lt.mp hge)
      simp [heq]

end Keys

/-! ## §2 The invariant -/

/-- The entries of requests that are waiting: the messages exist, have distinct ids and are in the
    slots. -/
structure Waiting (pool : MsgRequestPool) (messages : MsgPtr → Option Msg)
    (contents : List BacklogEntry) : Prop where
  live : ∀ e ∈ contents, (messages e.m_msg).isSome
  index_lt : ∀ e ∈ contents, e.m_request < 2 ^ 32
  slot_id : ∀ e ∈ contents,
    (pool.slot e.m_request).m_requestId = requestIdOf messages e.m_msg
  distinct : (contents.map fun e => requestIdOf messages e.m_msg).Nodup

/-- The three indices hold the entries `contents`, and `m_requestSet` is in its order. -/
structure Indexed (b : MsgBacklog) (pool : MsgRequestPool) (messages : MsgPtr → Option Msg)
    (contents : List BacklogEntry) : Prop extends Waiting pool messages contents where
  map : b.m_requestMap.Perm (contents.map fun e => (requestIdOf messages e.m_msg, e))
  set : b.m_requestSet.Perm contents
  heap : b.m_minHeap.Perm contents
  setOrder : InOrder MsgRequest.m_requestTimeMillis pool messages b.m_requestSet
  size : b.m_backlogSizeBytes.toNat =
    (contents.map fun e => payloadSizeOf messages e.m_msg).sum

/-- The three indices hold the same entries, in whatever order. -/
structure Recorded (b : MsgBacklog) (messages : MsgPtr → Option Msg)
    (contents : List BacklogEntry) : Prop where
  live : ∀ e ∈ contents, (messages e.m_msg).isSome
  distinct : (contents.map fun e => requestIdOf messages e.m_msg).Nodup
  map : b.m_requestMap.Perm (contents.map fun e => (requestIdOf messages e.m_msg, e))
  set : b.m_requestSet.Perm contents
  heap : b.m_minHeap.Perm contents

/-- Distinct numbers below a bound are no more than the bound. -/
theorem length_le_of_nodup_of_lt {l : List Nat} {n : Nat} (hnodup : l.Nodup)
    (hlt : ∀ i ∈ l, i < n) : l.length ≤ n := by
  have hsub : l ⊆ List.range n := fun i hi => List.mem_range.mpr (hlt i hi)
  simpa using (hnodup.subperm hsub).length_le

section Invariant

variable {b b' : MsgBacklog} {pool : MsgRequestPool} {messages : MsgPtr → Option Msg}
  {contents : List BacklogEntry} {request : MsgPtr} {msg : Msg}

namespace Waiting

/-- An entry is determined by the id of its message. -/
theorem eq_of_id (h : Waiting pool messages contents) {e e' : BacklogEntry} (he : e ∈ contents)
    (he' : e' ∈ contents)
    (hid : requestIdOf messages e.m_msg = requestIdOf messages e'.m_msg) : e = e' :=
  List.inj_on_of_nodup_map h.distinct he he' hid

/-- The slots of the entries are distinct, so there are no more entries than slot indices. -/
theorem length_le (h : Waiting pool messages contents) : contents.length ≤ 2 ^ 32 := by
  have hids : contents.map (fun e => requestIdOf messages e.m_msg) =
      (contents.map BacklogEntry.m_request).map fun i => (pool.slot i).m_requestId := by
    rw [List.map_map]
    exact List.map_congr_left fun e he => (h.slot_id e he).symm
  have hslots : (contents.map BacklogEntry.m_request).Nodup := by
    have hdistinct := h.distinct
    rw [hids] at hdistinct
    exact hdistinct.of_map _
  have hlen := length_le_of_nodup_of_lt (n := 2 ^ 32) hslots fun i hi => by
    obtain ⟨e, he, rfl⟩ := List.mem_map.mp hi
    exact h.index_lt e he
  rwa [List.length_map] at hlen

/-- The sum of the payload sizes fits the counter. -/
theorem sum_lt (h : Waiting pool messages contents) :
    (contents.map fun e => payloadSizeOf messages e.m_msg).sum < 2 ^ 64 := by
  have hle : ∀ n ∈ contents.map fun e => payloadSizeOf messages e.m_msg, n ≤ 2 ^ 32 - 1 := by
    intro n hn
    obtain ⟨e, -, rfl⟩ := List.mem_map.mp hn
    have := payloadSizeOf_lt messages e.m_msg
    omega
  have hsum := List.sum_le_card_nsmul _ _ hle
  rw [List.length_map, smul_eq_mul] at hsum
  have hlen := Nat.mul_le_mul_right (2 ^ 32 - 1) h.length_le
  omega

/-- One more request, with an id of its own. -/
theorem append (h : Waiting pool messages contents) (hmsg : messages request = some msg)
    (hslot : (pool.slot msg.m_header.m_requestIndex.toNat).m_requestId = msg.m_header.m_requestId)
    (hnew : ∀ e ∈ contents, requestIdOf messages e.m_msg ≠ msg.m_header.m_requestId) :
    Waiting pool messages (contents ++ [entryOf messages request]) := by
  have hentry := entryOf_eq hmsg
  have hid := requestIdOf_eq hmsg
  refine ⟨List.forall_mem_append.mpr ⟨h.live, ?_⟩, List.forall_mem_append.mpr ⟨h.index_lt, ?_⟩,
    List.forall_mem_append.mpr ⟨h.slot_id, ?_⟩, ?_⟩
  · simp [hentry, hmsg]
  · simpa [hentry] using msg.m_header.m_requestIndex.toNat_lt
  · simp [hentry, hid, hslot]
  · rw [List.map_append, List.map_singleton, ← List.concat_eq_append, List.nodup_concat]
    refine ⟨?_, h.distinct⟩
    simpa [hentry, hid] using hnew

/-- A request leaves. -/
theorem filter (h : Waiting pool messages contents) (p : BacklogEntry → Bool) :
    Waiting pool messages (contents.filter p) where
  live e he := h.live e (List.mem_of_mem_filter he)
  index_lt e he := h.index_lt e (List.mem_of_mem_filter he)
  slot_id e he := h.slot_id e (List.mem_of_mem_filter he)
  distinct := h.distinct.sublist (List.filter_sublist.map _)

end Waiting

namespace Recorded

theorem eq_of_id (h : Recorded b messages contents) {e e' : BacklogEntry} (he : e ∈ contents)
    (he' : e' ∈ contents)
    (hid : requestIdOf messages e.m_msg = requestIdOf messages e'.m_msg) : e = e' :=
  List.inj_on_of_nodup_map h.distinct he he' hid

/-- The map finds an entry under the id of its message. -/
theorem find_entry (h : Recorded b messages contents) {entry : BacklogEntry}
    (hmem : entry ∈ contents) {requestId : UInt64}
    (hentry : requestIdOf messages entry.m_msg = requestId) :
    (b.m_requestMap.find? fun item => item.1 = requestId) = some (requestId, entry) := by
  cases hres : b.m_requestMap.find? fun item => item.1 = requestId with
  | none =>
    have hitem := h.map.symm.subset (List.mem_map_of_mem hmem)
    exact absurd (decide_eq_true hentry) (List.find?_eq_none.mp hres _ hitem)
  | some item =>
    obtain ⟨e, he, rfl⟩ := List.mem_map.mp (h.map.subset (List.mem_of_find?_eq_some hres))
    have heid : requestIdOf messages e.m_msg = requestId := by
      simpa using List.find?_some hres
    rw [heid, h.eq_of_id he hmem (heid.trans hentry.symm)]

/-- Where the messages of the entries are the same. -/
theorem of_messages_eq (h : Recorded b messages contents) {messages' : MsgPtr → Option Msg}
    (hsame : ∀ e ∈ contents, messages' e.m_msg = messages e.m_msg) :
    Recorded b messages' contents := by
  have hid : ∀ e ∈ contents, requestIdOf messages' e.m_msg = requestIdOf messages e.m_msg := by
    intro e he
    unfold requestIdOf
    rw [hsame e he]
  refine ⟨fun e he => hsame e he ▸ h.live e he, ?_, ?_, h.set, h.heap⟩
  · rw [List.map_congr_left hid]
    exact h.distinct
  · rw [List.map_congr_left fun e he => by rw [hid e he]]
    exact h.map

/-- The search of the heap finds the entry of a message. -/
theorem findIdx_heap (h : Recorded b messages contents) {entry : BacklogEntry}
    (hmem : entry ∈ contents) (hreq : entry.m_msg = request) :
    ∃ heapItr, (b.m_minHeap.findIdx? fun e => e.m_msg = request) = some heapItr := by
  have hheapMem : ∃ e ∈ b.m_minHeap, decide (e.m_msg = request) = true :=
    ⟨entry, h.heap.symm.subset hmem, decide_eq_true hreq⟩
  exact Option.isSome_iff_exists.mp
    ((List.findIdx?_isSome (p := fun e : BacklogEntry => decide (e.m_msg = request))).trans
      (List.any_eq_true.mpr hheapMem))

/-- An entry and those of other messages. -/
theorem perm_cons_filter (h : Recorded b messages contents) {entry : BacklogEntry}
    (hmem : entry ∈ contents) :
    contents.Perm (entry :: contents.filter fun e => e.m_msg ≠ entry.m_msg) := by
  have hnodup : contents.Nodup := h.distinct.of_map _
  have herase : contents.erase entry = contents.filter fun e => e.m_msg ≠ entry.m_msg := by
    rw [hnodup.erase_eq_filter]
    refine List.filter_congr fun e he => ?_
    have hiff : e = entry ↔ e.m_msg = entry.m_msg :=
      ⟨fun heq => heq ▸ rfl, fun heq => h.eq_of_id he hmem (by rw [heq])⟩
    simp [bne, BEq.beq, hiff]
  rw [← herase]
  exact List.perm_cons_erase hmem

/-- The indices after a request was taken out of them. -/
theorem removed (h : Recorded b messages contents) (hmsg : messages request = some msg)
    {entry : BacklogEntry} (hmem : entry ∈ contents) (hreq : entry.m_msg = request)
    (hremove : MsgBacklog.Removed b msg.m_header request b') :
    Recorded b' messages (contents.filter fun e => e.m_msg ≠ request) := by
  subst hreq
  have hperm := h.perm_cons_filter hmem
  have hid := requestIdOf_eq hmsg
  -- whatever entry was taken out, it is this one
  have hunique : ∀ e ∈ contents, e.m_msg = entry.m_msg → e = entry := fun e he heq =>
    h.eq_of_id he hmem (by rw [heq])
  refine ⟨fun e he => h.live e (List.mem_of_mem_filter he),
    h.distinct.sublist (List.filter_sublist.map _), ?_, ?_, ?_⟩
  · obtain ⟨e, he⟩ := hremove.map
    obtain ⟨e', he', heq⟩ := List.mem_map.mp (h.map.subset (he.symm.subset List.mem_cons_self))
    obtain ⟨hid', rfl⟩ := Prod.mk.inj heq
    obtain rfl : e' = entry := h.eq_of_id he' hmem (by rw [hid', hid])
    have hboth := (he.symm.trans h.map).trans (hperm.map _)
    rw [List.map_cons, hid] at hboth
    exact hboth.cons_inv
  · obtain ⟨e, he, hset⟩ := hremove.set
    obtain rfl := hunique e (h.set.subset (hset.symm.subset List.mem_cons_self)) he
    exact ((hset.symm.trans h.set).trans hperm).cons_inv
  · obtain ⟨e, he, hheap⟩ := hremove.heap
    obtain rfl := hunique e (h.heap.subset (hheap.symm.subset List.mem_cons_self)) he
    exact ((hheap.symm.trans h.heap).trans hperm).cons_inv

end Recorded

namespace Indexed

theorem recorded (h : Indexed b pool messages contents) : Recorded b messages contents :=
  ⟨h.live, h.distinct, h.map, h.set, h.heap⟩

theorem new (pool : MsgRequestPool) (messages : MsgPtr → Option Msg) :
    Indexed .new pool messages [] where
  live := nofun
  index_lt := nofun
  slot_id := nofun
  distinct := .nil
  map := .nil
  set := .nil
  heap := .nil
  setOrder := .nil
  size := rfl

/-! ## §3 Adding -/

/-- An entry with a new id gets a place in a set, and keeps the order that there was. -/
theorem insertPosition_ok (h : Waiting pool messages contents) (time : MsgRequest → UInt64)
    {l : List BacklogEntry} (hl : l.Perm contents)
    {entry : BacklogEntry} (hlive : (messages entry.m_msg).isSome)
    (hnew : ∀ e ∈ contents, requestIdOf messages e.m_msg ≠ requestIdOf messages entry.m_msg) :
    ∃ position, insertPosition (entryTimeCmp time pool messages) entry l = .ok (some position) ∧
      (InOrder time pool messages l → InOrder time pool messages (l.insertIdx position entry)) := by
  have hkey : ∀ e ∈ l, entryKey time pool messages e ≠ entryKey time pool messages entry := by
    intro e he heq
    have hid := (Prod.ext_iff.mp (toLex.injective heq)).2
    exact hnew e (hl.subset he) (UInt64.toNat_inj.mp hid)
  obtain ⟨position, hpos, hinsert⟩ := insertPosition_eq (entryKey time pool messages)
    (fun e he => ⟨entryTimeCmp_eq time hlive (h.live e (hl.subset he)),
      entryTimeCmp_eq time (h.live e (hl.subset he)) hlive⟩) hkey
  refine ⟨position, hpos, fun horder => ?_⟩
  unfold InOrder
  rw [hinsert]
  exact pairwise_orderedInsert _ entry horder

/-- The indices after an entry was added in its places. -/
theorem added (h : Indexed b pool messages contents) (hmsg : messages request = some msg)
    (hadd : MsgBacklog.Added b msg.m_header (entryOf messages request) b')
    (hslot : (pool.slot msg.m_header.m_requestIndex.toNat).m_requestId = msg.m_header.m_requestId)
    (hnew : ∀ e ∈ contents, requestIdOf messages e.m_msg ≠ msg.m_header.m_requestId)
    (hset : InOrder MsgRequest.m_requestTimeMillis pool messages b'.m_requestSet) :
    Indexed b' pool messages (contents ++ [entryOf messages request]) := by
  have hwaiting := h.toWaiting.append hmsg hslot hnew
  have hlast : (contents ++ [entryOf messages request]).Perm
      (entryOf messages request :: contents) :=
    List.perm_append_singleton _ _
  refine ⟨hwaiting, ?_, ?_, ?_, hset, ?_⟩
  · rw [hadd.map, ← requestIdOf_eq hmsg]
    refine .trans ?_ (hlast.map _).symm
    rw [List.map_cons, entryOf_eq hmsg]
    exact h.map.cons _
  · exact (hadd.set.trans (h.set.cons _)).trans hlast.symm
  · exact (hadd.heap.trans (h.heap.cons _)).trans hlast.symm
  · have hlt := hwaiting.sum_lt
    have hpayload := payloadSizeOf_lt messages request
    rw [List.map_append, List.map_singleton, List.sum_append, List.sum_singleton, ← h.size] at hlt ⊢
    rw [entryOf_eq hmsg] at hlt ⊢
    have hsize : (UInt64.ofNat (payloadSizeOf messages request)).toNat =
        payloadSizeOf messages request := UInt64.toNat_ofNat_of_lt' (lt_trans hpayload (by decide))
    rw [hadd.size, UInt64.toNat_add, ← payloadSizeOf_eq hmsg, hsize, Nat.mod_eq_of_lt hlt]

/-- **`addPendingRequest` where the indices agree**: the request is added, or nothing changes. -/
theorem addPendingRequest_spec (h : Indexed b pool messages contents)
    (hmsg : messages request = some msg) :
    (∃ b', b.addPendingRequest pool messages request = .ok (.ok, b') ∧
      Indexed b' pool messages (contents ++ [entryOf messages request])) ∨
    ∃ rc, rc ≠ .ok ∧ b.addPendingRequest pool messages request = .ok (rc, b) := by
  have hread : readHeader messages request = .ok msg.m_header := by
    unfold readHeader
    rw [hmsg]
  cases hdata : pool.getRequestData msg.m_header with
  | none =>
    -- the header names no slot of the pool
    refine .inr ⟨.notFound, by decide, ?_⟩
    simp only [MsgBacklog.addPendingRequest, hread, hdata]
  | some found =>
    obtain ⟨index, r⟩ := found
    obtain ⟨rfl, hslot, hrid⟩ := MsgBacklog.getRequestData_eq_some.mp hdata
    -- the map is the first index that is asked, and the other two agree with it
    by_cases hold : ∃ e ∈ contents, requestIdOf messages e.m_msg = msg.m_header.m_requestId
    · refine .inr ⟨.alreadyExists, by decide, ?_⟩
      obtain ⟨e, he, hid⟩ := hold
      have hany : (b.m_requestMap.any fun item => item.1 = msg.m_header.m_requestId) = true :=
        List.any_eq_true.mpr ⟨_, h.map.symm.subset (List.mem_map_of_mem he), decide_eq_true hid⟩
      simp only [MsgBacklog.addPendingRequest, hread, hdata, hany, if_true]
    · have hnew : ∀ e ∈ contents, requestIdOf messages e.m_msg ≠ msg.m_header.m_requestId :=
        fun e he hid => hold ⟨e, he, hid⟩
      have hany : (b.m_requestMap.any fun item => item.1 = msg.m_header.m_requestId) = false := by
        refine List.any_eq_false.mpr fun item hitem hid => ?_
        obtain ⟨e, he, rfl⟩ := List.mem_map.mp (h.map.subset hitem)
        exact hnew e he (of_decide_eq_true hid)
      let entry : BacklogEntry := ⟨request, msg.m_header.m_requestIndex.toNat⟩
      have hlive : (messages entry.m_msg).isSome := by simp [entry, hmsg]
      have hnew' : ∀ e ∈ contents, requestIdOf messages e.m_msg ≠
          requestIdOf messages entry.m_msg := by
        simpa [entry, requestIdOf_eq hmsg] using hnew
      -- with a fresh id no comparison finds an equal entry, so both sets insert, the heap too
      -- when its order is out of date
      obtain ⟨setItr, hset, hsetOrder⟩ := insertPosition_ok h.toWaiting
        MsgRequest.m_requestTimeMillis h.set hlive hnew'
      obtain ⟨heapItr, hheap, -⟩ := insertPosition_ok h.toWaiting
        MsgRequest.m_resendTimeMillis h.heap hlive hnew'
      refine .inl ⟨⟨b.m_backlogSizeBytes + .ofNat (getPayloadSizeBytes msg.m_header),
        (msg.m_header.m_requestId, entry) :: b.m_requestMap, b.m_requestSet.insertIdx setItr entry,
        b.m_minHeap.insertIdx heapItr entry⟩, ?_, ?_⟩
      · simp only [MsgBacklog.addPendingRequest, hread, hdata, hany, entryRequestTimeCmp,
          entryResendTimeCmp]
        simp only [Bool.false_eq_true, if_false]
        rw [hset, hheap]
      · refine h.added hmsg ⟨?_, ?_, ?_, rfl⟩ ?_ hnew (hsetOrder h.setOrder)
        · rw [entryOf_eq hmsg]
        · rw [entryOf_eq hmsg]
          exact List.perm_insertIdx _ _ (insertPosition_le hset)
        · rw [entryOf_eq hmsg]
          exact List.perm_insertIdx _ _ (insertPosition_le hheap)
        · unfold MsgRequestPool.slot
          rw [hslot]
          exact hrid

/-! ## §4 Removing -/

/-- The scan reaches an entry with the time it looks for, in a list that starts at that time. -/
theorem scanByTime_of_mem {l : List BacklogEntry} {entry : BacklogEntry} (hmem : entry ∈ l)
    (hreq : entry.m_msg = request)
    (horder : l.Pairwise fun a c => (pool.slot a.m_request).m_requestTimeMillis ≤
      (pool.slot c.m_request).m_requestTimeMillis)
    (hstart : ∀ e ∈ l, (pool.slot entry.m_request).m_requestTimeMillis ≤
      (pool.slot e.m_request).m_requestTimeMillis) :
    ∃ i, MsgBacklog.scanByTime pool (pool.slot entry.m_request).m_requestTimeMillis request l =
      some i := by
  induction l with
  | nil => cases hmem
  | cons e es ih =>
    rw [MsgBacklog.scanByTime]
    by_cases he : e.m_msg = request
    · exact ⟨0, if_pos he⟩
    · obtain ⟨hfirst, hrest⟩ := List.pairwise_cons.mp horder
      have hes : entry ∈ es := by
        rcases List.mem_cons.mp hmem with rfl | hmem
        · exact absurd hreq he
        · exact hmem
      -- between the start and the entry there is only its own time
      have htime : (pool.slot e.m_request).m_requestTimeMillis =
          (pool.slot entry.m_request).m_requestTimeMillis :=
        UInt64.le_antisymm (hfirst entry hes) (hstart e List.mem_cons_self)
      obtain ⟨i, hi⟩ := ih hes hrest fun e' he' => hstart e' (List.mem_cons_of_mem e he')
      refine ⟨i + 1, ?_⟩
      rw [if_neg he, if_pos htime, hi]
      rfl

/-- An entry is found by its request time. -/
theorem findRequestByTime_of_mem (h : Indexed b pool messages contents) {entry : BacklogEntry}
    (hmem : entry ∈ contents) :
    ∃ i, b.findRequestByTime pool (pool.slot entry.m_request).m_requestTimeMillis entry.m_msg =
      some i := by
  have htimes : b.m_requestSet.Pairwise fun a c =>
      (pool.slot a.m_request).m_requestTimeMillis ≤ (pool.slot c.m_request).m_requestTimeMillis :=
    h.setOrder.imp fun hle => UInt64.le_iff_toNat_le.mpr (by
      rcases Prod.Lex.toLex_le_toLex.mp hle with hlt | ⟨heq, -⟩
      · exact hlt.le
      · exact heq.le)
  have hset : entry ∈ b.m_requestSet := h.set.symm.subset hmem
  let below : BacklogEntry → Bool := fun e => decide
    ((pool.slot e.m_request).m_requestTimeMillis < (pool.slot entry.m_request).m_requestTimeMillis)
  have hpart : b.m_requestSet.Pairwise fun a c => below c = true → below a = true :=
    htimes.imp fun hle hlt => decide_eq_true (UInt64.lt_of_le_of_lt hle (of_decide_eq_true hlt))
  -- the entry is behind those that are older
  have hmem' : entry ∈ b.m_requestSet.dropWhile below := by
    rw [← List.takeWhile_append_dropWhile (p := below) (l := b.m_requestSet)] at hset
    rcases List.mem_append.mp hset with hbefore | hafter
    · have htrue : below entry = true := List.mem_takeWhile_imp hbefore
      exact absurd (of_decide_eq_true htrue) (UInt64.lt_irrefl _)
    · exact hafter
  obtain ⟨i, hi⟩ := scanByTime_of_mem hmem' rfl (htimes.sublist (List.dropWhile_sublist _))
    fun e he => UInt64.not_lt.mp
      (of_decide_eq_false (below_eq_false_of_mem_dropWhile hpart he))
  rw [← drop_lowerBound hpart] at hi
  refine ⟨lowerBound below b.m_requestSet + i, ?_⟩
  unfold MsgBacklog.findRequestByTime
  exact Option.map_eq_some_iff.mpr ⟨i, hi, rfl⟩

/-- The indices after a request was taken out of them. -/
theorem removed (h : Indexed b pool messages contents) (hmsg : messages request = some msg)
    {entry : BacklogEntry} (hmem : entry ∈ contents) (hreq : entry.m_msg = request)
    (hremove : MsgBacklog.Removed b msg.m_header request b') :
    Indexed b' pool messages (contents.filter fun e => e.m_msg ≠ request) := by
  have hrecorded := h.recorded.removed hmsg hmem hreq hremove
  refine ⟨h.toWaiting.filter _, hrecorded.map, hrecorded.set, hrecorded.heap,
    h.setOrder.sublist hremove.setOrder, ?_⟩
  subst hreq
  have hsum := ((h.recorded.perm_cons_filter hmem).map
    fun e => payloadSizeOf messages e.m_msg).sum_eq
  have hpayload := payloadSizeOf_lt messages entry.m_msg
  rw [List.map_cons, List.sum_cons, ← h.size] at hsum
  have hsize : (UInt64.ofNat (payloadSizeOf messages entry.m_msg)).toNat =
      payloadSizeOf messages entry.m_msg :=
    UInt64.toNat_ofNat_of_lt' (lt_trans hpayload (by decide))
  rw [hremove.size, ← payloadSizeOf_eq hmsg, UInt64.toNat_sub_of_le, hsize, hsum,
    Nat.add_sub_cancel_left]
  rw [UInt64.le_iff_toNat_le, hsize, hsum]
  exact Nat.le_add_right _ _

/-- **`removePendingRequest` where the indices agree** removes what is there and nothing else. -/
theorem removePendingRequest_spec (h : Indexed b pool messages contents)
    (hmsg : messages request = some msg)
    (hid : ∀ e ∈ contents, requestIdOf messages e.m_msg = msg.m_header.m_requestId →
      e.m_msg = request) :
    ((∃ e ∈ contents, e.m_msg = request) ∧
      ∃ b', b.removePendingRequest pool messages request = .ok (.ok, b') ∧
        Indexed b' pool messages (contents.filter fun e => e.m_msg ≠ request)) ∨
    (¬ (∃ e ∈ contents, e.m_msg = request) ∧
      b.removePendingRequest pool messages request = .ok (.notFound, b)) := by
  have hread : readHeader messages request = .ok msg.m_header := by
    unfold readHeader
    rw [hmsg]
  by_cases hin : ∃ e ∈ contents, e.m_msg = request
  · refine .inl ⟨hin, ?_⟩
    obtain ⟨entry, hmem, hreq⟩ := hin
    have hentryId : requestIdOf messages entry.m_msg = msg.m_header.m_requestId := by
      rw [hreq, requestIdOf_eq hmsg]
    -- the three look-ups find the entry in the map, in the set and in the heap
    have hfind := h.recorded.find_entry hmem hentryId
    obtain ⟨setItr, hset⟩ := h.findRequestByTime_of_mem hmem
    rw [hreq] at hset
    obtain ⟨heapItr, hheap⟩ := h.recorded.findIdx_heap hmem hreq
    have hcall : ∃ b', b.removePendingRequest pool messages request = .ok (.ok, b') := by
      simp only [MsgBacklog.removePendingRequest, hread, hfind, hset, hheap]
      exact ⟨_, rfl⟩
    obtain ⟨b', hb'⟩ := hcall
    refine ⟨b', hb', ?_⟩
    rcases MsgBacklog.removePendingRequest_cases hb' with ⟨-, msg', hmsg', hremove⟩ | ⟨hne, -⟩
    · obtain rfl : msg' = msg := Option.some.inj (hmsg'.symm.trans hmsg)
      exact h.removed hmsg hmem hreq hremove
    · exact absurd rfl hne
  · refine .inr ⟨hin, ?_⟩
    have hfind : (b.m_requestMap.find? fun item => item.1 = msg.m_header.m_requestId) = none := by
      -- an item of that id would be an entry of the request itself
      refine List.find?_eq_none.mpr fun item hitem hitemId => ?_
      obtain ⟨e, he, rfl⟩ := List.mem_map.mp (h.map.subset hitem)
      exact hin ⟨e, he, hid e he (of_decide_eq_true hitemId)⟩
    simp only [MsgBacklog.removePendingRequest, hread, hfind]

/-! ## §5 Changes behind the backlog -/

/-- What follows for an entry that reads the same as before. -/
theorem entry_of_reads_eq {entry : BacklogEntry} {pool' : MsgRequestPool}
    {messages' : MsgPtr → Option Msg} (hlive : (messages entry.m_msg).isSome)
    (h : entry.reads pool' messages' = entry.reads pool messages) :
    (messages' entry.m_msg).isSome ∧
      requestIdOf messages' entry.m_msg = requestIdOf messages entry.m_msg ∧
      payloadSizeOf messages' entry.m_msg = payloadSizeOf messages entry.m_msg ∧
      (pool'.slot entry.m_request).m_requestId = (pool.slot entry.m_request).m_requestId ∧
      (pool'.slot entry.m_request).m_requestTimeMillis =
        (pool.slot entry.m_request).m_requestTimeMillis := by
  obtain ⟨msg, hmsg⟩ := Option.isSome_iff_exists.mp hlive
  unfold BacklogEntry.reads at h
  obtain ⟨hheader, hslot⟩ := Prod.mk.inj h
  obtain ⟨hid, hrequest⟩ := Prod.mk.inj hslot
  rw [hmsg, Option.map_some] at hheader
  obtain ⟨msg', hmsg', hfields⟩ := Option.map_eq_some_iff.mp hheader
  obtain ⟨hmsgId, hsize⟩ := Prod.mk.inj hfields
  refine ⟨by rw [hmsg']; rfl, ?_, ?_, hid, hrequest⟩
  · rw [requestIdOf_eq hmsg', requestIdOf_eq hmsg, hmsgId]
  · rw [payloadSizeOf_eq hmsg', payloadSizeOf_eq hmsg, hsize]

/-- What the entries read is all that the invariant depends on. -/
theorem of_reads_eq (h : Indexed b pool messages contents) {pool' : MsgRequestPool}
    {messages' : MsgPtr → Option Msg}
    (hreads : ∀ e ∈ contents, e.reads pool' messages' = e.reads pool messages) :
    Indexed b pool' messages' contents := by
  have hentry := fun e he => entry_of_reads_eq (h.live e he) (hreads e he)
  have hids : contents.map (fun e => requestIdOf messages' e.m_msg) =
      contents.map fun e => requestIdOf messages e.m_msg :=
    List.map_congr_left fun e he => (hentry e he).2.1
  have horder : InOrder MsgRequest.m_requestTimeMillis pool' messages' b.m_requestSet := by
    have hkey : ∀ e ∈ b.m_requestSet, entryKey MsgRequest.m_requestTimeMillis pool' messages' e =
        entryKey MsgRequest.m_requestTimeMillis pool messages e := by
      intro e he
      unfold entryKey
      rw [(hentry e (h.set.subset he)).2.2.2.2, (hentry e (h.set.subset he)).2.1]
    refine List.Pairwise.imp_of_mem (fun {a c} ha hc hle => ?_) h.setOrder
    rw [hkey a ha, hkey c hc]
    exact hle
  refine ⟨⟨fun e he => (hentry e he).1, h.index_lt, fun e he => ?_, hids ▸ h.distinct⟩, ?_, h.set,
    h.heap, horder, ?_⟩
  · rw [(hentry e he).2.2.2.1, (hentry e he).2.1]
    exact h.slot_id e he
  · rw [List.map_congr_left fun e he => by rw [(hentry e he).2.1]]
    exact h.map
  · rw [List.map_congr_left fun e he => (hentry e he).2.2.1]
    exact h.size

end Indexed

end Invariant

/-! ## §6 Runs -/

/-- A backlog, the pool and the messages that it reads, and the entries that were added and not
    removed since. -/
structure BacklogState where
  m_backlog : MsgBacklog
  pool : MsgRequestPool
  messages : MsgPtr → Option Msg
  contents : List BacklogEntry

/-- A call, or a change of what the backlog reads. -/
inductive BacklogEvent where
  | add (request : MsgPtr)
  | remove (request : MsgPtr)
  | change (pool : MsgRequestPool) (messages : MsgPtr → Option Msg)

namespace BacklogState

/-- A new backlog over a pool and messages. -/
def start (pool : MsgRequestPool) (messages : MsgPtr → Option Msg) : BacklogState :=
  ⟨.new, pool, messages, []⟩

/-- One event.  A request is recorded when it was added and until it is removed. -/
def step (s : BacklogState) : BacklogEvent → Except Fault BacklogState
  | .add request =>
    match s.m_backlog.addPendingRequest s.pool s.messages request with
    | .error fault => .error fault
    | .ok (rc, b) => .ok { s with
        m_backlog := b
        contents := if rc = .ok then s.contents ++ [entryOf s.messages request] else s.contents }
  | .remove request =>
    match s.m_backlog.removePendingRequest s.pool s.messages request with
    | .error fault => .error fault
    | .ok (rc, b) => .ok { s with
        m_backlog := b
        contents := if rc = .ok then s.contents.filter fun e => e.m_msg ≠ request
          else s.contents }
  | .change pool messages => .ok { s with pool := pool, messages := messages }

/-- The id of a message is not that of another one in the backlog. -/
def DistinctId (s : BacklogState) (request : MsgPtr) : Prop :=
  ∀ e ∈ s.contents, requestIdOf s.messages e.m_msg = requestIdOf s.messages request →
    e.m_msg = request

/-- Calls are made with distinct ids, and what is in the backlog does not change. -/
def Steady (s : BacklogState) : BacklogEvent → Prop
  | .add request => s.DistinctId request
  | .remove request => s.DistinctId request
  | .change pool messages =>
    ∀ e ∈ s.contents, e.reads pool messages = e.reads s.pool s.messages

instance (s : BacklogState) (e : BacklogEvent) : Decidable (s.Steady e) :=
  match e with
  | .add _ => inferInstanceAs (Decidable (∀ _ ∈ _, _))
  | .remove _ => inferInstanceAs (Decidable (∀ _ ∈ _, _))
  | .change _ _ => inferInstanceAs (Decidable (∀ _ ∈ _, _))

/-- The invariant of a run. -/
def Agrees (s : BacklogState) : Prop := Indexed s.m_backlog s.pool s.messages s.contents

theorem agrees_step {s t : BacklogState} {e : BacklogEvent} (h : s.Agrees) (hsteady : s.Steady e)
    (hstep : s.step e = .ok t) : t.Agrees := by
  cases e with
  | add request =>
    cases hmsg : s.messages request with
    | none => simp [step, MsgBacklog.addPendingRequest, readHeader, hmsg] at hstep
    | some msg =>
      rcases h.addPendingRequest_spec hmsg with ⟨b', hcall, hindexed⟩ | ⟨rc, hne, hcall⟩
      · simp only [step, hcall, if_true] at hstep
        cases hstep
        exact hindexed
      · simp only [step, hcall, if_neg hne] at hstep
        cases hstep
        exact h
  | remove request =>
    cases hmsg : s.messages request with
    | none => simp [step, MsgBacklog.removePendingRequest, readHeader, hmsg] at hstep
    | some msg =>
      have hid : ∀ e ∈ s.contents, requestIdOf s.messages e.m_msg = msg.m_header.m_requestId →
          e.m_msg = request := fun e he heq => hsteady e he (heq.trans (requestIdOf_eq hmsg).symm)
      rcases h.removePendingRequest_spec hmsg hid with ⟨-, b', hcall, hindexed⟩ | ⟨-, hcall⟩
      · simp only [step, hcall, if_true] at hstep
        cases hstep
        exact hindexed
      · simp only [step, hcall] at hstep
        cases hstep
        exact h
  | change pool messages =>
    cases hstep
    exact h.of_reads_eq hsteady

/-- **The indices agree.** -/
theorem backlog_indices_agree (pool : MsgRequestPool) (messages : MsgPtr → Option Msg)
    (es : List BacklogEvent) (s : BacklogState)
    (hrun : RunsWith (fun s e t => s.step e = .ok t) Steady (start pool messages) es s) :
    -- the three indices hold the same entries, those that were added and not removed since
    (s.m_backlog.m_requestMap.map Prod.snd).Perm s.contents ∧
    s.m_backlog.m_requestSet.Perm s.contents ∧
    s.m_backlog.m_minHeap.Perm s.contents ∧
    -- the key of an entry is the id of its message
    (∀ item ∈ s.m_backlog.m_requestMap, ∃ msg, s.messages item.2.m_msg = some msg ∧
      item.1 = msg.m_header.m_requestId) ∧
    -- the size is the sum of the payload sizes
    s.m_backlog.m_backlogSizeBytes.toNat =
      (s.m_backlog.m_requestMap.map fun item => payloadSizeOf s.messages item.2.m_msg).sum ∧
    ∀ request msg, s.messages request = some msg → s.DistinctId request →
      -- a removal succeeds if the request is there, and otherwise nothing changes
      (∃ rc b, s.m_backlog.removePendingRequest s.pool s.messages request = .ok (rc, b) ∧
        (rc = .ok ↔ ∃ e ∈ s.contents, e.m_msg = request) ∧ (rc ≠ .ok → b = s.m_backlog)) ∧
      -- so does an addition that fails
      ∃ rc b, s.m_backlog.addPendingRequest s.pool s.messages request = .ok (rc, b) ∧
        (rc ≠ .ok → b = s.m_backlog) := by
  have h : s.Agrees := hrun.invariant Agrees (fun _ _ _ hs hP hst => agrees_step hs hP hst)
    (Indexed.new pool messages)
  have hvalues : (s.m_backlog.m_requestMap.map Prod.snd).Perm s.contents := by
    have hmap := h.map.map Prod.snd
    rw [List.map_map] at hmap
    exact hmap.trans (by simp [Function.comp_def])
  refine ⟨hvalues, h.set, h.heap, ?_, ?_, ?_⟩
  · intro item hitem
    obtain ⟨e, he, rfl⟩ := List.mem_map.mp (h.map.subset hitem)
    obtain ⟨msg, hmsg⟩ := Option.isSome_iff_exists.mp (h.live e he)
    exact ⟨msg, hmsg, requestIdOf_eq hmsg⟩
  · have hsum := (hvalues.map fun e => payloadSizeOf s.messages e.m_msg).sum_eq
    rw [List.map_map] at hsum
    rw [h.size, ← hsum]
    rfl
  · intro request msg hmsg hdistinct
    have hid : ∀ e ∈ s.contents, requestIdOf s.messages e.m_msg = msg.m_header.m_requestId →
        e.m_msg = request := fun e he heq => hdistinct e he (heq.trans (requestIdOf_eq hmsg).symm)
    constructor
    · rcases h.removePendingRequest_spec hmsg hid with ⟨hin, b, hcall, -⟩ | ⟨hout, hcall⟩
      · exact ⟨.ok, b, hcall, iff_of_true rfl hin, fun hne => absurd rfl hne⟩
      · exact ⟨.notFound, _, hcall, iff_of_false (by decide) hout, fun _ => rfl⟩
    · rcases h.addPendingRequest_spec hmsg with ⟨b, hcall, -⟩ | ⟨rc, hne, hcall⟩
      · exact ⟨.ok, b, hcall, fun hne => absurd rfl hne⟩
      · exact ⟨rc, _, hcall, fun _ => rfl⟩

/-- Three requests, two of them of the same time. -/
def threeRequests : MsgPtr → Option Msg
  | 0 => some ⟨⟨[], 50, 1, 0, 7, 0, 0, 0, 0⟩, []⟩
  | 1 => some ⟨⟨[], 60, 1, 0, 8, 1, 0, 0, 0⟩, []⟩
  | 2 => some ⟨⟨[], 70, 1, 0, 9, 2, 0, 0, 0⟩, []⟩
  | _ => none

/-- Their slots. -/
def threeSlots : MsgRequestPool :=
  ⟨[⟨7, .pending, 0, some 0, none, 5, 5⟩, ⟨8, .pending, 0, some 1, none, 5, 5⟩,
    ⟨9, .pending, 0, some 2, none, 6, 6⟩], 10⟩

/-- The second of the three is removed. -/
theorem backlog_indices_agree_equal_times :
    ∃ s, RunsWith (fun s e t => s.step e = .ok t) Steady (start threeSlots threeRequests)
        [.add 2, .add 1, .add 0, .remove 1] s ∧
      s.m_backlog.m_requestSet = [⟨0, 0⟩, ⟨2, 2⟩] ∧
      s.m_backlog.m_requestSet.Perm s.contents ∧
      s.m_backlog.m_backlogSizeBytes.toNat =
        (s.m_backlog.m_requestMap.map fun item => payloadSizeOf s.messages item.2.m_msg).sum := by
  have hrun : (runWhere (fun s e => (step s e).toOption) Steady (start threeSlots threeRequests)
      [.add 2, .add 1, .add 0, .remove 1]).map (fun s => s.m_backlog.m_requestSet) =
      some [⟨0, 0⟩, ⟨2, 2⟩] := by
    decide +kernel
  obtain ⟨s, hs, hset⟩ := Option.map_eq_some_iff.mp hrun
  have hs' := runsWith_of_runWhere_except hs
  have hagree := backlog_indices_agree threeSlots threeRequests _ s hs'
  exact ⟨s, hs', hset, hagree.2.1, hagree.2.2.2.2.1⟩

end BacklogState

end Commutil.Client
