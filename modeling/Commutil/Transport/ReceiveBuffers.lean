import Commutil.Common.HashTableMap
import Commutil.Transport.UdpServer

/-!
# Who Releases What Was Received

libuv asks for a buffer before every receive callback, and the callback answers for it:
`DataServer::onRead` releases it, or leaves it to the data listener, and
`UdpServer::onRecv` does so unless it passes the datagram on to `onRead`.

`onRecv` of `UdpServer` says what becomes of the server.  `onRecvBuffer` follows the same
branches and says in addition what becomes of the buffer; `onRecvBuffer_server` says that
the server is that of `onRecv`.

`receive_buffers_settled_iff` finds the branches that forget their buffer: they refuse a
new client.
-/

namespace Commutil.Transport

open Commutil.Library
open Commutil.Common
open Commutil.Common.ConcurrentHashTable

/-! ## §1 The buffer of a callback -/

/-- `enum class DataAction`. -/
inductive DataAction where
  | noAction
  | canDelete
  | cannotDelete
  deriving DecidableEq, Repr

/-- What became of a buffer: how often it was released, and what the listener answered, if it was
    asked. -/
structure BufferFate where
  releases : Nat
  answer : Option DataAction
  deriving DecidableEq, Repr

namespace BufferFate

/-- The buffer is released, if there is one. -/
def released (hasBase : Bool) : BufferFate := ⟨if hasBase then 1 else 0, none⟩

/-- Nobody takes care of the buffer. -/
def forgotten : BufferFate := ⟨0, none⟩

/-- **What is asked of a callback**: the listener keeps the buffer, or it was released once. -/
def Settled (fate : BufferFate) : Prop :=
  fate.answer = some .cannotDelete ∧ fate.releases = 0 ∨
    fate.answer ≠ some .cannotDelete ∧ fate.releases = 1

end BufferFate

/-- `DataServer::onRead`, as far as the buffer goes; `dataAction` is what the listener answers to
    `onBytesReceived`. -/
def DataServer.onReadBuffer (nread : Int) (hasBase : Bool) (dataAction : DataAction) :
    BufferFate :=
  if nread < 0 then .released hasBase
  else if nread = 0 then .released hasBase
  else ⟨if dataAction = .canDelete && hasBase then 1 else 0, some dataAction⟩

namespace UdpServer

/-- `onRecv` for an address that is not in the map, after `setItem`. -/
def addClientBuffer (s : UdpServer) (index : Nat) (connData : ConnectionData UdpConnectionData)
    (addr : SockaddrIn) (nread : Int) (now : UInt64) (hasBase : Bool) (dataAction : DataAction)
    (stored : UInt32 × ConcurrentHashTable UInt64) : UdpServer × BufferFate :=
  (s.addClient index connData addr nread now stored,
    if stored.1 = COMMUTIL_INVALID_CHT_ENTRY_ID then .forgotten
    else DataServer.onReadBuffer nread hasBase dataAction)

/-- `onRecv` for an address that is not in the map, after `grabConnectionData`. -/
def onNewClientBuffer (s : UdpServer) (addr : SockaddrIn) (nread : Int) (now : UInt64)
    (hasBase : Bool) (dataAction : DataAction) :
    Option (Nat × DataServer UdpConnectionData) → Except Fault (UdpServer × BufferFate)
  | none => .ok (s, .forgotten)
  | some (index, server) =>
    match server.m_connDataArray[index]? with
    | none => .error .outOfBounds
    | some connData =>
      .ok (addClientBuffer { s with server } index (hosted connData addr) addr nread now hasBase
        dataAction (s.m_connectionMap.setItem addr.ipAddr connData.m_connectionId))

/-- `onRecv` after `getItem`. -/
def onClientBuffer (s : UdpServer) (addr : SockaddrIn) (nread : Int) (now : UInt64)
    (hasBase : Bool) (dataAction : DataAction) :
    Option (UInt32 × UInt64) → Except Fault (UdpServer × BufferFate)
  | none => s.onNewClientBuffer addr nread now hasBase dataAction s.server.grabConnectionData
  | some (_, connectionIndex) =>
    match s.server.m_connDataArray[connectionIndex.toNat]? with
    | none => .error .outOfBounds
    | some connData =>
      .ok (s.dispatch connectionIndex.toNat connData addr false nread now,
        DataServer.onReadBuffer nread hasBase dataAction)

/-- `UdpServer::onRecv` with its buffer. -/
def onRecvBuffer (s : UdpServer) (nread : Int) (addr : Option SockaddrIn) (now : UInt64)
    (hasBase : Bool) (dataAction : DataAction) : Except Fault (UdpServer × BufferFate) :=
  if nread = 0 then .ok (s, .released hasBase)
  else
    match addr with
    | none => .error .nullDereference
    | some addr =>
      s.onClientBuffer addr nread now hasBase dataAction (s.m_connectionMap.getItem addr.ipAddr)

/-- The server after the callback is that of `onRecv`. -/
theorem onRecvBuffer_server (s : UdpServer) (nread : Int) (addr : Option SockaddrIn)
    (now : UInt64) (hasBase : Bool) (dataAction : DataAction) :
    (s.onRecvBuffer nread addr now hasBase dataAction).map Prod.fst = s.onRecv nread addr now := by
  unfold onRecvBuffer onRecv
  split
  · rfl
  cases addr with
  | none => rfl
  | some addr =>
    dsimp only
    cases s.m_connectionMap.getItem addr.ipAddr with
    | none =>
      simp only [onClientBuffer, onClient]
      cases s.server.grabConnectionData with
      | none => rfl
      | some grabbed =>
        simp only [onNewClientBuffer, onNewClient]
        cases grabbed.2.m_connDataArray[grabbed.1]? <;> rfl
    | some found =>
      simp only [onClientBuffer, onClient]
      cases s.server.m_connDataArray[found.2.toNat]? <;> rfl

/-! ## §2 Refused clients -/

/-- The datagram comes from a new client for which there is no room: all slots are in use, or the
    map takes no further address. -/
def Refuses (s : UdpServer) (nread : Int) (addr : Option SockaddrIn) : Prop :=
  nread ≠ 0 ∧ ∃ a, addr = some a ∧ s.m_connectionMap.getItem a.ipAddr = none ∧
    ((∀ connData ∈ s.server.m_connDataArray, connData.m_isUsed = true) ∨
      (s.m_connectionMap.setItem a.ipAddr 0).1 = COMMUTIL_INVALID_CHT_ENTRY_ID)

end UdpServer

/-- No slot is grabbed exactly if all are in use. -/
theorem DataServer.grabConnectionData_eq_none_iff {ε : Type} (server : DataServer ε) :
    server.grabConnectionData = none ↔ ∀ connData ∈ server.m_connDataArray,
      connData.m_isUsed = true := by
  have hvacant : server.vacantSlot = none ↔ ∀ connData ∈ server.m_connDataArray,
      connData.m_isUsed = true := by
    simp [vacantSlot, List.findIdx?_eq_none_iff]
  rw [← hvacant]
  unfold grabConnectionData
  cases hslot : server.vacantSlot with
  | none => exact iff_of_true rfl rfl
  | some index =>
    have hlt : index < server.m_connDataArray.length :=
      (List.findIdx?_eq_some_iff_getElem.mp hslot).1
    simp only [List.getElem?_eq_getElem hlt]
    exact iff_of_false nofun nofun

/-- Whether a key is taken does not depend on the value. -/
theorem setItem_fst_eq {β : Type} (table : ConcurrentHashTable β) (key : UInt64)
    (value value' : β) : (table.setItem key value).1 = (table.setItem key value').1 := by
  unfold setItem
  split <;> rfl

/-- The map of a server takes no further address exactly if none of its entries is vacant. -/
theorem UdpServer.refuses_iff_full {s : UdpServer} (hs : s.m_connectionMap.Sized) {nread : Int}
    {a : SockaddrIn} (hnread : nread ≠ 0) (hnew : s.m_connectionMap.getItem a.ipAddr = none) :
    s.Refuses nread (some a) ↔
      (∀ connData ∈ s.server.m_connDataArray, connData.m_isUsed = true) ∨
        ∀ i, s.m_connectionMap.keyAt i ≠ some 0 := by
  constructor
  · rintro ⟨-, b, hb, -, hroom⟩
    cases hb
    exact hroom.imp_right (hs.setItem_refuses_iff hnew 0).mp
  · intro hroom
    exact ⟨hnread, a, rfl, hnew, hroom.imp_right (hs.setItem_refuses_iff hnew 0).mpr⟩

/-! ## §3 Settled or forgotten -/

theorem BufferFate.released_settled : (BufferFate.released true).Settled := .inr ⟨nofun, rfl⟩

theorem BufferFate.not_forgotten_settled : ¬ BufferFate.forgotten.Settled := by
  rintro (⟨hanswer, -⟩ | ⟨-, hreleases⟩)
  · cases hanswer
  · cases hreleases

/-- `onRead` settles its buffer unless a listener that is asked does not say what to do with it. -/
theorem onReadBuffer_settled_iff (nread : Int) (dataAction : DataAction) :
    (DataServer.onReadBuffer nread true dataAction).Settled ↔
      (0 < nread → dataAction ≠ .noAction) := by
  unfold DataServer.onReadBuffer
  split
  · rename_i hneg
    exact iff_of_true BufferFate.released_settled fun hpos => absurd hpos (Int.lt_asymm hneg)
  split
  · rename_i hneg hzero
    exact iff_of_true BufferFate.released_settled fun hpos => absurd hzero (Int.ne_of_gt hpos)
  · rename_i hneg hzero
    have hpos : 0 < nread := by omega
    cases dataAction with
    | noAction =>
      refine iff_of_false ?_ fun h => h hpos rfl
      rintro (⟨hanswer, -⟩ | ⟨-, hreleases⟩)
      · cases hanswer
      · cases hreleases
    | canDelete => exact iff_of_true (.inr ⟨nofun, rfl⟩) fun _ => nofun
    | cannotDelete => exact iff_of_true (.inl ⟨rfl, rfl⟩) fun _ => nofun

/-- No buffer that was not allocated is released. -/
theorem onReadBuffer_null (nread : Int) (dataAction : DataAction) :
    (DataServer.onReadBuffer nread false dataAction).releases = 0 := by
  unfold DataServer.onReadBuffer BufferFate.released
  split
  · rfl
  split
  · rfl
  · simp

namespace UdpServer

variable {s s' : UdpServer} {nread : Int} {addr : Option SockaddrIn} {now : UInt64}
  {dataAction : DataAction} {fate : BufferFate}

/-- What becomes of the buffer of a callback that returns. -/
theorem onRecvBuffer_cases
    (h : s.onRecvBuffer nread addr now true dataAction = .ok (s', fate)) :
    (s.Refuses nread addr ∧ fate = .forgotten) ∨
      ¬ s.Refuses nread addr ∧ fate = DataServer.onReadBuffer nread true dataAction := by
  unfold onRecvBuffer at h
  split at h
  · -- libuv has nothing to read any more
    rename_i hzero
    cases h
    refine .inr ⟨fun hrefuses => hrefuses.1 hzero, ?_⟩
    simp [DataServer.onReadBuffer, hzero]
  rename_i hnread
  cases addr with
  | none => cases h
  | some addr =>
    dsimp only at h
    cases hget : s.m_connectionMap.getItem addr.ipAddr with
    -- a known client takes the buffer
    | some found =>
      rw [hget] at h
      simp only [onClientBuffer] at h
      split at h
      · cases h
      cases h
      refine .inr ⟨?_, rfl⟩
      rintro ⟨-, b, hb, hnew, -⟩
      cases hb
      rw [hget] at hnew
      cases hnew
    | none =>
      rw [hget] at h
      simp only [onClientBuffer] at h
      cases hgrab : s.server.grabConnectionData with
      -- no slot is left, and the buffer is forgotten
      | none =>
        rw [hgrab] at h
        cases h
        exact .inl ⟨⟨hnread, addr, rfl, hget, .inl
          ((DataServer.grabConnectionData_eq_none_iff _).mp hgrab)⟩, rfl⟩
      | some grabbed =>
        rw [hgrab] at h
        simp only [onNewClientBuffer] at h
        split at h
        · cases h
        rename_i connData hslot
        cases h
        have hroom : ¬ ∀ connData ∈ s.server.m_connDataArray, connData.m_isUsed = true := by
          rw [← DataServer.grabConnectionData_eq_none_iff, hgrab]
          nofun
        -- the map is full, and the buffer is forgotten
        by_cases hfull : (s.m_connectionMap.setItem addr.ipAddr connData.m_connectionId).1 =
            COMMUTIL_INVALID_CHT_ENTRY_ID
        · refine .inl ⟨⟨hnread, addr, rfl, hget, .inr ?_⟩, if_pos hfull⟩
          rw [setItem_fst_eq _ _ 0 connData.m_connectionId]
          exact hfull
        · refine .inr ⟨?_, if_neg hfull⟩
          rintro ⟨-, b, hb, -, hslots | hmap⟩
          · exact hroom hslots
          · cases hb
            rw [setItem_fst_eq _ _ 0 connData.m_connectionId] at hmap
            exact hfull hmap

end UdpServer

/-- **Receive buffers are settled** by the callbacks of the stream servers whenever the listener says
    what to do with them, and by those of the UDP server exactly if in addition no new client is
    refused. -/
theorem receive_buffers_settled_iff (nread : Int) (dataAction : DataAction) :
    ((DataServer.onReadBuffer nread true dataAction).Settled ↔
      (0 < nread → dataAction ≠ .noAction)) ∧
    ∀ (s s' : UdpServer) (addr : Option SockaddrIn) (now : UInt64) (fate : BufferFate),
      s.onRecvBuffer nread addr now true dataAction = .ok (s', fate) →
        (fate.Settled ↔
          ¬ s.Refuses nread addr ∧ (0 < nread → dataAction ≠ .noAction)) := by
  refine ⟨onReadBuffer_settled_iff nread dataAction, fun s s' addr now fate h => ?_⟩
  rcases UdpServer.onRecvBuffer_cases h with ⟨hrefuses, rfl⟩ | ⟨htakes, rfl⟩
  · exact iff_of_false BufferFate.not_forgotten_settled fun hsettled => hsettled.1 hrefuses
  · rw [onReadBuffer_settled_iff]
    exact ⟨fun haction => ⟨htakes, haction⟩, fun hsettled => hsettled.2⟩

/-- A datagram of a new client on a server with a free slot. -/
theorem receive_buffers_settled_new_client :
    ∃ s' fate, (UdpServer.start 1 60 0 ⟨0, 0, ⟨0, 0⟩⟩).onRecvBuffer 10 (some ⟨0x0100007f, 5⟩) 0 true
        .cannotDelete = .ok (s', fate) ∧
      (fate.Settled ↔ ¬ (UdpServer.start 1 60 0 ⟨0, 0, ⟨0, 0⟩⟩).Refuses 10
        (some ⟨0x0100007f, 5⟩) ∧ ((0 : Int) < 10 → DataAction.cannotDelete ≠ .noAction)) := by
  have hrecv : ∃ s' fate, (UdpServer.start 1 60 0 ⟨0, 0, ⟨0, 0⟩⟩).onRecvBuffer 10
      (some ⟨0x0100007f, 5⟩) 0 true .cannotDelete = .ok (s', fate) := ⟨_, _, rfl⟩
  obtain ⟨s', fate, h⟩ := hrecv
  exact ⟨s', fate, h, (receive_buffers_settled_iff _ _).2 _ _ _ _ _ h⟩

/-- A second client on a server with one slot: the buffer of its datagram is neither released nor
    passed to the listener. -/
theorem refused_datagram_keeps_buffer :
    ∃ s s' fate, (UdpServer.start 1 60 0 ⟨0, 0, ⟨0, 0⟩⟩).onRecv 10 (some ⟨0x0100007f, 5⟩) 0 =
        .ok s ∧
      s.onRecvBuffer 10 (some ⟨0x0100007f, 6⟩) 1 true .canDelete = .ok (s', fate) ∧
      fate = .forgotten ∧ ¬ fate.Settled :=
  ⟨_, _, _, rfl, rfl, rfl, BufferFate.not_forgotten_settled⟩

end Commutil.Transport
