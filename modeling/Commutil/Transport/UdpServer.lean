import Commutil.Common.ConcurrentHashTable
import Commutil.Transport.DataServer

/-!
# Pseudo-Connections of the UDP Server

`UdpServer::onRecv` and `onTimer` of `udp_server.cpp`.  A datagram from an address that
is not in the connection map takes a slot of the connection array; a slot from whose
address nothing was heard for some time is given up by the expiry timer.

`onRecv` stores the id of the connection in the map and takes what it finds there for
the index of the slot.  The two agree until the first slot is used again, so a datagram
is routed to its connection as long as the id of the connection is its index.
-/

namespace Commutil.Transport

open Commutil.Library
open Commutil.Common

/-! ## §1 Addresses and notifications -/

/-- `struct sockaddr_in`, with the fields in network byte order as they are. -/
structure SockaddrIn where
  sin_addr : UInt32
  sin_port : UInt16
  deriving DecidableEq, Repr

/-- The key of an address in the connection map. -/
def SockaddrIn.ipAddr (addr : SockaddrIn) : UInt64 :=
  addr.sin_addr.toUInt64 <<< 32 ||| addr.sin_port.toUInt64

/-- Different addresses have different keys. -/
theorem SockaddrIn.ipAddr_inj {a b : SockaddrIn} (h : a.ipAddr = b.ipAddr) : a = b := by
  have hnat : ∀ c : SockaddrIn, c.ipAddr.toNat = c.sin_addr.toNat * 2 ^ 32 + c.sin_port.toNat := by
    intro c
    have haddr := c.sin_addr.toNat_lt
    have hport := c.sin_port.toNat_lt
    have hshift : (c.sin_addr.toUInt64 <<< 32).toNat = c.sin_addr.toNat <<< 32 := by
      simp [UInt64.toNat_shiftLeft, Nat.shiftLeft_eq]
      omega
    simp only [ipAddr, UInt64.toNat_or, hshift, UInt16.toNat_toUInt64]
    rw [← Nat.shiftLeft_add_eq_or_of_lt (by omega), Nat.shiftLeft_eq]
  have hsum := congrArg UInt64.toNat h
  rw [hnat a, hnat b] at hsum
  have hport_a := a.sin_port.toNat_lt
  have hport_b := b.sin_port.toNat_lt
  obtain ⟨addr_a, port_a⟩ := a
  obtain ⟨addr_b, port_b⟩ := b
  simp only at hsum hport_a hport_b
  have haddr : addr_a.toNat = addr_b.toNat := by omega
  have hport : port_a.toNat = port_b.toNat := by omega
  rw [UInt32.toNat_inj.mp haddr, UInt16.toNat_inj.mp hport]

/-- `struct UdpConnectionData`, with the address that `setHostDetails` puts into the connection
    details. -/
structure UdpConnectionData where
  m_entryId : UInt32
  m_lastAccessTimeMillis : UInt64
  host : SockaddrIn
  deriving DecidableEq, Repr

/-- What the data listener is told; a datagram is recorded with the address it came from. -/
inductive UdpNotification where
  | onConnect (host : SockaddrIn) (connectionDetails : ConnectionDetails)
  | onDisconnect (host : SockaddrIn) (connectionDetails : ConnectionDetails)
  | onReadError (connectionDetails : ConnectionDetails) (status : Int)
  | onBytesReceived (source : SockaddrIn) (connectionDetails : ConnectionDetails)
  deriving DecidableEq, Repr

/-! ## §2 The server -/

/-- `class UdpServer`, and what its listener was told. -/
structure UdpServer where
  server : DataServer UdpConnectionData
  m_connectionMap : ConcurrentHashTable UInt64
  m_clientExpireSeconds : UInt64
  log : List UdpNotification
  deriving DecidableEq, Repr

namespace UdpServer

/-- `COMMUTIL_UDP_CONN_MAP_FACTOR`. -/
def COMMUTIL_UDP_CONN_MAP_FACTOR : UInt32 := 4

/-- The server after `initialize`.  Neither the constructor of a slot nor that of a map entry sets
    all fields: `blank` and `garbage` are what they happen to hold. -/
def start (maxConnections : UInt32) (clientExpireSeconds garbage : UInt64)
    (blank : UdpConnectionData) : UdpServer where
  server := .initConnDataArray maxConnections.toNat blank
  m_connectionMap := .initTable (maxConnections * COMMUTIL_UDP_CONN_MAP_FACTOR).toNat garbage
  m_clientExpireSeconds := clientExpireSeconds
  log := []

/-- What `DataServer::onRead` tells the listener. -/
def onRead (connData : ConnectionData UdpConnectionData) (source : SockaddrIn) (nread : Int) :
    List UdpNotification :=
  if nread < 0 then [.onReadError connData.m_connectionDetails nread]
  else if nread = 0 then []
  else [.onBytesReceived source connData.m_connectionDetails]

theorem onRead_pos {connData : ConnectionData UdpConnectionData} {source : SockaddrIn}
    {nread : Int} (hpos : 0 < nread) : onRead connData source nread =
      [.onBytesReceived source connData.m_connectionDetails] := by
  unfold onRead
  rw [if_neg (Int.not_lt.mpr (Int.le_of_lt hpos)), if_neg (Int.ne_of_gt hpos)]

/-- A slot from which a datagram was received. -/
def accessed (connData : ConnectionData UdpConnectionData) (now : UInt64) :
    ConnectionData UdpConnectionData :=
  { connData with extension := { connData.extension with m_lastAccessTimeMillis := now } }

/-- `setHostDetails` of a slot. -/
def hosted (connData : ConnectionData UdpConnectionData) (addr : SockaddrIn) :
    ConnectionData UdpConnectionData :=
  { connData with extension := { connData.extension with host := addr } }

/-- A slot with its entry in the map. -/
def mapped (connData : ConnectionData UdpConnectionData) (entryId : UInt32) :
    ConnectionData UdpConnectionData :=
  { connData with extension := { connData.extension with m_entryId := entryId } }

/-- `connData->m_isUsed = 0`. -/
def unused (connData : ConnectionData UdpConnectionData) : ConnectionData UdpConnectionData :=
  { connData with m_isUsed := false }

/-- The end of `onRecv`, once the slot is known. -/
def dispatch (s : UdpServer) (index : Nat) (connData : ConnectionData UdpConnectionData)
    (source : SockaddrIn) (newConnection : Bool) (nread : Int) (now : UInt64) : UdpServer :=
  let connData := if 0 < nread then accessed connData now else connData
  let connect :=
    if newConnection then [.onConnect connData.extension.host connData.m_connectionDetails] else []
  { s with
    server := s.server.setSlot index connData
    log := s.log ++ connect ++ onRead connData source nread }

/-- `onRecv` for an address that is not in the map, after `setItem`. -/
def addClient (s : UdpServer) (index : Nat) (connData : ConnectionData UdpConnectionData)
    (addr : SockaddrIn) (nread : Int) (now : UInt64) :
    UInt32 × ConcurrentHashTable UInt64 → UdpServer
  | (entryId, connectionMap) =>
    let s := { s with m_connectionMap := connectionMap }
    if entryId = COMMUTIL_INVALID_CHT_ENTRY_ID then
      -- the map is full, and the slot is given back
      { s with server := s.server.setSlot index (unused connData) }
    else s.dispatch index (mapped connData entryId) addr true nread now

/-- `onRecv` for an address that is not in the map, after `grabConnectionData`. -/
def onNewClient (s : UdpServer) (addr : SockaddrIn) (nread : Int) (now : UInt64) :
    Option (Nat × DataServer UdpConnectionData) → Except Fault UdpServer
  | none => .ok s
  | some (index, server) =>
    match server.m_connDataArray[index]? with
    | none => .error .outOfBounds
    | some connData =>
      .ok (addClient { s with server } index (hosted connData addr) addr nread now
        (s.m_connectionMap.setItem addr.ipAddr connData.m_connectionId))

/-- `onRecv` after `getItem`: the value that was found is used as an index. -/
def onClient (s : UdpServer) (addr : SockaddrIn) (nread : Int) (now : UInt64) :
    Option (UInt32 × UInt64) → Except Fault UdpServer
  | none => s.onNewClient addr nread now s.server.grabConnectionData
  | some (_, connectionIndex) =>
    match s.server.m_connDataArray[connectionIndex.toNat]? with
    | none => .error .outOfBounds
    | some connData => .ok (s.dispatch connectionIndex.toNat connData addr false nread now)

/-- `UdpServer::onRecv`; `now` is what the clock shows. -/
def onRecv (s : UdpServer) (nread : Int) (addr : Option SockaddrIn) (now : UInt64) :
    Except Fault UdpServer :=
  if nread = 0 then .ok s
  else
    match addr with
    | none => .error .nullDereference
    | some addr => s.onClient addr nread now (s.m_connectionMap.getItem addr.ipAddr)

/-- Whether the expiry timer gives up a slot. -/
def expired (s : UdpServer) (connData : ConnectionData UdpConnectionData) (now : UInt64) : Bool :=
  connData.m_isUsed &&
    decide (s.m_clientExpireSeconds * 1000 ≤ now - connData.extension.m_lastAccessTimeMillis)

/-- One iteration of the loop in `onTimer`. -/
def expireSlot (now : UInt64) (s : UdpServer) (index : Nat) : UdpServer :=
  match s.server.m_connDataArray[index]? with
  | none => s
  | some connData =>
    if s.expired connData now then
      { s with
        server := s.server.setSlot index (unused connData)
        m_connectionMap := s.m_connectionMap.removeAt connData.extension.m_entryId
        log := s.log ++ [.onDisconnect connData.extension.host connData.m_connectionDetails] }
    else s

/-- `UdpServer::onTimer`. -/
def onTimer (s : UdpServer) (now : UInt64) : UdpServer :=
  (List.range s.server.m_connDataArray.length).foldl (expireSlot now) s

/-- What libuv reports, with the time at which it does. -/
inductive Event where
  | recv (nread : Int) (addr : Option SockaddrIn) (now : UInt64)
  | timer (now : UInt64)
  deriving DecidableEq, Repr

/-- One event. -/
def step (s : UdpServer) : Event → Except Fault UdpServer
  | .recv nread addr now => s.onRecv nread addr now
  | .timer now => .ok (s.onTimer now)

/-! ## §3 The connection of an address -/

/-- The connection of an address after a notification. -/
def liveAfter (addr : SockaddrIn) (live : Option ConnectionDetails) :
    UdpNotification → Option ConnectionDetails
  | .onConnect host connectionDetails => if host = addr then some connectionDetails else live
  | .onDisconnect host _ => if host = addr then none else live
  | _ => live

/-- The connection that was opened last for an address, unless it has expired since. -/
def live (log : List UdpNotification) (addr : SockaddrIn) : Option ConnectionDetails :=
  log.foldl (liveAfter addr) none

/-- Every datagram was given to the connection that its address had at that time. -/
def Routed (log : List UdpNotification) : Prop :=
  ∀ before source connectionDetails after,
    log = before ++ .onBytesReceived source connectionDetails :: after →
    live before source = some connectionDetails

@[simp] theorem live_concat (log : List UdpNotification) (n : UdpNotification)
    (addr : SockaddrIn) : live (log ++ [n]) addr = liveAfter addr (live log addr) n := by
  simp [live, List.foldl_append]

theorem Routed.concat {log : List UdpNotification} (h : Routed log) {n : UdpNotification}
    (hn : ∀ source d, n = .onBytesReceived source d → live log source = some d) :
    Routed (log ++ [n]) := by
  intro before source d after heq
  rcases List.eq_nil_or_concat after with rfl | ⟨after', last, rfl⟩
  · obtain ⟨hlog, hlast⟩ := List.append_inj' heq rfl
    rw [← hlog]
    exact hn source d (by simpa using hlast)
  · rw [List.concat_eq_append, ← List.cons_append, ← List.append_assoc] at heq
    obtain ⟨hlog, -⟩ := List.append_inj' heq rfl
    exact h before source d after' hlog

/-- A datagram comes with its address, which is not the one that the map takes for a vacant entry,
    and the connection of the address, if it has one, has its index for its id. -/
def IdIsIndex (s : UdpServer) : Event → Prop
  | .recv nread addr _ => 0 ≤ nread ∧ (0 < nread → ∃ a, addr = some a ∧ a.ipAddr ≠ 0 ∧
      ∀ d, live s.log a = some d → d.m_connId.toNat = d.m_connIndex)
  | .timer _ => True

/-! ## §4 The invariant -/

/-- A slot that is in use: the map leads from its address to its entry and the id of its connection,
    and the connection is the one of the address. -/
structure Connected (s : UdpServer) (connData : ConnectionData UdpConnectionData) : Prop where
  key : connData.extension.host.ipAddr ≠ 0
  entry : s.m_connectionMap.getItem connData.extension.host.ipAddr =
    some (connData.extension.m_entryId, connData.m_connectionId)
  id : connData.m_connectionDetails.m_connId = connData.m_connectionId
  live : live s.log connData.extension.host = some connData.m_connectionDetails

/-- What the server keeps: the slots in use, the entries of the map and the connections that the
    listener knows correspond to each other. -/
structure Inv (s : UdpServer) : Prop where
  found : s.m_connectionMap.Found
  index : ∀ (i : Nat) (connData : ConnectionData UdpConnectionData),
    s.server.m_connDataArray[i]? = some connData → connData.m_connectionDetails.m_connIndex = i
  used : ∀ (i : Nat) (connData : ConnectionData UdpConnectionData),
    s.server.m_connDataArray[i]? = some connData → connData.m_isUsed = true → s.Connected connData
  entries : ∀ (key : UInt64) (found : UInt32 × UInt64), key ≠ 0 →
    s.m_connectionMap.getItem key = some found →
    ∃ (i : Nat) (connData : ConnectionData UdpConnectionData),
      s.server.m_connDataArray[i]? = some connData ∧ connData.m_isUsed = true ∧
      connData.extension.host.ipAddr = key
  live : ∀ (addr : SockaddrIn) (d : ConnectionDetails), UdpServer.live s.log addr = some d →
    ∃ connData : ConnectionData UdpConnectionData,
      s.server.m_connDataArray[d.m_connIndex]? = some connData ∧ connData.m_isUsed = true ∧
      connData.extension.host = addr ∧ connData.m_connectionDetails = d
  routed : Routed s.log

theorem start_inv (maxConnections : UInt32) (clientExpireSeconds garbage : UInt64)
    (blank : UdpConnectionData) : Inv (start maxConnections clientExpireSeconds garbage blank) := by
  have hslot : ∀ (i : Nat) (connData : ConnectionData UdpConnectionData),
      (start maxConnections clientExpireSeconds garbage blank).server.m_connDataArray[i]? =
        some connData →
        connData.m_isUsed = false ∧ connData.m_connectionDetails.m_connIndex = i := by
    intro i connData h
    simp only [start, DataServer.initConnDataArray, List.getElem?_map,
      Option.map_eq_some_iff] at h
    obtain ⟨j, hj, rfl⟩ := h
    obtain ⟨_, hrange⟩ := List.getElem?_eq_some_iff.mp hj
    exact ⟨rfl, by simpa using hrange.symm⟩
  have hmap := ConcurrentHashTable.initTable_found
    (maxConnections * COMMUTIL_UDP_CONN_MAP_FACTOR).toNat garbage
  refine ⟨hmap, fun i connData h => (hslot i connData h).2, ?_, ?_, ?_, ?_⟩
  · intro i connData h hused
    rw [(hslot i connData h).1] at hused
    cases hused
  · intro key found hkey hget
    obtain ⟨-, hentry⟩ := ConcurrentHashTable.entry_of_getItem hget
    have hzero := (List.getElem?_eq_some_iff.mp hentry).2
    simp only [start, ConcurrentHashTable.initTable, List.getElem_replicate] at hzero
    cases hzero
    exact absurd rfl hkey
  · intro addr d hlive
    cases hlive
  · intro before source d after hlog
    simp [start] at hlog

section Slots

variable {s : UdpServer} {i : Nat} {connData : ConnectionData UdpConnectionData}

/-- Two slots in use belong to different addresses. -/
theorem Inv.host_inj (h : s.Inv) {j : Nat} {connData' : ConnectionData UdpConnectionData}
    (hi : s.server.m_connDataArray[i]? = some connData) (hused : connData.m_isUsed = true)
    (hj : s.server.m_connDataArray[j]? = some connData') (hused' : connData'.m_isUsed = true)
    (hhost : connData.extension.host = connData'.extension.host) : i = j := by
  have hlive := (h.used i connData hi hused).live
  have hlive' := (h.used j connData' hj hused').live
  rw [hhost, hlive'] at hlive
  rw [← h.index i connData hi, ← h.index j connData' hj, Option.some.inj hlive]

/-- The slot of an address that is found in the map. -/
theorem Inv.slot_of_getItem (h : s.Inv) {addr : SockaddrIn} (hkey : addr.ipAddr ≠ 0)
    {found : UInt32 × UInt64} (hget : s.m_connectionMap.getItem addr.ipAddr = some found) :
    ∃ (i : Nat) (connData : ConnectionData UdpConnectionData),
      s.server.m_connDataArray[i]? = some connData ∧ connData.m_isUsed = true ∧
      connData.extension.host = addr ∧ s.Connected connData ∧
        connData.m_connectionId = found.2 := by
  obtain ⟨i, connData, hi, hused, hhost⟩ := h.entries addr.ipAddr found hkey hget
  have hconn := h.used i connData hi hused
  have haddr := SockaddrIn.ipAddr_inj hhost
  refine ⟨i, connData, hi, hused, haddr, hconn, ?_⟩
  have hentry := hconn.entry
  rw [hhost, hget] at hentry
  exact (congrArg Prod.snd (Option.some.inj hentry)).symm

/-- A slot that is not in use may be written, as long as it stays so; the map finds what it found
    before. -/
theorem Inv.setSlot_unused (h : s.Inv) (hi : s.server.m_connDataArray[i]? = some connData)
    (hfree : connData.m_isUsed = false) (new : ConnectionData UdpConnectionData)
    (hnew : new.m_isUsed = false) (hindex : new.m_connectionDetails.m_connIndex = i)
    {t : UdpServer} (harray : t.server.m_connDataArray = s.server.m_connDataArray.set i new)
    (hfound : t.m_connectionMap.Found)
    (hget : ∀ key, key ≠ 0 → t.m_connectionMap.getItem key = s.m_connectionMap.getItem key)
    (hlog : t.log = s.log) : t.Inv := by
  have hlt := (List.getElem?_eq_some_iff.mp hi).1
  have hself : t.server.m_connDataArray[i]? = some new := by
    rw [harray, List.getElem?_set_self hlt]
  have hother : ∀ {j : Nat}, i ≠ j →
      t.server.m_connDataArray[j]? = s.server.m_connDataArray[j]? := by
    intro j hne
    rw [harray, List.getElem?_set_ne hne]
  -- a slot in use is another one
  have hkeep : ∀ {j : Nat} {d : ConnectionData UdpConnectionData},
      s.server.m_connDataArray[j]? = some d → d.m_isUsed = true →
      t.server.m_connDataArray[j]? = some d := by
    intro j d hj hused
    have hne : i ≠ j := by
      intro heq
      rw [← heq, hi] at hj
      cases hj
      rw [hfree] at hused
      cases hused
    rw [hother hne]
    exact hj
  -- found, index, used, entries, live, routed
  refine ⟨hfound, ?_, ?_, ?_, ?_, hlog ▸ h.routed⟩
  · intro j d hj
    by_cases hne : i = j
    · subst hne
      rw [hself] at hj
      cases hj
      exact hindex
    · rw [hother hne] at hj
      exact h.index j d hj
  · intro j d hj hused
    by_cases hne : i = j
    · subst hne
      rw [hself] at hj
      cases hj
      rw [hnew] at hused
      cases hused
    · rw [hother hne] at hj
      have hconn := h.used j d hj hused
      exact ⟨hconn.key, (hget _ hconn.key).trans hconn.entry, hconn.id, hlog ▸ hconn.live⟩
  · intro key found hkey hfind
    rw [hget key hkey] at hfind
    obtain ⟨j, d, hj, hused, hhost⟩ := h.entries key found hkey hfind
    exact ⟨j, d, hkeep hj hused, hused, hhost⟩
  · intro addr d hlive
    rw [hlog] at hlive
    obtain ⟨data, hj, hused, hrest⟩ := h.live addr d hlive
    exact ⟨data, hkeep hj hused, hused, hrest⟩

/-- A free slot is given to an address that is not in the map. -/
theorem Inv.connect (h : s.Inv) (hi : s.server.m_connDataArray[i]? = some connData)
    (hfree : connData.m_isUsed = false) (new : ConnectionData UdpConnectionData) {t : UdpServer}
    (hkey : new.extension.host.ipAddr ≠ 0)
    (hunknown : s.m_connectionMap.getItem new.extension.host.ipAddr = none)
    (hid : new.m_connectionDetails.m_connId = new.m_connectionId)
    (hindex : new.m_connectionDetails.m_connIndex = i) (hused : new.m_isUsed = true)
    (hvalid : new.extension.m_entryId ≠ COMMUTIL_INVALID_CHT_ENTRY_ID)
    (harray : t.server.m_connDataArray = s.server.m_connDataArray.set i new)
    (hmap : s.m_connectionMap.setItem new.extension.host.ipAddr new.m_connectionId =
      (new.extension.m_entryId, t.m_connectionMap))
    (hlog : t.log = s.log ++ [.onConnect new.extension.host new.m_connectionDetails]) : t.Inv := by
  have hlt := (List.getElem?_eq_some_iff.mp hi).1
  have hself : t.server.m_connDataArray[i]? = some new := by
    rw [harray, List.getElem?_set_self hlt]
  have hother : ∀ {j : Nat}, i ≠ j →
      t.server.m_connDataArray[j]? = s.server.m_connDataArray[j]? := by
    intro j hne
    rw [harray, List.getElem?_set_ne hne]
  -- a slot in use is not the free one that is taken
  have hne_of_used : ∀ {j : Nat} {d : ConnectionData UdpConnectionData},
      s.server.m_connDataArray[j]? = some d → d.m_isUsed = true → i ≠ j := by
    intro j d hj hd heq
    rw [← heq, hi] at hj
    cases hj
    rw [hfree] at hd
    cases hd
  -- the map now has the address of the new client, and the other keys as before
  have hstored : t.m_connectionMap.getItem new.extension.host.ipAddr =
      some (new.extension.m_entryId, new.m_connectionId) := by
    have hset := s.m_connectionMap.getItem_setItem_self new.extension.host.ipAddr
      new.m_connectionId (by rw [hmap]; exact hvalid)
    rw [hmap] at hset
    exact hset
  have hothers : ∀ {key : UInt64}, key ≠ new.extension.host.ipAddr → key ≠ 0 →
      t.m_connectionMap.getItem key = s.m_connectionMap.getItem key := by
    intro key hne hzero
    have hset := s.m_connectionMap.getItem_setItem_ne new.m_connectionId hne hzero
    rw [hmap] at hset
    exact hset
  have hlive_self : UdpServer.live t.log new.extension.host = some new.m_connectionDetails := by
    rw [hlog, live_concat]
    exact if_pos rfl
  have hlive_ne : ∀ {addr : SockaddrIn}, new.extension.host ≠ addr →
      UdpServer.live t.log addr = UdpServer.live s.log addr := by
    intro addr hne
    rw [hlog, live_concat]
    exact if_neg hne
  -- nobody else has the address, or the map would know it
  have hhost : ∀ {d : ConnectionData UdpConnectionData}, s.Connected d →
      new.extension.host ≠ d.extension.host := by
    intro d hconn heq
    have hentry := hconn.entry
    rw [← heq, hunknown] at hentry
    cases hentry
  -- found, index, used, entries, live, routed
  refine ⟨?_, ?_, ?_, ?_, ?_, ?_⟩
  · have hfound := h.found.setItem hunknown new.m_connectionId
    rw [hmap] at hfound
    exact hfound
  · intro j d hj
    by_cases hne : i = j
    · subst hne
      rw [hself] at hj
      cases hj
      exact hindex
    · rw [hother hne] at hj
      exact h.index j d hj
  · intro j d hj hd
    by_cases hne : i = j
    · subst hne
      rw [hself] at hj
      cases hj
      exact ⟨hkey, hstored, hid, hlive_self⟩
    · rw [hother hne] at hj
      have hconn := h.used j d hj hd
      refine ⟨hconn.key, ?_, hconn.id, (hlive_ne (hhost hconn)).trans hconn.live⟩
      rw [hothers (fun heq => hhost hconn (SockaddrIn.ipAddr_inj heq).symm) hconn.key]
      exact hconn.entry
  · -- a key of the map is the new address or belongs to a slot of before
    intro key found hzero hfind
    by_cases hsame : key = new.extension.host.ipAddr
    · exact ⟨i, new, hself, hused, hsame.symm⟩
    · rw [hothers hsame hzero] at hfind
      obtain ⟨j, d, hj, hd, hdhost⟩ := h.entries key found hzero hfind
      exact ⟨j, d, by rw [hother (hne_of_used hj hd)]; exact hj, hd, hdhost⟩
  · -- so does a client that is live
    intro addr d hlive
    by_cases hsame : new.extension.host = addr
    · subst hsame
      rw [hlive_self] at hlive
      cases hlive
      exact ⟨new, by rw [hindex]; exact hself, hused, rfl, rfl⟩
    · rw [hlive_ne hsame] at hlive
      obtain ⟨data, hj, hd, hrest⟩ := h.live addr d hlive
      exact ⟨data, by rw [hother (hne_of_used hj hd)]; exact hj, hd, hrest⟩
  · rw [hlog]
    exact h.routed.concat nofun

/-- A datagram is given to the connection of its address, and the slot is marked. -/
theorem Inv.received (h : s.Inv) (hi : s.server.m_connDataArray[i]? = some connData)
    (hused : connData.m_isUsed = true) (now : UInt64) {t : UdpServer}
    (harray : t.server.m_connDataArray =
      s.server.m_connDataArray.set i (accessed connData now))
    (hmap : t.m_connectionMap = s.m_connectionMap)
    (hlog : t.log = s.log ++
      [.onBytesReceived connData.extension.host connData.m_connectionDetails]) : t.Inv := by
  have hlt := (List.getElem?_eq_some_iff.mp hi).1
  have hself : t.server.m_connDataArray[i]? = some (accessed connData now) := by
    rw [harray, List.getElem?_set_self hlt]
  have hother : ∀ {j : Nat}, i ≠ j →
      t.server.m_connDataArray[j]? = s.server.m_connDataArray[j]? := by
    intro j hne
    rw [harray, List.getElem?_set_ne hne]
  -- data do not change who is connected
  have hlive : ∀ addr, UdpServer.live t.log addr = UdpServer.live s.log addr := by
    intro addr
    rw [hlog, live_concat]
    rfl
  -- a slot keeps everything but the time of the last access
  have hkeep : ∀ {j : Nat} {d : ConnectionData UdpConnectionData},
      s.server.m_connDataArray[j]? = some d → ∃ d', t.server.m_connDataArray[j]? = some d' ∧
        d'.m_isUsed = d.m_isUsed ∧ d'.extension.host = d.extension.host ∧
        d'.m_connectionDetails = d.m_connectionDetails := by
    intro j d hj
    by_cases hne : i = j
    · subst hne
      rw [hi] at hj
      cases hj
      exact ⟨_, hself, rfl, rfl, rfl⟩
    · exact ⟨d, by rw [hother hne]; exact hj, rfl, rfl, rfl⟩
  -- found, index, used, entries, live, routed
  refine ⟨hmap ▸ h.found, ?_, ?_, ?_, ?_, ?_⟩
  · intro j d hj
    by_cases hne : i = j
    · subst hne
      rw [hself] at hj
      cases hj
      exact h.index i connData hi
    · rw [hother hne] at hj
      exact h.index j d hj
  · intro j d hj hd
    have hconn' : ∀ {c : ConnectionData UdpConnectionData}, s.Connected c → t.Connected c := by
      intro c hc
      exact ⟨hc.key, hmap ▸ hc.entry, hc.id, (hlive _).trans hc.live⟩
    by_cases hne : i = j
    · subst hne
      rw [hself] at hj
      cases hj
      have hconn := hconn' (h.used i connData hi hused)
      exact ⟨hconn.key, hconn.entry, hconn.id, hconn.live⟩
    · rw [hother hne] at hj
      exact hconn' (h.used j d hj hd)
  · intro key found hzero hfind
    rw [hmap] at hfind
    obtain ⟨j, d, hj, hd, hdhost⟩ := h.entries key found hzero hfind
    obtain ⟨d', hj', hused', hhost', -⟩ := hkeep hj
    exact ⟨j, d', hj', hused'.trans hd, by rw [hhost']; exact hdhost⟩
  · intro addr d hlive'
    rw [hlive] at hlive'
    obtain ⟨data, hj, hd, hdhost, hdetails⟩ := h.live addr d hlive'
    obtain ⟨d', hj', hused', hhost', hdetails'⟩ := hkeep hj
    exact ⟨d', hj', hused'.trans hd, hhost'.trans hdhost, hdetails'.trans hdetails⟩
  · -- the data are those of the client that is live at the address
    rw [hlog]
    apply h.routed.concat
    intro source d heq
    cases heq
    exact (h.used i connData hi hused).live

/-- The expiry timer gives up a slot. -/
theorem Inv.expireSlot (h : s.Inv) (now : UInt64) (index : Nat) :
    Inv (UdpServer.expireSlot now s index) := by
  unfold UdpServer.expireSlot
  split
  · exact h
  rename_i connData hi
  split
  · -- the slot is given up and its key removed from the map
    rename_i hexpired
    have hused : connData.m_isUsed = true := by
      simp only [expired, Bool.and_eq_true] at hexpired
      exact hexpired.1
    have hconn := h.used index connData hi hused
    have hself := s.server.setSlot_self hi (unused connData)
    have hother : ∀ {j : Nat}, index ≠ j →
        (s.server.setSlot index (unused connData)).m_connDataArray[j]? =
          s.server.m_connDataArray[j]? := fun hne => s.server.setSlot_ne hne _
    obtain ⟨hvalid, hentry⟩ := ConcurrentHashTable.entry_of_getItem hconn.entry
    have hgone := h.found.getItem_removeAt_self hconn.entry hconn.key
    have hothers : ∀ {key : UInt64}, key ≠ connData.extension.host.ipAddr → key ≠ 0 →
        (s.m_connectionMap.removeAt connData.extension.m_entryId).getItem key =
          s.m_connectionMap.getItem key :=
      fun hne hzero => ConcurrentHashTable.getItem_removeAt_ne hentry (Ne.symm hne) hzero
    have hlive_ne : ∀ {addr : SockaddrIn}, connData.extension.host ≠ addr →
        UdpServer.live (s.log ++ [.onDisconnect connData.extension.host
          connData.m_connectionDetails]) addr = UdpServer.live s.log addr := by
      intro addr hne
      rw [live_concat]
      exact if_neg hne
    -- found, index, used, entries, live, routed
    refine ⟨h.found.removeAt hvalid, ?_, ?_, ?_, ?_, h.routed.concat nofun⟩
    · intro j d hj
      by_cases hne : index = j
      · subst hne
        rw [hself] at hj
        cases hj
        exact h.index index connData hi
      · rw [hother hne] at hj
        exact h.index j d hj
    · intro j d hj hd
      by_cases hne : index = j
      · subst hne
        rw [hself] at hj
        cases hj
        cases hd
      · rw [hother hne] at hj
        have hconn' := h.used j d hj hd
        -- no other slot is connected to the address
        have hhost : connData.extension.host ≠ d.extension.host :=
          fun heq => hne (h.host_inj hi hused hj hd heq)
        refine ⟨hconn'.key, ?_, hconn'.id, (hlive_ne hhost).trans hconn'.live⟩
        rw [hothers (fun heq => hhost (SockaddrIn.ipAddr_inj heq).symm) hconn'.key]
        exact hconn'.entry
    · -- a key that is still found is another one
      intro key found hzero hfind
      have hne_key : key ≠ connData.extension.host.ipAddr := by
        intro heq
        rw [heq, hgone] at hfind
        cases hfind
      rw [hothers hne_key hzero] at hfind
      obtain ⟨j, d, hj, hd, hdhost⟩ := h.entries key found hzero hfind
      have hne : index ≠ j := by
        intro heq
        rw [← heq, hi] at hj
        cases hj
        exact hne_key hdhost.symm
      exact ⟨j, d, by rw [hother hne]; exact hj, hd, hdhost⟩
    · -- a client that is still live is another one
      intro addr d hlive
      have hne_addr : connData.extension.host ≠ addr := by
        intro heq
        rw [live_concat, ← heq] at hlive
        simp [liveAfter] at hlive
      rw [hlive_ne hne_addr] at hlive
      obtain ⟨data, hj, hd, hdhost, hdetails⟩ := h.live addr d hlive
      have hne : index ≠ d.m_connIndex := by
        intro heq
        rw [← heq, hi] at hj
        cases hj
        exact hne_addr hdhost
      exact ⟨data, by rw [hother hne]; exact hj, hd, hdhost, hdetails⟩
  · exact h

end Slots

/-- The expiry timer keeps the invariant, slot by slot. -/
theorem Inv.onTimer {s : UdpServer} (h : s.Inv) (now : UInt64) : Inv (s.onTimer now) := by
  have hloop : ∀ (indices : List Nat) (t : UdpServer), t.Inv →
      Inv (indices.foldl (UdpServer.expireSlot now) t) := by
    intro indices
    induction indices with
    | nil => exact fun _ ht => ht
    | cons index rest ih => exact fun t ht => ih _ (ht.expireSlot now index)
  exact hloop _ s h

/-- A datagram from an address that is not in the map. -/
theorem Inv.onNewClient {s : UdpServer} (h : s.Inv) {addr : SockaddrIn} (hkey : addr.ipAddr ≠ 0)
    (hunknown : s.m_connectionMap.getItem addr.ipAddr = none) {nread : Int} (hpos : 0 < nread)
    (now : UInt64) :
    ∃ s', s.onNewClient addr nread now s.server.grabConnectionData = .ok s' ∧ s'.Inv := by
  cases hgrab : s.server.grabConnectionData with
  -- all slots are taken, and the datagram is dropped
  | none => exact ⟨s, rfl, h⟩
  | some grabbed =>
    obtain ⟨index, server⟩ := grabbed
    obtain ⟨connData, hi, hfree, harray, -, -⟩ := DataServer.grabConnectionData_spec hgrab
    have hlt := (List.getElem?_eq_some_iff.mp hi).1
    have hself : server.m_connDataArray[index]? =
        some (DataServer.grabbed connData s.server.m_nextConnectionId) := by
      rw [harray, List.getElem?_set_self hlt]
    have hindex := h.index index connData hi
    simp only [UdpServer.onNewClient, hself]
    refine ⟨_, rfl, ?_⟩
    -- the slot as it is put into the map
    have hslot : ∃ slot, slot = hosted (DataServer.grabbed connData s.server.m_nextConnectionId)
      addr := ⟨_, rfl⟩
    obtain ⟨slot, hslot⟩ := hslot
    have hid : (DataServer.grabbed connData s.server.m_nextConnectionId).m_connectionId =
      slot.m_connectionId := by rw [hslot]; rfl
    have hhost : slot.extension.host = addr := by rw [hslot]; rfl
    have hslot_index : slot.m_connectionDetails.m_connIndex = index := by rw [hslot]; exact hindex
    have hslot_id : slot.m_connectionDetails.m_connId = slot.m_connectionId := by rw [hslot]; rfl
    have hslot_used : slot.m_isUsed = true := by rw [hslot]; rfl
    rw [← hslot, hid]
    have hset : ∀ new, (server.setSlot index new).m_connDataArray =
        s.server.m_connDataArray.set index new := by
      intro new
      simp [DataServer.setSlot, harray]
    cases hstore : s.m_connectionMap.setItem addr.ipAddr slot.m_connectionId with
    | mk entryId connectionMap =>
      unfold addClient
      dsimp only
      split
      · -- the map takes no entry, and the slot is given back
        rename_i hfull
        apply h.setSlot_unused hi hfree (unused slot) rfl hslot_index (hset _)
        · have hfound := h.found.setItem hunknown slot.m_connectionId
          rw [hstore] at hfound
          exact hfound
        · intro key hzero
          by_cases hsame : key = addr.ipAddr
          · have hnone := s.m_connectionMap.getItem_setItem_full slot.m_connectionId hunknown
              (by rw [hstore]; exact hfull)
            rw [hstore] at hnone
            rw [hsame, hunknown]
            exact hnone
          · have hother := s.m_connectionMap.getItem_setItem_ne slot.m_connectionId hsame hzero
            rw [hstore] at hother
            exact hother
        · rfl
      · -- the client is connected, and then its data are received
        rename_i hvalid
        have hconnect := h.connect hi hfree (mapped slot entryId)
          (t := ⟨server.setSlot index (mapped slot entryId), connectionMap, s.m_clientExpireSeconds,
            s.log ++ [.onConnect addr slot.m_connectionDetails]⟩)
          (by rw [← hhost] at hkey; exact hkey) (by rw [← hhost] at hunknown; exact hunknown)
          hslot_id hslot_index hslot_used hvalid (hset _) (by rw [← hhost] at hstore; exact hstore)
          (by rw [← hhost]; rfl)
        have hmapped : (server.setSlot index (mapped slot entryId)).m_connDataArray[index]? =
            some (mapped slot entryId) := by rw [hset, List.getElem?_set_self hlt]
        apply hconnect.received hmapped hslot_used now
        · simp only [dispatch, hpos, if_true]
          rw [hset, hset, List.set_set]
        · rfl
        · simp only [dispatch, hpos, if_true, onRead_pos hpos]
          simp [accessed, mapped, hhost]

/-- A datagram from an address that is in the map, if the id of its connection is its index. -/
theorem Inv.dispatch_known {s : UdpServer} (h : s.Inv) {addr : SockaddrIn}
    (hkey : addr.ipAddr ≠ 0) {found : UInt32 × UInt64}
    (hget : s.m_connectionMap.getItem addr.ipAddr = some found)
    (hid : ∀ d, UdpServer.live s.log addr = some d → d.m_connId.toNat = d.m_connIndex)
    {nread : Int} (hpos : 0 < nread) (now : UInt64) :
    ∃ s', s.onClient addr nread now (some found) = .ok s' ∧ s'.Inv := by
  obtain ⟨i, connData, hi, hused, hhost, hconn, hvalue⟩ := h.slot_of_getItem hkey hget
  -- the id that the map holds is the index of the slot
  have hindex : found.2.toNat = i := by
    have hlive := hconn.live
    rw [hhost] at hlive
    rw [← hvalue, ← hconn.id, hid _ hlive]
    exact h.index i connData hi
  obtain ⟨entryId, connectionIndex⟩ := found
  have hslot : s.server.m_connDataArray[connectionIndex.toNat]? = some connData := by
    rw [show connectionIndex.toNat = i from hindex]
    exact hi
  refine ⟨s.dispatch connectionIndex.toNat connData addr false nread now, ?_, ?_⟩
  · simp only [UdpServer.onClient, hslot]
  · apply h.received hslot hused now
    · simp only [dispatch, hpos, if_true]
      rfl
    · rfl
    · simp only [dispatch, hpos, if_true, onRead_pos hpos]
      simp [accessed, hhost]

/-- **One event** is handled without a fault and keeps the invariant. -/
theorem Inv.step {s : UdpServer} (h : s.Inv) {e : Event} (he : s.IdIsIndex e) :
    ∃ s', s.step e = .ok s' ∧ s'.Inv := by
  cases e with
  | timer now => exact ⟨s.onTimer now, rfl, h.onTimer now⟩
  | recv nread addr now =>
    simp only [UdpServer.step, onRecv]
    by_cases hzero : nread = 0
    · exact ⟨s, if_pos hzero, h⟩
    · rw [if_neg hzero]
      have hpos : 0 < nread := Int.lt_iff_le_and_ne.mpr ⟨he.1, Ne.symm hzero⟩
      obtain ⟨a, rfl, hkey, hid⟩ := he.2 hpos
      dsimp only
      cases hget : s.m_connectionMap.getItem a.ipAddr with
      | none => exact h.onNewClient hkey hget hpos now
      | some found => exact h.dispatch_known hkey hget hid hpos now

/-- **Datagrams are routed to their connections**, in every run in which the connection of an address
    has its index for its id whenever a datagram comes from the address: no slot was used before. -/
theorem datagrams_routed (maxConnections : UInt32) (clientExpireSeconds garbage : UInt64)
    (blank : UdpConnectionData) (events : List Event) (s : UdpServer)
    (hrun : RunsWith (fun s e s' => UdpServer.step s e = .ok s') IdIsIndex
      (start maxConnections clientExpireSeconds garbage blank) events s) :
    Routed s.log ∧ (∀ e, s.IdIsIndex e → ∃ s', s.step e = .ok s') ∧
    ∀ a b d d', a ≠ b → live s.log a = some d → live s.log b = some d' →
      d.m_connIndex ≠ d'.m_connIndex := by
  have hinv : s.Inv := by
    apply hrun.invariant Inv
    · intro t e t' ht he hstep
      obtain ⟨t'', hstep', hinv⟩ := ht.step he
      rw [hstep] at hstep'
      cases hstep'
      exact hinv
    · exact start_inv maxConnections clientExpireSeconds garbage blank
  refine ⟨hinv.routed, ?_, ?_⟩
  · intro e he
    obtain ⟨s', hstep, -⟩ := hinv.step he
    exact ⟨s', hstep⟩
  · intro a b d d' hne hd hd' hindex
    obtain ⟨slot, hslot, -, hhost, -⟩ := hinv.live a d hd
    obtain ⟨slot', hslot', -, hhost', -⟩ := hinv.live b d' hd'
    rw [hindex, hslot'] at hslot
    cases hslot
    exact hne (hhost.symm.trans hhost')

/-- A client, by its address and port. -/
def client : SockaddrIn := ⟨0x0100007f, 5⟩

/-- Two datagrams of a client, with the expiry of its connection between them. -/
def returningClient : List Event :=
  [.recv 10 (some client) 0, .timer 60000, .recv 10 (some client) 60001]

instance (s : UdpServer) : (e : Event) → Decidable (s.IdIsIndex e)
  | .timer _ => isTrue trivial
  | .recv nread none _ =>
    decidable_of_iff (nread = 0) (by simp [IdIsIndex]; omega)
  | .recv nread (some a) _ =>
    decidable_of_iff (0 ≤ nread ∧ (0 < nread → a.ipAddr ≠ 0 ∧
      ∀ d ∈ live s.log a, d.m_connId.toNat = d.m_connIndex)) (by simp [IdIsIndex])

/-- The routing of a client that comes back after its connection has expired: its third datagram is
    the first that does not find its way. -/
theorem datagrams_routed_returning_client :
    ∃ s, RunsWith (fun s e s' => UdpServer.step s e = .ok s') IdIsIndex
        (start 2 60 0 ⟨0, 0, ⟨0, 0⟩⟩) returningClient s ∧
      live s.log client = some ⟨1, 0⟩ ∧ Routed s.log := by
  have hrun : (runWhere (fun s e => (UdpServer.step s e).toOption) IdIsIndex
      (start 2 60 0 ⟨0, 0, ⟨0, 0⟩⟩) returningClient).map (fun s => live s.log client) =
      some (some ⟨1, 0⟩) := by
    decide +kernel
  obtain ⟨s, hs, hlive⟩ := Option.map_eq_some_iff.mp hrun
  have hs' := runsWith_of_runWhere_except hs
  exact ⟨s, hs', hlive, (datagrams_routed 2 60 0 ⟨0, 0, ⟨0, 0⟩⟩ _ s hs').1⟩

/-- A client that expires and comes back has a connection whose id is not its index: its next
    datagram finds a slot that does not exist, or a slot that is not its own. -/
theorem returning_client_misrouted :
    (∃ s, RunsWith (fun s e s' => UdpServer.step s e = .ok s') (fun _ _ => True)
        (start 1 60 0 ⟨0, 0, ⟨0, 0⟩⟩) returningClient s ∧
      s.step (.recv 10 (some client) 60002) = .error .outOfBounds) ∧
    ∃ s, RunsWith (fun s e s' => UdpServer.step s e = .ok s') (fun _ _ => True)
        (start 2 60 0 ⟨0, 0, ⟨0, 0⟩⟩) (returningClient ++ [.recv 10 (some client) 60002]) s ∧
      ¬ Routed s.log := by
  constructor
  · have hrun : (runWhere (fun s e => (UdpServer.step s e).toOption) (fun _ _ => True)
        (start 1 60 0 ⟨0, 0, ⟨0, 0⟩⟩) returningClient).map
        (fun s => decide (s.step (.recv 10 (some client) 60002) = .error .outOfBounds)) =
        some true := by
      decide +kernel
    obtain ⟨s, hs, hfault⟩ := Option.map_eq_some_iff.mp hrun
    exact ⟨s, runsWith_of_runWhere_except hs, of_decide_eq_true hfault⟩
  · have hrun : (runWhere (fun s e => (UdpServer.step s e).toOption) (fun _ _ => True)
        (start 2 60 0 ⟨0, 0, ⟨0, 0⟩⟩) (returningClient ++ [.recv 10 (some client) 60002])).map
        UdpServer.log =
        some ([.onConnect client ⟨0, 0⟩, .onBytesReceived client ⟨0, 0⟩,
          .onDisconnect client ⟨0, 0⟩, .onConnect client ⟨1, 0⟩,
          .onBytesReceived client ⟨1, 0⟩] ++ .onBytesReceived client ⟨0, 1⟩ :: []) := by
      decide +kernel
    obtain ⟨s, hs, hlog⟩ := Option.map_eq_some_iff.mp hrun
    refine ⟨s, runsWith_of_runWhere_except hs, fun hrouted => ?_⟩
    exact absurd (hrouted _ _ _ _ hlog) (by decide)

end UdpServer

end Commutil.Transport
