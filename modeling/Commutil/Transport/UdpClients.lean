import Commutil.Common.HashProbing
import Commutil.Library.Leases
import Commutil.Transport.UdpServer
import Mathlib.Data.List.Perm.Subperm

/-!
# The Clients of the UDP Server

For the data listener a client of the UDP server is connected from its `onConnect` to
its `onDisconnect`, which the expiry timer raises.  This module says which clients that
are, whatever datagrams arrive and wherever they are routed:

- `clients_hold_leases`: the slots of the connection array are a table of leases, which
  the datagrams renew and the ticks of the timer sweep
- `clients_turned_away_iff`: a new client is turned away exactly if as many clients are
  connected as there are slots, and the connection map always takes another key

`getCurrentTimeMillis` reads a steady clock, so the time does not go back.
-/

namespace Commutil.Transport

open Commutil.Library
open Commutil.Common

namespace UdpServer

/-! ## §1 What a step does to the slots -/

/-- What `onRecv` does with a datagram, by what it changes of the slots and what is told. -/
inductive Received (s : UdpServer) (source : SockaddrIn) (now : UInt64) : UdpServer → Prop where
  /-- No slot is vacant. -/
  | turnedAway (hunknown : s.m_connectionMap.getItem source.ipAddr = none)
      (hfull : s.server.vacantSlot = none) : Received s source now s
  /-- The datagram goes to the slot that the map has led to. -/
  | known (index : Nat) (connData : ConnectionData UdpConnectionData)
      (hslot : s.server.m_connDataArray[index]? = some connData)
      (hknown : s.m_connectionMap.getItem source.ipAddr ≠ none) :
      Received s source now
        { s with
          server := s.server.setSlot index (accessed connData now)
          log := s.log ++ [.onBytesReceived source connData.m_connectionDetails] }
  /-- The map is full, and the slot is given back. -/
  | givenBack (index : Nat) (connData new : ConnectionData UdpConnectionData)
      (hslot : s.server.m_connDataArray[index]? = some connData)
      (hvacant : connData.m_isUsed = false) (hunused : new.m_isUsed = false)
      (hindex : new.m_connectionDetails.m_connIndex = connData.m_connectionDetails.m_connIndex)
      (hunknown : s.m_connectionMap.getItem source.ipAddr = none) (id : UInt64)
      (hfull : (s.m_connectionMap.setItem source.ipAddr id).1 = COMMUTIL_INVALID_CHT_ENTRY_ID)
      {t : UdpServer} (hexpire : t.m_clientExpireSeconds = s.m_clientExpireSeconds)
      (harray : t.server.m_connDataArray = s.server.m_connDataArray.set index new)
      (hmap : t.m_connectionMap = (s.m_connectionMap.setItem source.ipAddr id).2)
      (hlog : t.log = s.log) : Received s source now t
  /-- The first datagram of a client. -/
  | connected (index : Nat) (connData new : ConnectionData UdpConnectionData)
      (hslot : s.server.m_connDataArray[index]? = some connData)
      (hvacant : connData.m_isUsed = false) (hused : new.m_isUsed = true)
      (hindex : new.m_connectionDetails.m_connIndex = connData.m_connectionDetails.m_connIndex)
      (haccess : new.extension.m_lastAccessTimeMillis = now)
      (hhost : new.extension.host = source)
      (hunknown : s.m_connectionMap.getItem source.ipAddr = none) (id : UInt64)
      {t : UdpServer} (hexpire : t.m_clientExpireSeconds = s.m_clientExpireSeconds)
      (harray : t.server.m_connDataArray = s.server.m_connDataArray.set index new)
      (hmap : t.m_connectionMap = (s.m_connectionMap.setItem source.ipAddr id).2)
      (hlog : t.log = s.log ++ [.onConnect new.extension.host new.m_connectionDetails,
        .onBytesReceived source new.m_connectionDetails]) : Received s source now t

/-- A vacant slot is grabbed. -/
theorem vacantSlot_of_grab {s : UdpServer} (h : s.server.grabConnectionData = none) :
    s.server.vacantSlot = none := by
  unfold DataServer.grabConnectionData at h
  cases hvacant : s.server.vacantSlot with
  | none => rfl
  | some index =>
    have hlt := (List.findIdx?_eq_some_iff_getElem.mp hvacant).1
    simp [hvacant, List.getElem?_eq_getElem hlt] at h

/-- **What `onRecv` does**, for a datagram with data. -/
theorem onRecv_cases {s t : UdpServer} {nread : Int} {source : SockaddrIn} {now : UInt64}
    (hpos : 0 < nread) (h : s.onRecv nread (some source) now = .ok t) :
    Received s source now t := by
  unfold onRecv at h
  rw [if_neg (Int.ne_of_gt hpos)] at h
  simp only at h
  cases hget : s.m_connectionMap.getItem source.ipAddr with
  -- the address is known, and the map leads to a slot
  | some found =>
    have hknown : s.m_connectionMap.getItem source.ipAddr ≠ none := by
      rw [hget]
      exact Option.some_ne_none found
    obtain ⟨entryId, connectionIndex⟩ := found
    rw [hget, onClient] at h
    cases hslot : s.server.m_connDataArray[connectionIndex.toNat]? with
    | none =>
      simp only [hslot] at h
      cases h
    | some connData =>
      simp only [hslot, dispatch, hpos, if_true, onRead_pos hpos, Bool.false_eq_true, if_false,
        List.append_nil] at h
      cases h
      exact .known connectionIndex.toNat connData hslot hknown
  | none =>
    rw [hget, onClient] at h
    cases hgrab : s.server.grabConnectionData with
    -- all slots are in use
    | none =>
      rw [hgrab] at h
      cases h
      exact .turnedAway hget (vacantSlot_of_grab hgrab)
    | some grabbed =>
      obtain ⟨index, server⟩ := grabbed
      obtain ⟨connData, hslot, hvacant, harray, -, -⟩ := DataServer.grabConnectionData_spec hgrab
      have hlt := (List.getElem?_eq_some_iff.mp hslot).1
      have hself : server.m_connDataArray[index]? =
          some (DataServer.grabbed connData s.server.m_nextConnectionId) := by
        rw [harray, List.getElem?_set_self hlt]
      have hset : ∀ new, (server.setSlot index new).m_connDataArray =
          s.server.m_connDataArray.set index new := by
        intro new
        simp [DataServer.setSlot, harray]
      simp only [hgrab, onNewClient, hself, addClient] at h
      split at h
      · -- the map does not take the address
        rename_i hfull
        cases h
        refine .givenBack index connData _ hslot hvacant ?_ ?_ hget _ hfull rfl (hset _) rfl rfl
        all_goals rfl
      · -- the client is connected, and its data are delivered
        simp only [dispatch, hpos, if_true, onRead_pos hpos, List.append_assoc,
          List.singleton_append] at h
        cases h
        refine .connected index connData _ hslot hvacant ?_ ?_ ?_ ?_ hget _ rfl (hset _) rfl rfl
        all_goals rfl

/-! ## §2 The clients that are connected -/

/-- The clients that are connected after a notification. -/
def connectedAfter (clients : List ConnectionDetails) : UdpNotification → List ConnectionDetails
  | .onConnect _ connectionDetails => clients ++ [connectionDetails]
  | .onDisconnect _ connectionDetails => clients.erase connectionDetails
  | .onReadError _ _ | .onBytesReceived _ _ => clients

/-- The clients that the listener takes for connected. -/
def connected (log : List UdpNotification) : List ConnectionDetails :=
  log.foldl connectedAfter []

@[simp] theorem connected_append (log more : List UdpNotification) :
    connected (log ++ more) = more.foldl connectedAfter (connected log) := by
  simp [connected, List.foldl_append]

/-- The time at which a client was last heard of, as long as the slot is its own. -/
def lease (s : UdpServer) : Leases ConnectionDetails := fun d =>
  match s.server.m_connDataArray[d.m_connIndex]? with
  | none => none
  | some connData =>
    if connData.m_isUsed = true ∧ connData.m_connectionDetails = d then
      some connData.extension.m_lastAccessTimeMillis.toNat
    else none

/-- The expiry period, as it is computed. -/
def period (s : UdpServer) : Nat := (s.m_clientExpireSeconds * 1000).toNat

theorem lease_eq_some_iff {s : UdpServer} {d : ConnectionDetails} {time : Nat} :
    s.lease d = some time ↔ ∃ connData : ConnectionData UdpConnectionData,
      s.server.m_connDataArray[d.m_connIndex]? = some connData ∧ connData.m_isUsed = true ∧
      connData.m_connectionDetails = d ∧
      connData.extension.m_lastAccessTimeMillis.toNat = time := by
  unfold lease
  cases s.server.m_connDataArray[d.m_connIndex]? with
  | none => simp
  | some connData => simp [and_assoc]

/-- The lease of a client whose slot is known. -/
theorem lease_of_slot {s : UdpServer} {d : ConnectionDetails}
    {connData : ConnectionData UdpConnectionData}
    (hslot : s.server.m_connDataArray[d.m_connIndex]? = some connData) :
    s.lease d = if connData.m_isUsed = true ∧ connData.m_connectionDetails = d then
      some connData.extension.m_lastAccessTimeMillis.toNat else none := by
  simp only [lease, hslot]

/-- Other slots say nothing about a client. -/
theorem lease_congr {s t : UdpServer} {d : ConnectionDetails}
    (h : t.server.m_connDataArray[d.m_connIndex]? = s.server.m_connDataArray[d.m_connIndex]?) :
    t.lease d = s.lease d := by
  simp only [lease, h]

/-- What is known of the slots in every state: a slot knows its index, nobody was heard of later
    than now, and the clients in the slots are those that the listener takes for connected. -/
structure Settled (s : UdpServer) (clock : UInt64) : Prop where
  index : ∀ (i : Nat) (connData : ConnectionData UdpConnectionData),
    s.server.m_connDataArray[i]? = some connData → connData.m_connectionDetails.m_connIndex = i
  access : ∀ (i : Nat) (connData : ConnectionData UdpConnectionData),
    s.server.m_connDataArray[i]? = some connData → connData.m_isUsed = true →
      connData.extension.m_lastAccessTimeMillis ≤ clock
  nodup : (connected s.log).Nodup
  clients : ∀ d, d ∈ connected s.log ↔ (s.lease d).isSome = true

theorem Settled.later {s : UdpServer} {clock now : UInt64} (h : s.Settled clock)
    (hnow : clock ≤ now) : s.Settled now :=
  ⟨h.index, fun i connData hslot hused => UInt64.le_trans (h.access i connData hslot hused) hnow,
    h.nodup, h.clients⟩

section Slots

variable {s t : UdpServer} {clock now : UInt64} {i : Nat}
  {connData : ConnectionData UdpConnectionData}

/-- Slots are as they were, but for one. -/
theorem slot_cases {new : ConnectionData UdpConnectionData}
    (hslot : s.server.m_connDataArray[i]? = some connData)
    (harray : t.server.m_connDataArray = s.server.m_connDataArray.set i new) (j : Nat) :
    (j = i ∧ t.server.m_connDataArray[j]? = some new) ∨
      (j ≠ i ∧ t.server.m_connDataArray[j]? = s.server.m_connDataArray[j]?) := by
  rw [harray]
  by_cases hji : j = i
  · subst hji
    have hlt := (List.getElem?_eq_some_iff.mp hslot).1
    exact .inl ⟨rfl, List.getElem?_set_self hlt⟩
  · exact .inr ⟨hji, List.getElem?_set_ne (Ne.symm hji)⟩

/-- A slot that is in use after the write is a lease that is renewed. -/
theorem Settled.lease_used (h : s.Settled clock) (new : ConnectionData UdpConnectionData)
    (hslot : s.server.m_connDataArray[i]? = some connData)
    (harray : t.server.m_connDataArray = s.server.m_connDataArray.set i new)
    (hused : new.m_isUsed = true)
    (hindex : new.m_connectionDetails.m_connIndex = connData.m_connectionDetails.m_connIndex)
    (hsame : connData.m_isUsed = true → connData.m_connectionDetails = new.m_connectionDetails) :
    t.lease = s.lease.renew new.m_connectionDetails
      new.extension.m_lastAccessTimeMillis.toNat := by
  have hnew : new.m_connectionDetails.m_connIndex = i := hindex.trans (h.index i connData hslot)
  funext d
  rcases slot_cases hslot harray d.m_connIndex with ⟨hd, hat⟩ | ⟨hd, hat⟩
  · rw [lease_of_slot hat]
    by_cases hself : new.m_connectionDetails = d
    · subst hself
      simp [hused]
    · rw [Leases.renew_of_ne _ (Ne.symm hself), lease_of_slot (hd ▸ hslot), if_neg, if_neg]
      · exact fun hboth => hself ((hsame hboth.1).symm.trans hboth.2)
      · exact fun hboth => hself hboth.2
  · rw [lease_congr hat, Leases.renew_of_ne]
    intro heq
    exact hd (heq ▸ hnew)

/-- A slot that is vacant before and after the write is no lease. -/
theorem lease_vacant (new : ConnectionData UdpConnectionData)
    (hslot : s.server.m_connDataArray[i]? = some connData)
    (harray : t.server.m_connDataArray = s.server.m_connDataArray.set i new)
    (hvacant : connData.m_isUsed = false) (hunused : new.m_isUsed = false) :
    t.lease = s.lease := by
  funext d
  rcases slot_cases hslot harray d.m_connIndex with ⟨hd, hat⟩ | ⟨-, hat⟩
  · rw [lease_of_slot hat, lease_of_slot (hd ▸ hslot)]
    simp [hvacant, hunused]
  · exact lease_congr hat

/-- The written slot keeps its index, and its client was not heard of later than now. -/
theorem Settled.slots (h : s.Settled clock) (hnow : clock ≤ now)
    (new : ConnectionData UdpConnectionData)
    (hslot : s.server.m_connDataArray[i]? = some connData)
    (harray : t.server.m_connDataArray = s.server.m_connDataArray.set i new)
    (hindex : new.m_connectionDetails.m_connIndex = connData.m_connectionDetails.m_connIndex)
    (haccess : new.m_isUsed = true → new.extension.m_lastAccessTimeMillis ≤ now) :
    (∀ (j : Nat) (c : ConnectionData UdpConnectionData),
      t.server.m_connDataArray[j]? = some c → c.m_connectionDetails.m_connIndex = j) ∧
    ∀ (j : Nat) (c : ConnectionData UdpConnectionData),
      t.server.m_connDataArray[j]? = some c → c.m_isUsed = true →
        c.extension.m_lastAccessTimeMillis ≤ now := by
  have hlater := h.later hnow
  constructor
  · intro j c hj
    rcases slot_cases hslot harray j with ⟨rfl, hat⟩ | ⟨-, hat⟩
    · obtain rfl := Option.some.inj (hat.symm.trans hj)
      exact hindex.trans (h.index j connData hslot)
    · exact h.index j c (hat ▸ hj)
  · intro j c hj hused
    rcases slot_cases hslot harray j with ⟨rfl, hat⟩ | ⟨-, hat⟩
    · obtain rfl := Option.some.inj (hat.symm.trans hj)
      exact haccess hused
    · exact hlater.access j c (hat ▸ hj) hused

end Slots

/-! ## §3 What is heard of the clients -/

/-- What a notification does to a lease: only a connected client renews one. -/
def heardIn (log : List UdpNotification) (now : UInt64) :
    UdpNotification → Option (LeaseEvent ConnectionDetails)
  | .onBytesReceived _ connectionDetails =>
    if connectionDetails ∈ connected log then some (.renew connectionDetails now.toNat) else none
  | .onConnect _ _ | .onDisconnect _ _ | .onReadError _ _ => none

/-- What a step of the I/O task does to the leases, read off the notifications it has added. -/
def heardOf (s t : UdpServer) : Event → List (LeaseEvent ConnectionDetails)
  | .recv _ _ now => (t.log.drop s.log.length).filterMap (heardIn t.log now)
  | .timer now => [.sweep now.toNat]

/-- A vacant slot is nobody's lease. -/
theorem Settled.not_connected {s : UdpServer} {clock : UInt64} (h : s.Settled clock) {i : Nat}
    {connData : ConnectionData UdpConnectionData}
    (hslot : s.server.m_connDataArray[i]? = some connData) (hvacant : connData.m_isUsed = false)
    {d : ConnectionDetails} (hd : d.m_connIndex = i) : d ∉ connected s.log := by
  intro hmem
  have hlease := (h.clients d).mp hmem
  rw [lease_of_slot (hd ▸ hslot)] at hlease
  simp [hvacant] at hlease

/-- **A datagram** renews the lease of the client to which it is given, if that is connected. -/
theorem Settled.received {s t : UdpServer} {clock now : UInt64} {source : SockaddrIn}
    (h : s.Settled clock) (hnow : clock ≤ now) (hrecv : Received s source now t) :
    t.Settled now ∧ t.period = s.period ∧ t.lease =
      ((t.log.drop s.log.length).filterMap (heardIn t.log now)).foldl (Leases.after s.period)
        s.lease := by
  cases hrecv with
  -- the datagram leaves no trace
  | turnedAway _ _ => exact ⟨h.later hnow, rfl, by simp⟩
  | known index connData hslot _ =>
    obtain ⟨hindex, haccess⟩ := h.slots (t := { s with
        server := s.server.setSlot index (accessed connData now)
        log := s.log ++ [.onBytesReceived source connData.m_connectionDetails] })
      hnow (accessed connData now) hslot rfl rfl fun _ => UInt64.le_refl now
    cases hused : connData.m_isUsed with
    | true =>
      -- the client is connected, and its lease is renewed
      have hlease := h.lease_used (t := { s with
          server := s.server.setSlot index (accessed connData now)
          log := s.log ++ [.onBytesReceived source connData.m_connectionDetails] })
        (accessed connData now) hslot rfl hused rfl fun _ => rfl
      have hmem : connData.m_connectionDetails ∈ connected s.log := by
        rw [h.clients, lease_of_slot (h.index index connData hslot ▸ hslot)]
        simp [hused]
      refine ⟨⟨hindex, haccess, by simpa [connectedAfter] using h.nodup, ?_⟩, rfl, ?_⟩
      · intro d
        rw [hlease]
        by_cases hself : d = connData.m_connectionDetails
        · subst hself
          simp [connectedAfter, accessed, hmem]
        · have hne : d ≠ (accessed connData now).m_connectionDetails := hself
          rw [Leases.renew_of_ne _ hne]
          simpa [connectedAfter] using h.clients d
      · rw [hlease]
        simp [heardIn, connectedAfter, hmem, Leases.after, accessed]
    -- the map has led to a vacant slot: the data are delivered, but no lease is renewed
    | false =>
      have hlease := lease_vacant (t := { s with
          server := s.server.setSlot index (accessed connData now)
          log := s.log ++ [.onBytesReceived source connData.m_connectionDetails] })
        (accessed connData now) hslot rfl hused hused
      have hmem := h.not_connected hslot hused (h.index index connData hslot)
      refine ⟨⟨hindex, haccess, by simpa [connectedAfter] using h.nodup, ?_⟩, rfl, ?_⟩
      · intro d
        rw [hlease]
        simpa [connectedAfter] using h.clients d
      · rw [hlease]
        simp [heardIn, connectedAfter, hmem]
  -- a slot was grabbed and given back, because the map took no entry
  | givenBack index connData new hslot hvacant hunused hindex _ _ _ hexpire harray _ hlog =>
    have hlease := lease_vacant new hslot harray hvacant hunused
    obtain ⟨hindex, haccess⟩ := h.slots hnow new hslot harray hindex fun hused => by
      rw [hunused] at hused
      cases hused
    refine ⟨⟨hindex, haccess, by rw [hlog]; exact h.nodup, ?_⟩, by simp [period, hexpire], ?_⟩
    · intro d
      rw [hlease, hlog]
      exact h.clients d
    · simp [hlease, hlog]
  -- a new client: it is told of the connection before its data, and its lease begins
  | connected index connData new hslot hvacant hused hindex haccess _ _ _ hexpire harray _ hlog =>
    have hlease := h.lease_used new hslot harray hused hindex fun hbefore => by
      rw [hvacant] at hbefore
      cases hbefore
    have hfresh : new.m_connectionDetails ∉ UdpServer.connected s.log :=
      h.not_connected hslot hvacant (hindex.trans (h.index index connData hslot))
    have hclients : UdpServer.connected t.log =
        UdpServer.connected s.log ++ [new.m_connectionDetails] := by
      rw [hlog]
      simp [connectedAfter]
    obtain ⟨hindex, haccess'⟩ := h.slots hnow new hslot harray hindex fun _ => by
      rw [haccess]
      exact UInt64.le_refl now
    refine ⟨⟨hindex, haccess', ?_, ?_⟩, by simp [period, hexpire], ?_⟩
    · rw [hclients]
      exact List.Nodup.append h.nodup (List.nodup_singleton _)
        (List.disjoint_singleton.mpr hfresh)
    · intro d
      rw [hclients, hlease, List.mem_append, List.mem_singleton]
      by_cases hself : d = new.m_connectionDetails
      · subst hself
        simp
      · rw [Leases.renew_of_ne _ hself, or_iff_left hself]
        exact h.clients d
    · have hdrop : t.log.drop s.log.length = [.onConnect new.extension.host
          new.m_connectionDetails, .onBytesReceived source new.m_connectionDetails] := by
        rw [hlog]
        simp
      rw [hlease, hdrop]
      simp [List.filterMap_cons, heardIn, hclients, Leases.after, haccess]

/-! ## §4 The expiry timer -/

/-- The comparison of `onTimer`, for a client that was not heard of later than now. -/
theorem expired_eq_false_iff {s : UdpServer} {connData : ConnectionData UdpConnectionData}
    {now : UInt64} (hused : connData.m_isUsed = true)
    (haccess : connData.extension.m_lastAccessTimeMillis ≤ now) :
    s.expired connData now = false ↔
      now.toNat < connData.extension.m_lastAccessTimeMillis.toNat + s.period := by
  have hle := UInt64.le_iff_toNat_le.mp haccess
  simp only [expired, hused, Bool.true_and, decide_eq_false_iff_not, period,
    UInt64.le_iff_toNat_le, UInt64.toNat_sub_of_le _ _ haccess]
  omega

/-- The client in a slot is the only one with its index. -/
theorem lease_in_slot {s : UdpServer} {i : Nat} {connData : ConnectionData UdpConnectionData}
    (hslot : s.server.m_connDataArray[i]? = some connData) {d : ConnectionDetails}
    (hd : d.m_connIndex = i) {time : Nat} (hheld : s.lease d = some time) :
    connData.m_isUsed = true ∧ connData.m_connectionDetails = d ∧
      connData.extension.m_lastAccessTimeMillis.toNat = time := by
  obtain ⟨c, hc, hrest⟩ := lease_eq_some_iff.mp hheld
  rw [hd, hslot] at hc
  obtain rfl := Option.some.inj hc
  exact hrest

/-- A client that is given up holds no lease, and the others keep theirs. -/
theorem Settled.disconnected {s t : UdpServer} {now : UInt64} (h : s.Settled now) {i : Nat}
    {connData : ConnectionData UdpConnectionData} {host : SockaddrIn}
    (hslot : s.server.m_connDataArray[i]? = some connData)
    (harray : t.server.m_connDataArray = s.server.m_connDataArray.set i (unused connData))
    (hlog : t.log = s.log ++ [.onDisconnect host connData.m_connectionDetails]) :
    t.Settled now ∧ ∀ d, t.lease d = if d.m_connIndex = i then none else s.lease d := by
  obtain ⟨hindex, haccess⟩ := h.slots (UInt64.le_refl now) _ hslot harray rfl nofun
  have hlease : ∀ d, t.lease d = if d.m_connIndex = i then none else s.lease d := by
    intro d
    rcases slot_cases hslot harray d.m_connIndex with ⟨hd, hat⟩ | ⟨hd, hat⟩
    · rw [lease_of_slot hat, if_pos hd]
      exact if_neg fun ⟨hused, _⟩ => Bool.false_ne_true hused
    · rw [lease_congr hat, if_neg hd]
  have hclients : connected t.log = (connected s.log).erase connData.m_connectionDetails := by
    rw [hlog]
    simp [connectedAfter]
  refine ⟨⟨hindex, haccess, ?_, ?_⟩, hlease⟩
  · rw [hclients]
    exact h.nodup.erase _
  · intro d
    rw [hclients, h.nodup.mem_erase_iff, h.clients, hlease]
    by_cases hd : d.m_connIndex = i
    · rw [if_pos hd]
      refine iff_of_false ?_ Bool.false_ne_true
      rintro ⟨hne, hheld⟩
      obtain ⟨time, htime⟩ := Option.isSome_iff_exists.mp hheld
      exact hne (lease_in_slot hslot hd htime).2.1.symm
    · rw [if_neg hd, and_iff_right]
      intro heq
      exact hd (heq ▸ h.index i connData hslot)

/-- **One iteration of `onTimer`** sweeps the lease of the client in the slot. -/
theorem Settled.expireSlot {s : UdpServer} {now : UInt64} (h : s.Settled now) (index : Nat) :
    (UdpServer.expireSlot now s index).Settled now ∧
      (UdpServer.expireSlot now s index).period = s.period ∧
      ∀ d, (UdpServer.expireSlot now s index).lease d =
        if d.m_connIndex = index then s.lease.sweep s.period now.toNat d else s.lease d := by
  unfold UdpServer.expireSlot
  cases hslot : s.server.m_connDataArray[index]? with
  | none =>
    -- no such slot, and no lease either
    refine ⟨h, rfl, fun d => ?_⟩
    by_cases hd : d.m_connIndex = index
    · have hnone : s.lease d = none := by simp [lease, hd, hslot]
      simp [Leases.sweep, hnone]
    · exact (if_neg hd).symm
  | some connData =>
    dsimp only
    -- whether the client in the slot survives the sweep
    have hsweep : ∀ d, d.m_connIndex = index → ∀ time, s.lease d = some time →
        (now.toNat < time + s.period ↔ s.expired connData now = false) := by
      intro d hd time hheld
      obtain ⟨hused, -, rfl⟩ := lease_in_slot hslot hd hheld
      exact (expired_eq_false_iff hused (h.access index connData hslot hused)).symm
    cases hexpired : s.expired connData now with
    -- the sweep passes over the slot
    | false =>
      refine ⟨h, rfl, fun d => ?_⟩
      by_cases hd : d.m_connIndex = index
      · apply Option.ext
        intro time
        simp only [Bool.false_eq_true, if_false, if_pos hd, Leases.sweep_eq_some_iff]
        exact ⟨fun hheld => ⟨hheld, (hsweep d hd time hheld).mpr hexpired⟩, And.left⟩
      · exact (if_neg hd).symm
    -- the slot is freed, and with it the leases of its clients
    | true =>
      rw [if_pos rfl]
      obtain ⟨hsettled, hlease⟩ := h.disconnected (t := { s with
        server := s.server.setSlot index (unused connData)
        m_connectionMap := s.m_connectionMap.removeAt connData.extension.m_entryId
        log := s.log ++ [.onDisconnect connData.extension.host connData.m_connectionDetails] })
        hslot rfl rfl
      refine ⟨hsettled, rfl, fun d => (hlease d).trans ?_⟩
      by_cases hd : d.m_connIndex = index
      · rw [if_pos hd, if_pos hd]
        apply Eq.symm
        apply Option.eq_none_iff_forall_ne_some.mpr
        intro time hheld
        obtain ⟨hold, htime⟩ := Leases.sweep_eq_some_iff.mp hheld
        rw [(hsweep d hd time hold).mp htime] at hexpired
        cases hexpired
      · rw [if_neg hd, if_neg hd]

/-- The loop of `onTimer` over some slots. -/
theorem Settled.expireSlots {now : UInt64} (indices : List Nat) :
    ∀ {s : UdpServer}, s.Settled now →
      (indices.foldl (UdpServer.expireSlot now) s).Settled now ∧
      (indices.foldl (UdpServer.expireSlot now) s).period = s.period ∧
      ∀ d, (indices.foldl (UdpServer.expireSlot now) s).lease d =
        if d.m_connIndex ∈ indices then s.lease.sweep s.period now.toNat d else s.lease d := by
  induction indices with
  | nil => exact fun h => ⟨h, rfl, fun d => (if_neg List.not_mem_nil).symm⟩
  | cons index rest ih =>
    intro s h
    obtain ⟨hslot, hperiod, hlease⟩ := h.expireSlot index
    obtain ⟨hrest, hperiod', hlease'⟩ := ih hslot
    refine ⟨hrest, hperiod'.trans hperiod, fun d => (hlease' d).trans ?_⟩
    rw [hperiod]
    by_cases hd : d.m_connIndex = index
    · have hmem : d.m_connIndex ∈ index :: rest := hd ▸ List.mem_cons_self
      have hswept : (UdpServer.expireSlot now s index).lease d =
          s.lease.sweep s.period now.toNat d := (hlease d).trans (if_pos hd)
      rw [Leases.sweep_of_swept hswept, ite_self, hswept, if_pos hmem]
    · have hkept : (UdpServer.expireSlot now s index).lease d = s.lease d := by
        rw [hlease d, if_neg hd]
      have hmem : d.m_connIndex ∈ index :: rest ↔ d.m_connIndex ∈ rest := by
        rw [List.mem_cons, or_iff_right hd]
      simp only [Leases.sweep, hkept, hmem]

/-- **A tick of the timer** sweeps the leases. -/
theorem Settled.onTimer {s : UdpServer} {now : UInt64} (h : s.Settled now) :
    (s.onTimer now).Settled now ∧ (s.onTimer now).period = s.period ∧
      (s.onTimer now).lease = s.lease.sweep s.period now.toNat := by
  obtain ⟨hsettled, hperiod, hlease⟩ :=
    h.expireSlots (List.range s.server.m_connDataArray.length)
  refine ⟨hsettled, hperiod, funext fun d => (hlease d).trans ?_⟩
  by_cases hd : d.m_connIndex < s.server.m_connDataArray.length
  · exact if_pos (List.mem_range.mpr hd)
  · -- there is no such slot
    have hnone : s.lease d = none := by simp [lease, List.getElem?_eq_none (Nat.le_of_not_lt hd)]
    simp [Leases.sweep, hnone]

/-! ## §5 Runs -/

/-- The server, the time of the last event, and what has happened to the leases. -/
structure Observed where
  server : UdpServer
  clock : UInt64
  heard : List (LeaseEvent ConnectionDetails)
  deriving DecidableEq, Repr

/-- The time of an event. -/
def Event.now : Event → UInt64
  | .recv _ _ now | .timer now => now

namespace Observed

/-- The server after `initialize`. -/
def start (maxConnections : UInt32) (clientExpireSeconds garbage : UInt64)
    (blank : UdpConnectionData) : Observed :=
  ⟨.start maxConnections clientExpireSeconds garbage blank, 0, []⟩

/-- One event, observed. -/
def step (o : Observed) (e : Event) : Except Fault Observed := do
  let server ← o.server.step e
  .ok ⟨server, e.now, o.heard ++ heardOf o.server server e⟩

/-- The time does not go back, and an address comes only with a datagram. -/
def Steady (o : Observed) (e : Event) : Prop :=
  o.clock ≤ e.now ∧ match e with
    | .recv nread (some _) _ => 0 ≤ nread
    | .recv _ none _ | .timer _ => True

instance (o : Observed) : ∀ e, Decidable (o.Steady e)
  | .recv _ (some _) _ | .recv _ none _ | .timer _ => inferInstanceAs (Decidable (_ ∧ _))

/-- **The invariant**: the slots in use are the leases that are held. -/
structure Tracked (period : Nat) (o : Observed) : Prop where
  settled : o.server.Settled o.clock
  expires : o.server.period = period
  leases : o.server.lease = Leases.run period o.heard

theorem start_tracked (maxConnections : UInt32) (clientExpireSeconds garbage : UInt64)
    (blank : UdpConnectionData) :
    Tracked (clientExpireSeconds * 1000).toNat
      (start maxConnections clientExpireSeconds garbage blank) := by
  have hinv := start_inv maxConnections clientExpireSeconds garbage blank
  have hunused : ∀ (i : Nat) (connData : ConnectionData UdpConnectionData),
      (start maxConnections clientExpireSeconds garbage blank).server.server.m_connDataArray[i]? =
        some connData → connData.m_isUsed = false := by
    intro i connData h
    simp only [start, UdpServer.start, DataServer.initConnDataArray, List.getElem?_map,
      Option.map_eq_some_iff] at h
    obtain ⟨j, -, rfl⟩ := h
    rfl
  have hnone : ∀ d, (UdpServer.start maxConnections clientExpireSeconds garbage blank).lease d =
      none := by
    intro d
    apply Option.eq_none_iff_forall_ne_some.mpr
    intro time hheld
    obtain ⟨connData, hslot, hused, -⟩ := lease_eq_some_iff.mp hheld
    rw [hunused _ _ hslot] at hused
    cases hused
  refine ⟨⟨hinv.index, ?_, List.nodup_nil, ?_⟩, rfl, funext hnone⟩
  · intro i connData hslot hused
    rw [hunused i connData hslot] at hused
    cases hused
  · intro d
    rw [show (start maxConnections clientExpireSeconds garbage blank).server.lease d = none from
      hnone d]
    exact iff_of_false List.not_mem_nil Bool.false_ne_true

/-- **What an event is**: nothing was received, a datagram was, or the timer ticks. -/
theorem step_cases {o o' : Observed} {e : Event} (he : o.Steady e) (h : o.step e = .ok o') :
    o'.clock = e.now ∧ o'.heard = o.heard ++ heardOf o.server o'.server e ∧
      ((∃ addr now, e = .recv 0 addr now ∧ o'.server = o.server) ∨
        (∃ nread source now, e = .recv nread (some source) now ∧ 0 < nread ∧
          o.server.onRecv nread (some source) now = .ok o'.server) ∨
        ∃ now, e = .timer now ∧ o'.server = o.server.onTimer now) := by
  unfold Observed.step at h
  cases hserver : o.server.step e with
  | error fault =>
    rw [hserver] at h
    cases h
  | ok server =>
    rw [hserver] at h
    cases h
    refine ⟨rfl, rfl, ?_⟩
    cases e with
    | timer now =>
      cases hserver
      exact .inr (.inr ⟨now, rfl, rfl⟩)
    | recv nread addr now =>
      by_cases hzero : nread = 0
      · subst hzero
        cases hserver
        exact .inl ⟨addr, now, rfl, rfl⟩
      · cases addr with
        | none =>
          simp only [UdpServer.step, onRecv, if_neg hzero] at hserver
          cases hserver
        | some source =>
          exact .inr (.inl ⟨nread, source, now, rfl, Int.lt_iff_le_and_ne.mpr
            ⟨he.2, Ne.symm hzero⟩, hserver⟩)

/-- **One event** keeps the invariant. -/
theorem Tracked.step {period : Nat} {o o' : Observed} {e : Event} (h : o.Tracked period)
    (he : o.Steady e) (hstep : o.step e = .ok o') : o'.Tracked period := by
  obtain ⟨hclock, hheard, hserver⟩ := step_cases he hstep
  have hserved : o'.server.Settled e.now ∧ o'.server.period = o.server.period ∧
      o'.server.lease = (heardOf o.server o'.server e).foldl (Leases.after o.server.period)
        o.server.lease := by
    rcases hserver with ⟨addr, now, rfl, hsame⟩ | ⟨nread, source, now, rfl, hpos, hrecv⟩ |
      ⟨now, rfl, htick⟩
    · rw [hsame]
      exact ⟨h.settled.later he.1, rfl, by simp [heardOf]⟩
    · exact h.settled.received he.1 (onRecv_cases hpos hrecv)
    · rw [htick]
      exact (h.settled.later he.1).onTimer
  obtain ⟨hsettled, hperiod, hlease⟩ := hserved
  refine ⟨hclock ▸ hsettled, hperiod.trans h.expires, ?_⟩
  rw [hlease, hheard, Leases.run_append, h.leases, h.expires]

/-- **Clients hold leases.**  In every run the connected clients are those that were heard of less
    than the expiry period before each later tick of the timer: a client is given up at the first
    tick that comes too late for its last datagram, and at no other time. -/
theorem clients_hold_leases (maxConnections : UInt32) (clientExpireSeconds garbage : UInt64)
    (blank : UdpConnectionData) (events : List Event) (o : Observed)
    (hrun : RunsWith (fun o e o' => step o e = .ok o') Steady
      (start maxConnections clientExpireSeconds garbage blank) events o) (d : ConnectionDetails) :
    d ∈ connected o.server.log ↔ ∃ before time later,
      o.heard = before ++ .renew d time :: later ∧ (∀ again, .renew d again ∉ later) ∧
      ∀ tick, .sweep tick ∈ later → tick < time + (clientExpireSeconds * 1000).toNat := by
  have htracked : o.Tracked (clientExpireSeconds * 1000).toNat :=
    hrun.invariant (Tracked (clientExpireSeconds * 1000).toNat)
      (fun _ _ _ h he hstep => h.step he hstep)
      (start_tracked maxConnections clientExpireSeconds garbage blank)
  rw [htracked.settled.clients, htracked.leases, Option.isSome_iff_exists]
  constructor
  · intro ⟨time, hheld⟩
    obtain ⟨before, later, heq, hlater⟩ := Leases.run_eq_some_iff.mp hheld
    exact ⟨before, time, later, heq, fun again hmem => hlater _ hmem rfl,
      fun tick hmem => hlater _ hmem⟩
  · intro ⟨before, time, later, heq, hagain, htick⟩
    refine ⟨time, Leases.run_eq_some_iff.mpr ⟨before, later, heq, fun e hmem => ?_⟩⟩
    cases e with
    | renew holder now =>
      intro hself
      exact hagain now (hself ▸ hmem)
    | sweep now => exact htick now hmem

/-- Another client, on the same host. -/
def neighbour : SockaddrIn := ⟨0x0100007f, 6⟩

/-- A client comes back after it has expired.  Its next datagram is taken for one of its neighbour,
    so at the last tick the client is given up and the neighbour is not. -/
def misroutedClient : List Event :=
  returningClient ++ [.recv 10 (some neighbour) 60002, .recv 10 (some client) 100000,
    .timer 120002]

theorem clients_hold_leases_misrouted : ∃ o,
    RunsWith (fun o e o' => step o e = .ok o') Steady (start 2 60 0 ⟨0, 0, ⟨0, 0⟩⟩)
      misroutedClient o ∧
    connected o.server.log = [⟨2, 1⟩] ∧ live o.server.log client = none ∧
    ∀ d, d ∈ connected o.server.log ↔ ∃ before time later,
      o.heard = before ++ .renew d time :: later ∧ (∀ again, .renew d again ∉ later) ∧
      ∀ tick, .sweep tick ∈ later → tick < time + 60000 := by
  have hcomputed : (runWhere (fun o e => (step o e).toOption) Steady
      (start 2 60 0 ⟨0, 0, ⟨0, 0⟩⟩) misroutedClient).map
      (fun o => (connected o.server.log, live o.server.log client)) = some ([⟨2, 1⟩], none) := by
    decide +kernel
  obtain ⟨o, ho, hclients⟩ := Option.map_eq_some_iff.mp hcomputed
  have hrun := runsWith_of_runWhere_except ho
  exact ⟨o, hrun, congrArg Prod.fst hclients, congrArg Prod.snd hclients,
    clients_hold_leases 2 60 0 ⟨0, 0, ⟨0, 0⟩⟩ misroutedClient o hrun⟩

end Observed

/-! ## §6 Room for new clients -/

/-- A notification that opens or closes a connection. -/
def opensOrCloses : UdpNotification → Bool
  | .onConnect _ _ | .onDisconnect _ _ => true
  | .onReadError _ _ | .onBytesReceived _ _ => false

/-- The server as if its listener had been given no datagrams, so that it does not matter to which
    connection they went. -/
def undelivered (s : UdpServer) : UdpServer := { s with log := s.log.filter opensOrCloses }

theorem live_filter (log : List UdpNotification) (addr : SockaddrIn) :
    live (log.filter opensOrCloses) addr = live log addr := by
  rw [live, live, List.foldl_filter]
  congr 1
  funext details n
  cases n with
  | onConnect _ _ | onDisconnect _ _ => rfl
  | onReadError _ _ | onBytesReceived _ _ => rfl

/-- What the invariant says of slots, map and connections does not depend on the datagrams. -/
theorem Inv.undelivered {s : UdpServer} (h : s.Inv) : s.undelivered.Inv := by
  refine ⟨h.found, h.index, fun i connData hslot hused => ?_, h.entries, fun addr d hlive => ?_, ?_⟩
  · have hconn := h.used i connData hslot hused
    exact ⟨hconn.key, hconn.entry, hconn.id, (live_filter _ _).trans hconn.live⟩
  · exact h.live addr d ((live_filter _ _).symm.trans hlive)
  · intro before source d after hlog
    have hmem : UdpNotification.onBytesReceived source d ∈ s.undelivered.log := by
      rw [hlog]
      simp
    simp [UdpServer.undelivered, opensOrCloses] at hmem

@[simp] theorem opensOrCloses_onBytesReceived (source : SockaddrIn) (d : ConnectionDetails) :
    opensOrCloses (.onBytesReceived source d) = false := rfl

@[simp] theorem opensOrCloses_onConnect (host : SockaddrIn) (d : ConnectionDetails) :
    opensOrCloses (.onConnect host d) = true := rfl

@[simp] theorem opensOrCloses_onDisconnect (host : SockaddrIn) (d : ConnectionDetails) :
    opensOrCloses (.onDisconnect host d) = true := rfl

/-- A datagram may be given to any slot. -/
theorem Inv.deliver {s : UdpServer} (h : s.undelivered.Inv) {i : Nat}
    {connData : ConnectionData UdpConnectionData} (now : UInt64)
    (hslot : s.server.m_connDataArray[i]? = some connData) :
    Inv { s.undelivered with server := s.server.setSlot i (accessed connData now) } := by
  cases hused : connData.m_isUsed with
  | true =>
    have hreceived := (h.received hslot hused now (t := { s.undelivered with
      server := s.server.setSlot i (accessed connData now)
      log := s.undelivered.log ++
        [.onBytesReceived connData.extension.host connData.m_connectionDetails] })
      rfl rfl rfl).undelivered
    simpa [UdpServer.undelivered, List.filter_append] using hreceived
  | false =>
    exact h.setSlot_unused (t := { s.undelivered with
      server := s.server.setSlot i (accessed connData now) }) hslot hused (accessed connData now)
      hused (h.index i connData hslot) rfl h.found (fun _ _ => rfl) rfl

/-- The expiry timer does not read what the listener was told. -/
theorem expireSlot_undelivered (t : UdpServer) (now : UInt64) (index : Nat) :
    UdpServer.expireSlot now t.undelivered index =
      (UdpServer.expireSlot now t index).undelivered := by
  have hexpired : ∀ connData, t.undelivered.expired connData now = t.expired connData now :=
    fun _ => rfl
  unfold UdpServer.expireSlot
  rw [show t.undelivered.server = t.server from rfl]
  cases t.server.m_connDataArray[index]? with
  | none => rfl
  | some connData =>
    simp only [hexpired]
    cases t.expired connData now with
    | false => rfl
    | true => simp [undelivered, List.filter_append, List.filter_cons]

theorem onTimer_undelivered (s : UdpServer) (now : UInt64) :
    s.undelivered.onTimer now = (s.onTimer now).undelivered :=
  List.foldl_hom UdpServer.undelivered fun t index => expireSlot_undelivered t now index

/-- A new client is taken in as if nothing had been delivered. -/
theorem onNewClient_undelivered {s t t' : UdpServer} {addr : SockaddrIn} {nread : Int}
    (hpos : 0 < nread) {now : UInt64} {grabbed : Option (Nat × DataServer UdpConnectionData)}
    (ht : s.onNewClient addr nread now grabbed = .ok t)
    (ht' : s.undelivered.onNewClient addr nread now grabbed = .ok t') :
    t.undelivered = t'.undelivered := by
  cases grabbed with
  | none =>
    cases ht
    cases ht'
    simp [undelivered]
  | some grabbed =>
    obtain ⟨index, server⟩ := grabbed
    simp only [onNewClient] at ht ht'
    cases hslot : server.m_connDataArray[index]? with
    | none =>
      rw [hslot] at ht
      cases ht
    | some connData =>
      rw [hslot] at ht ht'
      cases ht
      cases ht'
      rw [show s.undelivered.m_connectionMap = s.m_connectionMap from rfl]
      unfold addClient
      dsimp only
      split
      · simp [undelivered]
      · simp [undelivered, dispatch, hpos, onRead_pos hpos, List.filter_cons]

/-- **One datagram** keeps slots, map and connections in correspondence, also if it is given to a
    wrong slot. -/
theorem Inv.recv {s t : UdpServer} (h : s.undelivered.Inv) {nread : Int} (hpos : 0 < nread)
    {source : SockaddrIn} (hkey : source.ipAddr ≠ 0) {now : UInt64}
    (hrecv : s.onRecv nread (some source) now = .ok t) : t.undelivered.Inv := by
  simp only [onRecv, if_neg (Int.ne_of_gt hpos)] at hrecv
  cases hget : s.m_connectionMap.getItem source.ipAddr with
  | none =>
    rw [hget] at hrecv
    obtain ⟨t', ht', hinv⟩ := h.onNewClient hkey hget hpos now
    rw [onNewClient_undelivered hpos hrecv ht']
    exact hinv.undelivered
  | some found =>
    obtain ⟨entryId, connectionIndex⟩ := found
    rw [hget, onClient] at hrecv
    cases hslot : s.server.m_connDataArray[connectionIndex.toNat]? with
    | none =>
      simp only [hslot] at hrecv
      cases hrecv
    | some connData =>
      simp only [hslot] at hrecv
      cases hrecv
      simpa [UdpServer.undelivered, dispatch, hpos, onRead_pos hpos, List.filter_append,
        List.filter_cons] using h.deliver now hslot

theorem map_size_setItem (map : ConcurrentHashTable UInt64) (key value : UInt64) :
    (map.setItem key value).2.m_size = map.m_size := by
  unfold ConcurrentHashTable.setItem
  split
  · rfl
  · exact ConcurrentHashTable.m_size_store ..

theorem map_size_removeAt (map : ConcurrentHashTable UInt64) (entryId : UInt32) :
    (map.removeAt entryId).m_size = map.m_size := by
  unfold ConcurrentHashTable.removeAt
  split
  · rfl
  · exact ConcurrentHashTable.m_size_store ..

/-- What is known of the map in every state: it has four entries for each slot. -/
structure Mapped (s : UdpServer) (maxConnections : Nat) : Prop where
  inv : s.undelivered.Inv
  sized : s.m_connectionMap.Sized
  factor : maxConnections * 4 ≤ s.m_connectionMap.m_size
  slots : s.server.m_connDataArray.length = maxConnections

section Room

variable {s t : UdpServer} {maxConnections : Nat}

/-- A step that keeps the sizes. -/
theorem Mapped.resized (h : s.Mapped maxConnections) (hinv : t.undelivered.Inv)
    (hmap : t.m_connectionMap.m_size = s.m_connectionMap.m_size)
    (hslots : t.server.m_connDataArray.length = s.server.m_connDataArray.length) :
    t.Mapped maxConnections := by
  refine ⟨hinv, ?_, hmap ▸ h.factor, hslots.trans h.slots⟩
  obtain ⟨k, hk, hsize⟩ := h.sized
  exact ⟨k, hk, hmap.trans hsize⟩

theorem Mapped.received (h : s.Mapped maxConnections) {nread : Int} (hpos : 0 < nread)
    {source : SockaddrIn} (hkey : source.ipAddr ≠ 0) {now : UInt64}
    (hrecv : s.onRecv nread (some source) now = .ok t) : t.Mapped maxConnections := by
  have hinv := h.inv.recv hpos hkey hrecv
  cases onRecv_cases hpos hrecv with
  | turnedAway _ _ => exact h
  | known index connData _ _ => exact h.resized hinv rfl (by simp [DataServer.setSlot])
  | givenBack _ _ _ _ _ _ _ _ _ _ _ harray hmap _ =>
    exact h.resized hinv (by rw [hmap, map_size_setItem]) (by simp [harray])
  | connected _ _ _ _ _ _ _ _ _ _ _ _ harray hmap _ =>
    exact h.resized hinv (by rw [hmap, map_size_setItem]) (by simp [harray])

theorem Mapped.onTimer (h : s.Mapped maxConnections) (now : UInt64) :
    (s.onTimer now).Mapped maxConnections := by
  have hsizes : ∀ (indices : List Nat) (t : UdpServer),
      (indices.foldl (UdpServer.expireSlot now) t).m_connectionMap.m_size =
        t.m_connectionMap.m_size ∧
      (indices.foldl (UdpServer.expireSlot now) t).server.m_connDataArray.length =
        t.server.m_connDataArray.length := by
    intro indices
    induction indices with
    | nil => exact fun t => ⟨rfl, rfl⟩
    | cons index rest ih =>
      intro t
      obtain ⟨hmap, hslots⟩ := ih (UdpServer.expireSlot now t index)
      rw [List.foldl_cons, hmap, hslots]
      unfold UdpServer.expireSlot
      split
      · exact ⟨rfl, rfl⟩
      split
      · exact ⟨map_size_removeAt .., by simp [DataServer.setSlot]⟩
      · exact ⟨rfl, rfl⟩
  obtain ⟨hmap, hslots⟩ := hsizes (List.range s.server.m_connDataArray.length) s
  exact h.resized (onTimer_undelivered s now ▸ h.inv.onTimer now) hmap hslots

/-- Every entry of the map belongs to a slot, so there are more entries than can be in use. -/
theorem Mapped.not_full (h : s.Mapped maxConnections) {key : UInt64}
    (hunknown : s.m_connectionMap.getItem key = none) (value : UInt64) :
    (s.m_connectionMap.setItem key value).1 ≠ COMMUTIL_INVALID_CHT_ENTRY_ID := by
  intro hfull
  have hnonzero := (h.sized.setItem_refuses_iff hunknown value).mp hfull
  have hsub : List.range s.m_connectionMap.m_size ⊆
      s.server.m_connDataArray.map fun connData => connData.extension.m_entryId.toNat := by
    intro e he
    obtain ⟨k, hk⟩ := ConcurrentHashTable.keyAt_of_lt (List.mem_range.mp he)
    have hkey : k ≠ 0 := fun heq => hnonzero e (heq ▸ hk)
    obtain ⟨entry, hentry, rfl⟩ := ConcurrentHashTable.keyAt_eq_some.mp hk
    -- the entry is found under its key, and is the one that a slot remembers
    have htoNat : (UInt32.ofNat e).toNat = e := by
      have hlt := List.mem_range.mp he
      have hle := h.sized.le
      simp only [UInt32.toNat_ofNat']
      omega
    have hget := h.inv.found (UInt32.ofNat e) (h.sized.ne_invalid (htoNat.symm ▸ hk)) entry
      (htoNat.symm ▸ hentry) hkey
    obtain ⟨i, connData, hslot, hused, hhost⟩ := h.inv.entries _ _ hkey hget
    have hconn := (h.inv.used i connData hslot hused).entry
    rw [hhost, hget] at hconn
    have hid := congrArg Prod.fst (Option.some.inj hconn)
    refine List.mem_map.mpr ⟨connData, List.mem_of_getElem? hslot, ?_⟩
    rw [← htoNat]
    exact congrArg UInt32.toNat hid.symm
  have hle := (List.Nodup.subperm List.nodup_range hsub).length_le
  rw [List.length_range, List.length_map, h.slots] at hle
  have hfactor := h.factor
  have hpos := h.sized.pos
  omega

end Room

/-- The connected clients are those in the slots in use. -/
theorem Settled.clients_perm {s : UdpServer} {clock : UInt64} (h : s.Settled clock) :
    (connected s.log).Perm
      ((s.server.m_connDataArray.filter (·.m_isUsed)).map (·.m_connectionDetails)) := by
  have hindices : (s.server.m_connDataArray.map (·.m_connectionDetails)).map
      ConnectionDetails.m_connIndex = List.range s.server.m_connDataArray.length := by
    apply List.ext_getElem
    · simp
    · intro i hi _
      have hlt : i < s.server.m_connDataArray.length := by simpa using hi
      simpa using h.index i _ (List.getElem?_eq_getElem hlt)
  have hnodup : (s.server.m_connDataArray.map (·.m_connectionDetails)).Nodup :=
    .of_map ConnectionDetails.m_connIndex (hindices ▸ List.nodup_range)
  rw [List.perm_ext_iff_of_nodup h.nodup (hnodup.sublist (List.filter_sublist.map _))]
  intro d
  rw [h.clients, Option.isSome_iff_exists]
  constructor
  · intro ⟨time, hheld⟩
    obtain ⟨connData, hslot, hused, hd, -⟩ := lease_eq_some_iff.mp hheld
    exact List.mem_map.mpr
      ⟨connData, List.mem_filter.mpr ⟨List.mem_of_getElem? hslot, hused⟩, hd⟩
  · intro hmem
    obtain ⟨connData, hfilter, rfl⟩ := List.mem_map.mp hmem
    obtain ⟨harray, hused⟩ := List.mem_filter.mp hfilter
    obtain ⟨i, hslot⟩ := List.mem_iff_getElem?.mp harray
    exact ⟨_, lease_eq_some_iff.mpr
      ⟨connData, (h.index i connData hslot).symm ▸ hslot, hused, rfl, rfl⟩⟩

/-- As many clients are connected as slots are in use. -/
theorem Settled.length_clients {s : UdpServer} {clock : UInt64} (h : s.Settled clock) :
    (connected s.log).length = s.server.m_connDataArray.countP (·.m_isUsed) := by
  rw [h.clients_perm.length_eq, List.length_map, List.countP_eq_length_filter]

/-- A datagram of a client comes with its address, which is not the one that the map takes for a
    vacant entry. -/
def Addressed : Event → Prop
  | .recv nread (some source) _ => nread ≠ 0 → source.ipAddr ≠ 0
  | .recv _ none _ | .timer _ => True

instance : ∀ e, Decidable (Addressed e)
  | .recv _ (some _) _ => inferInstanceAs (Decidable (_ → _))
  | .recv _ none _ | .timer _ => .isTrue trivial

namespace Observed

theorem start_mapped {maxConnections : UInt32} (hmax : maxConnections.toNat * 4 ≤ 2 ^ 31)
    (clientExpireSeconds garbage : UInt64) (blank : UdpConnectionData) :
    (start maxConnections clientExpireSeconds garbage blank).server.Mapped
      maxConnections.toNat := by
  have hsize : (maxConnections * COMMUTIL_UDP_CONN_MAP_FACTOR).toNat =
      maxConnections.toNat * 4 := by
    rw [UInt32.toNat_mul]
    apply Nat.mod_eq_of_lt
    rw [show COMMUTIL_UDP_CONN_MAP_FACTOR.toNat = 4 from rfl]
    omega
  have hleast := ConcurrentHashTable.initTable_least (hsize ▸ hmax) garbage
  refine ⟨(start_inv maxConnections clientExpireSeconds garbage blank).undelivered,
    hleast.sized (hsize ▸ hmax), hsize ▸ hleast.le, ?_⟩
  simp [start, UdpServer.start, DataServer.initConnDataArray]

theorem step_mapped {maxConnections : Nat} {o o' : Observed} {e : Event}
    (h : o.server.Mapped maxConnections) (he : o.Steady e ∧ Addressed e)
    (hstep : o.step e = .ok o') : o'.server.Mapped maxConnections := by
  obtain ⟨-, -, hserver⟩ := step_cases he.1 hstep
  rcases hserver with ⟨addr, now, rfl, hsame⟩ | ⟨nread, source, now, rfl, hpos, hrecv⟩ |
    ⟨now, rfl, htick⟩
  · rw [hsame]
    exact h
  · exact h.received hpos (he.2 (Int.ne_of_gt hpos)) hrecv
  · rw [htick]
    exact h.onTimer now

/-- A client that is not in the map is taken in without a fault. -/
theorem onRecv_unknown {s : UdpServer} {nread : Int} (hpos : 0 < nread) {source : SockaddrIn}
    (hunknown : s.m_connectionMap.getItem source.ipAddr = none) (now : UInt64) :
    ∃ t, s.onRecv nread (some source) now = .ok t := by
  simp only [onRecv, if_neg (Int.ne_of_gt hpos), hunknown, onClient]
  cases hgrab : s.server.grabConnectionData with
  | none => exact ⟨s, rfl⟩
  | some grabbed =>
    obtain ⟨index, server⟩ := grabbed
    obtain ⟨connData, hslot, -, harray, -, -⟩ := DataServer.grabConnectionData_spec hgrab
    have hlt := (List.getElem?_eq_some_iff.mp hslot).1
    simp only [onNewClient, harray, List.getElem?_set_self hlt]
    exact ⟨_, rfl⟩

/-- **Room for new clients.**  However the datagrams of the others were routed, a client that is not
    connected is taken in by its first datagram, unless as many clients are connected as there are
    slots: the map, with `COMMUTIL_UDP_CONN_MAP_FACTOR` entries for each slot, is never full and
    takes every key that it does not hold. -/
theorem clients_turned_away_iff {maxConnections : UInt32}
    (hmax : maxConnections.toNat * 4 ≤ 2 ^ 31) (clientExpireSeconds garbage : UInt64)
    (blank : UdpConnectionData) (events : List Event) (o : Observed)
    (hrun : RunsWith (fun o e o' => step o e = .ok o') (fun o e => o.Steady e ∧ Addressed e)
      (start maxConnections clientExpireSeconds garbage blank) events o) :
    (connected o.server.log).length ≤ maxConnections.toNat ∧
    (∀ key value, o.server.m_connectionMap.getItem key = none →
      (o.server.m_connectionMap.setItem key value).1 ≠ COMMUTIL_INVALID_CHT_ENTRY_ID) ∧
    ∀ nread source now, 0 < nread → source.ipAddr ≠ 0 → live o.server.log source = none →
      ∃ o', o.step (.recv nread (some source) now) = .ok o' ∧
        (live o'.server.log source = none ↔
          (connected o.server.log).length = maxConnections.toNat) := by
  -- the invariant of the run
  obtain ⟨htracked, hmapped⟩ : o.Tracked (clientExpireSeconds * 1000).toNat ∧
      o.server.Mapped maxConnections.toNat := by
    apply hrun.invariant fun o => o.Tracked (clientExpireSeconds * 1000).toNat ∧
      o.server.Mapped maxConnections.toNat
    · exact fun _ _ _ h he hstep => ⟨h.1.step he.1 hstep, step_mapped h.2 he hstep⟩
    · exact ⟨start_tracked .., start_mapped hmax ..⟩
  have hcount := htracked.settled.length_clients
  rw [hcount, ← hmapped.slots]
  refine ⟨List.countP_le_length, fun key value hunknown => hmapped.not_full hunknown value,
    fun nread source now hpos hkey hnew => ?_⟩
  -- a client that is not connected has no entry in the map
  have hunknown : o.server.m_connectionMap.getItem source.ipAddr = none := by
    cases hget : o.server.m_connectionMap.getItem source.ipAddr with
    | none => rfl
    | some found =>
      obtain ⟨i, connData, -, -, hhost, hconn, -⟩ := hmapped.inv.slot_of_getItem hkey hget
      have hlive := hconn.live
      rw [hhost, undelivered, live_filter, hnew] at hlive
      cases hlive
  obtain ⟨t, hrecv⟩ := onRecv_unknown hpos hunknown now
  refine ⟨⟨t, now, o.heard ++ heardOf o.server t (.recv nread (some source) now)⟩, ?_, ?_⟩
  · simp only [step, UdpServer.step, hrecv]
    rfl
  rw [List.countP_eq_length]
  cases onRecv_cases hpos hrecv with
  -- all slots are in use exactly if the client is turned away
  | turnedAway _ hfull =>
    refine iff_of_true hnew fun connData hmem => ?_
    have hused := List.findIdx?_eq_none_iff.mp hfull connData hmem
    simpa using hused
  | known _ _ _ hknown => exact absurd hunknown hknown
  -- the map has room for every key
  | givenBack _ _ _ _ _ _ _ _ id hfull _ _ _ _ => exact absurd hfull (hmapped.not_full hunknown id)
  | connected index connData new hslot hvacant _ _ _ hhost _ _ _ _ _ hlog =>
    refine iff_of_false ?_ fun hall => ?_
    · have hlive : live t.log source = some new.m_connectionDetails := by
        rw [hlog, List.append_cons, live_concat, live_concat, hhost]
        exact if_pos rfl
      simp [hlive]
    · have hused := hall connData (List.mem_of_getElem? hslot)
      rw [hvacant] at hused
      cases hused

/-- The only slot is taken. -/
theorem clients_turned_away_iff_one_slot : ∃ o o' : Observed, connected o.server.log = [⟨0, 0⟩] ∧
    o.step (.recv 10 (some neighbour) 1) = .ok o' ∧ live o'.server.log neighbour = none := by
  have hcomputed : (runWhere (fun o e => (step o e).toOption)
      (fun o e => o.Steady e ∧ Addressed e) (start 1 60 0 ⟨0, 0, ⟨0, 0⟩⟩)
      [.recv 10 (some client) 0]).map
      (fun o => (connected o.server.log, live o.server.log neighbour)) =
      some ([⟨0, 0⟩], none) := by
    decide +kernel
  obtain ⟨o, ho, hclients⟩ := Option.map_eq_some_iff.mp hcomputed
  have hclient : connected o.server.log = [⟨0, 0⟩] := congrArg Prod.fst hclients
  obtain ⟨-, -, hnew⟩ := @clients_turned_away_iff 1 (by decide) 60 0
    ⟨0, 0, ⟨0, 0⟩⟩ _ o (runsWith_of_runWhere_except ho)
  obtain ⟨o', hstep, hiff⟩ := hnew 10 neighbour 1 (by decide) (by decide)
    (congrArg Prod.snd hclients)
  exact ⟨o, o', hclient, hstep, hiff.mpr (by rw [hclient]; rfl)⟩

end Observed

end UdpServer

end Commutil.Transport
