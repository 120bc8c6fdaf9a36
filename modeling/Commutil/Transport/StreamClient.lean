import Commutil.Basic
import Commutil.Library.Transitions

/-!
# Reconnecting a Stream Client

`data_stream_client.cpp`, and `onRead`, `onWrite` and `onClose` of `data_client.cpp`: what
the callbacks of a stream client do to its connected flag and to its stream.

A handler is given by what it changes in the client and by the actions it takes, in
order.  `StreamLife` puts the client beside its stream: whether it is open, and when a
connect was last attempted.

The connected flag is stored once, when a connect completes; no handler takes it back.
`reconnects_iff` says in which runs the client reconnects as it should.
-/

namespace Commutil.Transport

open Commutil.Library

/-! ## §1 The handlers -/

/-- What a handler does outside of the client. -/
inductive ClientAction where
  /-- `uv_timer_start` for the reconnect timer. -/
  | timerStart
  /-- A connect is issued. -/
  | startStreamTransport
  | readStart
  /-- `uv_close` of the transport handle. -/
  | close
  | setReady (status : Int)
  | onConnect (status : Int)
  | onDisconnect
  | onReadError (status : Int)
  | onBytesReceived (length : Nat)
  | onLoopRecv
  | onWriteError (status : Int)
  | onBytesSent (status : Int)
  deriving DecidableEq, Repr

/-- `class DataStreamClient`. -/
structure DataStreamClient where
  m_reconnectTimeoutMillis : UInt64
  m_isConnected : Bool
  m_lastConnectTimeMillis : UInt64
  deriving DecidableEq, Repr

namespace DataStreamClient

/-- The constructor. -/
def new (reconnectTimeoutMillis : UInt64) : DataStreamClient := ⟨reconnectTimeoutMillis, false, 0⟩

/-- `startTransport` at a time; the timer starts. -/
def startTransport (c : DataStreamClient) (currTimeMillis : UInt64) :
    List ClientAction × DataStreamClient :=
  ([.timerStart, .startStreamTransport], { c with m_lastConnectTimeMillis := currTimeMillis })

/-- `onConnect`, with the result of `uv_read_start`. -/
def onConnect (c : DataStreamClient) (status readStart : Int) :
    List ClientAction × DataStreamClient :=
  if status ≠ 0 then ([.setReady status, .onConnect status], c)
  else
    ([.readStart, .setReady readStart, .onConnect readStart],
      -- a client that cannot read does not count as connected
      if readStart < 0 then c else { c with m_isConnected := true })

/-- `DataClient::onRead`, with a loop listener installed; no handler of a read changes the client. -/
def onRead (nread : Int) : List ClientAction :=
  if nread < 0 then [.onReadError nread, .close]
  else if nread = 0 then []
  else [.onBytesReceived nread.toNat, .onLoopRecv]

/-- `DataClient::onWrite`; no handler of a write changes the client. -/
def onWrite (status : Int) : List ClientAction :=
  if status < 0 then [.onWriteError status, .close]
  else [.onBytesSent status]

/-- `DataClient::onClose`. -/
def onClose : List ClientAction := [.onDisconnect]

/-- `onTimer` at a time. -/
def onTimer (c : DataStreamClient) (currTimeMillis : UInt64) :
    List ClientAction × DataStreamClient :=
  -- the flag is all that the timer looks at
  if c.m_isConnected = false then
    if c.m_reconnectTimeoutMillis ≤ currTimeMillis - c.m_lastConnectTimeMillis then
      -- issue reconnect
      ([.startStreamTransport], { c with m_lastConnectTimeMillis := currTimeMillis })
    else ([], c)
  else ([], c)

/-- With a clock that does not go back, a tick issues a connect exactly if the flag is off and the
    timeout has passed. -/
theorem issues_iff (c : DataStreamClient) {currTimeMillis : UInt64}
    (hclock : c.m_lastConnectTimeMillis ≤ currTimeMillis) :
    .startStreamTransport ∈ (c.onTimer currTimeMillis).1 ↔
      c.m_isConnected = false ∧ c.m_lastConnectTimeMillis.toNat +
        c.m_reconnectTimeoutMillis.toNat ≤ currTimeMillis.toNat := by
  -- the difference does not wrap, since the clock does not go back
  have htimeout : c.m_reconnectTimeoutMillis ≤ currTimeMillis - c.m_lastConnectTimeMillis ↔
      c.m_lastConnectTimeMillis.toNat + c.m_reconnectTimeoutMillis.toNat ≤
        currTimeMillis.toNat := by
    rw [UInt64.le_iff_toNat_le, UInt64.toNat_sub_of_le _ _ hclock]
    have := UInt64.le_iff_toNat_le.mp hclock
    omega
  unfold onTimer
  split
  · rename_i hflag
    split
    · rename_i hpassed
      exact iff_of_true (by simp) ⟨hflag, htimeout.mp hpassed⟩
    · rename_i hearly
      exact iff_of_false (by simp) (fun h => hearly (htimeout.mpr h.2))
  · rename_i hflag
    exact iff_of_false (by simp) (fun h => hflag h.1)

end DataStreamClient

/-! ## §2 The client and its stream -/

/-- A stream client in a run. -/
structure StreamLife where
  client : DataStreamClient
  /-- The stream is connected and not closed. -/
  isOpen : Bool
  /-- The time of the last call of `startStreamTransport`. -/
  lastAttempt : UInt64
  /-- The time of the last timer tick. -/
  clock : UInt64
  deriving DecidableEq, Repr

/-- What the loop reports to the client. -/
inductive StreamEvent where
  /-- A connect completes, and `uv_read_start` returns. -/
  | connect (status readStart : Int)
  | read (nread : Int)
  | write (status : Int)
  | closed
  /-- The reconnect timer fires; a connect that it issues may fail at once, which closes the
      handle. -/
  | tick (currTimeMillis : UInt64) (fails : Bool)
  deriving DecidableEq, Repr

namespace StreamLife

/-- A client that was started at a time. -/
def start (reconnectTimeoutMillis startMillis : UInt64) : StreamLife where
  client := ((DataStreamClient.new reconnectTimeoutMillis).startTransport startMillis).2
  isOpen := false
  lastAttempt := startMillis
  clock := startMillis

/-- One event. -/
def advance (s : StreamLife) : StreamEvent → StreamLife
  | .connect status readStart =>
    { s with
      client := (s.client.onConnect status readStart).2
      isOpen := s.isOpen || status = 0 }
  | .read nread =>
    { s with isOpen := s.isOpen && !(.close ∈ DataStreamClient.onRead nread : Bool) }
  | .write status =>
    { s with isOpen := s.isOpen && !(.close ∈ DataStreamClient.onWrite status : Bool) }
  | .closed => s
  | .tick currTimeMillis fails =>
    let (actions, client) := s.client.onTimer currTimeMillis
    let issued : Bool := .startStreamTransport ∈ actions
    ⟨client, s.isOpen && !(issued && fails),
      if issued then currTimeMillis else s.lastAttempt, currTimeMillis⟩

/-- The clock does not go back. -/
def ClockForward (s : StreamLife) : StreamEvent → Prop
  | .tick currTimeMillis _ => s.clock ≤ currTimeMillis
  | _ => True

instance (s : StreamLife) : ∀ event : StreamEvent, Decidable (s.ClockForward event)
  | .tick currTimeMillis _ => inferInstanceAs (Decidable (s.clock ≤ currTimeMillis))
  | .connect _ _ | .read _ | .write _ | .closed => .isTrue trivial

/-- The client reconnects: its flag says whether the stream is open, and at any tick that may come a
    connect is issued if the stream is not open and the timeout has passed, and none if it is
    open. -/
structure Reconnects (s : StreamLife) : Prop where
  isConnected_eq : s.client.m_isConnected = s.isOpen
  issues : ∀ currTimeMillis, s.clock ≤ currTimeMillis → s.isOpen = false →
    s.lastAttempt.toNat + s.client.m_reconnectTimeoutMillis.toNat ≤ currTimeMillis.toNat →
    .startStreamTransport ∈ (s.client.onTimer currTimeMillis).1
  quiet : ∀ currTimeMillis, s.clock ≤ currTimeMillis → s.isOpen = true →
    .startStreamTransport ∉ (s.client.onTimer currTimeMillis).1

/-- The events after which the flag is right, if it was before: no error closes an open stream, and
    reading starts when a connect succeeds. -/
def KeepsStream (s : StreamLife) : StreamEvent → Prop
  | .connect status readStart => status = 0 → 0 ≤ readStart ∨ s.isOpen = true
  | .read nread => nread < 0 → s.isOpen = false
  | .write status => status < 0 → s.isOpen = false
  | .closed | .tick _ _ => True

instance (s : StreamLife) : ∀ event : StreamEvent, Decidable (s.KeepsStream event)
  | .connect status readStart =>
    inferInstanceAs (Decidable (status = 0 → 0 ≤ readStart ∨ s.isOpen = true))
  | .read nread => inferInstanceAs (Decidable (nread < 0 → s.isOpen = false))
  | .write status => inferInstanceAs (Decidable (status < 0 → s.isOpen = false))
  | .closed | .tick _ _ => .isTrue trivial

/-- What holds in any case: the client knows when it last attempted a connect. -/
structure Timed (s : StreamLife) : Prop where
  lastAttempt_eq : s.client.m_lastConnectTimeMillis = s.lastAttempt
  lastAttempt_le : s.lastAttempt ≤ s.clock

variable {s : StreamLife}

theorem start_timed (reconnectTimeoutMillis startMillis : UInt64) :
    Timed (start reconnectTimeoutMillis startMillis) := ⟨rfl, UInt64.le_refl _⟩

theorem Timed.advance (h : s.Timed) {event : StreamEvent} (hclock : s.ClockForward event) :
    Timed (s.advance event) := by
  cases event with
  | connect status readStart =>
    refine ⟨?_, h.lastAttempt_le⟩
    have hlast : (s.client.onConnect status readStart).2.m_lastConnectTimeMillis =
        s.client.m_lastConnectTimeMillis := by
      unfold DataStreamClient.onConnect
      split
      · rfl
      · dsimp only
        split <;> rfl
    exact hlast.trans h.lastAttempt_eq
  | read nread => exact ⟨h.lastAttempt_eq, h.lastAttempt_le⟩
  | write status => exact ⟨h.lastAttempt_eq, h.lastAttempt_le⟩
  | closed => exact h
  | tick currTimeMillis fails =>
    have hle : s.lastAttempt ≤ currTimeMillis := UInt64.le_trans h.lastAttempt_le hclock
    simp only [StreamLife.advance, DataStreamClient.onTimer]
    split
    · split
      · exact ⟨rfl, UInt64.le_refl _⟩
      · exact ⟨h.lastAttempt_eq, hle⟩
    · exact ⟨h.lastAttempt_eq, hle⟩

/-- The flag decides: where it is right, the ticks are. -/
theorem Timed.reconnects_iff_flag (h : s.Timed) :
    s.Reconnects ↔ s.client.m_isConnected = s.isOpen := by
  refine ⟨fun hr => hr.isConnected_eq, fun heq => ⟨heq, ?_, ?_⟩⟩
  · intro currTimeMillis hclock hopen htime
    have hle : s.client.m_lastConnectTimeMillis ≤ currTimeMillis := by
      rw [h.lastAttempt_eq]
      exact UInt64.le_trans h.lastAttempt_le hclock
    rw [DataStreamClient.issues_iff _ hle, heq, h.lastAttempt_eq]
    exact ⟨hopen, htime⟩
  · intro currTimeMillis hclock hopen hissued
    have hle : s.client.m_lastConnectTimeMillis ≤ currTimeMillis := by
      rw [h.lastAttempt_eq]
      exact UInt64.le_trans h.lastAttempt_le hclock
    rw [DataStreamClient.issues_iff _ hle, heq, hopen] at hissued
    exact absurd hissued.1 (by decide)

theorem Timed.start_reconnects (reconnectTimeoutMillis startMillis : UInt64) :
    Reconnects (start reconnectTimeoutMillis startMillis) :=
  (start_timed reconnectTimeoutMillis startMillis).reconnects_iff_flag.mpr rfl

/-- One event keeps the client reconnecting exactly if it keeps the stream. -/
theorem Timed.advance_reconnects_iff (h : s.Timed) (hr : s.Reconnects) {event : StreamEvent}
    (hclock : s.ClockForward event) : (s.advance event).Reconnects ↔ s.KeepsStream event := by
  rw [(h.advance hclock).reconnects_iff_flag]
  have heq := hr.isConnected_eq
  cases event with
  | connect status readStart =>
    simp only [StreamLife.advance, KeepsStream, DataStreamClient.onConnect]
    by_cases hstatus : status = 0
    · by_cases hread : readStart < 0
      · have hnot : ¬ 0 ≤ readStart := Int.not_le.mpr hread
        simp [hstatus, hread, hnot, heq]
      · have hstarted : 0 ≤ readStart := Int.not_lt.mp hread
        simp [hstatus, hread, hstarted]
    · simp [hstatus, heq]
  | read nread =>
    simp only [StreamLife.advance, KeepsStream, DataStreamClient.onRead, heq]
    by_cases hneg : nread < 0
    · simp [hneg]
    · by_cases hzero : nread = 0 <;> simp [hneg, hzero]
  | write status =>
    simp only [StreamLife.advance, KeepsStream, DataStreamClient.onWrite, heq]
    by_cases hneg : status < 0 <;> simp [hneg]
  | closed => exact iff_of_true heq trivial
  | tick currTimeMillis fails =>
    refine iff_of_true ?_ trivial
    -- a tick issues a connect only if the stream is not open
    simp only [StreamLife.advance, DataStreamClient.onTimer]
    split
    · rename_i hflag
      have hopen : s.isOpen = false := heq ▸ hflag
      split <;> simp [hflag, hopen]
    · simp [heq]

/-- **Reconnecting after a loss**: in a run with a clock that does not go back, the client
    reconnects as it should in every state exactly if it never loses its stream. -/
theorem reconnects_iff (reconnectTimeoutMillis startMillis : UInt64) {events : List StreamEvent}
    (hclock : EachStep advance ClockForward (start reconnectTimeoutMillis startMillis) events) :
    Throughout advance Reconnects (start reconnectTimeoutMillis startMillis) events ↔
      EachStep advance KeepsStream (start reconnectTimeoutMillis startMillis) events :=
  throughout_iff_eachStep (fun _ _ ht hc => ht.advance hc)
    (fun _ _ ht hr hc => ht.advance_reconnects_iff hr hc)
    (start_timed reconnectTimeoutMillis startMillis)
    (Timed.start_reconnects reconnectTimeoutMillis startMillis) hclock

/-- Two connects fail, the third one succeeds, and data comes in. -/
theorem reconnects_until_connected :
    Throughout advance Reconnects (start 1000 0)
      [.connect (-111) 0, .tick 1000 false, .connect (-111) 0, .tick 2000 true, .tick 3000 false,
        .connect 0 0, .read 20, .tick 4000 false] :=
  (reconnects_iff 1000 0 (by decide)).mpr (by decide)

/-- The stream is lost after it was connected: the flag stays on, and no tick issues a connect. -/
theorem lost_stream_not_reconnected :
    let s := [StreamEvent.connect 0 0, .read (-104), .closed].foldl advance (start 1000 0)
    s.isOpen = false ∧ s.client.m_isConnected = true ∧
      s.client.onTimer 600000 = ([], s.client) :=
  ⟨rfl, rfl, rfl⟩

end StreamLife

end Commutil.Transport
