import Commutil.Client.BacklogPruning
import Commutil.Client.FailedSends
import Commutil.Client.RejectedResponses

/-!
# Runs of a Message Sender

A `MsgSender` over its `MsgClient`, with the calls and callbacks that run in different threads.
Each event is one of them, or one round of a loop of the resend timer, so that the events of a
tick may come with others in between.

- §1 the events and what they do,
- §2 the loops of a tick, and whole transactions, as runs,
- §3 what each event can do to the slots, the messages and the backlog.
-/

namespace Commutil.Client

open Commutil.Framing Commutil.Io Commutil.Library

/-! ## §1 Events -/

/-- A sender, the transactions that wait with their request data, the messages that were handed to
    a send or a transaction, and the last clock reading. -/
structure SenderState (κ : Type) where
  sender : MsgSender κ
  waiting : List (MsgPtr × MsgRequestData)
  handed : List MsgPtr
  clock : UInt64

/-- An event of a run. -/
inductive SenderEvent where
  /-- A message is allocated at a free address. -/
  | allocate (request : MsgPtr) (msg : Msg)
  /-- `MsgSender::sendMsg`. -/
  | send (request : MsgPtr) (env : SendEnv)
  /-- `transactMsgInternal` up to its wait, or to its end when the send fails. -/
  | transact (request : MsgPtr) (env : SendEnv)
  /-- The wait of a transaction returns, and the call with it. -/
  | finish (k : Nat) (now : UInt64)
  /-- A write reaches the I/O loop: `onLoopSend`. -/
  | loopSend (k : Nat)
  /-- A message arrives: `MsgClient::onMsg`. -/
  | recv (response : Msg)
  /-- `processPendingResponses` looks at a slot. -/
  | visit (index : Nat) (now : UInt64)
  /-- A round of the loop of `pruneBacklog`. -/
  | prune
  /-- A round of the loop of `resendShippingBacklog`, which began at the time `barrier`. -/
  | resend (barrier : UInt64) (env : ResendEnv)
  | disconnect
  | connect

namespace SenderState

variable {κ : Type}

/-- The slots of the pool. -/
def slots (s : SenderState κ) : List MsgRequest := s.sender.pool.m_requests

/-- The writes that have not reached the I/O loop. -/
def writes (s : SenderState κ) : List WriteRequest := s.sender.m_msgClient.writes

/-- The sender after an event, at the time `now`. -/
def moveOn (s : SenderState κ) (now : UInt64) :
    Except Fault (MsgSender κ) → Except Fault (SenderState κ)
  | .error fault => .error fault
  | .ok sender => .ok { s with sender := sender, clock := now }

/-- A message is allocated, unless the address is taken. -/
def allocate (s : SenderState κ) (request : MsgPtr) (msg : Msg) : SenderState κ :=
  match s.sender.messages request with
  | some _ => s
  | none => { s with
      sender := s.sender.withMessages (Function.update s.sender.messages request (some msg))
      handed := s.handed.filter (· ≠ request) }

/-- `sendMsg`, whose result is that of `MsgClient::sendMsg`. -/
def send (s : SenderState κ) (request : MsgPtr) (env : SendEnv) : Except Fault (SenderState κ) :=
  ({ s with handed := request :: s.handed } : SenderState κ).moveOn env.now
    ((s.sender.sendMsg request env).map Prod.snd)

/-- `transactMsg` and `transactMsgInternal` up to the wait. -/
def transact (s : SenderState κ) (request : MsgPtr) (env : SendEnv) :
    Except Fault (SenderState κ) :=
  let s := { s with handed := request :: s.handed }
  if s.sender.m_stopResend then .ok s
  else
    match s.sender.m_msgClient.sendMsg request COMMUTIL_REQUEST_FLAG_TX env with
    | .error fault => .error fault
    | .ok (.ok, some requestData, c) =>
      .ok { s with
        sender := { s.sender with m_msgClient := c }
        waiting := s.waiting ++ [(request, requestData)]
        clock := env.now }
    | .ok (rc, _, c) =>
      s.moveOn env.now ((({ s.sender with m_msgClient := c } : MsgSender κ).endTransaction request
        rc).map Prod.snd)

/-- `transactMsgInternal` from the moment when the wait returns. -/
def finish (s : SenderState κ) (k : Nat) (now : UInt64) : Except Fault (SenderState κ) :=
  match s.waiting[k]? with
  | none => .ok s
  | some (request, requestData) =>
    ({ s with waiting := s.waiting.eraseIdx k } : SenderState κ).moveOn now
      (s.sender.recvResponse requestData request now >>= fun result =>
        (result.2.endTransaction request result.1).map Prod.snd)

/-- The transport hands a write to the I/O loop. -/
def loopSend (s : SenderState κ) (k : Nat) : Except Fault (SenderState κ) :=
  match s.writes[k]? with
  | none => .ok s
  | some write =>
    s.moveOn s.clock (({ s.sender with m_msgClient :=
      { s.sender.m_msgClient with writes := s.writes.eraseIdx k } } : MsgSender κ).onLoopSend
        write.userData)

/-- The backlog is larger than its limit, and the oldest request goes. -/
def prune (s : SenderState κ) : Except Fault (SenderState κ) :=
  match pruneStep s.sender.m_config.m_backlogLimitBytes s.sender.messages
      ⟨.ok, s.sender.m_backlog, s.sender.pool⟩ with
  | .fault fault => .error fault
  | .done _ => .ok s
  | .next t => .ok { s with sender := { s.sender.withPool t.pool with m_backlog := t.m_backlog } }

/-- The first request of the backlog is resent, if it was not sent since the round began. -/
def resend (s : SenderState κ) (barrier : UInt64) (env : ResendEnv) :
    Except Fault (SenderState κ) :=
  match MsgSender.resendStep barrier (fun _ => env) ⟨.ok, s.sender, 0⟩ with
  | .fault fault => .error fault
  | .done _ => .ok s
  | .next t => .ok { s with sender := t.sender, clock := env.updateNow }

/-- One event. -/
def step (s : SenderState κ) : SenderEvent → Except Fault (SenderState κ)
  | .allocate request msg => .ok (s.allocate request msg)
  | .send request env => s.send request env
  | .transact request env => s.transact request env
  | .finish k now => s.finish k now
  | .loopSend k => s.loopSend k
  | .recv response =>
    .ok { s with sender :=
      { s.sender with m_msgClient := (s.sender.m_msgClient.onMsg response).2.2 } }
  | .visit index now => s.moveOn now (s.sender.processPendingResponse index now)
  | .prune => s.prune
  | .resend barrier env => s.resend barrier env
  | .disconnect =>
    .ok { s with sender := { s.sender with m_msgClient := s.sender.m_msgClient.onDisconnect } }
  | .connect => .ok s

/-- A sender that was started, over a client with a pool of so many slots.  `m_nextRequestId` is
    not determined. -/
def start (poolSize : UInt32) (nextRequestId : UInt64) (byteOrder : ByteOrder) (config : MsgConfig)
    (reader : ResponseReader κ) : SenderState κ where
  sender :=
    { m_msgClient := ⟨.initializePool poolSize.toNat nextRequestId, byteOrder, fun _ => none, []⟩
      m_backlog := .new
      m_config := config
      m_stopResend := false
      m_frameReader := reader
      calls := []
      resent := []
      freed := [] }
  waiting := []
  handed := []
  clock := 0

/-! ## §2 Loops and transactions as runs -/

/-- The events happen one after the other, whatever they meet. -/
abbrev Runs (s : SenderState κ) (es : List SenderEvent) (t : SenderState κ) : Prop :=
  RunsWith (fun s e t => s.step e = .ok t) (fun _ _ => True) s es t

section Loops

variable {s : SenderState κ} {t : MsgSender κ}

theorem visitSlots_run {clock : Nat → UInt64} {slots : List Nat}
    (h : slots.foldlM (fun s index => s.processPendingResponse index (clock index)) s.sender =
      .ok t) :
    ∃ u, s.Runs (slots.map fun index => .visit index (clock index)) u ∧ u.sender = t ∧
      u.waiting = s.waiting := by
  induction slots generalizing s with
  | nil =>
    cases h
    exact ⟨s, .nil s, rfl, rfl⟩
  | cons index slots ih =>
    rw [List.foldlM_cons] at h
    cases hfirst : s.sender.processPendingResponse index (clock index) with
    | error fault =>
      rw [hfirst] at h
      cases h
    | ok sender =>
      rw [hfirst] at h
      obtain ⟨u, hrun, hsender, hwaiting⟩ :=
        @ih { s with sender := sender, clock := clock index } h
      refine ⟨u, .cons trivial ?_ hrun, hsender, hwaiting⟩
      show s.moveOn (clock index) _ = _
      rw [hfirst]
      rfl

/-- **`processPendingResponses`** visits the slots one after the other. -/
theorem processPendingResponses_run {clock : Nat → UInt64}
    (h : s.sender.processPendingResponses clock = .ok t) :
    ∃ u, s.Runs ((List.range s.slots.length).map fun index => .visit index (clock index)) u ∧
      u.sender = t ∧ u.waiting = s.waiting :=
  visitSlots_run h

/-- The result so far makes no difference to a round of `pruneBacklog`. -/
theorem pruneStep_next {limit : UInt64} {messages : MsgPtr → Option Msg} {a b : PruneState}
    (h : pruneStep limit messages a = .next b) :
    ∃ rc, pruneStep limit messages ⟨.ok, a.m_backlog, a.pool⟩ =
      .next ⟨rc, b.m_backlog, b.pool⟩ := by
  unfold pruneStep at h ⊢
  dsimp only
  split at h
  · rename_i hgt
    rw [if_pos hgt]
    split at h
    · cases h
    · rename_i entry rest hset
      split at h
      · cases h
      · rename_i rc pool b' hround
        cases h
        exact ⟨_, rfl⟩
  · cases h

theorem pruneRounds_run {limit : UInt64} {messages : MsgPtr → Option Msg} {a b : PruneState}
    (hvisits : LoopStep.Visits (pruneStep limit messages) a b)
    (hlimit : s.sender.m_config.m_backlogLimitBytes = limit)
    (hmessages : s.sender.messages = messages)
    (hbacklog : s.sender.m_backlog = a.m_backlog) (hpool : s.sender.pool = a.pool) :
    ∃ n u, s.Runs (.replicate n .prune) u ∧
      u.sender = { s.sender.withPool b.pool with m_backlog := b.m_backlog } ∧
      u.waiting = s.waiting := by
  induction hvisits generalizing s with
  | refl a =>
    refine ⟨0, s, .nil s, ?_, rfl⟩
    rw [← hpool, ← hbacklog]
    rfl
  | pass hpass hrest ih =>
    rename_i a a' b
    obtain ⟨rc, hstep⟩ := pruneStep_next hpass
    let s₁ : SenderState κ := { s with sender :=
      { s.sender.withPool a'.pool with m_backlog := a'.m_backlog } }
    have hfirst : s.step .prune = .ok s₁ := by
      show s.prune = _
      unfold prune
      rw [hlimit, hmessages, hbacklog, hpool, hstep]
    obtain ⟨n, u, hrun, hsender, hwaiting⟩ := @ih s₁ hlimit hmessages rfl rfl
    exact ⟨n + 1, u, .cons trivial hfirst hrun, hsender, hwaiting⟩

/-- **`pruneBacklog`** is a run of its rounds. -/
theorem pruneBacklog_run {result : PruneState}
    (h : s.sender.m_backlog.PruneReturns s.sender.pool s.sender.messages
      s.sender.m_config.m_backlogLimitBytes result) :
    ∃ n u, s.Runs (.replicate n .prune) u ∧
      u.sender = { s.sender.withPool result.pool with m_backlog := result.m_backlog } ∧
      u.waiting = s.waiting := by
  obtain ⟨last, hvisits, hdone⟩ := h.exists_last
  obtain ⟨n, u, hrun, hsender, hwaiting⟩ := pruneRounds_run hvisits rfl rfl rfl rfl
  refine ⟨n, u, hrun, ?_, hwaiting⟩
  have hsame : result.pool = last.pool ∧ result.m_backlog = last.m_backlog := by
    unfold pruneStep at hdone
    split at hdone
    · split at hdone
      · cases hdone
        exact ⟨rfl, rfl⟩
      · split at hdone <;> cases hdone
    · cases hdone
      exact ⟨rfl, rfl⟩
  rw [hsender, hsame.1, hsame.2]

/-- A round of resends depends on the sender and on what its own call meets. -/
theorem resendStep_next {T : UInt64} {envs : Nat → ResendEnv} {a b : ResendRound κ}
    (h : MsgSender.resendStep T envs a = .next b) :
    ∃ b', MsgSender.resendStep T (fun _ => envs a.count) ⟨.ok, a.sender, 0⟩ = .next b' ∧
      b'.sender = b.sender := by
  unfold MsgSender.resendStep at h ⊢
  dsimp only
  split at h
  · cases h
  · split at h
    · cases h
    · split at h
      · rename_i hrc
        cases h
        exact ⟨_, if_pos hrc, rfl⟩
      · rename_i hrc
        split at h
        · cases h
        · cases h
          exact ⟨_, if_neg hrc, rfl⟩

/-- **`resendShippingBacklog`** is a run of its rounds. -/
theorem resendShippingBacklog_run {T : UInt64} {envs : Nat → ResendEnv} {a r : ResendRound κ}
    (h : LoopStep.Ends (MsgSender.resendStep T envs) a r) (hsender : s.sender = a.sender) :
    ∃ (rounds : List ResendEnv) (u : SenderState κ), s.Runs (rounds.map (.resend T)) u ∧
      u.sender = r.sender ∧ u.waiting = s.waiting := by
  obtain ⟨last, hvisits, hdone⟩ := h.exists_last
  induction hvisits generalizing s with
  | refl a =>
    refine ⟨[], s, .nil s, ?_, rfl⟩
    rw [hsender]
    unfold MsgSender.resendStep at hdone
    split at hdone
    · cases hdone
      rfl
    · split at hdone
      · cases hdone
      · split at hdone
        · cases hdone
        · split at hdone <;> cases hdone
  | pass hpass hrest ih =>
    rename_i a a' last
    obtain ⟨b', hstep, hb'⟩ := resendStep_next hpass
    let s₁ : SenderState κ :=
      { s with sender := b'.sender, clock := (envs a.count).updateNow }
    have hfirst : s.step (.resend T (envs a.count)) = .ok s₁ := by
      show s.resend T (envs a.count) = _
      unfold resend
      rw [hsender, hstep]
    obtain ⟨rounds, u, hrun, hu, hwaiting⟩ :=
      @ih s₁ ((LoopStep.ends_iff_of_next hpass).mp h) hb' hdone
    exact ⟨envs a.count :: rounds, u, .cons trivial hfirst hrun, hu, hwaiting⟩

end Loops

/-- The jobs of `onLoopTimer`, in its order. -/
def TimerJobs (s t : MsgSender κ) : Prop :=
  ∃ clock s₁ pruned T envs r, s.processPendingResponses clock = .ok s₁ ∧
    s₁.m_backlog.PruneReturns s₁.pool s₁.messages s₁.m_config.m_backlogLimitBytes pruned ∧
    LoopStep.Ends (MsgSender.resendStep T envs)
      ⟨.ok, { s₁.withPool pruned.pool with m_backlog := pruned.m_backlog }, 0⟩ r ∧
    t = r.sender

/-- **A tick** of the resend timer is a run. -/
theorem timerJobs_run {s : SenderState κ} {t : MsgSender κ} (h : TimerJobs s.sender t) :
    ∃ es u, s.Runs es u ∧ u.sender = t ∧ u.waiting = s.waiting := by
  obtain ⟨clock, s₁, pruned, T, envs, r, hprocess, hprune, hresend, rfl⟩ := h
  obtain ⟨u₁, hrun₁, rfl, hwaiting₁⟩ := processPendingResponses_run hprocess
  obtain ⟨n, u₂, hrun₂, hsender₂, hwaiting₂⟩ := pruneBacklog_run hprune
  obtain ⟨rounds, u₃, hrun₃, hsender₃, hwaiting₃⟩ := resendShippingBacklog_run hresend hsender₂
  exact ⟨_, u₃, (hrun₁.append hrun₂).append hrun₃, hsender₃,
    hwaiting₃.trans (hwaiting₂.trans hwaiting₁)⟩

/-- A transaction whose request was sent waits. -/
private theorem transact_sent {s : SenderState κ} {request : MsgPtr} {env : SendEnv}
    {requestData : MsgRequestData} {c : MsgClient} (hstop : s.sender.m_stopResend = false)
    (hsend : s.sender.m_msgClient.sendMsg request COMMUTIL_REQUEST_FLAG_TX env =
      .ok (.ok, some requestData, c)) :
    s.transact request env = .ok { s with
      handed := request :: s.handed
      sender := { s.sender with m_msgClient := c }
      waiting := s.waiting ++ [(request, requestData)]
      clock := env.now } := by
  unfold transact
  dsimp only
  rw [if_neg (by rw [hstop]; decide), hsend]

/-- Every other transaction ends with its send. -/
private theorem transact_unsent {s : SenderState κ} {request : MsgPtr} {env : SendEnv}
    {rc : ErrorCode} {data : Option MsgRequestData} {c : MsgClient}
    (hstop : s.sender.m_stopResend = false)
    (hsend : s.sender.m_msgClient.sendMsg request COMMUTIL_REQUEST_FLAG_TX env =
      .ok (rc, data, c))
    (hother : ∀ requestData, rc = .ok → data = some requestData → False) :
    s.transact request env =
      ({ s with handed := request :: s.handed } : SenderState κ).moveOn env.now
        ((({ s.sender with m_msgClient := c } : MsgSender κ).endTransaction request rc).map
          Prod.snd) := by
  unfold transact
  dsimp only
  rw [if_neg (by rw [hstop]; decide), hsend]
  split
  · rename_i heq
    cases heq
  · rename_i heq
    cases heq
    exact (hother _ rfl rfl).elim
  · rename_i heq
    cases heq
    rfl

/-- **A transaction** is its send and the end of its wait, with the events of the meantime between
    them. -/
theorem transactMsgInternal_run {s : SenderState κ} {request : MsgPtr} {env : SendEnv}
    {meanwhile : MsgSender κ → MsgSender κ} {now : UInt64} {rc : ErrorCode} {t : MsgSender κ}
    (hstop : s.sender.m_stopResend = false)
    (h : s.sender.transactMsgInternal request env meanwhile now = .ok (rc, t)) :
    ∃ u, s.step (.transact request env) = .ok u ∧
      (u.sender = t ∧ u.waiting = s.waiting ∨
        ∃ requestData, u.waiting = s.waiting ++ [(request, requestData)] ∧
          ∀ (v : SenderState κ) (k : Nat), v.sender = meanwhile u.sender →
            v.waiting[k]? = some (request, requestData) →
            ∃ w, v.step (.finish k now) = .ok w ∧ w.sender = t) := by
  show ∃ u, s.transact request env = .ok u ∧ _
  unfold MsgSender.transactMsgInternal at h
  split at h
  · cases h
  · rename_i requestData c hsend
    rw [transact_sent hstop hsend]
    -- sent: the call waits, and its end is the second half of the function
    refine ⟨_, rfl, .inr ⟨requestData, rfl, ?_⟩⟩
    intro v k hv hk
    show ∃ w, v.finish k now = .ok w ∧ _
    unfold finish
    rw [hk, hv]
    dsimp only
    cases hrecv : (meanwhile { s.sender with m_msgClient := c }).recvResponse requestData request
        now with
    | error fault =>
      rw [hrecv] at h
      cases h
    | ok result =>
      rw [hrecv] at h
      dsimp only [bind, Except.bind] at h ⊢
      rw [h]
      exact ⟨_, rfl, rfl⟩
  · rename_i rc' data c hother hsend
    -- not sent: the call ends at once
    rw [transact_unsent hstop hsend hother, h]
    exact ⟨_, rfl, .inl ⟨rfl, rfl⟩⟩

end SenderState

/-! ## §3 Responses and expiry -/

namespace MsgSender

variable {κ : Type} {s t : MsgSender κ}

/-- The frame listener accepts the response. -/
def Accepts (s : MsgSender κ) (response : Msg) : Prop :=
  ∃ s', s.handleResponse response = .ok (.ok, s')

/-- What the listener says does not depend on slots and messages. -/
theorem handleResponse_congr {s₁ : MsgSender κ} {response : Msg} {rc : ErrorCode}
    (h : s₁.handleResponse response = .ok (rc, t))
    (hreader : s₁.m_frameReader = s.m_frameReader) (hcalls : s₁.calls = s.calls) :
    s.handleResponse response = .ok (rc, { s with calls := t.calls }) := by
  unfold handleResponse at h ⊢
  dsimp only at h ⊢
  rw [hreader, hcalls] at h
  generalize Dispatch.readMsgFrame
      (fun calls => s.m_frameReader.m_frameListener (s.calls ++ calls))
      s.m_frameReader.connectionDetails s.m_frameReader.z s.m_frameReader.m_byteOrder response =
    run at h ⊢
  cases run with
  | error fault => cases h
  | ok result =>
    cases h
    unfold logCalls
    rw [hcalls]

/-- The sender after a request, if there is one, was freed. -/
def released (s : MsgSender κ) : Option MsgPtr → MsgSender κ
  | none => s
  | some p => { s.withMessages (Function.update s.messages p none) with
      freed := s.freed ++ [⟨p, s.refersTo p⟩] }

theorem freeMsg_eq_released {request : Option MsgPtr} :
    s.freeMsg request = .ok t ↔
      (∀ p, request = some p → (s.messages p).isSome) ∧ t = s.released request := by
  cases request with
  | none =>
    constructor
    · intro h
      cases h
      exact ⟨fun _ h => (nomatch h), rfl⟩
    · rintro ⟨-, rfl⟩
      rfl
  | some p =>
    rw [freeMsg_eq_ok]
    constructor
    · rintro ⟨hlive, rfl⟩
      exact ⟨fun _ h => Option.some.inj h ▸ hlive, rfl⟩
    · rintro ⟨hlive, rfl⟩
      exact ⟨hlive p rfl, rfl⟩

/-- The sender when a slot was given back, with another backlog and more calls of the listener. -/
def settled (s : MsgSender κ) (index : Nat) (r : MsgRequest) (b : MsgBacklog)
    (calls : List (Dispatch.Call κ)) : MsgSender κ :=
  { s.setSlot index r.clearResponse with m_backlog := b, calls := calls }

/-- Why a slot is given back by `processPendingResponses`, and what becomes of the backlog. -/
inductive Settled (s : MsgSender κ) (index : Nat) (r : MsgRequest) (now : UInt64) :
    MsgBacklog → Prop where
  | accepted {response : Msg} {p : MsgPtr} {rc : ErrorCode} {b : MsgBacklog} :
      r.m_requestStatus = .arrived → r.m_response = some response → s.Accepts response →
      r.m_request = some p →
      s.m_backlog.removePendingRequest (s.pool.setSlot index r.clearResponse) s.messages p =
        .ok (rc, b) →
      Settled s index r now b
  | rejected {response : Msg} {verdict : ErrorCode} :
      r.m_requestStatus = .arrived → r.m_response = some response → s.Rejects response verdict →
      Settled s index r now s.m_backlog
  | empty : r.m_requestStatus = .arrived → r.m_response = none →
      Settled s index r now s.m_backlog
  | aborted : r.m_requestStatus = .aborted → Settled s index r now s.m_backlog
  | expired : r.m_requestStatus = .pending →
      now - r.m_requestTimeMillis > s.m_config.m_expireTimeoutMillis →
      Settled s index r now s.m_backlog

/-- A request that waits is given back only when it is too old. -/
theorem Settled.age_of_pending {index : Nat} {r : MsgRequest} {now : UInt64} {b : MsgBacklog}
    (h : s.Settled index r now b) (hpending : r.m_requestStatus = .pending) :
    now - r.m_requestTimeMillis > s.m_config.m_expireTimeoutMillis := by
  cases h with
  | accepted harrived | rejected harrived | empty harrived =>
    rw [hpending] at harrived
    cases harrived
  | aborted haborted =>
    rw [hpending] at haborted
    cases haborted
  | expired _ hage => exact hage

/-- A request is taken out of the backlog of a sender with the given slots and messages. -/
theorem removeFromBacklog_eq_ok {request : Option MsgPtr} {rc : ErrorCode}
    (h : s.removeFromBacklog request = .ok (rc, t)) :
    ∃ p b, request = some p ∧ s.m_backlog.removePendingRequest s.pool s.messages p = .ok (rc, b) ∧
      t = { s with m_backlog := b } := by
  unfold removeFromBacklog at h
  split at h
  · cases h
  · rename_i p
    split at h
    · cases h
    · rename_i rc' b hremove
      cases h
      exact ⟨p, b, rfl, hremove, rfl⟩

theorem takeResponse_cases {index : Nat} {r : MsgRequest} {now : UInt64}
    (harrived : r.m_requestStatus = .arrived)
    (h : (s.setSlot index r.clearResponse).takeResponse r.m_request r.m_response = .ok t) :
    ∃ b calls, s.Settled index r now b ∧ t = s.settled index r b calls := by
  cases hresponse : r.m_response with
  | none =>
    rw [hresponse] at h
    cases h
    exact ⟨_, s.calls, .empty harrived hresponse, rfl⟩
  | some response =>
    rw [hresponse, takeResponse] at h
    cases hhandle : (s.setSlot index r.clearResponse).handleResponse response with
    | error fault =>
      rw [hhandle] at h
      cases h
    | ok result =>
      obtain ⟨rc, s₁⟩ := result
      have hs₁ := handleResponse_eq hhandle
      have hverdict := handleResponse_congr (s := s) hhandle rfl rfl
      rw [hhandle] at h
      dsimp only [bind, Except.bind] at h
      -- the verdict decides whether the request leaves the backlog
      split at h
      · rename_i hrc
        subst hrc
        cases hremove : s₁.removeFromBacklog r.m_request with
        | error fault =>
          rw [hremove] at h
          cases h
        | ok result =>
          obtain ⟨rc', s₂⟩ := result
          rw [hremove] at h
          cases h
          obtain ⟨p, b, hp, hcall, rfl⟩ := removeFromBacklog_eq_ok hremove
          rw [hs₁] at hcall
          refine ⟨b, s₁.calls, .accepted harrived hresponse ⟨_, hverdict⟩ hp hcall, ?_⟩
          rw [hs₁]
          rfl
      · rename_i hrc
        cases h
        refine ⟨_, t.calls, .rejected harrived hresponse ⟨hrc, _, hverdict⟩, ?_⟩
        rw [hs₁]
        rfl

/-- **One slot of `processPendingResponses`** is left as it is, or is given back and its request
    freed. -/
theorem processPendingResponse_cases {index : Nat} {now : UInt64}
    (h : s.processPendingResponse index now = .ok t) :
    (t = s ∧ ∀ r, s.pool.m_requests[index]? = some r →
      r.isVacant = true ∨ r.isTx = true ∨ r.m_requestStatus = .pending) ∨
    ∃ r b calls, s.pool.m_requests[index]? = some r ∧ r.isVacant = false ∧ r.isTx = false ∧
      s.Settled index r now b ∧ (∀ p, r.m_request = some p → (s.messages p).isSome) ∧
      t = (s.settled index r b calls).released r.m_request := by
  have hread : ∀ r, s.pool.m_requests[index]? = some r → s.pool.slot index = r :=
    fun r hr => slot_eq hr
  unfold processPendingResponse at h
  dsimp only at h
  -- pending: only an old request is given up
  split at h
  · rename_i hskip
    cases h
    refine .inl ⟨rfl, fun r hr => ?_⟩
    rw [hread r hr] at hskip
    rcases (Bool.or_eq_true _ _).mp hskip with hvacant | htx
    · exact .inl hvacant
    · exact .inr (.inl htx)
  · rename_i hskip
    obtain ⟨hvacant, htx⟩ := not_or.mp (fun hor => hskip ((Bool.or_eq_true _ _).mpr hor))
    obtain ⟨r, hr⟩ := exists_slot hvacant
    rw [hread r hr] at h hvacant htx
    have hvacant' : r.isVacant = false := Bool.eq_false_iff.mpr hvacant
    have htx' : r.isTx = false := Bool.eq_false_iff.mpr htx
    unfold MsgRequest.waitResponse at h
    -- `waitResponse` looks at the status of the slot
    cases hstatus : r.m_requestStatus with
    | idle =>
      unfold MsgRequest.isVacant at hvacant'
      rw [hstatus] at hvacant'
      cases hvacant'
    | arrived =>
      rw [hstatus] at h
      dsimp only at h
      cases htake : (s.setSlot index r.clearResponse).takeResponse r.m_request r.m_response with
      | error fault =>
        rw [htake] at h
        cases h
      | ok s₁ =>
        rw [htake] at h
        obtain ⟨b, calls, hsettled, rfl⟩ : ∃ b calls, s.Settled index r now b ∧
            s₁ = s.settled index r b calls := takeResponse_cases hstatus htake
        obtain ⟨hlive, rfl⟩ := freeMsg_eq_released.mp h
        exact .inr ⟨r, b, calls, hr, hvacant', htx', hsettled, hlive, rfl⟩
    | aborted =>
      rw [hstatus] at h
      dsimp only at h
      rw [if_pos (.inl (by decide))] at h
      obtain ⟨hlive, rfl⟩ := freeMsg_eq_released.mp h
      exact .inr ⟨r, s.m_backlog, s.calls, hr, hvacant', htx', .aborted hstatus, hlive, rfl⟩
    | pending =>
      rw [hstatus] at h
      dsimp only at h
      split at h
      · rename_i hexpired
        obtain ⟨hlive, rfl⟩ := freeMsg_eq_released.mp h
        refine .inr ⟨r, s.m_backlog, s.calls, hr, hvacant', htx', .expired hstatus ?_, hlive, rfl⟩
        exact hexpired.resolve_left (by decide)
      · cases h
        refine .inl ⟨rfl, fun r' hr' => .inr (.inr ?_)⟩
        rw [← Option.some.inj (hr.symm.trans hr'), hstatus]

end MsgSender

/-! ## §4 Sends -/

namespace MsgClient

variable {c c' : MsgClient} {request : MsgPtr} {env : SendEnv} {rc : ErrorCode}
  {data : Option MsgRequestData}

theorem sendThrough_cases {msg : Msg} {index : Nat} {r : MsgRequest} {userData : Option MsgPtr}
    (h : c.sendThrough msg index r userData env = .ok (rc, c')) :
    (rc = .ok ∧ ¬ SendFails c.byteOrder msg env ∧
      ∃ bytes, c' = { c with writes := c.writes ++ [⟨bytes, userData⟩] }) ∨
    rc ≠ .ok ∧ SendFails c.byteOrder msg env ∧ c' = c.setSlot index r.clearRequest := by
  unfold sendThrough at h
  split at h
  · cases h
  · rename_i htransmit
    cases h
    exact .inr ⟨transmit_error_ne_ok htransmit, ⟨_, htransmit⟩, rfl⟩
  · rename_i bytes htransmit
    cases h
    refine .inl ⟨rfl, ?_, bytes, rfl⟩
    rintro ⟨rc, hfails⟩
    rw [htransmit] at hfails
    cases hfails

/-- **A send of a message without a slot**: there is none, or a vacant slot is taken, and is left
    without its request when the message cannot be put on the wire. -/
theorem sendMsg_new_cases {requestFlags : UInt32}
    (hflags : requestFlags &&& COMMUTIL_REQUEST_FLAG_REUSE = 0)
    (h : c.sendMsg request requestFlags env = .ok (rc, data, c')) :
    (rc = .resourceLimit ∧ (∀ r ∈ c.m_requestPool.m_requests, r.m_requestStatus ≠ .idle) ∧
      c' = { c with m_requestPool := c.m_requestPool.issued }) ∨
    ∃ msg index r, c.messages request = some msg ∧
      c.m_requestPool.m_requests[index]? = some r ∧ r.m_requestStatus = .idle ∧
      data = some ⟨c.m_requestPool.m_nextRequestId, index⟩ ∧
      ((rc = .ok ∧ ∃ bytes, c' = { c.installed request msg index r requestFlags env.now with
          writes := c.writes ++ [⟨bytes, some request⟩] }) ∨
        rc ≠ .ok ∧ SendFails c.byteOrder msg env ∧
          c' = (c.installed request msg index r requestFlags env.now).setSlot index
            (r.holding request c.m_requestPool.m_nextRequestId requestFlags
              env.now).clearRequest) := by
  have hnew : c.sendMsg request requestFlags env = c.sendNew request requestFlags env :=
    if_neg (not_not.mpr hflags)
  rw [hnew] at h
  rcases c.m_requestPool.grabSlot_cases with
    ⟨index, r, hslot, hidle, hgrab⟩ | ⟨-, hbusy, hgrab⟩ | ⟨-, hgrab⟩
  · -- a slot was idle and is taken for the request
    cases hmsg : c.messages request with
    | none =>
      have hread := MsgRequestPool.setSlot_self c.m_requestPool.issued
        (List.getElem?_eq_some_iff.mp hslot).1 (r.grabbed c.m_requestPool.m_nextRequestId)
      unfold sendNew load at h
      simp only [hgrab, hmsg, hread] at h
      cases h
    | some msg =>
      rw [sendNew_eq hslot hgrab hmsg] at h
      split at h
      · cases h
      · rename_i rc' c₁ hsend
        cases h
        refine .inr ⟨msg, index, r, rfl, hslot, hidle, rfl, ?_⟩
        -- the frame is on its way, or the write failed and the slot is cleared
        rcases sendThrough_cases hsend with ⟨hrc, -, bytes, hc⟩ | ⟨hrc, hfails, hc⟩
        · exact .inl ⟨hrc, bytes, hc⟩
        · exact .inr ⟨hrc, (sendFails_stampHeader _ _ _ _ _).mp hfails, hc⟩
  · -- every slot is in use
    unfold sendNew at h
    rw [hgrab] at h
    cases h
    exact .inl ⟨rfl, hbusy, rfl⟩
  · -- a pool without slots
    unfold sendNew at h
    rw [hgrab] at h
    cases h

/-- **A send of a message that keeps its slot.** -/
theorem sendMsg_reused_cases
    (h : c.sendMsg request COMMUTIL_REQUEST_FLAG_REUSE env = .ok (rc, data, c')) :
    ∃ msg, c.messages request = some msg ∧
      (c.m_requestPool.getRequestData msg.m_header = none ∧ c' = c ∨
        ∃ index r, c.m_requestPool.getRequestData msg.m_header = some (index, r) ∧
        ((rc = .ok ∧ ¬ SendFails c.byteOrder msg env ∧ ∃ bytes,
            c' = { c.setSlot index (r.setFlags COMMUTIL_REQUEST_FLAG_REUSE) with
              writes := c.writes ++ [⟨bytes, none⟩] }) ∨
          rc ≠ .ok ∧ SendFails c.byteOrder msg env ∧
            c' = c.setSlot index (r.setFlags COMMUTIL_REQUEST_FLAG_REUSE).clearRequest)) := by
  have hreused : c.sendMsg request COMMUTIL_REQUEST_FLAG_REUSE env =
      c.sendReused request COMMUTIL_REQUEST_FLAG_REUSE env := if_pos (by decide)
  rw [hreused] at h
  unfold sendReused load at h
  cases hmsg : c.messages request with
  | none =>
    rw [hmsg] at h
    cases h
  | some msg =>
    rw [hmsg] at h
    refine ⟨msg, rfl, ?_⟩
    dsimp only at h
    split at h
    · rename_i hdata
      cases h
      exact .inl ⟨hdata, rfl⟩
    · rename_i index r hdata
      split at h
      · cases h
      · rename_i rc' c₁ hsend
        cases h
        refine .inr ⟨index, r, hdata, ?_⟩
        rcases sendThrough_cases hsend with ⟨hrc, hwritten, bytes, hc⟩ | ⟨hrc, hfails, hc⟩
        · exact .inl ⟨hrc, hwritten, bytes, hc⟩
        · refine .inr ⟨hrc, hfails, hc.trans ?_⟩
          unfold setSlot
          dsimp only
          rw [MsgRequestPool.setSlot_setSlot]

end MsgClient

namespace MsgSender

variable {κ : Type} {s t : MsgSender κ}

/-- **`onLoopSend`** adds the request to the backlog, or changes nothing. -/
theorem onLoopSend_cases {request : Option MsgPtr} (h : s.onLoopSend request = .ok t) :
    t = s ∨ ∃ p rc b, request = some p ∧
      s.m_backlog.addPendingRequest s.pool s.messages p = .ok (rc, b) ∧
      t = { s with m_backlog := b } := by
  unfold onLoopSend at h
  split at h
  · cases h
    exact .inl rfl
  · rename_i p
    split at h
    · cases h
    · split at h
      · cases h
        exact .inl rfl
      · split at h
        · cases h
          exact .inl rfl
        · split at h
          · cases h
          · rename_i rc b hadd
            cases h
            exact .inr ⟨p, rc, b, rfl, hadd, rfl⟩

/-- `endTransaction` frees the request, or changes nothing. -/
theorem endTransaction_cases {p : MsgPtr} {rc rc' : ErrorCode}
    (h : s.endTransaction p rc = .ok (rc', t)) :
    ∃ msg, s.messages p = some msg ∧
      ((rc = .ok ∨ msg.m_header.m_requestId = COMMUTIL_MSG_INVALID_REQUEST_ID) ∧
          t = s.released (some p) ∨
        rc ≠ .ok ∧ msg.m_header.m_requestId ≠ COMMUTIL_MSG_INVALID_REQUEST_ID ∧ t = s) := by
  unfold endTransaction at h
  cases hmsg : s.messages p with
  | none =>
    rw [load_none hmsg] at h
    cases h
  | some msg =>
    rw [load_eq hmsg] at h
    refine ⟨msg, rfl, ?_⟩
    dsimp only at h
    split at h
    · rename_i hcase
      cases hfree : s.freeMsg (some p) with
      | error fault =>
        rw [hfree] at h
        cases h
      | ok s₁ =>
        rw [hfree] at h
        cases h
        exact .inl ⟨hcase, (freeMsg_eq_released.mp hfree).2⟩
    · rename_i hcase
      cases h
      obtain ⟨hrc, hid⟩ := not_or.mp hcase
      exact .inr ⟨hrc, hid, rfl⟩

/-! ## §5 Ends of transactions -/

/-- The slot has the response that the transaction waits for. -/
structure Answers (s : MsgSender κ) (data : MsgRequestData) (r : MsgRequest) (response : Msg) :
    Prop where
  slot : s.pool.m_requests[data.m_requestIndex]? = some r
  id_eq : r.m_requestId = data.m_requestId
  arrived : r.m_requestStatus = .arrived
  response_eq : r.m_response = some response

/-- How a transaction ends, and the sender after it. -/
inductive Ended (s : MsgSender κ) (data : MsgRequestData) (p : MsgPtr) (now : UInt64) :
    MsgSender κ → Prop where
  /-- The response is accepted: the request leaves the backlog and is freed. -/
  | accepted {r : MsgRequest} {response : Msg} {b : MsgBacklog} {rc : ErrorCode}
      {calls : List (Dispatch.Call κ)} :
      s.Answers data r response → s.Accepts response → (s.messages p).isSome →
      s.m_backlog.removePendingRequest (s.pool.setSlot data.m_requestIndex r.clearResponse)
        s.messages p = .ok (rc, b) →
      Ended s data p now ((s.settled data.m_requestIndex r b calls).released (some p))
  /-- The response is rejected, and the request is freed after it got another slot. -/
  | renewed {r r' : MsgRequest} {response : Msg} {verdict : ErrorCode} {msg : Msg} {index : Nat}
      {calls : List (Dispatch.Call κ)} :
      s.Answers data r response → s.Rejects response verdict → s.messages p = some msg →
      (s.pool.setSlot data.m_requestIndex r.clearResponse).m_requests[index]? = some r' →
      r'.m_requestStatus = .idle →
      Ended s data p now ((Client.renewed (s.settled data.m_requestIndex r s.m_backlog calls) p msg
        index r' now).released (some p))
  /-- The response is rejected, and the request is freed for want of a slot. -/
  | unrenewed {r : MsgRequest} {response msg msg' : Msg} {verdict : ErrorCode}
      {calls : List (Dispatch.Call κ)} :
      s.Answers data r response → s.Rejects response verdict → s.messages p = some msg →
      Ended s data p now ((((s.settled data.m_requestIndex r s.m_backlog calls).withPool
        (s.pool.setSlot data.m_requestIndex r.clearResponse).issued).withMessages
          (Function.update s.messages p (some msg'))).released (some p))
  /-- There is no response: the slot is that of an asynchronous request from now on. -/
  | timedOut {msg : Msg} {index : Nat} {r : MsgRequest} :
      (∀ r response, ¬ s.Answers data r response) → s.messages p = some msg →
      s.pool.getRequestData msg.m_header = some (index, r) →
      msg.m_header.m_requestId ≠ COMMUTIL_MSG_INVALID_REQUEST_ID →
      Ended s data p now (s.setSlot index (r.setFlags (r.m_flags &&& ~~~COMMUTIL_REQUEST_FLAG_TX)))
  /-- There is no response, and the request has no id. -/
  | unnamed {msg : Msg} {index : Nat} {r : MsgRequest} :
      (∀ r response, ¬ s.Answers data r response) → s.messages p = some msg →
      s.pool.getRequestData msg.m_header = some (index, r) →
      msg.m_header.m_requestId = COMMUTIL_MSG_INVALID_REQUEST_ID →
      Ended s data p now ((s.setSlot index
        (r.setFlags (r.m_flags &&& ~~~COMMUTIL_REQUEST_FLAG_TX))).released (some p))

/-- A wait that fails finds no response. -/
theorem not_answers {data : MsgRequestData} {rc : ErrorCode} {pool : MsgRequestPool}
    (hrc : rc ≠ .ok) (hwait : s.pool.waitPendingResponse data.m_requestId data.m_requestIndex =
      (rc, none, pool)) (r : MsgRequest) (response : Msg) : ¬ s.Answers data r response := by
  rintro ⟨hslot, hid, harrived, hresponse⟩
  have hfind := MsgRequestPool.findSlot_eq_ok.mpr ⟨rfl, hslot, hid⟩
  unfold MsgRequestPool.waitPendingResponse MsgRequest.waitResponse at hwait
  simp only [hfind, harrived, hresponse] at hwait
  exact hrc (Prod.mk.inj hwait).1.symm

theorem releaseTransaction_eq_ok {p : MsgPtr} (h : s.releaseTransaction p = .ok t) :
    ∃ msg index r, s.messages p = some msg ∧
      s.pool.getRequestData msg.m_header = some (index, r) ∧
      t = s.setSlot index (r.setFlags (r.m_flags &&& ~~~COMMUTIL_REQUEST_FLAG_TX)) := by
  unfold releaseTransaction at h
  cases hmsg : s.messages p with
  | none =>
    rw [load_none hmsg] at h
    cases h
  | some msg =>
    rw [load_eq hmsg] at h
    dsimp only at h
    split at h
    · cases h
    · rename_i index r hdata
      cases h
      exact ⟨msg, index, r, rfl, hdata, rfl⟩

section Ends

variable {data : MsgRequestData} {p : MsgPtr} {now : UInt64} {r : MsgRequest} {response : Msg}
  {rc rc' verdict : ErrorCode} {s₁ s₂ : MsgSender κ}

/-- An accepted response ends the transaction. -/
private theorem ended_of_accepted (hanswers : s.Answers data r response)
    (hwait : s.pool.waitPendingResponse data.m_requestId data.m_requestIndex =
      (.ok, some response, s.pool.setSlot data.m_requestIndex r.clearResponse))
    (hhandle : (s.withPool (s.pool.setSlot data.m_requestIndex r.clearResponse)).handleResponse
      response = .ok (.ok, s₂))
    (hrecv : s.recvResponse data p now = .ok (rc, s₁))
    (hend : s₁.endTransaction p rc = .ok (rc', t)) : s.Ended data p now t := by
  have hs₂ := handleResponse_eq hhandle
  have hverdict := handleResponse_congr (s := s) hhandle rfl rfl
  obtain ⟨msg, hmsg, hcase⟩ := endTransaction_cases hend
  obtain rfl := recvResponse_accepted hwait hhandle hrecv
  unfold recvResponse at hrecv
  rw [hwait] at hrecv
  dsimp only at hrecv
  rw [hhandle] at hrecv
  dsimp only [bind, Except.bind] at hrecv
  rw [if_neg (not_not.mpr rfl)] at hrecv
  cases hremove : s₂.removeFromBacklog (some p) with
  | error fault =>
    rw [hremove] at hrecv
    cases hrecv
  | ok result =>
    obtain ⟨rc₃, s₃⟩ := result
    rw [hremove] at hrecv
    cases hrecv
    obtain ⟨p', b, hp, hcall, rfl⟩ := removeFromBacklog_eq_ok hremove
    cases hp
    rw [hs₂] at hcall hmsg
    rcases hcase with ⟨-, rfl⟩ | ⟨hne, -⟩
    · have hlive : (s.messages p).isSome := Option.isSome_iff_exists.mpr ⟨msg, hmsg⟩
      have hended := @Ended.accepted κ s data p now r response b _ s₂.calls hanswers
        ⟨_, hverdict⟩ hlive hcall
      rw [hs₂]
      exact hended
    · exact absurd rfl hne

/-- A rejected response ends the transaction: the request gets another slot or none, and is freed
    in either case. -/
private theorem ended_of_rejected (hanswers : s.Answers data r response)
    (hwait : s.pool.waitPendingResponse data.m_requestId data.m_requestIndex =
      (.ok, some response, s.pool.setSlot data.m_requestIndex r.clearResponse))
    (hhandle : (s.withPool (s.pool.setSlot data.m_requestIndex r.clearResponse)).handleResponse
      response = .ok (verdict, s₂)) (hne : verdict ≠ .ok)
    (hrecv : s.recvResponse data p now = .ok (rc, s₁))
    (hend : s₁.endTransaction p rc = .ok (rc', t)) : s.Ended data p now t := by
  have hs₂ := handleResponse_eq hhandle
  have hverdict := handleResponse_congr (s := s) hhandle rfl rfl
  have hrejects : s.Rejects response verdict := ⟨hne, _, hverdict⟩
  obtain ⟨msg, hmsg, hcase⟩ := endTransaction_cases hend
  -- a slot was found, so the pool has some
  have hslots : s₂.pool.m_requests ≠ [] := by
    rw [hs₂]
    intro hnil
    have hlength := congrArg List.length hnil
    have hlt := (List.getElem?_eq_some_iff.mp hanswers.slot).1
    have hsame : (s.pool.setSlot data.m_requestIndex r.clearResponse).m_requests.length =
        ([] : List MsgRequest).length := hlength
    rw [MsgRequestPool.setSlot_length, List.length_nil] at hsame
    omega
  rw [recvResponse_rejected hwait hhandle hne] at hrecv
  cases hlive : s.messages p with
  | none =>
    -- the message would have to be read
    have hgone : s₂.messages p = none := by
      rw [hs₂]
      exact hlive
    unfold renewRequestId at hrecv
    rw [load_none hgone] at hrecv
    split at hrecv
    · cases hrecv
    · cases hrecv
    · rename_i heq
      cases heq
    · rename_i heq
      cases heq
  -- the id is renewed, and the code of the renewal is the result of the call
  | some msg₀ =>
    have hload : s₂.messages p = some msg₀ := by
      rw [hs₂]
      exact hlive
    rcases renewRequestId_cases s₂ now hload hslots with
      ⟨index, r', hslot', hidle, -, hrenew⟩ | ⟨-, -, hrenew⟩
    · rw [hrenew] at hrecv
      cases hrecv
      rcases hcase with ⟨-, rfl⟩ | ⟨hrc, -⟩
      · rw [hs₂] at hslot' ⊢
        exact .renewed hanswers hrejects hlive hslot' hidle
      · exact absurd rfl hrc
    · rw [hrenew] at hrecv
      cases hrecv
      have hself := hmsg.symm.trans (Function.update_self ..)
      rcases hcase with ⟨-, rfl⟩ | ⟨-, hid, -⟩
      · rw [hs₂]
        exact .unrenewed hanswers hrejects hlive
      · rw [Option.some.inj hself] at hid
        exact absurd rfl hid

/-- Without a response the request stays, unless it has no id. -/
private theorem ended_of_failed (hrc : rc ≠ .ok)
    (hwait : s.pool.waitPendingResponse data.m_requestId data.m_requestIndex = (rc, none, s.pool))
    (hrecv : s.recvResponse data p now = .ok (rc, s₁))
    (hend : s₁.endTransaction p rc = .ok (rc', t)) : s.Ended data p now t := by
  obtain ⟨msg, hmsg, hcase⟩ := endTransaction_cases hend
  unfold recvResponse at hrecv
  rw [hwait] at hrecv
  split at hrecv
  · rename_i heq
    cases heq
  · rename_i heq
    cases heq
    cases hrelease : s.releaseTransaction p with
    | error fault =>
      rw [hrelease] at hrecv
      cases hrecv
    | ok s₂ =>
      rw [hrelease] at hrecv
      cases hrecv
      obtain ⟨msg₀, index, r, hmsg₀, hdata, rfl⟩ := releaseTransaction_eq_ok hrelease
      obtain rfl : msg₀ = msg := Option.some.inj (hmsg₀.symm.trans hmsg)
      rcases hcase with ⟨hcase, rfl⟩ | ⟨-, hne, rfl⟩
      · exact .unnamed (not_answers hrc hwait) hmsg₀ hdata (hcase.resolve_left hrc)
      · exact .timedOut (not_answers hrc hwait) hmsg₀ hdata hne

/-- **The end of a transaction.** -/
theorem recvResponse_cases (h : (s.recvResponse data p now >>= fun result =>
      (result.2.endTransaction p result.1).map Prod.snd) = .ok t) : s.Ended data p now t := by
  obtain ⟨⟨rc, s₁⟩, hrecv, hmap⟩ := of_bind_ok h
  obtain ⟨⟨rc', t⟩, hend, rfl⟩ := of_map_ok hmap
  rcases s.pool.waitPendingResponse_cases data.m_requestId data.m_requestIndex with
    ⟨r, response, hslot, hid, harrived, hresponse, hwait⟩ | ⟨code, hcode, hwait⟩
  · have hanswers : s.Answers data r response := ⟨hslot, hid, harrived, hresponse⟩
    cases hhandle : (s.withPool (s.pool.setSlot data.m_requestIndex
        r.clearResponse)).handleResponse response with
    | error fault =>
      unfold recvResponse at hrecv
      rw [hwait] at hrecv
      dsimp only at hrecv
      rw [hhandle] at hrecv
      cases hrecv
    | ok result =>
      obtain ⟨verdict, s₂⟩ := result
      by_cases hok : verdict = .ok
      · subst hok
        exact ended_of_accepted hanswers hwait hhandle hrecv hend
      · exact ended_of_rejected hanswers hwait hhandle hok hrecv hend
  · obtain rfl := recvResponse_failed hwait hrecv
    exact ended_of_failed hcode hwait hrecv hend

end Ends

/-! ## §6 Resends -/

/-- The slot after the message was sent again from it. -/
def resentSlot (r : MsgRequest) (sent : Bool) (now : UInt64) : MsgRequest :=
  let r := r.setFlags COMMUTIL_REQUEST_FLAG_REUSE
  (if sent then r else r.clearRequest).updateResendTime now

/-- How a request is resent that has an id: its slot is found, the time has come, and the slot is
    left without the request when the message cannot be put on the wire. -/
structure ResentFrom (s : MsgSender κ) (p : MsgPtr) (msg : Msg) (index : Nat) (r : MsgRequest)
    (env : ResendEnv) (rc : ErrorCode) (t : MsgSender κ) : Prop where
  data : s.pool.getRequestData msg.m_header = some (index, r)
  due : s.shouldResend r env.now = true
  fails : rc ≠ .ok ↔ SendFails s.m_msgClient.byteOrder msg env.send
  pool : t.pool = s.pool.setSlot index (resentSlot r (rc == .ok) env.updateNow)
  messages : t.messages = s.messages
  backlog : t.m_backlog = s.m_backlog
  writes : ∃ more, t.m_msgClient.writes = s.m_msgClient.writes ++ more ∧
    ∀ write ∈ more, write.userData = none
  config : t.m_config = s.m_config
  freed : t.freed = s.freed

theorem setSlot_updateResendTime {pool : MsgRequestPool} {index : Nat}
    (hlt : index < pool.m_requests.length) (r : MsgRequest) (now : UInt64) :
    (pool.setSlot index r).setSlot index
        (((pool.setSlot index r).slot index).updateResendTime now) =
      pool.setSlot index (r.updateResendTime now) := by
  rw [slot_setSlot_self hlt, MsgRequestPool.setSlot_setSlot]

/-- **`resendRequest`** of a request that has an id sends it from its slot, or changes nothing. -/
theorem resendRequest_cases {p : MsgPtr} {env : ResendEnv} {rc : ErrorCode}
    (hid : ∀ msg, s.messages p = some msg →
      msg.m_header.m_requestId ≠ COMMUTIL_MSG_INVALID_REQUEST_ID)
    (h : s.resendRequest p env = .ok (rc, t)) :
    ∃ msg, s.messages p = some msg ∧
      ((t = s ∧ ∀ index r, s.pool.getRequestData msg.m_header = some (index, r) →
          s.shouldResend r env.now = false) ∨
        ∃ index r, s.ResentFrom p msg index r env rc t) := by
  -- the header is read first
  cases hmsg : s.messages p with
  | none =>
    unfold resendRequest at h
    rw [load_none hmsg] at h
    cases h
  | some msg =>
    refine ⟨msg, rfl, ?_⟩
    unfold resendRequest at h
    rw [load_eq hmsg] at h
    dsimp only at h
    rw [if_neg (hid msg hmsg)] at h
    unfold resendNamed at h
    rw [load_eq hmsg] at h
    dsimp only at h
    split at h
    · -- the message has lost its slot
      rename_i hnone
      cases h
      refine .inl ⟨rfl, fun index r hdata => ?_⟩
      rw [hnone] at hdata
      cases hdata
    · rename_i index r hdata
      have hlt := (List.getElem?_eq_some_iff.mp (MsgBacklog.getRequestData_eq_some.mp hdata).2.1).1
      unfold resendFound at h
      split at h
      · -- the request is due: the resend time moves on, whether the write succeeds or not
        rename_i hdue
        right
        refine ⟨index, r, ?_⟩
        cases hresend : s.resendMsg p env.send with
        | error fault =>
          rw [hresend] at h
          cases h
        | ok result =>
          obtain ⟨rc', s₁⟩ := result
          rw [hresend] at h
          cases h
          unfold resendMsg at hresend
          split at hresend
          · cases hresend
          · rename_i data c hsend
            cases hresend
            obtain ⟨msg', hmsg', hcase⟩ := MsgClient.sendMsg_reused_cases hsend
            obtain rfl : msg' = msg := Option.some.inj (hmsg'.symm.trans hmsg)
            rcases hcase with ⟨hnone, -⟩ | ⟨index', r₁, hdata', hsent⟩
            · exact absurd (hnone.symm.trans hdata) nofun
            · obtain ⟨rfl, rfl⟩ := Prod.mk.inj (Option.some.inj (hdata'.symm.trans hdata))
              rcases hsent with ⟨rfl, hwritten, bytes, rfl⟩ | ⟨hrc, hfails, rfl⟩
              · exact ⟨hdata, hdue, iff_of_false (not_not.mpr rfl) hwritten,
                  setSlot_updateResendTime hlt _ _, rfl, rfl,
                  ⟨_, rfl, fun write hwrite => List.mem_singleton.mp hwrite ▸ rfl⟩, rfl, rfl⟩
              · refine ⟨hdata, hdue, iff_of_true hrc hfails, ?_, rfl, rfl,
                  ⟨[], (List.append_nil _).symm, nofun⟩,
                  rfl, rfl⟩
                rw [beq_eq_false_iff_ne.mpr hrc]
                exact setSlot_updateResendTime hlt _ _
      · -- it is not due yet
        rename_i hearly
        cases h
        refine .inl ⟨rfl, fun index' r' hdata' => ?_⟩
        obtain ⟨rfl, rfl⟩ := Prod.mk.inj (Option.some.inj (hdata'.symm.trans hdata))
        exact Bool.eq_false_iff.mpr hearly

end MsgSender

/-- A round of `pruneBacklog` clears the slot that the message names, and removes the request. -/
theorem MsgBacklog.pruneRound_cases {b b' : MsgBacklog} {pool pool' : MsgRequestPool}
    {messages : MsgPtr → Option Msg} {entry : BacklogEntry} {rc : ErrorCode}
    (h : b.pruneRound pool messages entry = .ok (rc, pool', b')) :
    ∃ msg size rc', messages entry.m_msg = some msg ∧
      (pool' = pool ∨ ∃ r, pool.m_requests[msg.m_header.m_requestIndex.toNat]? = some r ∧
        r.m_requestId = msg.m_header.m_requestId ∧
        pool' = pool.setSlot msg.m_header.m_requestIndex.toNat r.clearResponse) ∧
      ({ b with m_backlogSizeBytes := size } : MsgBacklog).removePendingRequest pool' messages
        entry.m_msg = .ok (rc', b') := by
  unfold pruneRound readHeader at h
  cases hmsg : messages entry.m_msg with
  | none =>
    rw [hmsg] at h
    cases h
  | some msg =>
    rw [hmsg] at h
    dsimp only at h
    split at h
    · cases h
    · rename_i rc' b₁ hremove
      cases h
      refine ⟨msg, _, rc', rfl, ?_, hremove⟩
      rcases pool.clearPendingRequest_cases msg.m_header with
        ⟨r, hslot, hid, hclear⟩ | ⟨code, -, hclear⟩
      · exact .inr ⟨r, hslot, hid, by rw [hclear]⟩
      · exact .inl (by rw [hclear])

namespace SenderState

variable {κ : Type} {s t : SenderState κ}

/-- **A round of `pruneBacklog`**, with the test before it. -/
theorem prune_cases (h : s.prune = .ok t) :
    t = s ∨ ∃ entry rest rc pool b,
      s.sender.m_config.m_backlogLimitBytes < s.sender.m_backlog.m_backlogSizeBytes ∧
      s.sender.m_backlog.m_requestSet = entry :: rest ∧
      s.sender.m_backlog.pruneRound s.sender.pool s.sender.messages entry = .ok (rc, pool, b) ∧
      t = { s with sender := { s.sender.withPool pool with m_backlog := b } } := by
  unfold prune pruneStep at h
  dsimp only at h
  split at h
  · cases h
  · cases h
    exact .inl rfl
  · rename_i u hstep
    cases h
    split at hstep
    · rename_i hlimit
      split at hstep
      · cases hstep
      · rename_i entry rest hset
        split at hstep
        · cases hstep
        · rename_i rc pool b hround
          cases hstep
          exact .inr ⟨entry, rest, rc, pool, b, hlimit, hset, hround, rfl⟩
    · cases hstep

/-- **A round of `resendShippingBacklog`**, with the test before it. -/
theorem resend_cases {barrier : UInt64} {env : ResendEnv} (h : s.resend barrier env = .ok t) :
    (t = s ∧ ∀ entry rest, s.sender.m_backlog.m_requestSet = entry :: rest →
      ¬ (s.sender.pool.slot entry.m_request).m_resendTimeMillis < barrier) ∨
    ∃ entry rest rc sender sender', s.sender.m_backlog.m_requestSet = entry :: rest ∧
      (s.sender.pool.slot entry.m_request).m_resendTimeMillis < barrier ∧
      s.sender.resendRequest entry.m_msg env = .ok (rc, sender) ∧
      (rc ≠ .ok ∧ sender' = sender ∨ ∃ b, sender.m_backlog.updateReadyResendRequest sender.pool
        sender.messages = .ok b ∧ sender' = { sender with m_backlog := b }) ∧
      t = { s with sender := sender', clock := env.updateNow } := by
  unfold resend MsgSender.resendStep MsgBacklog.readyResendRequest at h
  dsimp only at h
  split at h
  · cases h
  · -- the round ends at once: the first entry is not due
    rename_i u hstep
    cases h
    refine .inl ⟨rfl, fun entry rest hset hready => ?_⟩
    rw [hset] at hstep
    dsimp only at hstep
    rw [if_pos hready] at hstep
    split at hstep
    · rename_i hnone
      cases hnone
    · split at hstep
      · cases hstep
      · split at hstep
        · cases hstep
        · split at hstep <;> cases hstep
  · -- the first entry is resent, and moved behind if that succeeds
    rename_i u hstep
    cases h
    right
    split at hstep
    · cases hstep
    · rename_i request hready
      split at hready
      · cases hready
      · rename_i entry rest hset
        split at hready
        · rename_i hbefore
          cases hready
          split at hstep
          · cases hstep
          · rename_i rc sender hresend
            split at hstep
            · rename_i hrc
              cases hstep
              exact ⟨entry, rest, rc, sender, sender, hset, hbefore, hresend, .inl ⟨hrc, rfl⟩, rfl⟩
            · split at hstep
              · cases hstep
              · rename_i b hupdate
                cases hstep
                exact ⟨entry, rest, rc, sender, _, hset, hbefore, hresend,
                  .inr ⟨b, hupdate, rfl⟩, rfl⟩
        · cases hready

/-- `updateReadyResendRequest` puts the first entry back, unless there is one that it cannot tell
    from it. -/
theorem updateReady_cases {b b' : MsgBacklog} {pool : MsgRequestPool}
    {messages : MsgPtr → Option Msg} {entry : BacklogEntry} {rest : List BacklogEntry}
    (hset : b.m_requestSet = entry :: rest)
    (h : b.updateReadyResendRequest pool messages = .ok b') :
    (∃ l, b' = { b with m_requestSet := l } ∧ l.Perm b.m_requestSet) ∨
    b' = { b with m_requestSet := rest } ∧
      insertPosition (entryRequestTimeCmp pool messages) entry rest = .ok none := by
  unfold MsgBacklog.updateReadyResendRequest at h
  rw [hset] at h
  dsimp only at h
  split at h
  · cases h
  · rename_i hposition
    cases h
    exact .inr ⟨rfl, hposition⟩
  · rename_i position hposition
    cases h
    refine .inl ⟨_, rfl, ?_⟩
    rw [hset]
    exact List.perm_insertIdx _ _ (insertPosition_le hposition)

/-- What `sendMsg` does in a run. -/
theorem send_cases {p : MsgPtr} {env : SendEnv} (h : s.send p env = .ok t) :
    t = { s with handed := p :: s.handed, clock := env.now } ∧ s.sender.m_stopResend = true ∨
    ∃ rc data c, s.sender.m_msgClient.sendMsg p 0 env = .ok (rc, data, c) ∧
      t = { s with
        sender := { s.sender with m_msgClient := c }, handed := p :: s.handed,
        clock := env.now } := by
  unfold send MsgSender.sendMsg at h
  split at h
  · rename_i hstop
    cases h
    exact .inl ⟨rfl, hstop⟩
  · split at h
    · cases h
    · rename_i rc data c hsend
      cases h
      exact .inr ⟨rc, data, c, hsend, rfl⟩

/-- What the first half of a transaction does in a run. -/
theorem transact_cases {p : MsgPtr} {env : SendEnv} (h : s.transact p env = .ok t) :
    (t = { s with handed := p :: s.handed } ∧ s.sender.m_stopResend = true) ∨
    (∃ data c, s.sender.m_msgClient.sendMsg p COMMUTIL_REQUEST_FLAG_TX env =
        .ok (.ok, some data, c) ∧
      t = ⟨{ s.sender with m_msgClient := c }, s.waiting ++ [(p, data)], p :: s.handed, env.now⟩) ∨
    ∃ rc data c rc' sender, s.sender.m_msgClient.sendMsg p COMMUTIL_REQUEST_FLAG_TX env =
        .ok (rc, data, c) ∧ rc ≠ .ok ∧
      ({ s.sender with m_msgClient := c } : MsgSender κ).endTransaction p rc = .ok (rc', sender) ∧
      t = ⟨sender, s.waiting, p :: s.handed, env.now⟩ := by
  unfold transact at h
  dsimp only at h
  split at h
  · rename_i hstop
    cases h
    exact .inl ⟨rfl, hstop⟩
  · right
    split at h
    · cases h
    · rename_i data c hsend
      cases h
      exact .inl ⟨data, c, hsend, rfl⟩
    · rename_i rc data c hother hsend
      right
      cases hend : ({ s.sender with m_msgClient := c } : MsgSender κ).endTransaction p rc with
      | error fault =>
        rw [hend] at h
        cases h
      | ok result =>
        rw [hend] at h
        cases h
        refine ⟨rc, data, c, result.1, result.2, hsend, ?_, hend, rfl⟩
        rintro rfl
        obtain ⟨d, hd⟩ := MsgSender.sendMsg_tx_data hsend
        exact hother d rfl hd

/-- What the second half of a transaction does in a run. -/
theorem finish_cases {k : Nat} {now : UInt64} (h : s.finish k now = .ok t) :
    (t = s ∧ s.waiting[k]? = none) ∨ ∃ p data sender, s.waiting[k]? = some (p, data) ∧
      s.sender.Ended data p now sender ∧ t = ⟨sender, s.waiting.eraseIdx k, s.handed, now⟩ := by
  unfold finish at h
  split at h
  · rename_i hnone
    cases h
    exact .inl ⟨rfl, hnone⟩
  · rename_i p data hk
    cases hend : s.sender.recvResponse data p now >>= fun result =>
        (result.2.endTransaction p result.1).map Prod.snd with
    | error fault =>
      rw [hend] at h
      cases h
    | ok sender =>
      rw [hend] at h
      cases h
      exact .inr ⟨p, data, sender, hk, MsgSender.recvResponse_cases hend, rfl⟩

/-- A sender without one of its writes. -/
def popped (s : SenderState κ) (k : Nat) : MsgSender κ :=
  { s.sender with m_msgClient :=
    { s.sender.m_msgClient with writes := s.writes.eraseIdx k } }

/-- What `onLoopSend` does in a run. -/
theorem loopSend_cases {k : Nat} (h : s.loopSend k = .ok t) :
    t = s ∨ t = { s with sender := s.popped k } ∨
    ∃ write p rc b, s.writes[k]? = some write ∧ write.userData = some p ∧
      s.sender.m_backlog.addPendingRequest s.sender.pool s.sender.messages p = .ok (rc, b) ∧
      t = { s with sender := { s.popped k with m_backlog := b } } := by
  unfold loopSend at h
  split at h
  · cases h
    exact .inl rfl
  · rename_i write hk
    have hmove : s.moveOn s.clock ((s.popped k).onLoopSend write.userData) = .ok t := h
    right
    cases hcall : (s.popped k).onLoopSend write.userData with
    | error fault =>
      rw [hcall] at hmove
      cases hmove
    | ok sender =>
      rw [hcall] at hmove
      cases hmove
      rcases MsgSender.onLoopSend_cases hcall with rfl | ⟨p, rc, b, hp, hadd, rfl⟩
      · exact .inl rfl
      · exact .inr ⟨write, p, rc, b, hk, hp, hadd, rfl⟩

/-- What a visit does in a run. -/
theorem visit_cases {index : Nat} {now : UInt64} (h : s.step (.visit index now) = .ok t) :
    ∃ sender, s.sender.processPendingResponse index now = .ok sender ∧
      t = { s with sender := sender, clock := now } := by
  have hmove : s.moveOn now (s.sender.processPendingResponse index now) = .ok t := h
  cases hcall : s.sender.processPendingResponse index now with
  | error fault =>
    rw [hcall] at hmove
    cases hmove
  | ok sender =>
    rw [hcall] at hmove
    cases hmove
    exact ⟨sender, rfl, rfl⟩

end SenderState

end Commutil.Client
