import Commutil.Client.SenderRun

/-!
# Where a Message Could Be Freed Again

`freeMsg` is the only call that meets a message which was freed already.  The end of a transaction
reads the message before it frees it, so that a second free is left to `processPendingResponses`:
the slot that is visited holds a message that is gone (`step_doubleFree`).
-/

namespace Commutil.Client

open Commutil.Framing Commutil.Io Commutil.Library

variable {κ : Type}

/-! ## §1 Reading and writing messages -/

theorem decompress_ne_doubleFree (z : Zlib) (data : List UInt8) :
    z.decompress data ≠ .error .doubleFree := by
  intro h
  rcases Zlib.decompress_error h with hthrows | ⟨hendless, -⟩
  · cases hthrows
  · cases hendless

theorem readPayload_ne_doubleFree (z : Zlib) (msg : Msg) :
    MsgFrameReader.readPayload z msg ≠ .error .doubleFree := by
  unfold MsgFrameReader.readPayload
  dsimp only
  split
  · exact nofun
  · split
    · cases hrun : z.decompress (msg.m_payload.take (getPayloadSizeBytes msg.m_header)) with
      | error fault =>
        intro h
        obtain rfl := Except.error.inj h
        exact decompress_ne_doubleFree z _ hrun
      | ok decompressed =>
        dsimp only [bind, Except.bind, pure, Except.pure]
        split <;> exact nofun
    · exact nofun

/-- The messages of a batch are read without a fault. -/
theorem readBatch_ne_doubleFree (listener : Dispatch.Listener κ) (details : κ) (header : MsgHeader)
    (batchSize remaining : Nat) (is : FixedInputStream) (calls : List (Dispatch.Call κ)) :
    MsgFrameReader.readBatch listener details header batchSize remaining is calls ≠
      .error .doubleFree := by
  induction remaining generalizing is calls with
  | zero => rintro ⟨⟩
  | succ remaining ih =>
    rw [MsgFrameReader.readBatch, Dispatch.readMsg_position]
    rcases Dispatch.readMsg_cases is with ⟨range, is', hread⟩ | ⟨is', hread⟩
    · rw [hread]
      dsimp only
      split
      · rintro ⟨⟩
      · exact ih _ _
    · rw [hread]
      rintro ⟨⟩

theorem readMsgFrame_ne_doubleFree (listener : Dispatch.Listener κ) (details : κ) (z : Zlib)
    (byteOrder : ByteOrder) (msg : Msg) :
    Dispatch.readMsgFrame listener details z byteOrder msg ≠ .error .doubleFree := by
  unfold Dispatch.readMsgFrame
  cases hpayload : MsgFrameReader.readPayload z msg with
  | error fault =>
    intro h
    obtain rfl := Except.error.inj h
    exact readPayload_ne_doubleFree z msg hpayload
  | ok payload =>
    cases payload with
    | error rc => exact nofun
    | ok buffer =>
      unfold MsgFrameReader.handlePayload MsgFrameReader.dispatchPayload
      dsimp only
      split
      · exact nofun
      · by_cases hshort : (FixedInputStream.new buffer byteOrder).size < 4
        · rw [FixedInputStream.deserializeUInt_short hshort]
          exact nofun
        · rw [FixedInputStream.deserializeUInt_eq (by decide) (Nat.not_lt.mp hshort)]
          dsimp only
          split
          · exact nofun
          · exact readBatch_ne_doubleFree _ _ _ _ _ _ _

theorem transmit_ne_doubleFree (order : ByteOrder) (msg : Msg) (env : SendEnv) :
    transmit order msg env ≠ .error .doubleFree := by
  have hserialize : ∀ os, msg.serialize os ≠ .error .doubleFree := by
    intro os
    unfold Msg.serialize
    split
    · exact nofun
    · split <;> exact nofun
  unfold transmit
  split
  · exact nofun
  · split
    · rename_i fault hfault
      intro h
      obtain rfl := Except.error.inj h
      exact hserialize _ hfault
    · exact nofun
    · split <;> exact nofun

/-! ## §2 The backlog -/

section Backlog

variable {b : MsgBacklog} {pool : MsgRequestPool} {messages : MsgPtr → Option Msg} {p : MsgPtr}

theorem readHeader_error {fault : Fault} (h : readHeader messages p = .error fault) :
    fault = .useAfterFree := by
  unfold readHeader at h
  split at h
  · cases h
  · exact (Except.error.inj h).symm

/-- Two entries are compared by reading their messages. -/
theorem entryTimeCmp_error {time : MsgRequest → UInt64} {x y : BacklogEntry} {fault : Fault}
    (h : entryTimeCmp time pool messages x y = .error fault) : fault = .useAfterFree := by
  unfold entryTimeCmp at h
  dsimp only at h
  split at h
  · cases h
  · split at h
    · cases h
    · split at h
      · rename_i hread
        obtain rfl := Except.error.inj h
        exact readHeader_error hread
      · rename_i hread
        obtain rfl := Except.error.inj h
        exact readHeader_error hread
      · cases h

theorem insertPosition_error {time : MsgRequest → UInt64} {x : BacklogEntry}
    {l : List BacklogEntry} {fault : Fault}
    (h : insertPosition (entryTimeCmp time pool messages) x l = .error fault) :
    fault = .useAfterFree := by
  induction l with
  | nil => cases h
  | cons y ys ih =>
    rw [insertPosition] at h
    split at h
    · rename_i hless
      obtain rfl := Except.error.inj h
      exact entryTimeCmp_error hless
    · cases h
    · rename_i hless
      obtain rfl := Except.error.inj h
      exact entryTimeCmp_error hless
    · cases h
    · split at h
      · rename_i hrest
        obtain rfl := Except.error.inj h
        exact ih hrest
      · cases h
      · cases h

theorem MsgBacklog.addPendingRequest_error {fault : Fault}
    (h : b.addPendingRequest pool messages p = .error fault) : fault = .useAfterFree := by
  unfold addPendingRequest at h
  split at h
  · rename_i hread
    obtain rfl := Except.error.inj h
    exact readHeader_error hread
  · split at h
    · cases h
    · dsimp only at h
      split at h
      · cases h
      · split at h
        · rename_i hposition
          obtain rfl := Except.error.inj h
          exact insertPosition_error hposition
        · cases h
        · split at h
          · rename_i hposition
            obtain rfl := Except.error.inj h
            exact insertPosition_error hposition
          · cases h
          · cases h

theorem MsgBacklog.removePendingRequest_error {fault : Fault}
    (h : b.removePendingRequest pool messages p = .error fault) : fault = .useAfterFree := by
  unfold removePendingRequest at h
  split at h
  · rename_i hread
    obtain rfl := Except.error.inj h
    exact readHeader_error hread
  · split at h
    · cases h
    · dsimp only at h
      split at h
      · cases h
      · split at h <;> cases h

theorem MsgBacklog.pruneRound_error {entry : BacklogEntry} {fault : Fault}
    (h : b.pruneRound pool messages entry = .error fault) : fault = .useAfterFree := by
  unfold pruneRound at h
  split at h
  · rename_i hread
    obtain rfl := Except.error.inj h
    exact readHeader_error hread
  · dsimp only at h
    split at h
    · rename_i hremove
      obtain rfl := Except.error.inj h
      exact removePendingRequest_error hremove
    · cases h

theorem MsgBacklog.updateReady_error {fault : Fault}
    (h : b.updateReadyResendRequest pool messages = .error fault) :
    fault = .outOfBounds ∨ fault = .useAfterFree := by
  unfold updateReadyResendRequest at h
  split at h
  · exact .inl (Except.error.inj h).symm
  · split at h
    · rename_i hposition
      obtain rfl := Except.error.inj h
      exact .inr (insertPosition_error hposition)
    · cases h
    · cases h

end Backlog

/-! ## §3 The client -/

namespace MsgClient

variable {c : MsgClient} {p : MsgPtr} {env : SendEnv}

theorem load_error {fault : Fault} (h : c.load p = .error fault) : fault = .useAfterFree := by
  unfold load at h
  split at h
  · cases h
  · exact (Except.error.inj h).symm

theorem sendThrough_ne_doubleFree {msg : Msg} {index : Nat} {r : MsgRequest}
    {userData : Option MsgPtr} : c.sendThrough msg index r userData env ≠ .error .doubleFree := by
  intro h
  unfold sendThrough at h
  split at h
  · rename_i hfault
    obtain rfl := Except.error.inj h
    exact transmit_ne_doubleFree _ _ _ hfault
  · cases h
  · cases h

theorem grabSlot_error {pool : MsgRequestPool} {fault : Fault} (h : pool.grabSlot = .error fault) :
    fault = .divideByZero := by
  rcases pool.grabSlot_cases with ⟨_, _, -, -, hgrab⟩ | ⟨-, -, hgrab⟩ | ⟨-, hgrab⟩
  · rw [hgrab] at h
    cases h
  · rw [hgrab] at h
    cases h
  · rw [hgrab] at h
    exact (Except.error.inj h).symm

theorem sendMsg_ne_doubleFree {requestFlags : UInt32} :
    c.sendMsg p requestFlags env ≠ .error .doubleFree := by
  intro h
  unfold sendMsg at h
  split at h
  · unfold sendReused at h
    split at h
    · rename_i hload
      obtain rfl := Except.error.inj h
      cases load_error hload
    · split at h
      · cases h
      · dsimp only at h
        split at h
        · rename_i hsend
          obtain rfl := Except.error.inj h
          exact sendThrough_ne_doubleFree hsend
        · cases h
  · unfold sendNew at h
    split at h
    · rename_i hgrab
      obtain rfl := Except.error.inj h
      cases grabSlot_error hgrab
    · cases h
    · split at h
      · dsimp only at h
        split at h
        · rename_i hsend
          obtain rfl := Except.error.inj h
          exact sendThrough_ne_doubleFree hsend
        · cases h
      · rename_i hload
        obtain rfl := Except.error.inj h
        cases load_error hload
      · cases h

end MsgClient

/-! ## §4 The sender -/

namespace MsgSender

variable {s : MsgSender κ} {p : MsgPtr}

theorem handleResponse_ne_doubleFree {response : Msg} :
    s.handleResponse response ≠ .error .doubleFree := by
  intro h
  unfold handleResponse at h
  dsimp only at h
  have hread := readMsgFrame_ne_doubleFree
    (fun calls => s.m_frameReader.m_frameListener (s.calls ++ calls))
    s.m_frameReader.connectionDetails s.m_frameReader.z s.m_frameReader.m_byteOrder response
  generalize Dispatch.readMsgFrame
      (fun calls => s.m_frameReader.m_frameListener (s.calls ++ calls))
      s.m_frameReader.connectionDetails s.m_frameReader.z s.m_frameReader.m_byteOrder response =
    run at h hread
  cases run with
  | error fault =>
    cases h
    exact hread rfl
  | ok result => cases h

theorem removeFromBacklog_error {request : Option MsgPtr} {fault : Fault}
    (h : s.removeFromBacklog request = .error fault) :
    fault = .nullDereference ∨ fault = .useAfterFree := by
  unfold removeFromBacklog at h
  split at h
  · exact .inl (Except.error.inj h).symm
  · split at h
    · rename_i hremove
      obtain rfl := Except.error.inj h
      exact .inr (MsgBacklog.removePendingRequest_error hremove)
    · cases h

theorem removeFromBacklog_ne_doubleFree {request : Option MsgPtr} :
    s.removeFromBacklog request ≠ .error .doubleFree := by
  intro h
  rcases removeFromBacklog_error h with heq | heq
  · cases heq
  · cases heq

theorem takeResponse_ne_doubleFree {request : Option MsgPtr} {response : Option Msg} :
    s.takeResponse request response ≠ .error .doubleFree := by
  cases response with
  | none => exact nofun
  | some response =>
    intro h
    rw [takeResponse] at h
    rcases of_bind_error h with hhandle | ⟨result, -, h⟩
    · exact handleResponse_ne_doubleFree hhandle
    · dsimp only at h
      split at h
      · rcases of_bind_error h with hremove | ⟨_, -, h⟩
        · exact removeFromBacklog_ne_doubleFree hremove
        · cases h
      · cases h

/-- Only a message that is gone is freed again. -/
theorem freeMsg_doubleFree {request : Option MsgPtr} {fault : Fault}
    (h : s.freeMsg request = .error fault) : ∃ p, request = some p ∧ s.messages p = none := by
  cases request with
  | none => cases h
  | some p =>
    refine ⟨p, rfl, ?_⟩
    unfold freeMsg at h
    dsimp only at h
    split at h
    · assumption
    · cases h

/-- **A visit frees a message again** only if the slot has one that is gone. -/
theorem processPendingResponse_doubleFree {index : Nat} {now : UInt64}
    (h : s.processPendingResponse index now = .error .doubleFree) :
    ∃ r p, s.pool.m_requests[index]? = some r ∧ r.m_request = some p ∧ s.messages p = none := by
  unfold processPendingResponse at h
  dsimp only at h
  split at h
  · cases h
  · rename_i hskip
    obtain ⟨hvacant, -⟩ := not_or.mp fun hor => hskip ((Bool.or_eq_true _ _).mpr hor)
    obtain ⟨r, hr⟩ := exists_slot hvacant
    rw [slot_eq hr] at h
    -- either branch that frees, frees what the slot holds
    have hfree : ∀ s₁ : MsgSender κ, s₁.messages = s.messages →
        s₁.freeMsg r.m_request = .error .doubleFree →
        ∃ r p, s.pool.m_requests[index]? = some r ∧ r.m_request = some p ∧ s.messages p = none := by
      intro s₁ hmessages hfreed
      obtain ⟨p, hp, hgone⟩ := freeMsg_doubleFree hfreed
      exact ⟨r, p, hr, hp, hmessages ▸ hgone⟩
    split at h
    · rename_i response _
      cases htake : (s.setSlot index r.clearResponse).takeResponse r.m_request response with
      | error fault =>
        rw [htake] at h
        obtain rfl := Except.error.inj h
        exact absurd htake takeResponse_ne_doubleFree
      | ok s₁ =>
        have hmessages : s₁.messages = (s.setSlot index r.clearResponse).messages :=
          takeResponse_messages htake
        rw [htake] at h
        exact hfree s₁ hmessages h
    · split at h
      -- aborted: freed without a look at the response
      · exact hfree (s.setSlot index r.clearResponse) rfl h
      · cases h

/-- The end of a transaction reads the message before it frees it. -/
theorem endTransaction_error {rc : ErrorCode} {fault : Fault}
    (h : s.endTransaction p rc = .error fault) : fault = .useAfterFree := by
  unfold endTransaction at h
  cases hmsg : s.messages p with
  | none =>
    rw [load_none hmsg] at h
    exact (Except.error.inj h).symm
  | some msg =>
    rw [load_eq hmsg] at h
    dsimp only at h
    split at h
    · have hfree := freeMsg_eq_ok.mpr ⟨Option.isSome_iff_exists.mpr ⟨msg, hmsg⟩, rfl⟩
      rw [hfree] at h
      cases h
    · cases h

theorem renewRequestId_ne_doubleFree {now : UInt64} :
    s.renewRequestId p now ≠ .error .doubleFree := by
  intro h
  unfold renewRequestId at h
  split at h
  · rename_i hgrab
    obtain rfl := Except.error.inj h
    cases MsgClient.grabSlot_error hgrab
  · rename_i hload
    obtain rfl := Except.error.inj h
    cases MsgClient.load_error hload
  · cases h
  · cases h

theorem releaseTransaction_ne_doubleFree : s.releaseTransaction p ≠ .error .doubleFree := by
  intro h
  unfold releaseTransaction at h
  split at h
  · rename_i hload
    obtain rfl := Except.error.inj h
    cases MsgClient.load_error hload
  · split at h <;> cases h

theorem recvResponse_ne_doubleFree {data : MsgRequestData} {now : UInt64} :
    s.recvResponse data p now ≠ .error .doubleFree := by
  intro h
  unfold recvResponse at h
  split at h
  · rcases of_bind_error h with hhandle | ⟨result, -, h⟩
    · exact handleResponse_ne_doubleFree hhandle
    · dsimp only at h
      split at h
      · exact renewRequestId_ne_doubleFree h
      · rcases of_bind_error h with hremove | ⟨_, -, h⟩
        · exact removeFromBacklog_ne_doubleFree hremove
        · cases h
  · rcases of_bind_error h with hrelease | ⟨_, -, h⟩
    · exact releaseTransaction_ne_doubleFree hrelease
    · cases h

theorem onLoopSend_ne_doubleFree {request : Option MsgPtr} :
    s.onLoopSend request ≠ .error .doubleFree := by
  intro h
  unfold onLoopSend at h
  split at h
  · cases h
  · split at h
    · rename_i hload
      obtain rfl := Except.error.inj h
      cases MsgClient.load_error hload
    · split at h
      · cases h
      · split at h
        · cases h
        · split at h
          · rename_i hadd
            obtain rfl := Except.error.inj h
            cases MsgBacklog.addPendingRequest_error hadd
          · cases h

theorem resendNamed_ne_doubleFree {env : ResendEnv} : s.resendNamed p env ≠ .error .doubleFree := by
  intro h
  unfold resendNamed at h
  split at h
  · rename_i hload
    obtain rfl := Except.error.inj h
    cases MsgClient.load_error hload
  · split at h
    · cases h
    · unfold resendFound at h
      split at h
      · rcases of_bind_error h with hresend | ⟨_, -, h⟩
        · unfold resendMsg at hresend
          split at hresend
          · rename_i hsend
            obtain rfl := Except.error.inj hresend
            exact MsgClient.sendMsg_ne_doubleFree hsend
          · cases hresend
        · cases h
      · cases h

theorem resendRequest_ne_doubleFree {env : ResendEnv} :
    s.resendRequest p env ≠ .error .doubleFree := by
  intro h
  unfold resendRequest at h
  split at h
  · rename_i hload
    obtain rfl := Except.error.inj h
    cases MsgClient.load_error hload
  · split at h
    · split at h
      · rename_i hrenew
        obtain rfl := Except.error.inj h
        exact renewRequestId_ne_doubleFree hrenew
      · split at h
        · cases h
        · exact resendNamed_ne_doubleFree h
    · exact resendNamed_ne_doubleFree h

end MsgSender

/-! ## §5 Events -/

namespace SenderState

variable {s : SenderState κ} {p : MsgPtr}

theorem moveOn_error {now : UInt64} {sender : Except Fault (MsgSender κ)} {fault : Fault}
    (h : s.moveOn now sender = .error fault) : sender = .error fault := by
  cases sender with
  | error f =>
    obtain rfl := Except.error.inj h
    rfl
  | ok t => cases h

theorem send_ne_doubleFree {env : SendEnv} : s.send p env ≠ .error .doubleFree := by
  intro h
  have hsend := moveOn_error (s := { s with handed := p :: s.handed }) h
  unfold MsgSender.sendMsg at hsend
  split at hsend
  · cases hsend
  · split at hsend
    · rename_i hcall
      obtain rfl := Except.error.inj hsend
      exact MsgClient.sendMsg_ne_doubleFree hcall
    · cases hsend

theorem transact_ne_doubleFree {env : SendEnv} : s.transact p env ≠ .error .doubleFree := by
  intro h
  unfold transact at h
  dsimp only at h
  split at h
  · cases h
  · split at h
    · rename_i hcall
      obtain rfl := Except.error.inj h
      exact MsgClient.sendMsg_ne_doubleFree hcall
    · cases h
    · rename_i rc data c _ _
      -- the transaction ends at once, and reads the message before it frees it
      cases hend : ({ s.sender with m_msgClient := c } : MsgSender κ).endTransaction p rc with
      | error fault =>
        rw [hend] at h
        obtain rfl := Except.error.inj h
        cases MsgSender.endTransaction_error hend
      | ok result =>
        rw [hend] at h
        cases h

theorem finish_ne_doubleFree {k : Nat} {now : UInt64} : s.finish k now ≠ .error .doubleFree := by
  intro h
  unfold finish at h
  split at h
  · cases h
  · rename_i p data _
    have hcall := moveOn_error (s := { s with waiting := s.waiting.eraseIdx k }) h
    cases hrecv : s.sender.recvResponse data p now with
    | error fault =>
      rw [hrecv] at hcall
      obtain rfl := Except.error.inj hcall
      exact MsgSender.recvResponse_ne_doubleFree hrecv
    | ok result =>
      rw [hrecv] at hcall
      dsimp only [bind, Except.bind] at hcall
      cases hend : result.2.endTransaction p result.1 with
      | error fault =>
        rw [hend] at hcall
        obtain rfl := Except.error.inj hcall
        cases MsgSender.endTransaction_error hend
      | ok result =>
        rw [hend] at hcall
        cases hcall

theorem loopSend_ne_doubleFree {k : Nat} : s.loopSend k ≠ .error .doubleFree := by
  intro h
  unfold loopSend at h
  split at h
  · cases h
  · exact MsgSender.onLoopSend_ne_doubleFree (moveOn_error h)

/-- A round of pruning reads the message before it frees it. -/
theorem prune_ne_doubleFree : s.prune ≠ .error .doubleFree := by
  intro h
  unfold prune pruneStep at h
  dsimp only at h
  split at h
  · rename_i hstep
    obtain rfl := Except.error.inj h
    split at hstep
    · split at hstep
      · cases hstep
      · split at hstep
        · rename_i hround
          cases hstep
          cases MsgBacklog.pruneRound_error hround
        · cases hstep
    · cases hstep
  · cases h
  · cases h

/-- A resend frees nothing, and the reorder of the backlog can only meet other faults. -/
theorem resend_ne_doubleFree {barrier : UInt64} {env : ResendEnv} :
    s.resend barrier env ≠ .error .doubleFree := by
  intro h
  unfold resend MsgSender.resendStep at h
  dsimp only at h
  split at h
  · rename_i hstep
    obtain rfl := Except.error.inj h
    split at hstep
    · cases hstep
    · split at hstep
      · rename_i hresend
        cases hstep
        exact MsgSender.resendRequest_ne_doubleFree hresend
      · split at hstep
        · cases hstep
        · split at hstep
          · rename_i hupdate
            cases hstep
            rcases MsgBacklog.updateReady_error hupdate with heq | heq <;> cases heq
          · cases hstep
  · cases h
  · cases h

/-- **Where a message could be freed again**: at a visit of a slot that has one that is gone. -/
theorem step_doubleFree {e : SenderEvent} (h : s.step e = .error .doubleFree) :
    ∃ (index : Nat) (r : MsgRequest) (p : MsgPtr), s.slots[index]? = some r ∧
      r.m_request = some p ∧ s.sender.messages p = none := by
  cases e with
  | allocate | recv | disconnect | connect => cases h
  | send p env => exact absurd h send_ne_doubleFree
  | transact p env => exact absurd h transact_ne_doubleFree
  | finish k now => exact absurd h finish_ne_doubleFree
  | loopSend k => exact absurd h loopSend_ne_doubleFree
  -- the only event that frees what a slot points to without having read it
  | visit index now =>
    obtain ⟨r, p, hr, hp, hgone⟩ := MsgSender.processPendingResponse_doubleFree (moveOn_error h)
    exact ⟨index, r, p, hr, hp, hgone⟩
  | prune => exact absurd h prune_ne_doubleFree
  | resend barrier env => exact absurd h resend_ne_doubleFree

end SenderState

end Commutil.Client
