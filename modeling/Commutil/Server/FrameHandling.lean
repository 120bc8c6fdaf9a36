import Commutil.Framing.FrameDispatch
import Commutil.Server.MsgMultiplexer

/-!
# Handling a Frame

`MsgServer::onMsg` and `MsgSender::handleResponse`, which both hand a message to
`MsgFrameReader::readMsgFrame`, and what becomes of an exception from decompression.

The server's worker threads and the sender's I/O thread have no handler.  An exception that
leaves these functions ends the process: `Fault.uncaughtException`.  A compressed frame
without a payload does not even come so far, since the loop of the gzip wrapper is not left:
`Fault.outOfFuel`.  `corrupt_frame_reported_iff` says when neither happens.
-/

namespace Commutil.Server

open Commutil.Io Commutil.Framing Commutil.Framing.Dispatch Commutil.Library

variable {κ : Type}

/-! ## §1 The code -/

/-- `MsgServer::onMsg`: what becomes of the message, and the calls of the frame listener.  The
    result of `readMsgFrame` is logged. -/
def onMsg (z : Zlib) (byteOrder : ByteOrder) (listener : Listener κ) (connectionDetails : κ)
    (msg : Msg) : Except Fault (MsgAction × List (Call κ)) := do
  let (_, calls) ← readMsgFrame listener connectionDetails z byteOrder msg
  pure (.MSG_CAN_DELETE, calls)

/-- `MsgSender::handleResponse`. -/
def handleResponse (z : Zlib) (byteOrder : ByteOrder) (listener : Listener κ)
    (connectionDetails : κ) (response : Msg) : Except Fault (ErrorCode × List (Call κ)) :=
  readMsgFrame listener connectionDetails z byteOrder response

/-! ## §2 Corrupt frames -/

/-- The payload that is decompressed. -/
def compressedPayload (msg : Msg) : List UInt8 :=
  msg.m_payload.take (getPayloadSizeBytes msg.m_header)

/-- Decompression fails, or gives another length than the header says. -/
def Corrupt (z : Zlib) (msg : Msg) : Prop :=
  ∀ decompressed, z.decompress (compressedPayload msg) = .ok decompressed →
    decompressed.length ≠ msg.m_header.m_uncompressedLength.toNat

/-- The frame is read and no exception leaves the callers; if it is corrupt, the listener hears of
    that once, and of no message. -/
structure Reported (z : Zlib) (byteOrder : ByteOrder) (listener : Listener κ)
    (connectionDetails : κ) (msg : Msg) : Prop where
  frame : ∃ rc calls, readMsgFrame listener connectionDetails z byteOrder msg = .ok (rc, calls) ∧
    (Corrupt z msg → rc = .dataCorrupt ∧
      calls = [.handleMsgError connectionDetails msg.m_header .dataCorrupt])
  server : ∃ result, onMsg z byteOrder listener connectionDetails msg = .ok result
  sender : ∃ result, handleResponse z byteOrder listener connectionDetails msg = .ok result

/-- Where decompression does not return, neither does `readMsgFrame`. -/
theorem readMsgFrame_error {z : Zlib} {msg : Msg} {fault : Fault}
    (hroom : getPayloadSizeBytes msg.m_header ≤ msg.m_payload.length)
    (hcompressed : msg.m_header.isCompressed = true)
    (hrun : z.decompress (compressedPayload msg) = .error fault) (byteOrder : ByteOrder)
    (listener : Listener κ) (connectionDetails : κ) :
    readMsgFrame listener connectionDetails z byteOrder msg = .error fault := by
  have hpayload : MsgFrameReader.readPayload z msg = .error fault := by
    unfold MsgFrameReader.readPayload
    dsimp only
    rw [if_neg (by omega), if_pos hcompressed]
    unfold compressedPayload at hrun
    rw [hrun]
    rfl
  unfold readMsgFrame
  rw [hpayload, MsgFrameReader.handlePayload]

/-- **A corrupt compressed frame** is reported to the frame listener, and no exception leaves
    `readMsgFrame` and its callers, exactly if decompression of the payload returns. -/
theorem corrupt_frame_reported_iff (z : Zlib) (byteOrder : ByteOrder) (listener : Listener κ)
    (connectionDetails : κ) (msg : Msg)
    (hroom : getPayloadSizeBytes msg.m_header ≤ msg.m_payload.length)
    (hcompressed : msg.m_header.isCompressed = true) :
    Reported z byteOrder listener connectionDetails msg ↔
      z.Decompresses (compressedPayload msg) := by
  rw [← Zlib.decompress_ok_iff]
  constructor
  · intro h
    cases hrun : z.decompress (compressedPayload msg) with
    | ok decompressed => exact ⟨decompressed, rfl⟩
    | error fault =>
      obtain ⟨rc, calls, hframe, -⟩ := h.frame
      rw [readMsgFrame_error hroom hcompressed hrun] at hframe
      cases hframe
  · rintro ⟨decompressed, hrun⟩
    obtain ⟨rc, accepted, calls, hframe, -⟩ := @readMsgFrame_ending κ z byteOrder listener
      connectionDetails msg hroom fun _ => ⟨decompressed, hrun⟩
    refine ⟨⟨rc, calls, hframe, fun hcorrupt => ?_⟩, ?_, ⟨_, hframe⟩⟩
    · -- decompression returned, so the length is wrong
      have hwrong := readPayload_wrongSize hroom hcompressed hrun (hcorrupt decompressed hrun)
      unfold readMsgFrame at hframe
      rw [hwrong, MsgFrameReader.handlePayload] at hframe
      cases hframe
      exact ⟨rfl, rfl⟩
    · unfold onMsg
      rw [hframe]
      exact ⟨_, rfl⟩

/-- **A compressed frame without a payload** is never reported: while zlib accepts that there is
    nothing to inflate, the loop of the wrapper goes on for ever. -/
theorem empty_payload_not_reported {z : Zlib} {msg : Msg}
    (hroom : getPayloadSizeBytes msg.m_header ≤ msg.m_payload.length)
    (hcompressed : msg.m_header.isCompressed = true) (hempty : compressedPayload msg = [])
    (haccepted : ∀ n, Zlib.Accepted (z.inflate [] 0 n).1) (byteOrder : ByteOrder)
    (listener : Listener κ) (connectionDetails : κ) :
    LoopStep.Diverges (z.inflateStep (compressedPayload msg)) ([], 0) ∧
      ¬ Reported z byteOrder listener connectionDetails msg := by
  constructor
  · rw [hempty]
    exact Zlib.decompress_nil_diverges haccepted
  intro h
  obtain ⟨-, n, -, -, hroom'⟩ := (corrupt_frame_reported_iff z byteOrder listener
    connectionDetails msg hroom hcompressed).mp h
  rw [hempty] at hroom'
  exact Nat.not_lt_zero _ hroom'.2

/-- A frame that decompresses to one byte where its header says two is reported. -/
theorem corrupt_frame_reported_wrong_length :
    Reported gzipOfTwo .hostOrder (fun _ _ => .ok) ()
      (frameOf 7 COMMUTIL_MSG_FLAG_COMPRESSED 2 1
        [31, 139, 8, 0, 0, 0, 0, 0, 2, 3, 75, 4, 0, 67, 190, 183, 232, 1, 0, 0, 0]) :=
  (corrupt_frame_reported_iff gzipOfTwo .hostOrder _ () _ (by decide) (by decide)).mpr
    ((Zlib.decompress_ok_iff _ _).mp ⟨[97], by decide +kernel⟩)

/-- The three bytes of this payload are no gzip data.  The exception leaves `readMsgFrame` and
    both callers. -/
theorem corrupt_frame_throws :
    readMsgFrame (fun _ _ => .ok) () gzipOfTwo .hostOrder
        (frameOf 7 COMMUTIL_MSG_FLAG_COMPRESSED 1 1 [1, 2, 3]) = .error .uncaughtException ∧
      ¬ Reported gzipOfTwo .hostOrder (fun _ _ => .ok) ()
        (frameOf 7 COMMUTIL_MSG_FLAG_COMPRESSED 1 1 [1, 2, 3]) := by
  have hthrows : readMsgFrame (fun _ _ => .ok) () gzipOfTwo .hostOrder
      (frameOf 7 COMMUTIL_MSG_FLAG_COMPRESSED 1 1 [1, 2, 3]) = .error .uncaughtException :=
    readMsgFrame_error (by decide) (by decide) (by decide +kernel) _ _ _
  refine ⟨hthrows, fun h => ?_⟩
  obtain ⟨rc, calls, hrun, -⟩ := h.frame
  rw [hthrows] at hrun
  cases hrun

end Commutil.Server
