import Commutil.Framing.Decoding
import Commutil.Io.InterchangeableStreams

/-!
# Decoding Frames of Every Size

`Msg::serialize` against `Msg::deserialize` on the two input streams, for every
message whose length says what follows its header, the payload possibly empty.

Both streams give back the frame as long as anything follows the header.  If
nothing does, the payload of no bytes is read from a depleted stream, and the two
streams fail in two ways: one reports its end, the other follows a null pointer.
-/

namespace Commutil.Framing

open Commutil.Io Commutil.Library ByteQueue

/-! ## §1 On any byte queue -/

section Queue

variable {σ : Type} [SkippingStream σ] {order : ByteOrder} {R : σ → List UInt8 → Prop}

/-- **A header** is decoded from its bytes. -/
theorem decodes_header (hq : IsByteQueue order R) (h : MsgHeader)
    (hmagic : h.m_magic.length = COMMUTIL_MSG_MAGIC_SIZE) :
    Decodes R MsgHeader.deserialize (headerBytes order h) h := by
  have hne : h.m_magic ≠ [] := List.length_pos_iff.mp (by rw [hmagic]; decide)
  have hread := hq.decodes_read hne
  rw [hmagic] at hread
  have h2 : ∀ v : UInt16, Decodes R (deserializeUInt 2) (encodeUInt order 2 v.toNat) v.toNat :=
    fun v => hq.decodes_uint (by decide) v.toNat_lt
  have h4 : ∀ v : UInt32, Decodes R (deserializeUInt 4) (encodeUInt order 4 v.toNat) v.toNat :=
    fun v => hq.decodes_uint (by decide) v.toNat_lt
  have h8 : ∀ v : UInt64, Decodes R (deserializeUInt 8) (encodeUInt order 8 v.toNat) v.toNat :=
    fun v => hq.decodes_uint (by decide) v.toNat_lt
  unfold MsgHeader.deserialize headerBytes
  refine hread.bind ?_
  refine (h4 h.m_length).bind ?_
  refine (h2 h.m_msgId).bind ?_
  refine (h2 h.m_flags).bind ?_
  refine (h8 h.m_requestId).bind ?_
  refine (h4 h.m_requestIndex).bind ?_
  refine (h4 h.m_uncompressedLength).bind ?_
  refine (h4 h.m_batchSize).bind ?_
  rw [← List.append_nil (encodeUInt order 4 h.m_reserved.toNat)]
  refine (h4 h.m_reserved).bind ?_
  simp only [UInt32.ofNat_toNat, UInt16.ofNat_toNat, UInt64.ofNat_toNat]
  exact Decodes.pure h

variable {m : Msg} {after : List UInt8}

/-- `Msg::deserialize` gives back the message and takes exactly its frame. -/
def DecodesFrame (R : σ → List UInt8 → Prop) (capacity : Nat) (s : σ) (m : Msg)
    (after : List UInt8) : Prop :=
  ∃ s', Msg.deserialize capacity s = .ok (.ok m, s') ∧ R s' after

/-- Where bytes follow the header the frame is decoded. -/
theorem decodesFrame_of_more (hq : IsByteQueue order R)
    (hmagic : m.m_header.m_magic.length = COMMUTIL_MSG_MAGIC_SIZE)
    (hlength : m.m_header.m_length.toNat = 40 + m.m_payload.length) {s : σ}
    (hR : R s ((headerBytes order m.m_header ++ m.m_payload) ++ after))
    (hmore : m.m_payload ≠ [] ∨ after ≠ []) :
    DecodesFrame R m.m_header.m_length.toNat s m after := by
  rw [List.append_assoc] at hR
  obtain ⟨s₁, hheader, hR₁⟩ := decodes_header hq m.m_header hmagic _ s hR
  have hne : m.m_payload ++ after ≠ [] := by
    rcases hmore with hpayload | hafter
    · exact List.append_ne_nil_of_left_ne_nil hpayload _
    · exact List.append_ne_nil_of_right_ne_nil _ hafter
  obtain ⟨s₂, hpayload, hR₂⟩ := hq.readBytes_eq hR₁ hne m.m_payload.length
  rw [List.take_left] at hpayload
  rw [List.drop_left] at hR₂
  have hroom : ¬ m.m_header.m_length.toNat < sizeofMsgHeader + m.m_payload.length := by
    rw [hlength, sizeofMsgHeader]
    omega
  refine ⟨s₂, ?_, hR₂⟩
  unfold Msg.deserialize
  rw [StreamM.bind_ok hheader]
  unfold Msg.readPayload
  rw [Msg.payloadSize_eq hlength, hpayload]
  simp only [if_neg hroom, ne_eq, not_true, if_false]

/-- A bare header at the end of the stream is followed by a read from a depleted stream. -/
theorem deserialize_bare (hq : IsByteQueue order R)
    (hmagic : m.m_header.m_magic.length = COMMUTIL_MSG_MAGIC_SIZE) {s : σ}
    (hR : R s (headerBytes order m.m_header)) (capacity : Nat) :
    ∃ s', R s' [] ∧ Msg.deserialize capacity s = Msg.readPayload capacity m.m_header s' := by
  obtain ⟨s', hheader, hR'⟩ := decodes_header hq m.m_header hmagic [] s (by rwa [List.append_nil])
  refine ⟨s', hR', ?_⟩
  unfold Msg.deserialize
  rw [StreamM.bind_ok hheader]

/-- **When a stream decodes a frame**: always, unless nothing follows the header and the stream
    does not hand out the no bytes of the payload. -/
theorem decodesFrame_iff (hq : IsByteQueue order R)
    (hmagic : m.m_header.m_magic.length = COMMUTIL_MSG_MAGIC_SIZE)
    (hlength : m.m_header.m_length.toNat = 40 + m.m_payload.length) {s : σ}
    (hR : R s ((headerBytes order m.m_header ++ m.m_payload) ++ after))
    (hend : ∀ s', R s' [] → ∀ s'' capacity,
      Msg.readPayload capacity m.m_header s' ≠ .ok (.ok m, s'')) :
    DecodesFrame R m.m_header.m_length.toNat s m after ↔ m.m_payload ≠ [] ∨ after ≠ [] := by
  constructor
  · rintro ⟨s'', hrun, -⟩
    apply Decidable.byContradiction
    intro hnone
    simp only [ne_eq, not_or, Decidable.not_not] at hnone
    rw [hnone.1, hnone.2, List.append_nil, List.append_nil] at hR
    obtain ⟨s', hR', hbare⟩ := deserialize_bare hq hmagic hR m.m_header.m_length.toNat
    exact hend s' hR' s'' _ (hbare.symm.trans hrun)
  · exact decodesFrame_of_more hq hmagic hlength hR

end Queue

/-! ## §2 On the two streams -/

/-- The fixed stream reports the end in place of the payload. -/
theorem fixed_readPayload_end {order : ByteOrder} {is : FixedInputStream}
    (hR : is.Holds order []) (capacity : Nat) (header : MsgHeader) (m : Msg)
    (is' : FixedInputStream) : Msg.readPayload capacity header is ≠ .ok (.ok m, is') := by
  intro h
  unfold Msg.readPayload at h
  rw [(FixedInputStream.reportsEnd order).readBytes_eq hR] at h
  dsimp only at h
  split at h
  · cases h
  · simp at h

/-- The segmented stream follows a null pointer in place of the payload. -/
theorem segmented_readPayload_end {order : ByteOrder} {s : SegmentedInputStream}
    (hR : s.Holds order []) (capacity : Nat) (header : MsgHeader) (m : Msg)
    (s' : SegmentedInputStream) : Msg.readPayload capacity header s ≠ .ok (.ok m, s') := by
  intro h
  unfold Msg.readPayload at h
  rw [(SegmentedInputStream.faultsAtEnd order).readBytes_eq hR] at h
  cases h

/-- **Frames of every size.**  A message whose length is that of its header and payload is written
    as so many bytes; `allocMsg` makes room for as many; and read into this room, from a fixed
    stream or from a segmented one in any segmentation, from any position, it is given back and
    exactly its frame is taken, if and only if the payload is not empty or further bytes follow. -/
theorem frame_decodes_iff (order : ByteOrder) (m : Msg)
    (hmagic : m.m_header.m_magic.length = COMMUTIL_MSG_MAGIC_SIZE)
    (hlength : m.m_header.m_length.toNat = 40 + m.m_payload.length) :
    ∃ frame, frame.length = m.m_header.m_length.toNat ∧
      (∀ os : FixedOutputStream, os.m_byteOrder = order →
        os.m_buffer.length + (40 + m.m_payload.length) ≤ os.m_bufferSize →
        m.serialize os = .ok (.ok { os with m_buffer := os.m_buffer ++ frame })) ∧
      allocMsg m.m_header true = .ok (some m.m_header.m_length.toNat) ∧
      ∀ after : List UInt8,
        (∀ is : FixedInputStream, is.Holds order (frame ++ after) →
          (DecodesFrame (FixedInputStream.Holds order) m.m_header.m_length.toNat is m after ↔
            m.m_payload ≠ [] ∨ after ≠ [])) ∧
        (∀ s : SegmentedInputStream, s.Holds order (frame ++ after) →
          (DecodesFrame (SegmentedInputStream.Holds order) m.m_header.m_length.toNat s m after ↔
            m.m_payload ≠ [] ∨ after ≠ [])) ∧
        ∀ (base : Nat) (log segments : List Buffer),
          SegmentedInputStream.Splits segments (frame ++ after) →
          (frame ++ after).length < 2 ^ 32 →
          ∃ s, (SegmentedInputStream.new order base log).appendBuffers segments = .ok s ∧
            s.Holds order (frame ++ after) := by
  refine ⟨headerBytes order m.m_header ++ m.m_payload, ?_, ?_, ?_, ?_⟩
  · rw [List.length_append, headerBytes_length order m.m_header hmagic, hlength]
  · intro os horder hroom
    rw [Msg.serialize_eq hmagic hlength os hroom, horder]
  · have hsize := msgBufSize_of_le (h := m.m_header) (by omega)
    have hroom : ¬ m.m_header.m_length.toNat < sizeofMsgHeader := by
      rw [hlength, sizeofMsgHeader]
      omega
    simp only [allocMsg, hsize, Bool.not_true, Bool.false_eq_true, if_false, if_neg hroom]
  · intro after
    refine ⟨?_, ?_, ?_⟩
    · intro is hR
      exact decodesFrame_iff (FixedInputStream.isByteQueue order) hmagic hlength hR
        fun is' hend is'' capacity => fixed_readPayload_end hend capacity m.m_header m is''
    · intro s hR
      exact decodesFrame_iff (SegmentedInputStream.isByteQueue order) hmagic hlength hR
        fun s' hend s'' capacity => segmented_readPayload_end hend capacity m.m_header m s''
    · intro base log segments hsplits hlen
      obtain ⟨s, hs, hinv, horder, hunread⟩ := hsplits.appendBuffers_new hlen order base log
      exact ⟨s, hs, hinv, horder, hunread⟩

/-- A frame with one byte of payload, and a bare header that something follows. -/
theorem frame_decodes_one_byte :
    (∃ frame, frame.length = 41 ∧ ∀ is : FixedInputStream, is.Holds .networkOrder frame →
      DecodesFrame (FixedInputStream.Holds .networkOrder) 41 is ⟨.mk' 41 7 0 5 2, [9]⟩ []) ∧
    ∃ frame, frame.length = 40 ∧
      ∀ s : SegmentedInputStream, s.Holds .networkOrder (frame ++ [1]) →
        DecodesFrame (SegmentedInputStream.Holds .networkOrder) 40 s ⟨.mk' 40 7 0 5 2, []⟩ [1] := by
  obtain ⟨frame, hlen, -, -, hdecodes⟩ :=
    frame_decodes_iff .networkOrder ⟨.mk' 41 7 0 5 2, [9]⟩ rfl rfl
  obtain ⟨bare, hbare, -, -, hdecodes'⟩ :=
    frame_decodes_iff .networkOrder ⟨.mk' 40 7 0 5 2, []⟩ rfl rfl
  refine ⟨⟨frame, hlen, ?_⟩, ⟨bare, hbare, ?_⟩⟩
  · intro is his
    exact ((hdecodes []).1 is (by rwa [List.append_nil])).mpr (.inl (List.cons_ne_nil _ _))
  · intro s hs
    exact ((hdecodes' [1]).2.1 s hs).mpr (.inr (List.cons_ne_nil _ _))

/-- A bare header that ends the stream: the fixed stream does not give it back, and the segmented
    stream follows a null pointer. -/
theorem bare_frame_not_decoded :
    ¬ DecodesFrame (FixedInputStream.Holds .hostOrder) 40
        (.new (headerBytes .hostOrder (.mk' 40 7 0 5 2)) .hostOrder) ⟨.mk' 40 7 0 5 2, []⟩ [] ∧
    ∃ s, (SegmentedInputStream.new .hostOrder 0 []).appendBuffers
        [⟨100, headerBytes .hostOrder (.mk' 40 7 0 5 2), by decide⟩] = .ok s ∧
      Msg.deserialize 40 s = .error .nullDereference := by
  constructor
  · intro hdecodes
    have hiff := @decodesFrame_iff _ _ .hostOrder _ ⟨.mk' 40 7 0 5 2, []⟩ []
      (FixedInputStream.isByteQueue .hostOrder) rfl rfl
      (.new (headerBytes .hostOrder (.mk' 40 7 0 5 2)) .hostOrder)
      ⟨rfl, by simp [FixedInputStream.unread, FixedInputStream.new]⟩
      fun is' hend is'' capacity => fixed_readPayload_end hend capacity _ _ is''
    simpa using hiff.mp hdecodes
  · have hsplits : SegmentedInputStream.Splits
        [⟨100, headerBytes .hostOrder (.mk' 40 7 0 5 2), by decide⟩]
        (headerBytes .hostOrder (.mk' 40 7 0 5 2)) := ⟨by decide, by decide⟩
    obtain ⟨s, hs, hinv, -, hunread⟩ :=
      hsplits.appendBuffers_new (by decide) .hostOrder 0 []
    refine ⟨s, hs, Msg.deserialize_bare_header hinv ?_ 40⟩
    rw [hunread]
    exact headerBytes_length .hostOrder _ rfl

end Commutil.Framing
