import Commutil.Framing.MsgAssembler

/-!
# The Header Codec

`MsgHeader::serialize` against the two decoders: `MsgHeader::deserialize`, which
goes field by field, and the fast path of `MsgAssembler::onWaitHeader`, which
peeks the 40-byte image and converts it with `fromNetOrder`.

Encoding and decoding are inverse to each other in both directions, so every
40-byte string is the encoding of exactly one header, and the segments in which
it arrives do not matter.
-/

namespace Commutil.Framing

open Commutil.Io Commutil.Library SegmentedInputStream Assembly

/-! ## §1 Encoding what was decoded -/

/-- A field that was decoded from its bytes is encoded to them. -/
private theorem encodeUInt_slice (order : ByteOrder) {u : List UInt8} {offset n : Nat}
    (h : offset + n ≤ u.length) :
    encodeUInt order n (decodeUInt order ((u.drop offset).take n)) = (u.drop offset).take n := by
  have hlen : ((u.drop offset).take n).length = n := by
    rw [List.length_take, List.length_drop]
    omega
  have henc := encodeUInt_decodeUInt order ((u.drop offset).take n)
  rwa [hlen] at henc

private theorem decodeUInt_slice_lt (order : ByteOrder) {u : List UInt8} {offset n : Nat}
    (h : offset + n ≤ u.length) : decodeUInt order ((u.drop offset).take n) < 256 ^ n := by
  have hlen : ((u.drop offset).take n).length = n := by
    rw [List.length_take, List.length_drop]
    omega
  have hlt := decodeUInt_lt order ((u.drop offset).take n)
  rwa [hlen] at hlt

/-- Two slices that meet are one slice. -/
private theorem slice_append_slice (u : List UInt8) (offset n k : Nat) :
    (u.drop offset).take n ++ (u.drop (offset + n)).take k = (u.drop offset).take (n + k) := by
  rw [← List.drop_drop, ← List.take_add]

/-- **The other round trip**: the header read from 40 bytes is encoded to these bytes. -/
theorem headerBytes_headerAt (order : ByteOrder) {bytes : List UInt8} (h : bytes.length = 40) :
    headerBytes order (headerAt order bytes) = bytes := by
  have e4 : ∀ offset, offset + 4 ≤ 40 → encodeUInt order 4
      (UInt32.ofNat (decodeUInt order ((bytes.drop offset).take 4))).toNat =
        (bytes.drop offset).take 4 := by
    intro offset hoff
    rw [UInt32.toNat_ofNat_of_lt' (decodeUInt_slice_lt order (by omega)),
      encodeUInt_slice order (by omega)]
  have e2 : ∀ offset, offset + 2 ≤ 40 → encodeUInt order 2
      (UInt16.ofNat (decodeUInt order ((bytes.drop offset).take 2))).toNat =
        (bytes.drop offset).take 2 := by
    intro offset hoff
    rw [UInt16.toNat_ofNat_of_lt' (decodeUInt_slice_lt order (by omega)),
      encodeUInt_slice order (by omega)]
  have e8 : encodeUInt order 8
      (UInt64.ofNat (decodeUInt order ((bytes.drop 16).take 8))).toNat =
        (bytes.drop 16).take 8 := by
    rw [UInt64.toNat_ofNat_of_lt' (decodeUInt_slice_lt order (by omega)),
      encodeUInt_slice order (by omega)]
  simp only [headerBytes, headerAt, e4 8 (by decide), e2 12 (by decide), e2 14 (by decide), e8,
    e4 24 (by decide), e4 28 (by decide), e4 32 (by decide), e4 36 (by decide)]
  -- the nine slices are put together from the right
  rw [slice_append_slice bytes 32 4 4, slice_append_slice bytes 28 4 8,
    slice_append_slice bytes 24 4 12, slice_append_slice bytes 16 8 16,
    slice_append_slice bytes 14 2 24, slice_append_slice bytes 12 2 26,
    slice_append_slice bytes 8 4 28]
  have hall := slice_append_slice bytes 0 8 32
  rw [List.drop_zero] at hall
  rw [hall, List.take_of_length_le (by omega)]

theorem headerAt_magic_length (order : ByteOrder) {bytes : List UInt8} (h : 40 ≤ bytes.length) :
    (headerAt order bytes).m_magic.length = COMMUTIL_MSG_MAGIC_SIZE := by
  show (bytes.take 8).length = 8
  rw [List.length_take]
  omega

/-! ## §2 The fast path -/

/-- **The fast path of `onWaitHeader`** leaves the header that the first 40 bytes encode, whether
    it is valid or is skipped. -/
theorem onWaitHeader_header {s : SegmentedInputStream} (hinv : s.Inv)
    (hlen : 40 ≤ s.unread.length) (saved : MsgHeader) (state : MsgState) :
    ∃ ms, onWaitHeader ⟨s, saved, state⟩ = .ok ms ∧
      ms.m_msgHeader = headerAt s.m_byteOrder s.unread := by
  have hsize : ¬ s.m_size < sizeofMsgHeader := by
    rw [hinv.size_eq]
    exact Nat.not_lt.mpr hlen
  have hne : s.unread ≠ [] := List.length_pos_iff.mp (by omega)
  obtain ⟨is, his, -⟩ := skipBytes_spec hinv hne sizeofMsgHeader
  unfold onWaitHeader
  rw [if_neg hsize, peek_header hinv hlen]
  cases hvalid : (headerAt s.m_byteOrder s.unread).isValid with
  | true =>
    refine ⟨⟨s, headerAt s.m_byteOrder s.unread, .waitingBody⟩, ?_, rfl⟩
    simp only [decodeImage_eq _ hlen, hvalid, if_true]
  | false =>
    refine ⟨⟨is, headerAt s.m_byteOrder s.unread, .resync⟩, ?_, rfl⟩
    simp only [decodeImage_eq _ hlen, hvalid, Bool.false_eq_true, if_false, his, ne_eq, not_true]

/-! ## §3 The codec -/

/-- **The two header decoders agree and invert the encoder.**  A header is written as 40 bytes,
    which `deserialize` takes off a stream and turns back into the header, whatever follows and
    however it is split.  Any 40 bytes, however split, are decoded to one header by `deserialize`
    and by the fast path of the assembler, and this header is written as the same 40 bytes. -/
theorem header_codec (order : ByteOrder) (base : Nat) (log : List Buffer) :
    (∀ (h : MsgHeader) (os : FixedOutputStream),
      h.m_magic.length = COMMUTIL_MSG_MAGIC_SIZE → os.m_byteOrder = order →
      os.m_buffer.length + 40 ≤ os.m_bufferSize →
      ∃ bytes, bytes.length = 40 ∧
        h.serialize os = .ok { os with m_buffer := os.m_buffer ++ bytes } ∧
        ∀ (rest : List UInt8) (segments : List Buffer), Splits segments (bytes ++ rest) →
          (bytes ++ rest).length < 2 ^ 32 →
          ∃ s s', (new order base log).appendBuffers segments = .ok s ∧
            MsgHeader.deserialize s = .ok (.ok h, s') ∧ s'.Inv ∧ s'.unread = rest) ∧
    ∀ (bytes : List UInt8) (segments : List Buffer), bytes.length = 40 → Splits segments bytes →
      ∃ s s' h, (new order base log).appendBuffers segments = .ok s ∧
        MsgHeader.deserialize s = .ok (.ok h, s') ∧
        (∀ (saved : MsgHeader) (state : MsgState), ∃ ms, onWaitHeader ⟨s, saved, state⟩ = .ok ms ∧
          ms.m_msgHeader = h) ∧
        ∀ os : FixedOutputStream, os.m_byteOrder = order →
          os.m_buffer.length + 40 ≤ os.m_bufferSize →
          h.serialize os = .ok { os with m_buffer := os.m_buffer ++ bytes } := by
  constructor
  · -- what was written is read back from every segmentation
    intro h os hmagic horder hroom
    refine ⟨headerBytes order h, headerBytes_length order h hmagic, ?_, ?_⟩
    · rw [MsgHeader.serialize_eq h os hmagic hroom, horder]
    · intro rest segments hsplits hlen
      obtain ⟨s, hs, hinv, hsorder, hunread⟩ := hsplits.appendBuffers_new hlen order base log
      have h40 := headerBytes_length order h hmagic
      have hread : 40 ≤ s.unread.length := by
        rw [hunread, List.length_append]
        omega
      obtain ⟨s', hs', hcons⟩ := reads_deserialize s hinv hread
      refine ⟨s, s', hs, ?_, hcons.inv, ?_⟩
      · rw [hs', hsorder, hunread, headerAt_headerBytes order h hmagic]
      · rw [hcons.unread_eq, hunread, List.drop_append_of_le_length (by omega),
          List.drop_eq_nil_of_le (by omega), List.nil_append]
  · -- what was read is written back as it came
    intro bytes segments hlen hsplits
    obtain ⟨s, hs, hinv, hsorder, hunread⟩ :=
      hsplits.appendBuffers_new (by omega) order base log
    have hread : 40 ≤ s.unread.length := by
      rw [hunread, hlen]
    obtain ⟨s', hs', -⟩ := reads_deserialize s hinv hread
    refine ⟨s, s', headerAt order bytes, hs, ?_, fun saved state => ?_, fun os horder hroom => ?_⟩
    · rw [hs', hsorder, hunread]
    · -- the same bytes as a header that the assembler waits for
      obtain ⟨ms, hms, hheader⟩ := onWaitHeader_header hinv hread saved state
      exact ⟨ms, hms, by rw [hheader, hsorder, hunread]⟩
    · have hmagic : (headerAt order bytes).m_magic.length = COMMUTIL_MSG_MAGIC_SIZE :=
        headerAt_magic_length order (by omega)
      rw [MsgHeader.serialize_eq _ os hmagic hroom, horder, headerBytes_headerAt order hlen]

/-- A header in network order, and 40 zero bytes that arrive in two segments. -/
theorem header_codec_two_segments :
    (∃ s s' : SegmentedInputStream,
      MsgHeader.deserialize s = .ok (.ok (.mk' 44 7 1 5 2), s') ∧ s'.unread = []) ∧
    ∃ s s' h, (new .networkOrder 0 []).appendBuffers
        [⟨0, List.replicate 3 0, by decide⟩, ⟨1, List.replicate 37 0, by decide⟩] = .ok s ∧
      MsgHeader.deserialize s = .ok (.ok h, s') ∧
      h.serialize (.new 40 .networkOrder) =
        .ok ⟨.networkOrder, 40, List.replicate 40 0⟩ := by
  have hcodec := header_codec .networkOrder 0 []
  constructor
  · obtain ⟨bytes, hlen, -, hread⟩ := hcodec.1 (.mk' 44 7 1 5 2) (.new 40 .networkOrder) rfl rfl
      (by decide)
    have hne : bytes ≠ [] := List.length_pos_iff.mp (by omega)
    have hsplits : Splits [⟨0, bytes, by omega⟩] (bytes ++ []) :=
      ⟨fun segment hmem => by rw [List.mem_singleton.mp hmem]; exact hne, by simp⟩
    obtain ⟨s, s', -, hs', -, hunread⟩ :=
      hread [] _ hsplits (by rw [List.append_nil]; omega)
    exact ⟨s, s', hs', hunread⟩
  · obtain ⟨s, s', h, hs, hs', -, hser⟩ := hcodec.2 (List.replicate 40 0)
      [⟨0, List.replicate 3 0, by decide⟩, ⟨1, List.replicate 37 0, by decide⟩] (by decide)
      ⟨by decide, by decide⟩
    exact ⟨s, s', h, hs, hs', hser (.new 40 .networkOrder) rfl (by decide)⟩

end Commutil.Framing
