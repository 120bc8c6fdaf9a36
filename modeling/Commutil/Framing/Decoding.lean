import Commutil.Framing.Message

/-!
# Decoding Headers and Messages from a Segmented Stream

Two rules for stream actions, each with its composition law: `Reads` says what an
action takes off a well-formed stream and what it returns, `Drains` bounds what it
leaves in any state.  From them follow the specifications of the two header
decoders, which agree, and of `Msg::deserialize`.
-/

namespace Commutil.Framing

open Commutil.Io Commutil.Library SegmentedInputStream

/-! ## §1 Actions on a well-formed stream -/

section Actions

variable {α β : Type}

/-- On a stream with at least `n` unread bytes the action takes `n` bytes and returns what `f`
    makes of the byte order and the unread bytes. -/
def Reads (x : StreamM SegmentedInputStream α) (n : Nat) (f : ByteOrder → List UInt8 → α) : Prop :=
  ∀ s : SegmentedInputStream, s.Inv → n ≤ s.unread.length →
    ∃ s', x s = .ok (.ok (f s.m_byteOrder s.unread), s') ∧ Consumed s n s'

theorem Reads.bind {x : StreamM SegmentedInputStream α} {g : α → StreamM SegmentedInputStream β}
    {n m : Nat} {f : ByteOrder → List UInt8 → α} {k : α → ByteOrder → List UInt8 → β}
    (hx : Reads x n f) (hg : ∀ a, Reads (g a) m (k a)) :
    Reads (x >>= g) (n + m) (fun order u => k (f order u) order (u.drop n)) := by
  intro s hinv hlen
  obtain ⟨s₁, hs₁, hc₁⟩ := hx s hinv (by omega)
  obtain ⟨s₂, hs₂, hc₂⟩ := hg (f s.m_byteOrder s.unread) s₁ hc₁.inv
    (by rw [hc₁.unread_eq, List.length_drop]; omega)
  refine ⟨s₂, ?_, hc₁.trans hc₂⟩
  rw [StreamM.bind_ok hs₁, hs₂, hc₁.byteOrder_eq, hc₁.unread_eq]

theorem Reads.pure (a : α) : Reads (Pure.pure a) 0 (fun _ _ => a) :=
  fun s hinv _ => ⟨s, rfl, .refl hinv⟩

theorem reads_read {n : Nat} (hn : 0 < n) : Reads (InputStream.read n) n (fun _ u => u.take n) := by
  intro s hinv hlen
  have hne : s.unread ≠ [] := List.length_pos_iff.mp (by omega)
  obtain ⟨s', hs', hcons⟩ := readBytes_spec hinv hne n
  rw [Nat.min_eq_right hlen] at hcons
  refine ⟨s', ?_, hcons⟩
  have hsize : ¬ InputStream.size s < n := by
    show ¬ s.m_size < n
    rw [hinv.size_eq]
    omega
  have hread : InputStream.readBytes s n = .ok (.ok, s.unread.take n, s') := hs'
  have htake : ¬ (s.unread.take n).length < n := by
    rw [List.length_take]
    omega
  simp only [InputStream.read, if_neg hsize, hread, ne_eq, not_true, if_false, if_neg htake]

theorem reads_deserializeUInt {n : Nat} (hn : 0 < n) :
    Reads (deserializeUInt n) n (fun order u => decodeUInt order (u.take n)) := by
  intro s hinv hlen
  obtain ⟨s', hs', hcons⟩ := reads_read hn s hinv hlen
  refine ⟨s', ?_, hcons⟩
  unfold deserializeUInt
  rw [StreamM.bind_ok hs']
  have horder : InputStream.getByteOrder s' = s.m_byteOrder := hcons.byteOrder_eq
  have htake : (s.unread.take n).length = n := by
    rw [List.length_take]
    omega
  simp only [convertToHost, horder, decodeUInt, htake]

/-! ## §2 Actions on any stream -/

/-- Whatever the state of the stream, the action does not add to it, and takes `n` bytes if it
    succeeds. -/
def Drains (x : StreamM SegmentedInputStream α) (n : Nat) : Prop :=
  ∀ s r s', x s = .ok (r, s') →
    s'.m_byteOrder = s.m_byteOrder ∧ s'.m_size ≤ s.m_size ∧ s'.weight ≤ s.weight ∧
      ∀ a, r = .ok a → s'.m_size + n ≤ s.m_size ∧ s'.weight + n ≤ s.weight

theorem Drains.bind {x : StreamM SegmentedInputStream α} {g : α → StreamM SegmentedInputStream β}
    {n m : Nat} (hx : Drains x n) (hg : ∀ a, Drains (g a) m) : Drains (x >>= g) (n + m) := by
  intro s r s' h
  simp only [Bind.bind] at h
  split at h
  · cases h
  · -- the first action fails
    rename_i rc s₁ hs₁
    cases h
    obtain ⟨h1, h2, h3, -⟩ := hx s _ _ hs₁
    exact ⟨h1, h2, h3, fun a ha => by cases ha⟩
  · rename_i a s₁ hs₁
    obtain ⟨h1, h2, h3, h4⟩ := hx s _ _ hs₁
    obtain ⟨k1, k2, k3, k4⟩ := hg a s₁ r s' h
    obtain ⟨h5, h6⟩ := h4 a rfl
    refine ⟨k1.trans h1, by omega, by omega, fun b hb => ?_⟩
    obtain ⟨k5, k6⟩ := k4 b hb
    omega

theorem Drains.pure (a : α) : Drains (Pure.pure a) 0 := by
  intro s r s' h
  cases h
  exact ⟨rfl, Nat.le_refl _, Nat.le_refl _, fun _ _ => ⟨Nat.le_refl _, Nat.le_refl _⟩⟩

theorem drains_read (n : Nat) : Drains (InputStream.read n) n := by
  intro s r s' h
  unfold InputStream.read at h
  split at h
  · cases h
    exact ⟨rfl, Nat.le_refl _, Nat.le_refl _, fun a ha => by cases ha⟩
  rename_i hsize
  have hsize' : n ≤ s.m_size := Nat.le_of_not_lt hsize
  split at h
  · cases h
  rename_i rc bytes s₁ hread
  have hread' : s.readBytes n = .ok (rc, bytes, s₁) := hread
  obtain ⟨-, hsz, -, -, horder⟩ := readBytes_general hread'
  have hw := readBytes_weight hread'
  -- every remaining branch returns the stream after the read
  have hs' : s' = s₁ := by
    split at h
    · cases h; rfl
    split at h <;> (cases h; rfl)
  subst hs'
  exact ⟨horder, by omega, by omega, fun a _ => by omega⟩

theorem drains_deserializeUInt (n : Nat) : Drains (deserializeUInt n) n := by
  have hrest : ∀ bytes : List UInt8, Drains (convertToHost n bytes) 0 := by
    intro bytes s r s' h
    cases h
    exact ⟨rfl, Nat.le_refl _, Nat.le_refl _, fun _ _ => ⟨Nat.le_refl _, Nat.le_refl _⟩⟩
  exact (drains_read n).bind hrest

end Actions

/-! ## §3 Headers -/

/-- The header that the first 40 of some bytes encode. -/
def headerAt (order : ByteOrder) (u : List UInt8) : MsgHeader :=
  let field := fun offset n => decodeUInt order ((u.drop offset).take n)
  ⟨u.take 8, .ofNat (field 8 4), .ofNat (field 12 2), .ofNat (field 14 2), .ofNat (field 16 8),
    .ofNat (field 24 4), .ofNat (field 28 4), .ofNat (field 32 4), .ofNat (field 36 4)⟩

/-- **`MsgHeader::deserialize`** takes 40 bytes and returns the header they encode. -/
theorem reads_deserialize : Reads MsgHeader.deserialize 40 headerAt := by
  have h := (reads_read (n := COMMUTIL_MSG_MAGIC_SIZE) (by decide)).bind fun magic =>
    (reads_deserializeUInt (n := 4) (by decide)).bind fun length =>
    (reads_deserializeUInt (n := 2) (by decide)).bind fun msgId =>
    (reads_deserializeUInt (n := 2) (by decide)).bind fun flags =>
    (reads_deserializeUInt (n := 8) (by decide)).bind fun requestId =>
    (reads_deserializeUInt (n := 4) (by decide)).bind fun requestIndex =>
    (reads_deserializeUInt (n := 4) (by decide)).bind fun uncompressedLength =>
    (reads_deserializeUInt (n := 4) (by decide)).bind fun batchSize =>
    (reads_deserializeUInt (n := 4) (by decide)).bind fun reserved =>
    Reads.pure (⟨magic, .ofNat length, .ofNat msgId, .ofNat flags, .ofNat requestId,
      .ofNat requestIndex, .ofNat uncompressedLength, .ofNat batchSize, .ofNat reserved⟩ :
      MsgHeader)
  simp only [List.drop_drop] at h
  exact h

theorem drains_deserialize : Drains MsgHeader.deserialize 40 :=
  (drains_read COMMUTIL_MSG_MAGIC_SIZE).bind fun _ => (drains_deserializeUInt 4).bind fun _ =>
    (drains_deserializeUInt 2).bind fun _ => (drains_deserializeUInt 2).bind fun _ =>
    (drains_deserializeUInt 8).bind fun _ => (drains_deserializeUInt 4).bind fun _ =>
    (drains_deserializeUInt 4).bind fun _ => (drains_deserializeUInt 4).bind fun _ =>
    (drains_deserializeUInt 4).bind fun _ => Drains.pure _

/-- The memory image of a header, converted if the stream is in network order. -/
def decodeImage (order : ByteOrder) (bytes : List UInt8) : MsgHeader :=
  if order = .networkOrder then (MsgHeader.ofImage bytes).fromNetOrder
  else MsgHeader.ofImage bytes

private theorem slice_take {u : List UInt8} {offset n : Nat} (h : offset + n ≤ 40) :
    ((u.take 40).drop offset).take n = (u.drop offset).take n := by
  rw [List.drop_take, List.take_take, Nat.min_eq_left (by omega)]

/-- Converting the image of an integer is decoding its bytes. -/
private theorem byteSwap_ofLeBytes {u : List UInt8} {offset n : Nat} (h : offset + n ≤ u.length) :
    byteSwap n (ofLeBytes ((u.drop offset).take n)) =
      decodeUInt .networkOrder ((u.drop offset).take n) := by
  have hlen : ((u.drop offset).take n).length = n := by
    rw [List.length_take, List.length_drop]
    omega
  simp only [decodeUInt, toHostOrder, hlen]

private theorem ofLeBytes_field_lt (u : List UInt8) (offset n : Nat) (h : offset + n ≤ u.length) :
    ofLeBytes ((u.drop offset).take n) < 256 ^ n := by
  have hlen : ((u.drop offset).take n).length = n := by
    rw [List.length_take, List.length_drop]
    omega
  have hlt := ofLeBytes_lt ((u.drop offset).take n)
  rwa [hlen] at hlt

/-- The two decoders of a header agree. -/
theorem decodeImage_eq (order : ByteOrder) {u : List UInt8} (h : 40 ≤ u.length) :
    decodeImage order (u.take 40) = headerAt order u := by
  have himage : MsgHeader.ofImage (u.take 40) = headerAt .hostOrder u := by
    simp only [MsgHeader.ofImage, headerAt, decodeUInt, toHostOrder, List.take_take]
    simp only [slice_take (u := u) (show 8 + 4 ≤ 40 by decide),
      slice_take (show 12 + 2 ≤ 40 by decide),
      slice_take (show 14 + 2 ≤ 40 by decide), slice_take (show 16 + 8 ≤ 40 by decide),
      slice_take (show 24 + 4 ≤ 40 by decide), slice_take (show 28 + 4 ≤ 40 by decide),
      slice_take (show 32 + 4 ≤ 40 by decide), slice_take (show 36 + 4 ≤ 40 by decide)]
    rfl
  unfold decodeImage
  rw [himage]
  cases order with
  | hostOrder => rfl
  | networkOrder =>
    have h4 : ∀ offset, offset + 4 ≤ 40 →
        ntohl (.ofNat (ofLeBytes ((u.drop offset).take 4))) =
          .ofNat (decodeUInt .networkOrder ((u.drop offset).take 4)) := by
      intro offset hoff
      have hlt := ofLeBytes_field_lt u offset 4 (by omega)
      rw [← byteSwap_ofLeBytes (by omega), ntohl, UInt32.toNat_ofNat_of_lt' hlt]
    have h2 : ∀ offset, offset + 2 ≤ 40 →
        ntohs (.ofNat (ofLeBytes ((u.drop offset).take 2))) =
          .ofNat (decodeUInt .networkOrder ((u.drop offset).take 2)) := by
      intro offset hoff
      have hlt := ofLeBytes_field_lt u offset 2 (by omega)
      rw [← byteSwap_ofLeBytes (by omega), ntohs, UInt16.toNat_ofNat_of_lt' hlt]
    have h8 : ntohll (.ofNat (ofLeBytes ((u.drop 16).take 8))) =
        .ofNat (decodeUInt .networkOrder ((u.drop 16).take 8)) := by
      have hlt := ofLeBytes_field_lt u 16 8 (by omega)
      rw [← byteSwap_ofLeBytes (by omega), ntohll, UInt64.toNat_ofNat_of_lt' hlt]
    simp only [if_true, MsgHeader.fromNetOrder, headerAt, decodeUInt, toHostOrder] at h2 h4 h8 ⊢
    simp only [h4 8 (by decide), h2 12 (by decide), h2 14 (by decide), h8, h4 24 (by decide),
      h4 28 (by decide), h4 32 (by decide), h4 36 (by decide)]

/-- A header depends on the first 40 bytes only. -/
theorem headerAt_append (order : ByteOrder) {u : List UInt8} (h : 40 ≤ u.length)
    (v : List UInt8) : headerAt order (u ++ v) = headerAt order u := by
  rw [← decodeImage_eq order h, ← decodeImage_eq order (by rw [List.length_append]; omega),
    List.take_append_of_le_length h]

private theorem decode_ofNat4 (order : ByteOrder) (v : UInt32) :
    UInt32.ofNat (decodeUInt order (encodeUInt order 4 v.toNat)) = v := by
  rw [decodeUInt_encodeUInt order 4 _ v.toNat_lt, UInt32.ofNat_toNat]

private theorem decode_ofNat2 (order : ByteOrder) (v : UInt16) :
    UInt16.ofNat (decodeUInt order (encodeUInt order 2 v.toNat)) = v := by
  rw [decodeUInt_encodeUInt order 2 _ v.toNat_lt, UInt16.ofNat_toNat]

private theorem decode_ofNat8 (order : ByteOrder) (v : UInt64) :
    UInt64.ofNat (decodeUInt order (encodeUInt order 8 v.toNat)) = v := by
  rw [decodeUInt_encodeUInt order 8 _ v.toNat_lt, UInt64.ofNat_toNat]

/-- **Header round trip**: what is encoded is decoded, whatever follows. -/
theorem headerAt_headerBytes (order : ByteOrder) (h : MsgHeader)
    (hmagic : h.m_magic.length = COMMUTIL_MSG_MAGIC_SIZE) (rest : List UInt8) :
    headerAt order (headerBytes order h ++ rest) = h := by
  have hlen : h.m_magic.length = 8 := hmagic
  have hd : ∀ (a b : List UInt8) (offset : Nat), a.length ≤ offset →
      (a ++ b).drop offset = b.drop (offset - a.length) := by
    intro a b offset hle
    rw [List.drop_append, List.drop_eq_nil_of_le hle, List.nil_append]
  simp [headerAt, headerBytes, List.append_assoc, hd, hlen, decode_ofNat4, decode_ofNat2,
    decode_ofNat8]

/-- Peeking a header shows the image of the first 40 bytes. -/
theorem peek_header {s : SegmentedInputStream} (hinv : s.Inv) (hlen : 40 ≤ s.unread.length) :
    InputStream.peek s sizeofMsgHeader = .ok (.ok (s.unread.take 40)) := by
  have hne : s.unread ≠ [] := List.length_pos_iff.mp (by omega)
  have hsize : ¬ InputStream.size s < sizeofMsgHeader := by
    show ¬ s.m_size < 40
    rw [hinv.size_eq]
    omega
  have hpeek : InputStream.peekBytes s sizeofMsgHeader = .ok (.ok, s.unread.take 40) :=
    peekBytes_spec hinv hne 40
  have htake : ¬ (s.unread.take 40).length < sizeofMsgHeader := by
    rw [List.length_take]
    unfold sizeofMsgHeader
    omega
  simp only [InputStream.peek, if_neg hsize, hpeek, ne_eq, not_true, if_false, if_neg htake]

/-! ## §4 Messages -/

theorem getPayloadSizeBytes_of_le {h : MsgHeader} (hle : 40 ≤ h.m_length.toNat) :
    getPayloadSizeBytes h = h.m_length.toNat - 40 :=
  sub32_eq hle h.m_length.toNat_lt

theorem msgBufSize_of_le {h : MsgHeader} (hle : 40 ≤ h.m_length.toNat) :
    msgBufSize h = h.m_length.toNat := by
  have hlt := h.m_length.toNat_lt
  have hsub : sub32 h.m_length.toNat sizeofMsgHeader = h.m_length.toNat - 40 := sub32_eq hle hlt
  have hadd : add32 sizeofMsgHeader (h.m_length.toNat - 40) = 40 + (h.m_length.toNat - 40) :=
    add32_eq (by unfold sizeofMsgHeader; omega)
  unfold msgBufSize
  rw [hsub, hadd]
  omega

/-- A length below the header size leaves a buffer of that length, too small for a header. -/
theorem msgBufSize_of_lt {h : MsgHeader} (hlt : h.m_length.toNat < 40) :
    msgBufSize h = h.m_length.toNat := by
  unfold msgBufSize sizeofMsgHeader add32 sub32
  omega

/-- **`Msg::deserialize`** of a frame that is wholly there takes the frame and returns it. -/
theorem Msg.deserialize_spec {s : SegmentedInputStream} (hinv : s.Inv) {L : Nat}
    (hL : L = (headerAt s.m_byteOrder s.unread).m_length.toNat) (hlow : 40 ≤ L)
    (hlen : L ≤ s.unread.length) (hmore : 40 < s.unread.length) :
    ∃ s', Msg.deserialize L s =
        .ok (.ok ⟨headerAt s.m_byteOrder s.unread, (s.unread.drop 40).take (L - 40)⟩, s') ∧
      Consumed s L s' := by
  obtain ⟨s₁, hs₁, hc₁⟩ := reads_deserialize s hinv (by omega)
  have hne : s₁.unread ≠ [] := by
    apply List.length_pos_iff.mp
    rw [hc₁.unread_eq, List.length_drop]
    omega
  obtain ⟨s₂, hs₂, hc₂⟩ := readBytes_spec hc₁.inv hne (L - 40)
  have hlen₁ : s₁.unread.length = s.unread.length - 40 := by
    rw [hc₁.unread_eq, List.length_drop]
  rw [Nat.min_eq_right (by omega)] at hc₂
  refine ⟨s₂, ?_, ?_⟩
  · have hsize : getPayloadSizeBytes (headerAt s.m_byteOrder s.unread) = L - 40 := by
      rw [getPayloadSizeBytes_of_le (by omega), hL]
    have hread : InputStream.readBytes s₁ (L - 40) =
        .ok (.ok, (s.unread.drop 40).take (L - 40), s₂) := by
      rw [← hc₁.unread_eq]
      exact hs₂
    have hroom : ¬ L < sizeofMsgHeader + ((s.unread.drop 40).take (L - 40)).length := by
      rw [List.length_take]
      unfold sizeofMsgHeader
      omega
    unfold Msg.deserialize
    rw [StreamM.bind_ok hs₁]
    unfold Msg.readPayload
    rw [hsize, hread]
    dsimp only
    rw [if_neg hroom, if_neg (by simp)]
  · have htrans := hc₁.trans hc₂
    rwa [show 40 + (L - 40) = L by omega] at htrans

/-- A frame without payload at the end of the stream: after the header no node is left, and the
    read of the payload follows a null `m_head`. -/
theorem Msg.deserialize_bare_header {s : SegmentedInputStream} (hinv : s.Inv)
    (hlen : s.unread.length = 40) (capacity : Nat) :
    Msg.deserialize capacity s = .error .nullDereference := by
  obtain ⟨s₁, hs₁, hc₁⟩ := reads_deserialize s hinv (by omega)
  have hnil : s₁.m_nodes = [] := by
    apply hc₁.inv.nodes_eq_nil_iff.mpr
    rw [hc₁.unread_eq]
    exact List.drop_eq_nil_of_le (by omega)
  have hread : ∀ n, InputStream.readBytes s₁ n = .error .nullDereference := by
    intro n
    show s₁.readBytes n = .error .nullDereference
    unfold SegmentedInputStream.readBytes copyBytes
    rw [hnil]
    rfl
  unfold Msg.deserialize
  rw [StreamM.bind_ok hs₁]
  unfold Msg.readPayload
  rw [hread]

/-- What a deserialization that returns can have taken, in any state. -/
theorem Msg.deserialize_general {s s' : SegmentedInputStream} {capacity : Nat}
    {r : Except ErrorCode Msg} (h : Msg.deserialize capacity s = .ok (r, s')) :
    s'.m_byteOrder = s.m_byteOrder ∧ s'.m_size ≤ s.m_size ∧ s'.weight ≤ s.weight ∧
      ∀ m, r = .ok m →
        s'.m_size + (40 + m.m_payload.length) ≤ s.m_size ∧ s'.weight < s.weight := by
  unfold Msg.deserialize at h
  simp only [Bind.bind] at h
  split at h
  · cases h
  · rename_i rc s₁ hs₁
    cases h
    obtain ⟨h1, h2, h3, -⟩ := drains_deserialize s _ _ hs₁
    exact ⟨h1, h2, h3, fun m hm => by cases hm⟩
  · rename_i header s₁ hs₁
    obtain ⟨h1, h2, h3, h4⟩ := drains_deserialize s _ _ hs₁
    obtain ⟨h5, h6⟩ := h4 header rfl
    unfold Msg.readPayload at h
    split at h
    · cases h
    rename_i rc bytes s₂ hread
    have hread' : s₁.readBytes (getPayloadSizeBytes header) = .ok (rc, bytes, s₂) := hread
    obtain ⟨hrc, hsz, hbytes, -, horder⟩ := readBytes_general hread'
    have hw := readBytes_weight hread'
    subst hrc
    split at h
    · cases h
    rw [if_neg (by simp)] at h
    cases h
    refine ⟨horder.trans h1, by omega, by omega, fun m hm => ?_⟩
    cases hm
    dsimp only
    omega

end Commutil.Framing
