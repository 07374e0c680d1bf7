import ProConDSU.Proofs.Reply

/-!
# Packets there and back

`Packet::deserialize` accepts what passes `handleMessage`'s own checks, and `serialize` gives the
buffer back with its checksum made right (`Packet.codec`). The length a packet declares is read and
not used, so a buffer is taken for as long as it is (`Packet.honoursLength_iff`).
-/

namespace ProConDSU

section Patch

variable {buf : ByteBuffer}

theorem patchCrc_patchCrc (h : 12 ≤ buf.length) (crc crc' : UInt32) :
    patchCrc (patchCrc buf crc) crc' = patchCrc buf crc' := by
  have htake : (patchCrc buf crc).take 8 = buf.take 8 := by
    rw [patchCrc, List.append_assoc, List.take_left' (by simp; omega)]
  have hdrop : (patchCrc buf crc).drop 12 = buf.drop 12 := by
    rw [patchCrc, List.drop_left' (by simp; omega)]
  rw [patchCrc, htake, hdrop, patchCrc]

end Patch

namespace Packet

variable {buf : ByteBuffer}

/-- The checksum a packet's bytes should carry: that of the bytes, with its own four zero. -/
def crcOf (buf : ByteBuffer) : UInt32 := crc32Ieee (patchCrc buf 0)

def withCrc (p : Packet) (crc : UInt32) : Packet := p.mapHeader ({ · with crc32 := crc })

/-- A buffer is the packet read off it, unchecked. -/
theorem header_append_packetOf (h : 20 ≤ buf.length) : (packetOf buf).header.serialize
    ++ (Pod.toBytes (packetOf buf).type ++ (packetOf buf).body) = buf := by
  have hmagic : (packetOf buf).header.magic.toList = bytesAt buf 0 4 :=
    toBytes_valueAt (α := Vector UInt8 4) (by simp; omega)
  have hprotocol : Pod.toBytes (packetOf buf).header.protocol = bytesAt buf 4 2 :=
    toBytes_valueAt (by simp; omega)
  have hlength : Pod.toBytes (packetOf buf).header.length = bytesAt buf 6 2 :=
    toBytes_valueAt (by simp; omega)
  have hcrc : Pod.toBytes (packetOf buf).header.crc32 = bytesAt buf 8 4 :=
    toBytes_valueAt (by simp; omega)
  have hid : Pod.toBytes (packetOf buf).header.clientServerID = bytesAt buf 12 4 :=
    toBytes_valueAt (by simp; omega)
  have htype : Pod.toBytes (packetOf buf).type = bytesAt buf 16 4 :=
    toBytes_valueAt (by simp; omega)
  rw [PacketHeader.serialize_append, hmagic, hprotocol, hlength, hcrc, hid, htype]
  show bytesAt buf 0 4 ++ (bytesAt buf 4 2 ++ (bytesAt buf 6 2 ++ (bytesAt buf 8 4
    ++ (bytesAt buf 12 4 ++ (bytesAt buf 16 4 ++ buf.drop 20))))) = buf
  rw [bytesAt_append_drop, bytesAt_append_drop, bytesAt_append_drop, bytesAt_append_drop,
    bytesAt_append_drop, bytesAt_append_drop, List.drop_zero]

theorem zeroed_packetOf (h : 20 ≤ buf.length) : (packetOf buf).zeroed = patchCrc buf 0 := by
  rw [zeroed_eq, ← PacketHeader.patchCrc_append, header_append_packetOf h]

theorem serialize_packetOf (h : 20 ≤ buf.length) :
    (packetOf buf).serialize = patchCrc buf (crcOf buf) := by
  rw [serialize, zeroed_packetOf h, computeCrc32_eq, patchCrc_patchCrc (by omega), crcOf]

/-- A header is read off the start of whatever it is written before. -/
theorem packetOf_header_append (h : PacketHeader) (rest : ByteBuffer) :
    (packetOf (h.serialize ++ rest)).header = h := by
  have hmagic : valueAt (Vector UInt8 4) (h.serialize ++ rest) 0 = h.magic := by
    rw [valueAt, Pod.size_vector, PacketHeader.bytesAt_magic, ← Pod.toBytes_vector,
      Pod.ofBytes_toBytes]
  show (⟨_, _, _, _, _⟩ : PacketHeader) = h
  rw [hmagic, PacketHeader.valueAt_protocol, PacketHeader.valueAt_length,
    PacketHeader.valueAt_crc32, PacketHeader.valueAt_clientServerID]

theorem packetOf_serialize (p : Packet) :
    packetOf p.serialize = p.withCrc (crcOf p.serialize) := by
  have hheader : (packetOf p.serialize).header
      = { p.header with crc32 := computeCrc32 p.zeroed } := by
    rw [serialize_eq, packetOf_header_append]
  have htype : (packetOf p.serialize).type = p.type := by
    show valueAt MessageType p.serialize 16 = p.type
    rw [valueAt, MessageType.size_eq, bytesAt_type, Pod.ofBytes_toBytes]
  have hbody : (packetOf p.serialize).body = p.body := p.drop_serialize
  calc packetOf p.serialize
      = ⟨(packetOf p.serialize).header, (packetOf p.serialize).type,
        (packetOf p.serialize).body⟩ := rfl
    _ = p.withCrc (crcOf p.serialize) := by
      rw [hheader, htype, hbody, crcOf, patchCrc_serialize, computeCrc32_eq]
      rfl

/-- Decoding into `target` and encoding are inverse, but for the checksum. -/
structure Codec (target : Packet) : Prop where
  /-- A buffer is accepted just when it passes the checks `handleMessage` makes first. -/
  accepts : ∀ buf : ByteBuffer, buf.length ≤ maxSize → ∃ err p,
    deserialize buf target = .ok (err, p)
      ∧ (err = .none ↔ 20 ≤ buf.length ∧ bytesAt buf 0 4 = dsuc)
      ∧ (err = .none ↔ ¬ buf.length < 20 ∧ ¬ strncmp buf dsuc 4 ≠ 0)
  encodes : ∀ (buf : ByteBuffer) (p : Packet), buf.length ≤ maxSize →
    deserialize buf target = .ok (.none, p) → p.serialize = patchCrc buf (crcOf buf)
  decodes : ∀ p : Packet, p.header.magic.toList = dsuc → p.serialize.length ≤ maxSize →
    deserialize p.serialize target = .ok (.none, p.withCrc (crcOf p.serialize))

theorem prechecked_iff : Enveloped buf ↔ ¬ buf.length < 20 ∧ ¬ strncmp buf dsuc 4 ≠ 0 := by
  rw [Enveloped, not_not, not_lt]
  exact and_congr_right fun h => (strncmp_dsuc h).symm

theorem deserialize_eq (hbuf : buf.length ≤ maxSize) (self : Packet) : deserialize buf self
    = if Enveloped buf then .ok (.none, packetOf buf) else .ok (isValidMessage buf, self) := by
  split_ifs with h
  · exact deserialize_ok hbuf h self
  · exact deserialize_invalid h self

/-- `Packet` is a faithful codec, whatever the target held. -/
theorem codec (self : Packet) : Codec self where
  accepts buf hbuf := by
    rw [deserialize_eq hbuf]
    split_ifs with h
    · exact ⟨_, _, rfl, iff_of_true rfl h, iff_of_true rfl (prechecked_iff.1 h)⟩
    · have hne := isValidMessage_ne h
      exact ⟨_, _, rfl, iff_of_false hne h, iff_of_false hne (mt prechecked_iff.2 h)⟩
  encodes buf p hbuf hok := by
    rw [deserialize_eq hbuf] at hok
    split_ifs at hok with h
    · obtain ⟨-, rfl⟩ := Exec.unique rfl hok
      exact serialize_packetOf h.1
    · simp [isValidMessage_ne h] at hok
  decodes p hmagic hp := by
    have h : Enveloped p.serialize := ⟨by simp, by rw [bytesAt_magic, hmagic]⟩
    rw [deserialize_ok hp h, packetOf_serialize]

/-- The header's `length`: the packet without its first sixteen bytes. -/
def declaredLength (buf : ByteBuffer) : ℕ := (valueAt UInt16 buf 6).toNat

/-- A buffer too short for its declared length is refused, and one too long cut off there, so that
bytes after it change neither the packet nor the reply. -/
structure HonoursLength (target : Packet) (buf rest : ByteBuffer) : Prop where
  short : buf.length < 16 + declaredLength buf →
    ∃ err p, err ≠ .none ∧ deserialize buf target = .ok (err, p)
  body : 16 + declaredLength buf ≤ buf.length →
    ∃ p, deserialize buf target = .ok (.none, p) ∧ p.body = bytesAt buf 20 (declaredLength buf - 4)
  packet : ∀ p, deserialize buf target = .ok (.none, p) →
    deserialize (buf ++ rest) target = .ok (.none, p)
  reply : ∀ (stack : Stack) (srv : DsuServer) (conn : Connection),
    srv.handleMessage stack (buf ++ rest) conn = srv.handleMessage stack buf conn

theorem enveloped_append (h : Enveloped buf) (rest : ByteBuffer) : Enveloped (buf ++ rest) := by
  obtain ⟨h20, hmagic⟩ := h
  refine ⟨by rw [List.length_append]; omega, ?_⟩
  rw [← hmagic, bytesAt, bytesAt, List.drop_zero, List.drop_zero,
    List.take_append_of_le_length (by omega)]

theorem HonoursLength.length_eq {target : Packet} {rest : ByteBuffer}
    (h : HonoursLength target buf rest) (hbuf : buf.length ≤ maxSize) (henv : Enveloped buf)
    (hl : 4 ≤ declaredLength buf) : buf.length = 16 + declaredLength buf := by
  have hok := deserialize_ok hbuf henv target
  have hle : 16 + declaredLength buf ≤ buf.length := by
    by_contra hlt
    obtain ⟨err, p, hne, herr⟩ := h.short (by omega)
    exact hne (Exec.unique hok herr).1.symm
  obtain ⟨p, hp, hcut⟩ := h.body hle
  obtain ⟨-, rfl⟩ := Exec.unique hok hp
  have hsizes := congrArg List.length hcut
  rw [length_bytesAt (by omega)] at hsizes
  simp only [packetOf, List.length_drop] at hsizes
  omega

theorem HonoursLength.rest_eq {target : Packet} {rest : ByteBuffer}
    (h : HonoursLength target buf rest) (hbuf : (buf ++ rest).length ≤ maxSize)
    (henv : Enveloped buf) : rest = [] := by
  have hlen : buf.length ≤ maxSize := by
    rw [List.length_append] at hbuf
    omega
  obtain ⟨-, hsame⟩ := Exec.unique (deserialize_ok hbuf (enveloped_append henv rest) target)
    (h.packet _ (deserialize_ok hlen henv target))
  have hdrop : (buf ++ rest).drop 20 = buf.drop 20 := congrArg Packet.body hsame
  rw [List.drop_append_of_le_length henv.1] at hdrop
  simpa using hdrop

/-- The declared length is honoured just where there is nothing to do for it. -/
theorem honoursLength_iff {rest : ByteBuffer} (hbuf : (buf ++ rest).length ≤ maxSize)
    (h : Enveloped buf) (hl : 4 ≤ declaredLength buf) (self : Packet) :
    HonoursLength self buf rest ↔ buf.length = 16 + declaredLength buf ∧ rest = [] := by
  have hlen : buf.length ≤ maxSize := by
    rw [List.length_append] at hbuf
    omega
  refine ⟨fun hh => ⟨hh.length_eq hlen h hl, hh.rest_eq hbuf h⟩, ?_⟩
  rintro ⟨heq, rfl⟩
  refine ⟨fun hlt => by omega, fun _ => ⟨_, deserialize_ok hlen h self, ?_⟩, ?_, ?_⟩
  · have hcut : declaredLength buf - 4 = (buf.drop 20).length := by
      rw [List.length_drop]
      omega
    rw [bytesAt, hcut, List.take_length]
    rfl
  · simp only [List.append_nil, imp_self, implies_true]
  · simp only [List.append_nil, implies_true]

/-- A version request that declares `l` bytes after the first sixteen, and has four. -/
def versionRequest (l : UInt8) : ByteBuffer :=
  dsuc ++ [0xE9, 3, l, 0, 0, 0, 0, 0, 0, 0, 0, 0, 0, 0, 0x10, 0]

theorem honoursLength_iff_version : HonoursLength (Stack.filled 0).resp (versionRequest 4) []
    ↔ (versionRequest 4).length = 16 + declaredLength (versionRequest 4) ∧ ([] : ByteBuffer) = [] :=
  honoursLength_iff (by decide) (by decide) (by decide) _

/-- Accepted, though a byte short. -/
theorem not_honoursLength_short : Enveloped (versionRequest 5)
    ∧ 4 ≤ declaredLength (versionRequest 5)
    ∧ ¬ HonoursLength (Stack.filled 0).resp (versionRequest 5) [] := by
  refine ⟨by decide, by decide, fun h => ?_⟩
  obtain ⟨err, p, hne, herr⟩ := h.short (by decide)
  have hok : deserialize (versionRequest 5) (Stack.filled 0).resp
      = .ok (.none, packetOf (versionRequest 5)) := rfl
  exact hne (Exec.unique hok herr).1.symm

end Packet

end ProConDSU
