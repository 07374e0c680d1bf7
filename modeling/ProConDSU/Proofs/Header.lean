import ProConDSU.Proofs.PacketCodec

/-!
# The header by itself

`PacketHeader` has a codec of its own, which `Packet`'s agrees with: a packet starts as its header
is written, and its header is read alike. But the header's decoder asks for the twenty bytes of a
packet, and its encoder writes sixteen, so no header reads back (`PacketHeader.deserialize_append`).
-/

namespace ProConDSU

namespace PacketHeader

variable {buf : ByteBuffer}

theorem deserialize_eq (self : PacketHeader) : deserialize buf self
    = if buf.length < 20 then .ok (.errInvalidLength, self)
      else .ok (.none, (packetOf buf).header) := by
  split_ifs with h
  · simp only [deserialize, Decode.run, Decode.bind_apply, h, if_true, Decode.fail_apply]
  · refine Decode.run_of_next (r := ⟨16, by omega⟩) ?_
    simp (disch := simp; try omega) only [Decode.bind_apply, Decode.read_apply,
      Decode.readBytes_apply, Decode.assign_apply, BinaryReader.start, if_neg]
    rfl

/-- It takes four more bytes than a header has. -/
theorem deserialize_append (h self : PacketHeader) (rest : ByteBuffer) :
    deserialize (h.serialize ++ rest) self
      = if rest.length < 4 then .ok (.errInvalidLength, self) else .ok (.none, h) := by
  rw [deserialize_eq, Packet.packetOf_header_append, List.length_append, length_serialize]
  split_ifs <;> first | rfl | omega

/-- Decoding what `h` encodes to gives `h` back. -/
def ReadsBack (h target : PacketHeader) : Prop := deserialize h.serialize target = .ok (.none, h)

theorem not_readsBack (h target : PacketHeader) : ¬ ReadsBack h target := by
  intro hback
  have hrefused := deserialize_append h target []
  rw [List.append_nil, if_pos (by decide)] at hrefused
  exact absurd (Exec.unique hrefused hback).1 (by simp)

end PacketHeader

theorem Packet.take_serialize (p : Packet) :
    p.serialize.take 16 = (p.withCrc (computeCrc32 p.zeroed)).header.serialize := by
  rw [serialize_eq, List.take_left' (PacketHeader.length_serialize _)]
  rfl

namespace PacketHeader

/-- Of a buffer that a packet is decoded from, the header's decoder makes the packet's header. -/
def SameAsPacket (target : PacketHeader) (buf : ByteBuffer) : Prop :=
  ∀ p q : Packet, buf.length ≤ maxSize → Packet.deserialize buf q = .ok (.none, p) →
    deserialize buf target = .ok (.none, p.header)

theorem sameAsPacket (target : PacketHeader) (buf : ByteBuffer) : SameAsPacket target buf := by
  intro p q hbuf hok
  rw [Packet.deserialize_eq hbuf] at hok
  split_ifs at hok with h
  · obtain ⟨-, rfl⟩ := Exec.unique rfl hok
    rw [deserialize_eq, if_neg (not_lt.2 h.1)]
  · simp [isValidMessage_ne h] at hok

/-- The two codecs agree on every packet, and the header's does not agree with itself on any
header. -/
theorem not_readsBack_agrees (h target : PacketHeader) (p : Packet) (buf : ByteBuffer) :
    ¬ ReadsBack h target
      ∧ p.serialize.take 16 = (p.withCrc (computeCrc32 p.zeroed)).header.serialize
      ∧ SameAsPacket target buf :=
  ⟨not_readsBack h target, p.take_serialize, sameAsPacket target buf⟩

/-- A version request's header. -/
def versionHeader : PacketHeader := ⟨#v[0x44, 0x53, 0x55, 0x43], 1001, 4, 0, 0⟩

theorem not_readsBack_version : ¬ ReadsBack versionHeader versionHeader := by
  intro hback
  have hrefused : deserialize versionHeader.serialize versionHeader
      = .ok (.errInvalidLength, versionHeader) := rfl
  exact absurd (Exec.unique hrefused hback).1 (by simp)

end PacketHeader

end ProConDSU
