import ProConDSU.Proofs.Crc
import ProConDSU.Proofs.DataReply

/-!
# What a reply looks like

A reply is a server packet for its request (`handleMessage_replyTo`): the `DSUS` envelope, the
length and the checksum of what was sent, the server's id and the request's type. No server answers
one.
-/

namespace ProConDSU

namespace Packet

variable (p : Packet)

theorem bytesAt_magic : bytesAt p.serialize 0 4 = p.header.magic.toList := by
  rw [serialize_eq, PacketHeader.bytesAt_magic]

theorem valueAt_protocol : valueAt UInt16 p.serialize 4 = p.header.protocol := by
  rw [serialize_eq, PacketHeader.valueAt_protocol]

theorem valueAt_length : valueAt UInt16 p.serialize 6 = p.header.length := by
  rw [serialize_eq, PacketHeader.valueAt_length]

theorem valueAt_crc32 : valueAt UInt32 p.serialize 8 = computeCrc32 p.zeroed := by
  rw [serialize_eq, PacketHeader.valueAt_crc32]

theorem valueAt_clientServerID : valueAt UInt32 p.serialize 12 = p.header.clientServerID := by
  rw [serialize_eq, PacketHeader.valueAt_clientServerID]

theorem bytesAt_type : bytesAt p.serialize 16 4 = Pod.toBytes p.type := by
  rw [serialize_eq]
  exact bytesAt_append (by simp) (by simp)

/-- The checksum is over the packet with its own four bytes cleared. -/
theorem zeroed_eq_serialize :
    p.zeroed = p.serialize.take 8 ++ ([0, 0, 0, 0] ++ p.serialize.drop 12) := by
  rw [← patchCrc_serialize, patchCrc, List.append_assoc]
  rfl

end Packet

structure ReplyTo (serverId : UInt32) (buf reply : ByteBuffer) : Prop where
  length_ge : 20 ≤ reply.length
  magic : bytesAt reply 0 4 = [0x44, 0x53, 0x55, 0x53]
  protocol : valueAt UInt16 reply 4 = 1001
  length : (valueAt UInt16 reply 6).toNat = reply.length - 16
  crc32 : valueAt UInt32 reply 8 = crc32Ieee (reply.take 8 ++ ([0, 0, 0, 0] ++ reply.drop 12))
  serverId : valueAt UInt32 reply 12 = serverId
  type : bytesAt reply 16 4 = bytesAt buf 16 4

namespace DsuServer

variable {stack : Stack} {srv srv' : DsuServer} {buf reply : ByteBuffer} {conn : Connection}

theorem answer_length {r : Request} {body : ByteBuffer}
    (hn : srv.controllerManager.controllers.length ≤ 256)
    (h : srv.answer stack r = .ok (some body, srv')) : body.length ≤ 15 * 256 := by
  cases r with simp only [answer, reduceCtorEq, Except.ok.injEq, Prod.mk.injEq, Option.some.injEq,
    false_and] at h
  | version => simp [← h.1]
  | info slots =>
    rw [← h.1, ControllersInfoResponse.length_serialize, buildControllersInfoResponse,
      List.length_map, List.length_range, ControllerManager.getConnectedControllerCount]
    omega
  | data id => simp [← h.1]
  | motors id => simp [← h.1]
  | rumble => simp [← h.1]

theorem handleMessage_dropped (stack : Stack) (srv : DsuServer) (conn : Connection)
    (h : bytesAt buf 0 4 ≠ dsuc) : srv.handleMessage stack buf conn = .ok ([], srv) := by
  rw [handleMessage, readRequest_none stack fun henv => h henv.2]

theorem reply_replyTo (stack : Stack) (srv : DsuServer) {body : ByteBuffer}
    (hbody : 4 + body.length < 2 ^ 16) (henv : Enveloped buf) :
    ReplyTo srv.serverId buf (srv.reply stack (valueAt _ buf 16) body) where
  length_ge := by
    rw [length_reply]
    omega
  magic := Packet.bytesAt_magic _
  protocol := Packet.valueAt_protocol _
  length := by
    rw [length_reply, reply, Packet.valueAt_length]
    simp only [UInt16.toNat_ofNat']
    omega
  crc32 := by
    rw [reply, Packet.valueAt_crc32, computeCrc32_eq, Packet.zeroed_eq_serialize]
  serverId := Packet.valueAt_clientServerID _
  type := (Packet.bytesAt_type _).trans (toBytes_valueAt henv.1)

/-- Every reply is a well-formed packet that answers its request, and that every server drops. -/
theorem handleMessage_replyTo (hbuf : buf.length ≤ maxSize)
    (hn : srv.controllerManager.controllers.length ≤ 256)
    (h : srv.handleMessage stack buf conn = .ok (reply, srv')) (hne : reply ≠ []) :
    ReplyTo srv.serverId buf reply
      ∧ ∀ (stack₂ : Stack) (srv₂ : DsuServer) (conn₂ : Connection),
        srv₂.handleMessage stack₂ reply conn₂ = .ok ([], srv₂) := by
  rcases handleMessage_cases hbuf h with ⟨-, hnil, -⟩ | ⟨body, ha, rfl⟩
  · exact absurd hnil hne
  have henv : Enveloped buf := enveloped_of_request fun hd => by simp [hd, answer] at ha
  have hlen := answer_length hn ha
  have hreply := srv'.reply_replyTo stack (show 4 + body.length < 2 ^ 16 by omega) henv
  obtain ⟨n, rfl⟩ := answer_srv ha
  refine ⟨hreply, fun stack₂ srv₂ conn₂ => handleMessage_dropped stack₂ srv₂ conn₂ ?_⟩
  rw [hreply.magic]
  decide

theorem handleMessage_replyTo_version :
    ReplyTo 7 (clientPacket .protocolVersionMessage [])
        (DsuServer.reply (.filled 0) ⟨.empty, 7, 0⟩ .protocolVersionMessage [0xE9, 3])
      ∧ ∀ (stack₂ : Stack) (srv₂ : DsuServer) (conn₂ : Connection),
        srv₂.handleMessage stack₂
            (DsuServer.reply (.filled 0) ⟨.empty, 7, 0⟩ .protocolVersionMessage [0xE9, 3]) conn₂
          = .ok ([], srv₂) := by
  have hreply : handleMessage (.filled 0) ⟨.empty, 7, 0⟩ (clientPacket .protocolVersionMessage [])
      ⟨0, 0⟩ = .ok (DsuServer.reply (.filled 0) ⟨.empty, 7, 0⟩ .protocolVersionMessage [0xE9, 3],
        ⟨.empty, 7, 0⟩) := rfl
  refine handleMessage_replyTo (by decide) (by decide) hreply ?_
  rw [← List.length_pos_iff, length_reply]
  omega

end DsuServer

end ProConDSU
