import ProConDSU.Proofs.Reply
import ProConDSU.Proofs.Responses
import ProConDSU.Proofs.Slots

/-!
# Both ends of a call

A client that writes its requests with these encoders is understood, whatever its header says
besides `DSUC` (`requestOf_serialize`). Of the replies, these decoders read the version, the motors
and the empty answer to a rumble; the list of controllers only where it is empty; and a controller's
data never (`DsuServer.calls_answered`).
-/

namespace ProConDSU

theorem requestOf_serialize {p : Packet} (hmagic : p.header.magic.toList = dsuc) :
    requestOf p.serialize = p.request := by
  have henv : Enveloped p.serialize := ⟨by simp, by rw [Packet.bytesAt_magic, hmagic]⟩
  rw [requestOf, if_pos henv, Packet.packetOf_serialize]
  rfl

section Requests

variable (header : PacketHeader)

theorem request_version (body : ByteBuffer) :
    Packet.request ⟨header, .protocolVersionMessage, body⟩ = .version := rfl

theorem request_info {q : ControllersInfoRequest} (hports : q.ports.toInt = q.slots.length)
    (h4 : q.slots.length ≤ 4) :
    Packet.request ⟨header, .controllersInfoMessage, q.serialize⟩ = .info q.slots := by
  show infoRequest q.serialize = .info q.slots
  have hvalue : valueAt Int32 q.serialize 0 = q.ports := by
    rw [ControllersInfoRequest.serialize_eq]
    exact valueAt_append (x := []) _ rfl
  have hcount : portsOf q.serialize = q.slots.length := by
    rw [portsOf, hvalue, hports]
  have hlen : q.serialize.length = 4 + q.slots.length := by
    simp [ControllersInfoRequest.serialize_eq]
  have hslots : bytesAt q.serialize 4 q.slots.length = q.slots := by
    rw [ControllersInfoRequest.serialize_eq, bytesAt, List.drop_left' (by simp), List.take_length]
  rw [infoRequest, hcount, if_pos (by omega), if_pos (by omega), Int.toNat_natCast, hslots]

theorem request_data (q : ControllersDataRequest) :
    Packet.request ⟨header, .controllersDataMessage, q.serialize⟩ = .data q.controllerId := by
  show (if q.serialize.length = 8 then Request.data (identifierOf q.serialize) else .dropped) = _
  rw [ControllersDataRequest.serialize, if_pos (ControllerIdentifier.length_serialize _),
    ControllerIdentifier.identifierOf_serialize]

theorem request_motors (q : ControllersMotorsRequest) :
    Packet.request ⟨header, .controllersMotorsInfoMessage, q.serialize⟩
      = .motors q.controllerId := by
  show (if 8 ≤ q.serialize.length then Request.motors (identifierOf q.serialize) else .dropped) = _
  rw [ControllersMotorsRequest.serialize, if_pos (ControllerIdentifier.length_serialize _).ge,
    ControllerIdentifier.identifierOf_serialize]

theorem request_rumble (q : ControllersMotorsRumbleRequest) :
    Packet.request ⟨header, .controllersMotorsRumbleMessage, q.serialize⟩ = .rumble := by
  show (if q.serialize.length = 10 then Request.rumble else .dropped) = _
  rw [if_pos (by simp [ControllersMotorsRumbleRequest.serialize])]

end Requests

/-- What a client with this header gets for each kind of request, and reads in the reply's body. -/
structure Calls (stack : Stack) (srv : DsuServer) (conn : Connection) (header : PacketHeader) :
    Prop where
  version : ∀ (q : ProtocolVersionRequest) (target : ProtocolVersionResponse), ∃ reply,
    srv.handleMessage stack (Packet.serialize ⟨header, .protocolVersionMessage, q.serialize⟩) conn
        = .ok (reply, srv)
      ∧ ProtocolVersionResponse.deserialize (reply.drop 20) target = .ok (.none, ⟨1001⟩)
  info : ∀ q : ControllersInfoRequest, q.ports.toInt = q.slots.length → q.slots.length ≤ 4 →
    ∃ reply,
      srv.handleMessage stack (Packet.serialize ⟨header, .controllersInfoMessage, q.serialize⟩) conn
        = .ok (reply, srv)
      ∧ ∀ cir target, (∃ r, ControllersInfoResponse.deserialize cir (reply.drop 20) target
        = .ok (.none, r)) ↔ srv.controllerManager.controllers = []
  data : ∀ q : ControllersDataRequest, ∃ reply srv',
    srv.handleMessage stack (Packet.serialize ⟨header, .controllersDataMessage, q.serialize⟩) conn
        = .ok (reply, srv')
      ∧ ∀ target, ControllersDataResponse.deserialize (reply.drop 20) target = .error .nullCopy
  motors : ∀ (q : ControllersMotorsRequest) (target : ControllersMotorsResponse), ∃ reply r,
    srv.handleMessage stack
        (Packet.serialize ⟨header, .controllersMotorsInfoMessage, q.serialize⟩) conn
        = .ok (reply, srv)
      ∧ ControllersMotorsResponse.deserialize (reply.drop 20) target = .ok (.none, r)
      ∧ r.info.slot = q.controllerId.slot ∧ r.info.state = .controllerConnected
      ∧ r.motorCount = 2
  rumble : ∀ q : ControllersMotorsRumbleRequest, ∃ reply,
    srv.handleMessage stack
        (Packet.serialize ⟨header, .controllersMotorsRumbleMessage, q.serialize⟩) conn
        = .ok (reply, srv)
      ∧ reply.drop 20 = []

namespace DsuServer

variable {stack : Stack} {srv srv' : DsuServer} {header : PacketHeader}

theorem handleMessage_call {type : MessageType} {body answered : ByteBuffer}
    (hmagic : header.magic.toList = dsuc) (hbody : body.length ≤ 10)
    (h : srv.answer stack (Packet.request ⟨header, type, body⟩) = .ok (some answered, srv'))
    (conn : Connection) : ∃ reply,
      srv.handleMessage stack (Packet.serialize ⟨header, type, body⟩) conn = .ok (reply, srv')
        ∧ reply.drop 20 = answered := by
  have hsize : (Packet.serialize ⟨header, type, body⟩).length ≤ maxSize := by
    rw [Packet.length_serialize]
    exact (Nat.add_le_add_left hbody 20).trans (by decide)
  have hreq := requestOf_serialize (p := ⟨header, type, body⟩) hmagic
  exact ⟨_, handleMessage_of_answer hsize (by rw [hreq, h]) conn, drop_reply ..⟩

end DsuServer

end ProConDSU
