import ProConDSU.Proofs.Encoders
import ProConDSU.Proofs.Requests

/-!
# Which datagrams are answered

The handler answers the datagrams `Answerable` lists and drops the rest, except an info request
whose `ports` wraps: there the resize throws, and nothing catches it.
-/

namespace ProConDSU

section Answerable

variable {buf : ByteBuffer}

/-- A datagram that should be answered: an envelope, and a type with a body of its size. -/
def Answerable (buf : ByteBuffer) : Prop :=
  20 ≤ buf.length ∧ bytesAt buf 0 4 = dsuc ∧
    (valueAt _ buf 16 = MessageType.protocolVersionMessage
      ∨ (valueAt _ buf 16 = MessageType.controllersInfoMessage
        ∧ 4 ≤ (buf.drop 20).length ∧ (buf.drop 20).length ≤ 8
        ∧ 0 ≤ portsOf (buf.drop 20) ∧ portsOf (buf.drop 20) ≤ (buf.drop 20).length - 4)
      ∨ (valueAt _ buf 16 = MessageType.controllersDataMessage ∧ (buf.drop 20).length = 8)
      ∨ (valueAt _ buf 16 = MessageType.controllersMotorsInfoMessage ∧ 8 ≤ (buf.drop 20).length)
      ∨ (valueAt _ buf 16 = MessageType.controllersMotorsRumbleMessage
        ∧ (buf.drop 20).length = 10))

/-- An info request whose `ports`, converted to `size_t`, wraps past the length check. -/
def WrapsPorts (buf : ByteBuffer) : Prop :=
  Enveloped buf ∧ valueAt _ buf 16 = MessageType.controllersInfoMessage
    ∧ 4 ≤ (buf.drop 20).length ∧ (buf.drop 20).length ≤ 8
    ∧ -4 ≤ portsOf (buf.drop 20) ∧ portsOf (buf.drop 20) < 0

/-- The datagram of a client with everything but the type and the body left zero. -/
def clientPacket (type : MessageType) (body : ByteBuffer) : ByteBuffer :=
  dsuc ++ (List.replicate 12 0 ++ (Pod.toBytes type ++ body))

theorem enveloped_clientPacket (type : MessageType) (body : ByteBuffer) :
    Enveloped (clientPacket type body) := by
  refine ⟨?_, rfl⟩
  simp [clientPacket, dsuc]

theorem packetOf_clientPacket (type : MessageType) (body : ByteBuffer) :
    (packetOf (clientPacket type body)).type = type
      ∧ (packetOf (clientPacket type body)).body = body := by
  have hsplit : clientPacket type body
      = dsuc ++ List.replicate 12 0 ++ (Pod.toBytes type ++ body) := by
    rw [clientPacket, List.append_assoc]
  refine ⟨?_, ?_⟩
  · show valueAt MessageType (clientPacket type body) 16 = type
    rw [hsplit]
    exact valueAt_append _ rfl
  · show (clientPacket type body).drop 20 = body
    rw [hsplit, ← List.append_assoc]
    exact List.drop_left' (by simp [dsuc])

theorem requestOf_clientPacket (type : MessageType) (body : ByteBuffer) :
    requestOf (clientPacket type body)
      = Packet.request { packetOf (clientPacket type body) with type := type, body := body } := by
  obtain ⟨htype, hbody⟩ := packetOf_clientPacket type body
  rw [requestOf, if_pos (enveloped_clientPacket type body)]
  unfold Packet.request
  rw [htype, hbody]

def Request.Answered : Request → Prop
  | .dropped | .faults => False
  | .version | .info _ | .data _ | .motors _ | .rumble => True

theorem infoRequest_faults {body : ByteBuffer} : infoRequest body = .faults ↔
    4 ≤ body.length ∧ body.length ≤ 8 ∧ -4 ≤ portsOf body ∧ portsOf body < 0 := by
  unfold infoRequest
  split_ifs with h h0
  · simp only [false_iff]
    omega
  · simp only [true_iff]
    omega
  · simp only [false_iff]
    omega

theorem infoRequest_answered {body : ByteBuffer} : (infoRequest body).Answered ↔
    4 ≤ body.length ∧ body.length ≤ 8 ∧ 0 ≤ portsOf body ∧ portsOf body ≤ body.length - 4 := by
  unfold infoRequest
  split_ifs with h h0
  · simp only [Request.Answered, true_iff]
    omega
  · simp only [Request.Answered, false_iff]
    omega
  · simp only [Request.Answered, false_iff]
    omega

open MessageType in
theorem Packet.request_faults (p : Packet) : p.request = .faults ↔
    p.type = .controllersInfoMessage ∧ infoRequest p.body = .faults := by
  unfold Packet.request
  split_ifs with h1 h2 h3 h4 h5 h6 h7 h8 <;>
    simp_all [protocolVersionMessage, controllersInfoMessage]

open MessageType in
theorem Packet.request_answered (p : Packet) : p.request.Answered ↔
    p.type = .protocolVersionMessage
      ∨ (p.type = .controllersInfoMessage ∧ (infoRequest p.body).Answered)
      ∨ (p.type = .controllersDataMessage ∧ p.body.length = 8)
      ∨ (p.type = .controllersMotorsInfoMessage ∧ 8 ≤ p.body.length)
      ∨ (p.type = .controllersMotorsRumbleMessage ∧ p.body.length = 10) := by
  unfold Packet.request
  split_ifs with h1 h2 h3 h4 h5 h6 h7 h8 <;>
    simp_all [Request.Answered, protocolVersionMessage, controllersInfoMessage,
      controllersDataMessage, controllersMotorsInfoMessage, controllersMotorsRumbleMessage]

theorem requestOf_faults : requestOf buf = .faults ↔ WrapsPorts buf := by
  unfold requestOf WrapsPorts
  split_ifs with henv
  · rw [Packet.request_faults, infoRequest_faults]
    exact ⟨fun h => ⟨henv, h⟩, fun h => h.2⟩
  · simp [henv]

theorem requestOf_answered : (requestOf buf).Answered ↔ Answerable buf := by
  unfold requestOf
  split_ifs with henv
  · rw [Packet.request_answered, infoRequest_answered]
    exact ⟨fun h => ⟨henv.1, henv.2, h⟩, fun h => h.2.2⟩
  · exact ⟨False.elim, fun h => henv ⟨h.1, h.2.1⟩⟩

end Answerable

def fill (α : Type) [Pod α] (b : UInt8) : α := Pod.ofBytes (List.replicate (Pod.size α) b)

def Stack.filled (b : UInt8) : Stack where
  reqHeader := ⟨fill _ b, fill _ b, fill _ b, fill _ b, fill _ b⟩
  reqType := fill _ b
  pvrs := ⟨fill _ b⟩
  ports := fill _ b
  cir _ := ⟨info, b⟩
  cdrq := ⟨identifier⟩
  cdrs := {
    info := info
    connected := b != 0
    packetNum := fill _ b
    buttons := ⟨b, b⟩
    home := b != 0
    touchButton := b != 0
    lStickX := b
    lStickY := b
    rStickX := b
    rStickY := b
    aDPadL := b
    aDPadD := b
    aDPadR := b
    aDPadU := b
    aY := b
    aB := b
    aA := b
    aX := b
    aR1 := b
    aL1 := b
    aR2 := b
    aL2 := b
    touch1 := ⟨b != 0, b, fill _ b, fill _ b⟩
    touch2 := ⟨b != 0, b, fill _ b, fill _ b⟩
    timestamp := fill _ b
    accel := ⟨fill _ b, fill _ b, fill _ b⟩
    gyro := ⟨fill _ b, fill _ b, fill _ b⟩ }
  inputStatus := .zero
  cmim := ⟨identifier⟩
  cmirs := ⟨info, b⟩
  cmrq := ⟨identifier, b, b⟩
  header := ⟨fill _ b, fill _ b, fill _ b, fill _ b, fill _ b⟩
  resp := ⟨⟨fill _ b, fill _ b, fill _ b, fill _ b, fill _ b⟩, fill _ b, []⟩
  undefinedCast _ := b
where
  info : ControllerInfoShared := ⟨b, ⟨b⟩, ⟨b⟩, ⟨b⟩, Vector.replicate 6 b, ⟨b⟩⟩
  identifier : ControllerIdentifier := ⟨⟨b⟩, b, Vector.replicate 6 b⟩

namespace DsuServer

theorem length_reply (stack : Stack) (srv : DsuServer) (type : MessageType) (body : ByteBuffer) :
    (srv.reply stack type body).length = 20 + body.length :=
  Packet.length_serialize _

theorem answer_cases (stack : Stack) (srv : DsuServer) (r : Request) :
    (r = .dropped ∧ srv.answer stack r = .ok (none, srv))
      ∨ (r = .faults ∧ srv.answer stack r = .error .lengthError)
      ∨ (r.Answered ∧ ∃ body srv', srv.answer stack r = .ok (some body, srv')) := by
  cases r with
  | dropped => exact .inl ⟨rfl, rfl⟩
  | faults => exact .inr (.inl ⟨rfl, rfl⟩)
  | version => exact .inr (.inr ⟨trivial, _, _, rfl⟩)
  | info => exact .inr (.inr ⟨trivial, _, _, rfl⟩)
  | data => exact .inr (.inr ⟨trivial, _, _, rfl⟩)
  | motors => exact .inr (.inr ⟨trivial, _, _, rfl⟩)
  | rumble => exact .inr (.inr ⟨trivial, _, _, rfl⟩)

/-- The handler returns, with a reply just when the datagram is answerable. -/
def Handles (stack : Stack) (srv : DsuServer) (buf : ByteBuffer) (conn : Connection) : Prop :=
  ∃ reply srv', srv.handleMessage stack buf conn = .ok (reply, srv')
    ∧ (reply ≠ [] ↔ Answerable buf)

variable {buf : ByteBuffer}

theorem handleMessage_throws {stack : Stack} {srv : DsuServer} {conn : Connection} {f : Fault}
    (hbuf : buf.length ≤ maxSize) :
    srv.handleMessage stack buf conn = .error f ↔ f = .lengthError ∧ WrapsPorts buf := by
  rw [handleMessage_eq stack srv hbuf conn, ← requestOf_faults]
  rcases srv.answer_cases stack (requestOf buf) with
    ⟨hr, ha⟩ | ⟨hr, ha⟩ | ⟨hr, body, srv', ha⟩ <;> rw [ha]
  · simp [finish, hr]
  · simp [finish, hr, eq_comm]
  · have hf : requestOf buf ≠ .faults := fun h => by rw [h] at hr; exact hr
    simp [finish, hf]

/-- The handler does as it should on every datagram but those whose `ports` wraps. -/
theorem handles_iff (hbuf : buf.length ≤ maxSize) (stack : Stack) (srv : DsuServer)
    (conn : Connection) : srv.Handles stack buf conn ↔ ¬ WrapsPorts buf := by
  rw [Handles, handleMessage_eq stack srv hbuf conn, ← requestOf_faults, ← requestOf_answered]
  rcases srv.answer_cases stack (requestOf buf) with
    ⟨hr, ha⟩ | ⟨hr, ha⟩ | ⟨hr, body, srv', ha⟩ <;> rw [ha]
  · simp [finish, hr, Request.Answered]
  · simp [finish, hr]
  · have hne : srv'.reply stack (valueAt _ buf 16) body ≠ [] := by
      rw [← List.length_pos_iff, length_reply]
      omega
    have hf : requestOf buf ≠ .faults := fun h => by rw [h] at hr; exact hr
    simp only [finish, hf, not_false_eq_true, iff_true]
    exact ⟨_, _, rfl, fun _ => hr, fun _ => hne⟩

theorem handles_iff_rumble :
    Handles (.filled 0) ⟨.empty, 7, 0⟩
        (clientPacket .controllersMotorsRumbleMessage (List.replicate 10 0)) ⟨0, 0⟩
      ↔ ¬ WrapsPorts (clientPacket .controllersMotorsRumbleMessage (List.replicate 10 0)) :=
  handles_iff (by decide) _ _ _

theorem not_handles_minusOne :
    ¬ Handles (.filled 0) ⟨.empty, 7, 0⟩
      (clientPacket .controllersInfoMessage [0xFF, 0xFF, 0xFF, 0xFF]) ⟨0, 0⟩ := by
  rintro ⟨reply, srv', h, -⟩
  have hthrow : handleMessage (.filled 0) ⟨.empty, 7, 0⟩
      (clientPacket .controllersInfoMessage [0xFF, 0xFF, 0xFF, 0xFF]) ⟨0, 0⟩
      = .error .lengthError := rfl
  rw [hthrow] at h
  cases h

end DsuServer

end ProConDSU
