import ProConDSU.Proofs.Accepted

/-!
# The data reply

What a data reply carries, in its record (`ConnectedData`) and on the wire. A slot that is not
connected gets the record as the stack left it, but for `connected`.
-/

namespace ProConDSU

theorem ControllerInfoShared.bytesAt_slot (i : ControllerInfoShared) (rest : ByteBuffer) :
    bytesAt (i.serialize ++ rest) 0 2 = [i.slot, i.state.val] := by
  rw [serialize_eq]
  rfl

namespace ControllersDataResponse

variable (r : ControllersDataResponse)

theorem bytesAt_connected : bytesAt r.serialize 11 1 = [boolByte r.connected] := by
  rw [serialize_eq]
  exact bytesAt_append (by simp) rfl

theorem valueAt_packetNum : valueAt UInt32 r.serialize 12 = r.packetNum := by
  rw [serialize_eq, ← List.append_assoc]
  exact valueAt_append _ (by simp)

theorem bytesAt_buttons : bytesAt r.serialize 16 3
    = [r.buttons.buttons1, r.buttons.buttons2, boolByte r.home] := by
  rw [serialize_eq, ← List.append_assoc, ← List.append_assoc]
  exact bytesAt_append (by simp) rfl

end ControllersDataResponse

namespace DsuServer

section Wire

variable (stack : Stack) (srv : DsuServer) (type : MessageType) (body : ByteBuffer) (i : ℕ)

theorem drop_reply : (srv.reply stack type body).drop 20 = body :=
  Packet.drop_serialize _

theorem bytesAt_reply (n : ℕ) :
    bytesAt (srv.reply stack type body) (20 + i) n = bytesAt body i n := by
  rw [bytesAt, ← List.drop_drop, drop_reply, bytesAt]

theorem valueAt_reply (α : Type) [Pod α] :
    valueAt α (srv.reply stack type body) (20 + i) = valueAt α body i := by
  rw [valueAt, bytesAt_reply, valueAt]

end Wire

structure ConnectedData (srv : DsuServer) (i : ℕ) (status : InputStatus)
    (r : ControllersDataResponse) : Prop where
  slot : r.info.slot = UInt8.ofNat i
  state : r.info.state = .controllerConnected
  connected : r.connected = true
  packetNum : r.packetNum = srv.packetCounter
  buttons : r.buttons = ⟨mapButtons1 status.buttons, mapButtons2 status.buttons⟩
  home : r.home = status.buttons.homeButton

variable (stack : Stack) (srv : DsuServer) {i : ℕ}

theorem beginData_disconnected (h : srv.controllerManager.controllers.length ≤ i) :
    srv.beginData stack i = none := if_pos h

theorem beginData_connected (h : i < srv.controllerManager.controllers.length) :
    srv.beginData stack i
      = some (srv.numberedData stack i, { srv with packetCounter := srv.packetCounter + 1 }) :=
  if_neg (not_le.2 h)

theorem buildControllerDataResponse_disconnected
    (h : srv.controllerManager.controllers.length ≤ i) :
    buildControllerDataResponse stack srv i = (disconnectedData stack, srv) := by
  rw [buildControllerDataResponse, beginData_disconnected stack srv h]

theorem buildControllerDataResponse_eq (h : i < srv.controllerManager.controllers.length) :
    buildControllerDataResponse stack srv i = (srv.copyStatus stack i (srv.numberedData stack i),
      { srv with packetCounter := srv.packetCounter + 1 }) := by
  rw [buildControllerDataResponse, beginData_connected stack srv h]
  rfl

/-- The copy leaves the slot's description and the number as they are. -/
theorem copyStatus_keeps (cdrs : ControllersDataResponse) :
    (srv.copyStatus stack i cdrs).info = cdrs.info
      ∧ (srv.copyStatus stack i cdrs).packetNum = cdrs.packetNum := by
  unfold copyStatus
  split
  · exact ⟨rfl, rfl⟩
  · split <;> exact ⟨rfl, rfl⟩

theorem buildControllerDataResponse_connected (h : i < srv.controllerManager.controllers.length) :
    (buildControllerDataResponse stack srv i).1.packetNum = srv.packetCounter
      ∧ (buildControllerDataResponse stack srv i).2
        = { srv with packetCounter := srv.packetCounter + 1 } := by
  rw [buildControllerDataResponse_eq stack srv h]
  exact ⟨(copyStatus_keeps stack srv _).2, rfl⟩

theorem getControllerInputStatus_some {status : InputStatus} (self : InputStatus)
    (hstatus : srv.controllerManager.lastInputStates[i]? = some status) :
    srv.controllerManager.getControllerInputStatus i self = (true, status) := by
  obtain ⟨hlt, rfl⟩ := List.getElem?_eq_some_iff.1 hstatus
  rw [ControllerManager.getControllerInputStatus, dif_pos hlt]

theorem buildControllerDataResponse_data {status : InputStatus}
    (h : i < srv.controllerManager.controllers.length)
    (hstatus : srv.controllerManager.lastInputStates[i]? = some status) :
    ConnectedData srv i status (buildControllerDataResponse stack srv i).1 := by
  rw [buildControllerDataResponse_eq stack srv h, copyStatus,
    srv.getControllerInputStatus_some stack.inputStatus hstatus]
  simp only
  split <;> exact ⟨rfl, rfl, rfl, rfl, rfl, rfl⟩

theorem buildControllerDataResponse_srv (i : ℕ) :
    ∃ n, (buildControllerDataResponse stack srv i).2 = { srv with packetCounter := n } := by
  rcases Nat.lt_or_ge i srv.controllerManager.controllers.length with h | h
  · exact ⟨_, (buildControllerDataResponse_connected stack srv h).2⟩
  · exact ⟨srv.packetCounter, by rw [buildControllerDataResponse_disconnected stack srv h]⟩

theorem answer_srv {stack : Stack} {srv srv' : DsuServer} {r : Request} {body : ByteBuffer}
    (h : srv.answer stack r = .ok (some body, srv')) :
    ∃ n, srv' = { srv with packetCounter := n } := by
  cases r with simp only [answer, reduceCtorEq, Except.ok.injEq, Prod.mk.injEq, false_and] at h
  | data id =>
    rw [← h.2]
    exact buildControllerDataResponse_srv stack srv id.slot.toNat
  | version | info | motors | rumble => exact ⟨srv.packetCounter, by rw [← h.2]⟩

theorem handleMessage_srv {stack : Stack} {srv srv' : DsuServer} {buf reply : ByteBuffer}
    {conn : Connection} (hbuf : buf.length ≤ maxSize)
    (h : srv.handleMessage stack buf conn = .ok (reply, srv')) :
    ∃ n, srv' = { srv with packetCounter := n } := by
  rcases handleMessage_cases hbuf h with ⟨-, -, rfl⟩ | ⟨body, ha, -⟩
  · exact ⟨srv'.packetCounter, rfl⟩
  · exact answer_srv ha

/-- The reply to a data request is the record for its slot. -/
theorem handleMessage_data {buf : ByteBuffer} (hbuf : buf.length ≤ maxSize)
    {id : ControllerIdentifier} (hreq : requestOf buf = .data id) (conn : Connection) :
    srv.handleMessage stack buf conn
      = .ok ((buildControllerDataResponse stack srv id.slot.toNat).2.reply stack (valueAt _ buf 16)
          (buildControllerDataResponse stack srv id.slot.toNat).1.serialize,
        (buildControllerDataResponse stack srv id.slot.toNat).2) :=
  handleMessage_of_answer hbuf (by rw [hreq]; rfl) conn

end DsuServer

end ProConDSU
