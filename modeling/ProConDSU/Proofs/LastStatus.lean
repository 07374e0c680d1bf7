import Mathlib.Data.Nat.Digits.Defs
import ProConDSU.Proofs.DataReply
import ProConDSU.Proofs.Manager

/-!
# The status a slot serves

Whatever connects and callbacks came before, when no connect is in progress a slot serves what its
controller last reported, on the wire as well (`ManagerRun.serves`).
-/

namespace ProConDSU

/-- The byte with these bits, lowest first. -/
def packBits (bits : List Bool) : UInt8 := UInt8.ofNat (Nat.ofDigits 2 (bits.map Bool.toNat))

def buttonBytes (b : ButtonStatus) : ByteBuffer :=
  [packBits [b.shareButton, b.lStick, b.rStick, b.minusButton, b.upButton, b.rightButton,
      b.downButton, b.leftButton],
    packBits [b.lzButton, b.rzButton, b.lButton, b.rButton, b.xButton, b.aButton, b.bButton,
      b.yButton],
    boolByte b.homeButton]

/-- Masks of one bit each, tested from the highest down, set the byte's bits. -/
theorem orIf_eq_packBits : ∀ b7 b6 b5 b4 b3 b2 b1 b0 : Bool,
    (0 |> orIf b7 0x80 |> orIf b6 0x40 |> orIf b5 0x20 |> orIf b4 0x10 |> orIf b3 8 |> orIf b2 4
      |> orIf b1 2 |> orIf b0 1) = packBits [b0, b1, b2, b3, b4, b5, b6, b7] := by
  decide

theorem mapButtons_eq (b : ButtonStatus) :
    [mapButtons1 b, mapButtons2 b, boolByte b.homeButton] = buttonBytes b := by
  rw [buttonBytes, ← orIf_eq_packBits, ← orIf_eq_packBits]
  rfl

/-- The data reply for slot `i` carries the buttons of `status`. -/
def RepliesButtons (m : ControllerManager) (i : ℕ) (status : InputStatus) : Prop :=
  ∀ (srv : DsuServer) (stack : Stack) (buf : ByteBuffer) (conn : Connection)
    (id : ControllerIdentifier), srv.controllerManager = m → buf.length ≤ maxSize →
    requestOf buf = .data id → id.slot.toNat = i →
    ∃ reply srv', srv.handleMessage stack buf conn = .ok (reply, srv')
      ∧ bytesAt reply 36 3 = buttonBytes status.buttons

structure Serves (es : List ManagerEvent) (s : ManagerState) : Prop where
  sizes : s.connecting = .idle →
    s.manager.controllers.length = s.manager.lastInputStates.length
  status : s.connecting = .idle → ∀ i < s.manager.lastInputStates.length, ∃ last,
    slotStatus es i = some last
      ∧ (∀ status, s.manager.getControllerInputStatus i status = (true, last))
      ∧ RepliesButtons s.manager i last
  /-- A callback changes no index but its controller's. -/
  isolated : ∀ handle status s', s.step (.inputStatus handle status) = some s' →
    ∀ i : ℕ, (connectedHandles es)[i]? ≠ some handle →
      s'.manager.lastInputStates[i]? = s.manager.lastInputStates[i]?

theorem repliesButtons {m : ControllerManager} {i : ℕ} {status : InputStatus}
    (hi : i < m.controllers.length) (hstatus : m.lastInputStates[i]? = some status) :
    RepliesButtons m i status := by
  rintro srv stack buf conn id rfl hbuf hreq rfl
  have hdata := srv.buildControllerDataResponse_data stack hi hstatus
  refine ⟨_, _, srv.handleMessage_data stack hbuf hreq conn, ?_⟩
  rw [show (36 : ℕ) = 20 + 16 from rfl, DsuServer.bytesAt_reply,
    ControllersDataResponse.bytesAt_buttons, hdata.buttons, hdata.home, mapButtons_eq]

/-- Over every run of connects and callbacks, a slot serves what its controller last reported. -/
theorem ManagerRun.serves {es : List ManagerEvent} {s : ManagerState} (h : ManagerRun es s) :
    Serves es s := by
  have htracks := h.tracks
  have hsizes : s.connecting = .idle →
      s.manager.controllers.length = s.manager.lastInputStates.length := by
    intro hidle
    have hphase := htracks.inv.phase
    rwa [ManagerState.Phase, hidle] at hphase
  refine ⟨hsizes, fun hidle i hi => ?_, fun handle status s' hstep i hne => ?_⟩
  · have hlast := htracks.states i hi
    rw [List.getElem?_eq_getElem hi] at hlast
    refine ⟨_, hlast.symm, fun status => ?_, ?_⟩
    · rw [ControllerManager.getControllerInputStatus, dif_pos hi]
    · exact repliesButtons (by rw [hsizes hidle]; exact hi) (List.getElem?_eq_getElem hi)
  · cases ManagerState.moves_of_step hstep with
    | inputStatus c _ _ hfind =>
      rw [htracks.inputStatus_states hfind, if_neg fun h' => hne h'.1]

theorem ManagerRun.serves_one :
    Serves [.connectFails, .connects 5, .capturesIndex, .inputStatus 5 .zero, .registers,
        .inputStatus 5 .zero, .pushesController, .inputStatus 5 .zero, .pushesState,
        .inputStatus 5 { InputStatus.zero with timestamp := 9 }]
      ⟨⟨[⟨5, some ⟨0⟩⟩], [{ InputStatus.zero with timestamp := 9 }]⟩, .idle⟩ :=
  ManagerRun.serves <| .cons rfl <| .cons rfl <| .cons rfl <| .cons rfl <| .cons rfl <| .cons rfl <|
    .cons rfl <| .cons rfl <| .cons rfl <| .cons rfl <| .nil _

end ProConDSU
