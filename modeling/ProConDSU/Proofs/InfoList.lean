import ProConDSU.Proofs.Layout

/-!
# The info reply's list, decoded

`ControllersInfoResponse::deserialize` hands twelve bytes at a time to a decoder that takes eleven,
so it refuses every buffer but the empty one (`ControllersInfoResponse.deserialize_eq`).
-/

namespace ProConDSU

theorem ControllerInfoShared.deserialize_invalid {buf : ByteBuffer} (h : buf.length ≠ 11)
    (self : ControllerInfoShared) : deserialize buf self = .ok (.errInvalidLength, self) := by
  simp only [deserialize, Decode.run, Decode.bind_apply, h, ne_eq, not_false_eq_true, if_true,
    Decode.fail_apply]

namespace ControllersInfoResponse

variable (cir : ℕ → ControllerInfoResponse) (self : ControllersInfoResponse)

theorem deserialize_eq (buf : ByteBuffer) : deserialize cir buf self
    = if buf = [] then .ok (.none, ⟨[]⟩)
      else .ok (.errInvalidLength, if buf.length % 12 ≠ 0 then self else ⟨[]⟩) := by
  unfold deserialize
  split_ifs with hmod hnil hnil
  · simp [hnil] at hmod
  · rfl
  · rw [hnil]
    rfl
  · have hpos := List.length_pos_iff.2 hnil
    obtain ⟨k, hk⟩ : ∃ k, buf.length / 12 = k + 1 := ⟨buf.length / 12 - 1, by omega⟩
    have hslice : (bytesAt buf (0 * 12) 12).length ≠ 11 := by
      rw [length_bytesAt (by omega)]
      decide
    rw [hk, deserializeFrom, ControllerInfoShared.deserialize_invalid hslice]

/-- Decoding yields entries with these infos, in order. -/
def Decodes (buf : ByteBuffer) (infos : List ControllerInfoShared) : Prop :=
  ∃ r, deserialize cir buf self = .ok (.none, r) ∧ r.info.map ControllerInfoResponse.info = infos

theorem decodes_iff (buf : ByteBuffer) (infos : List ControllerInfoShared) :
    Decodes cir self buf infos ↔ buf = [] ∧ infos = [] := by
  unfold Decodes
  rw [deserialize_eq]
  split_ifs with h <;> simp [h, eq_comm]

/-- Eleven bytes of info and a zero byte for each. -/
def records (infos : List ControllerInfoShared) : ByteBuffer :=
  infos.flatMap fun i => i.serialize ++ [0]

/-- What `serialize` writes decodes just for the empty list, and so do records of twelve bytes. -/
theorem decodes_serialize_iff (r : ControllersInfoResponse) (infos : List ControllerInfoShared) :
    (Decodes cir self r.serialize (r.info.map ControllerInfoResponse.info) ↔ r.info = [])
      ∧ (Decodes cir self (records infos) infos ↔ infos = []) := by
  refine ⟨?_, ?_⟩
  · rw [decodes_iff, ← List.length_eq_zero_iff, length_serialize, List.map_eq_nil_iff,
      ← List.length_eq_zero_iff]
    omega
  · rw [decodes_iff]
    exact ⟨And.right, fun h => ⟨by rw [h]; rfl, h⟩⟩

/-- A controller's info, as the server fills it in. -/
def connectedInfo : ControllerInfoShared :=
  ⟨0, .controllerConnected, .deviceModelFullGyro, .connectionTypeBluetooth, Vector.replicate 6 0,
    .batteryFull⟩

theorem not_decodes_single :
    ¬ Decodes (fun _ => ⟨connectedInfo, 0⟩) ⟨[]⟩ (serialize ⟨[⟨connectedInfo, 0⟩]⟩) [connectedInfo]
      ∧ ¬ Decodes (fun _ => ⟨connectedInfo, 0⟩) ⟨[]⟩ (records [connectedInfo]) [connectedInfo] := by
  constructor <;> rintro ⟨r, hok, -⟩ <;> cases hok

end ControllersInfoResponse

end ProConDSU
