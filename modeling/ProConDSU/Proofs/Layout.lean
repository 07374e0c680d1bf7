import ProConDSU.Proofs.Encoders

/-!
# The info reply and the data record on the wire

The info reply's entries are `15` bytes where `ControllerInfoResponse::serialize` writes `12`, so
the two agree on the empty list alone. The data record's decoder copies its first eleven bytes into
a null pointer, so no record it is given decodes.
-/

namespace ProConDSU

namespace ControllersInfoResponse

/-- An entry with its padding byte zero, as `ControllerInfoResponse::serialize` writes it. -/
def paddedEntry (c : ControllerInfoResponse) : ByteBuffer :=
  ({ c with pad := 0 } : ControllerInfoResponse).serialize

def EntriesPadded (r : ControllersInfoResponse) : Prop :=
  r.serialize = r.info.flatMap paddedEntry
    ∧ (∀ (i : ℕ) (c : ControllerInfoResponse), r.info[i]? = some c →
        bytesAt r.serialize (12 * i) 12 = paddedEntry c)
    ∧ r.serialize.length = 12 * r.info.length

theorem entriesPadded_iff (r : ControllersInfoResponse) : r.EntriesPadded ↔ r.info = [] := by
  refine ⟨?_, ?_⟩
  · rintro ⟨-, -, hlen⟩
    rw [length_serialize] at hlen
    exact List.length_eq_zero_iff.1 (by omega)
  · intro h
    simp [EntriesPadded, serialize_eq_flatMap, h]

theorem not_entriesPadded_single :
    ¬ EntriesPadded ⟨[⟨⟨0, .controllerConnected, .deviceModelFullGyro, .connectionTypeBluetooth,
      Vector.replicate 6 0, .batteryFull⟩, 0⟩]⟩ := by
  rintro ⟨-, -, hlen⟩
  exact absurd hlen (by decide)

end ControllersInfoResponse

def infoOf (b : ByteBuffer) : ControllerInfoShared :=
  ⟨valueAt _ b 0, ⟨valueAt _ b 1⟩, ⟨valueAt _ b 2⟩, ⟨valueAt _ b 3⟩, valueAt _ b 4,
    ⟨valueAt _ b 10⟩⟩

theorem ControllerInfoShared.deserialize_ok {buf : ByteBuffer} (h : buf.length = 11)
    (self : ControllerInfoShared) : deserialize buf self = .ok (.none, infoOf buf) := by
  refine Decode.run_of_next (r := ⟨11, h.ge⟩) ?_
  simp (disch := simp; try omega) only [Decode.bind_apply, Decode.read_apply,
    Decode.readBytes_apply, Decode.assign_apply, BinaryReader.start, if_neg]
  rfl

namespace ControllersDataResponse

/-- The skip past the info is a copy into null. -/
theorem deserialize_nullCopy {buf : ByteBuffer} (h : buf.length = 80)
    (self : ControllersDataResponse) : deserialize buf self = .error .nullCopy := by
  have hbuf : buf.length ≤ maxSize := by rw [h]; decide
  have hinfo := ControllerInfoShared.deserialize_ok
    (length_bytesAt (b := buf) (i := 0) (n := 11) (by omega)) self.info
  have hskip : (BinaryReader.start buf).readBytes .nullptr 11 = .error .nullCopy :=
    BinaryReader.readBytes_null hbuf _ (by simp [BinaryReader.start]; omega) (by decide)
  simp only [deserialize, Decode.run, h, Decode.bind_apply, Decode.member, Decode.skip, hinfo,
    hskip, ne_eq, not_true_eq_false, if_false]

def RoundTrips (v self : ControllersDataResponse) : Prop :=
  v.serialize.length = 80 ∧ deserialize v.serialize self = .ok (.none, v)

theorem not_roundTrips (v self : ControllersDataResponse) : ¬ RoundTrips v self := by
  rintro ⟨hlen, hok⟩
  rw [deserialize_nullCopy hlen] at hok
  cases hok

def zero : ControllersDataResponse where
  info := ⟨0, ⟨0⟩, ⟨0⟩, ⟨0⟩, Vector.replicate 6 0, ⟨0⟩⟩
  connected := false
  packetNum := 0
  buttons := ⟨0, 0⟩
  home := false
  touchButton := false
  lStickX := 0
  lStickY := 0
  rStickX := 0
  rStickY := 0
  aDPadL := 0
  aDPadD := 0
  aDPadR := 0
  aDPadU := 0
  aY := 0
  aB := 0
  aA := 0
  aX := 0
  aR1 := 0
  aL1 := 0
  aR2 := 0
  aL2 := 0
  touch1 := ⟨false, 0, 0, 0⟩
  touch2 := ⟨false, 0, 0, 0⟩
  timestamp := 0
  accel := ⟨0, 0, 0⟩
  gyro := ⟨0, 0, 0⟩

theorem not_roundTrips_zero : ¬ RoundTrips zero zero := by
  rintro ⟨-, hok⟩
  have hnull : deserialize zero.serialize zero = .error .nullCopy := rfl
  rw [hnull] at hok
  cases hok

end ControllersDataResponse

end ProConDSU
