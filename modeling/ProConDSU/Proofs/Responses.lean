import ProConDSU.Proofs.InfoList
import ProConDSU.Proofs.Rejected
import ProConDSU.Proofs.RequestCodec

/-!
# Records there and back

The codecs of the records of one size (`records_fixedCodec`): each decoder takes just the sizes it
should, never faults, and is its encoder's inverse; `Touch`, which makes any byte but `0` a `1`,
takes four and five bytes to be too few only once it has stored some of them.
-/

namespace ProConDSU

/-- A decoder that makes a value of the first `n` bytes of a buffer whose size is `ok`, and the
encoder that gives back `used` of them. -/
structure FixedCodec {α : Type} (encode : α → ByteBuffer)
    (decode : ByteBuffer → α → Exec (DeserializeError × α)) (n : ℕ) (ok : ℕ → Prop)
    (used : ByteBuffer → ByteBuffer) : Prop where
  length : ∀ v, (encode v).length = n
  returns : ∀ buf target, ∃ err v, decode buf target = .ok (err, v) ∧ (err = .none ↔ ok buf.length)
  decodes : ∀ v target, decode (encode v) target = .ok (.none, v)
  encodes : ∀ v target buf, decode buf target = .ok (.none, v) → encode v = used buf

/-- What a decoder makes of a buffer it accepts is `image`. -/
theorem FixedCodec.of_image {α : Type} {encode : α → ByteBuffer}
    {decode : ByteBuffer → α → Exec (DeserializeError × α)} {n : ℕ} {ok : ℕ → Prop}
    {used : ByteBuffer → ByteBuffer} (image : ByteBuffer → α) (hlen : ∀ v, (encode v).length = n)
    (hok : ok n)
    (haccept : ∀ buf target, ok buf.length → decode buf target = .ok (.none, image buf))
    (hrefuse : ∀ buf target, ¬ ok buf.length →
      ∃ err v, err ≠ .none ∧ decode buf target = .ok (err, v))
    (himage : ∀ v, image (encode v) = v)
    (hencode : ∀ buf, ok buf.length → encode (image buf) = used buf) :
    FixedCodec encode decode n ok used where
  length := hlen
  returns buf target := by
    by_cases h : ok buf.length
    · exact ⟨_, _, haccept buf target h, iff_of_true rfl h⟩
    · obtain ⟨err, v, hne, hd⟩ := hrefuse buf target h
      exact ⟨err, v, hd, iff_of_false hne h⟩
  decodes v target := by rw [haccept _ target (by rwa [hlen]), himage]
  encodes v target buf hd := by
    have h : ok buf.length := by
      by_contra hno
      obtain ⟨err, v', hne, herr⟩ := hrefuse buf target hno
      exact hne (Exec.unique hd herr).1.symm
    obtain ⟨-, rfl⟩ := Exec.unique (haccept buf target h) hd
    exact hencode buf h

theorem valueAt_uint8 {b : ByteBuffer} {i : ℕ} {x : UInt8} (h : b[i]? = some x) :
    valueAt UInt8 b i = x := by
  have hbytes : bytesAt b i (Pod.size UInt8) = Pod.toBytes x := by
    rw [bytesAt, Pod.size_uint8, List.take_one, List.head?_drop, h, Pod.toBytes_uint8]
    rfl
  rw [valueAt, hbytes, Pod.ofBytes_toBytes]

theorem bytesAt_bytesAt (b : ByteBuffer) (n : ℕ) : bytesAt (bytesAt b 0 n) 0 n = bytesAt b 0 n := by
  rw [bytesAt, bytesAt, List.drop_zero, List.drop_zero, List.take_take, Nat.min_self]

theorem bytesAt_one {b : ByteBuffer} {i : ℕ} (h : i < b.length) :
    [valueAt UInt8 b i] = bytesAt b i 1 := by
  rw [← Pod.toBytes_uint8]
  exact toBytes_valueAt (show i + Pod.size UInt8 ≤ b.length from h)

section Version

theorem ProtocolVersionRequest.fixedCodec :
    FixedCodec serialize deserialize 0 (fun _ => True) (bytesAt · 0 0) where
  length _ := rfl
  returns _ target := ⟨.none, target, rfl, by simp⟩
  decodes _ _ := rfl
  encodes _ _ buf _ := (List.take_zero (l := buf)).symm

theorem ProtocolVersionResponse.fixedCodec :
    FixedCodec serialize deserialize 2 (· = 2) (bytesAt · 0 2) := by
  refine .of_image (fun buf => ⟨valueAt UInt16 buf 0⟩) length_serialize rfl ?_ ?_ ?_ ?_
  · intro buf target h
    refine Decode.run_of_next (r := ⟨2, h.ge⟩) ?_
    simp (disch := simp; try omega) only [Decode.bind_apply, Decode.read_apply,
      Decode.assign_apply, BinaryReader.start, if_neg]
    rfl
  · intro buf target h
    refine ⟨.errParseError, target, by simp, ?_⟩
    simp only [deserialize, Decode.run, Decode.bind_apply, h, ne_eq, not_false_eq_true, if_true,
      Decode.fail_apply]
  · rintro ⟨version⟩
    have hvalue : valueAt UInt16 (serialize ⟨version⟩) 0 = version := by
      rw [serialize, BinaryWriter.getBuffer_eq, BinaryWriter.buf_write, ← List.append_nil
        (Pod.toBytes version)]
      exact valueAt_append (x := []) _ rfl
    rw [hvalue]
  · intro buf h
    exact toBytes_valueAt (show 0 + Pod.size UInt16 ≤ buf.length from h.ge)

end Version

namespace ControllerInfoShared

theorem infoOf_serialize (i : ControllerInfoShared) : infoOf i.serialize = i := by
  have hslot : valueAt UInt8 i.serialize 0 = i.slot := valueAt_uint8 (by simp [serialize_eq])
  have hstate : valueAt UInt8 i.serialize 1 = i.state.val :=
    valueAt_uint8 (by simp [serialize_eq])
  have hmodel : valueAt UInt8 i.serialize 2 = i.model.val :=
    valueAt_uint8 (by simp [serialize_eq])
  have hconnection : valueAt UInt8 i.serialize 3 = i.connection.val :=
    valueAt_uint8 (by simp [serialize_eq])
  have hmac : valueAt (Vector UInt8 6) i.serialize 4 = i.macAddress := by
    rw [serialize_eq]
    exact valueAt_append i.macAddress rfl
  have hbattery : valueAt UInt8 i.serialize 10 = i.batteryState.val :=
    valueAt_uint8 (by simp [serialize_eq])
  rw [infoOf, hslot, hstate, hmodel, hconnection, hmac, hbattery]

theorem serialize_infoOf {buf : ByteBuffer} (h : 11 ≤ buf.length) :
    (infoOf buf).serialize = bytesAt buf 0 11 := by
  have hmac : (infoOf buf).macAddress.toList = bytesAt buf 4 6 :=
    toBytes_valueAt (α := Vector UInt8 6) (by simp; omega)
  calc (infoOf buf).serialize
      = [valueAt UInt8 buf 0] ++ [valueAt UInt8 buf 1] ++ [valueAt UInt8 buf 2]
        ++ [valueAt UInt8 buf 3] ++ (infoOf buf).macAddress.toList ++ [valueAt UInt8 buf 10] := by
        rw [serialize_eq]
        simp [infoOf]
    _ = bytesAt buf 0 11 := by
      rw [bytesAt_one (by omega), bytesAt_one (by omega), bytesAt_one (by omega),
        bytesAt_one (by omega), bytesAt_one (by omega), hmac, bytesAt_add buf 0 1 1,
        bytesAt_add buf 0 2 1, bytesAt_add buf 0 3 1, bytesAt_add buf 0 4 6,
        bytesAt_add buf 0 10 1]

theorem fixedCodec : FixedCodec serialize deserialize 11 (· = 11) (bytesAt · 0 11) :=
  .of_image infoOf length_serialize rfl (fun _ target h => deserialize_ok h target)
    (fun _ target h => ⟨_, _, by simp, deserialize_invalid h target⟩) infoOf_serialize
    fun _ h => serialize_infoOf h.ge

end ControllerInfoShared

namespace ControllersMotorsResponse

theorem serialize_image {buf : ByteBuffer} (h : buf.length = 12) :
    serialize ⟨infoOf (bytesAt buf 0 11), buf.getD 11 0⟩ = bytesAt buf 0 12 := by
  have hlast : [buf.getD 11 0] = bytesAt buf 11 1 := by
    rw [bytesAt, List.take_one, List.head?_drop, List.getD_eq_getElem?_getD,
      List.getElem?_eq_getElem (by omega)]
    rfl
  have hinfo : (infoOf (bytesAt buf 0 11)).serialize = bytesAt buf 0 11 := by
    rw [ControllerInfoShared.serialize_infoOf (length_bytesAt (by omega)).ge, bytesAt_bytesAt]
  rw [serialize, hinfo, hlast, bytesAt_add buf 0 11 1]

theorem fixedCodec : FixedCodec serialize deserialize 12 (· = 12) (bytesAt · 0 12) := by
  refine .of_image (fun buf => ⟨infoOf (bytesAt buf 0 11), buf.getD 11 0⟩) length_serialize rfl
    ?_ ?_ ?_ fun _ h => serialize_image h
  · intro buf target h
    have hinfo := ControllerInfoShared.deserialize_ok
      (length_bytesAt (b := buf) (i := 0) (n := 11) (by omega)) target.info
    simp only [deserialize, Decode.run, Decode.bind_apply, Decode.member, hinfo, h, ne_eq,
      not_true_eq_false, if_false, Decode.assign_apply]
  · intro buf target h
    refine ⟨.errInvalidLength, target, by simp, ?_⟩
    simp only [deserialize, Decode.run, Decode.bind_apply, h, ne_eq, not_false_eq_true, if_true,
      Decode.fail_apply]
  · rintro ⟨info, motorCount⟩
    have hinfo : bytesAt (serialize ⟨info, motorCount⟩) 0 11 = info.serialize := by
      rw [bytesAt, List.drop_zero]
      exact List.take_left' (ControllerInfoShared.length_serialize _)
    have hlast : (serialize ⟨info, motorCount⟩).getD 11 0 = motorCount := by
      simp [serialize, List.getD_eq_getElem?_getD]
    rw [hinfo, hlast, ControllerInfoShared.infoOf_serialize]

end ControllersMotorsResponse

namespace GamePadButtons

theorem fixedCodec : FixedCodec serialize deserialize 2 (2 ≤ ·) (bytesAt · 0 2) := by
  refine .of_image (fun buf => ⟨valueAt _ buf 0, valueAt _ buf 1⟩) (fun _ => by simp [serialize])
    le_rfl ?_ ?_ ?_ ?_
  · intro buf target h
    refine Decode.run_of_next (r := ⟨2, h⟩) ?_
    simp (disch := simp; try omega) only [Decode.bind_apply, Decode.read_apply,
      Decode.assign_apply, BinaryReader.start, if_neg]
    rfl
  · intro buf target h
    refine ⟨.errInvalidLength, target, by simp, ?_⟩
    have hshort : buf.length < 2 := not_le.1 h
    simp only [deserialize, Decode.run, Decode.bind_apply, hshort, if_true, Decode.fail_apply]
  · rintro ⟨buttons1, buttons2⟩
    rw [valueAt_uint8 (x := buttons1) (by simp [serialize]),
      valueAt_uint8 (x := buttons2) (by simp [serialize])]
  · intro buf h
    have h2 : 2 ≤ buf.length := h
    calc serialize ⟨valueAt _ buf 0, valueAt _ buf 1⟩
        = [valueAt UInt8 buf 0] ++ [valueAt UInt8 buf 1] := by simp [serialize]
      _ = bytesAt buf 0 2 := by
        rw [bytesAt_one (by omega), bytesAt_one (by omega), bytesAt_add buf 0 1 1]

end GamePadButtons

namespace Vectors3f

theorem fixedCodec : FixedCodec serialize deserialize 12 (12 ≤ ·) (bytesAt · 0 12) := by
  refine .of_image (fun buf => ⟨valueAt _ buf 0, valueAt _ buf 4, valueAt _ buf 8⟩)
    length_serialize le_rfl ?_ ?_ ?_ ?_
  · intro buf target h
    refine Decode.run_of_next (r := ⟨12, h⟩) ?_
    simp (disch := simp; try omega) only [Decode.bind_apply, Decode.read_apply,
      Decode.assign_apply, BinaryReader.start, if_neg]
    rfl
  · intro buf target h
    refine ⟨.errInvalidLength, target, by simp, ?_⟩
    have hshort : buf.length < 12 := not_le.1 h
    simp only [deserialize, Decode.run, Decode.bind_apply, hshort, if_true, Decode.fail_apply]
  · intro v
    have hx : valueAt FloatBits v.serialize 0 = v.x := by
      rw [serialize_eq]
      exact valueAt_append (x := []) _ rfl
    have hy : valueAt FloatBits v.serialize 4 = v.y := by
      rw [serialize_eq]
      exact valueAt_append _ (by simp)
    have hz : valueAt FloatBits v.serialize 8 = v.z := by
      rw [serialize_eq, ← List.append_assoc]
      exact valueAt_append _ (by simp)
    rw [hx, hy, hz]
  · intro buf h
    have h12 : 12 ≤ buf.length := h
    have hfield : ∀ i ≤ 8, Pod.toBytes (valueAt FloatBits buf i) = bytesAt buf i 4 := fun i hi =>
      toBytes_valueAt (show i + Pod.size FloatBits ≤ buf.length by simp; omega)
    rw [serialize_eq, hfield 0 (by omega), hfield 4 (by omega), hfield 8 (by omega),
      List.append_nil, bytesAt_add buf 4 4 4, bytesAt_add buf 0 4 8]

end Vectors3f

namespace Touch

theorem serialize_eq (t : Touch) : t.serialize
    = [boolByte t.active] ++ ([t.id] ++ (Pod.toBytes t.x ++ (Pod.toBytes t.y ++ []))) := by
  simp [serialize]

theorem boolByte_ne_zero (b : Bool) : (boolByte b != 0) = b := by
  cases b <;> rfl

theorem fixedCodec : FixedCodec serialize deserialize 6 (6 ≤ ·)
    fun buf => boolByte (valueAt UInt8 buf 0 != 0) :: bytesAt buf 1 5 := by
  refine .of_image (fun buf => ⟨valueAt UInt8 buf 0 != 0, valueAt _ buf 1, valueAt _ buf 2,
    valueAt _ buf 4⟩) length_serialize le_rfl ?_ ?_ ?_ ?_
  · intro buf target h
    have h6 : 6 ≤ buf.length := h
    rw [deserialize_eq, if_neg (by omega), if_neg (by omega)]
    rfl
  · intro buf target h
    have h6 : buf.length < 6 := not_le.1 h
    rw [deserialize_eq]
    split_ifs
    · exact ⟨_, _, by simp, rfl⟩
    · exact ⟨_, _, by simp, rfl⟩
  · intro t
    have hactive : valueAt UInt8 t.serialize 0 = boolByte t.active :=
      valueAt_uint8 (by simp [serialize_eq])
    have hid : valueAt UInt8 t.serialize 1 = t.id := valueAt_uint8 (by simp [serialize_eq])
    have hx : valueAt UInt16 t.serialize 2 = t.x := by
      rw [serialize_eq, ← List.append_assoc]
      exact valueAt_append _ rfl
    have hy : valueAt UInt16 t.serialize 4 = t.y := by
      rw [serialize_eq, ← List.append_assoc, ← List.append_assoc]
      exact valueAt_append _ (by simp)
    rw [hactive, hid, hx, hy, boolByte_ne_zero]
  · intro buf h
    have h6 : 6 ≤ buf.length := h
    have hx : Pod.toBytes (valueAt UInt16 buf 2) = bytesAt buf 2 2 :=
      toBytes_valueAt (show 2 + Pod.size UInt16 ≤ buf.length by simp; omega)
    have hy : Pod.toBytes (valueAt UInt16 buf 4) = bytesAt buf 4 2 :=
      toBytes_valueAt (show 4 + Pod.size UInt16 ≤ buf.length by simp; omega)
    rw [serialize_eq, hx, hy, bytesAt_one (by omega), List.append_nil, bytesAt_add buf 2 2 2,
      bytesAt_add buf 1 1 4]
    rfl

end Touch

namespace ControllerInfoResponse

variable {buf : ByteBuffer}

theorem deserialize_eq (self : ControllerInfoResponse) : deserialize buf self
    = if buf.length = 12 then .ok (.none, { self with info := infoOf (bytesAt buf 0 11) })
      else .ok (.errInvalidLength, self) := by
  simp only [deserialize, Decode.run, Decode.bind_apply, Decode.ite_apply, Decode.fail_apply,
    ite_not]
  split_ifs with h
  · have hinfo := ControllerInfoShared.deserialize_ok
      (length_bytesAt (b := buf) (i := 0) (n := 11) (by omega)) self.info
    rw [Decode.member, hinfo]
  · rfl

/-- The padding byte is written, and not read. -/
theorem deserialize_iff {target v : ControllerInfoResponse} :
    deserialize buf target = .ok (.none, v)
      ↔ buf.length = 12 ∧ v.serialize = bytesAt buf 0 11 ++ [target.pad] := by
  rw [deserialize_eq]
  have hbytes (h : buf.length = 12) : (infoOf (bytesAt buf 0 11)).serialize = bytesAt buf 0 11 := by
    have h11 : (bytesAt buf 0 11).length = 11 := length_bytesAt (by omega)
    rw [ControllerInfoShared.serialize_infoOf h11.ge, bytesAt_bytesAt]
  refine ⟨fun h => ?_, ?_⟩
  · split_ifs at h with hlen
    · obtain ⟨-, rfl⟩ := Exec.unique rfl h
      exact ⟨hlen, by rw [serialize, hbytes hlen]⟩
    · simp at h
  · rintro ⟨hlen, hv⟩
    obtain ⟨hinfo, hpad⟩ := List.append_inj hv (by rw [← hbytes hlen]; simp)
    have heq : v.info = infoOf (bytesAt buf 0 11) := by
      rw [← hinfo, ControllerInfoShared.infoOf_serialize]
    have hsame : v.pad = target.pad := by simpa using hpad
    rw [if_pos hlen, ← heq, ← hsame]

end ControllerInfoResponse

/-- The codecs of the records of one size. -/
theorem records_fixedCodec :
    FixedCodec ProtocolVersionRequest.serialize ProtocolVersionRequest.deserialize 0
        (fun _ => True) (bytesAt · 0 0)
      ∧ FixedCodec ProtocolVersionResponse.serialize ProtocolVersionResponse.deserialize 2 (· = 2)
        (bytesAt · 0 2)
      ∧ FixedCodec ControllerInfoShared.serialize ControllerInfoShared.deserialize 11 (· = 11)
        (bytesAt · 0 11)
      ∧ FixedCodec ControllersMotorsResponse.serialize ControllersMotorsResponse.deserialize 12
        (· = 12) (bytesAt · 0 12)
      ∧ FixedCodec GamePadButtons.serialize GamePadButtons.deserialize 2 (2 ≤ ·) (bytesAt · 0 2)
      ∧ FixedCodec Vectors3f.serialize Vectors3f.deserialize 12 (12 ≤ ·) (bytesAt · 0 12)
      ∧ FixedCodec Touch.serialize Touch.deserialize 6 (6 ≤ ·)
        (fun buf => boolByte (valueAt UInt8 buf 0 != 0) :: bytesAt buf 1 5)
      ∧ ∀ buf (target v : ControllerInfoResponse),
        ControllerInfoResponse.deserialize buf target = .ok (.none, v)
          ↔ buf.length = 12 ∧ v.serialize = bytesAt buf 0 11 ++ [target.pad] :=
  ⟨ProtocolVersionRequest.fixedCodec, ProtocolVersionResponse.fixedCodec,
    ControllerInfoShared.fixedCodec, ControllersMotorsResponse.fixedCodec,
    GamePadButtons.fixedCodec, Vectors3f.fixedCodec, Touch.fixedCodec,
    fun _ _ _ => ControllerInfoResponse.deserialize_iff⟩

end ProConDSU
