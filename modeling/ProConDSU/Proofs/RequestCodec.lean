import ProConDSU.Proofs.Encoders
import ProConDSU.Proofs.Requests

/-!
# Requests there and back

What a request's `deserialize` accepts, `serialize` gives back, and the other way round
(`requests_inverse`): the motors request keeps the first eight bytes of what it is given, the info
request as many slots as it counts, and the others all of it.
-/

namespace ProConDSU

/-- `decode` reads back what `encode` writes of the `ok` values, and `encode` writes back the part
of a buffer that `decode` used. -/
structure Inverse {α : Type} (encode : α → ByteBuffer)
    (decode : ByteBuffer → α → Exec (DeserializeError × α)) (ok : α → Prop)
    (used : α → ByteBuffer → ByteBuffer) : Prop where
  decodes : ∀ v target, ok v → decode (encode v) target = .ok (.none, v)
  encodes : ∀ v target buf, decode buf target = .ok (.none, v) → encode v = used v buf

namespace ControllerIdentifier

theorem serialize_eq (id : ControllerIdentifier) :
    id.serialize = [id.type.value, id.slot] ++ id.mac.toList := by
  simp [serialize]

@[simp] theorem length_serialize (id : ControllerIdentifier) : id.serialize.length = 8 := by
  simp [serialize_eq]

theorem identifierOf_append (id : ControllerIdentifier) (rest : ByteBuffer) :
    identifierOf (id.serialize ++ rest) = id := by
  have hbytes : id.serialize ++ rest = [id.type.value] ++ (Pod.toBytes id.slot
      ++ (Pod.toBytes id.mac ++ rest)) := by
    simp [serialize_eq]
  have htype : valueAt UInt8 (id.serialize ++ rest) 0 = id.type.value := by
    rw [hbytes, ← Pod.toBytes_uint8]
    exact valueAt_append (x := []) _ rfl
  have hslot : valueAt UInt8 (id.serialize ++ rest) 1 = id.slot := by
    rw [hbytes]
    exact valueAt_append _ rfl
  have hmac : valueAt (Vector UInt8 6) (id.serialize ++ rest) 2 = id.mac := by
    rw [hbytes, ← List.append_assoc]
    exact valueAt_append _ (by simp)
  rw [identifierOf, htype, hslot, hmac]

theorem identifierOf_serialize (id : ControllerIdentifier) : identifierOf id.serialize = id := by
  simpa using identifierOf_append id []

theorem serialize_identifierOf {buf : ByteBuffer} (h : 8 ≤ buf.length) :
    (identifierOf buf).serialize = bytesAt buf 0 8 := by
  have htype : [(identifierOf buf).type.value] = bytesAt buf 0 1 := by
    rw [← Pod.toBytes_uint8]
    exact toBytes_valueAt (by simp; omega)
  have hslot : [(identifierOf buf).slot] = bytesAt buf 1 1 := by
    rw [← Pod.toBytes_uint8]
    exact toBytes_valueAt (by simp; omega)
  have hmac : (identifierOf buf).mac.toList = bytesAt buf 2 6 :=
    toBytes_valueAt (α := Vector UInt8 6) (by simp; omega)
  calc (identifierOf buf).serialize
      = [(identifierOf buf).type.value] ++ [(identifierOf buf).slot]
        ++ (identifierOf buf).mac.toList := serialize_eq _
    _ = bytesAt buf 0 8 := by
      rw [htype, hslot, hmac, bytesAt_add buf 0 1 1, bytesAt_add buf 0 2 6]

end ControllerIdentifier

theorem bytesAt_length (b : ByteBuffer) : bytesAt b 0 b.length = b := by
  rw [bytesAt, List.drop_zero, List.take_length]

open ControllerIdentifier

theorem ControllersDataRequest.inverse :
    Inverse serialize deserialize (fun _ => True) fun _ buf => buf where
  decodes v target _ := by
    rw [deserialize_eq, serialize, if_pos (length_serialize _), identifierOf_serialize]
  encodes v target buf hok := by
    rw [deserialize_eq] at hok
    split_ifs at hok with h
    · obtain ⟨-, rfl⟩ := Exec.unique rfl hok
      rw [serialize, serialize_identifierOf h.ge, ← h, bytesAt_length]
    · simp at hok

theorem ControllersMotorsRequest.inverse :
    Inverse serialize deserialize (fun _ => True) fun _ buf => bytesAt buf 0 8 where
  decodes v target _ := by
    rw [deserialize_eq, serialize, if_pos (length_serialize _).ge, identifierOf_serialize]
  encodes v target buf hok := by
    rw [deserialize_eq] at hok
    split_ifs at hok with h
    · obtain ⟨-, rfl⟩ := Exec.unique rfl hok
      exact serialize_identifierOf h
    · simp at hok

theorem ControllersMotorsRumbleRequest.inverse :
    Inverse serialize deserialize (fun _ => True) fun _ buf => buf where
  decodes v target _ := by
    rw [deserialize_eq, serialize, List.append_assoc, identifierOf_append]
    simp [List.getD_eq_getElem?_getD]
  encodes v target buf hok := by
    rw [deserialize_eq] at hok
    split_ifs at hok with h
    · obtain ⟨-, rfl⟩ := Exec.unique rfl hok
      obtain ⟨x, y, hxy⟩ := List.length_eq_two.1 (show (buf.drop 8).length = 2 by simp [h])
      have hget : ∀ i, buf.getD (8 + i) 0 = (buf.drop 8).getD i 0 := fun i => by
        simp [List.getD_eq_getElem?_getD, List.getElem?_drop]
      calc serialize ⟨identifierOf buf, buf.getD 8 0, buf.getD 9 0⟩
          = bytesAt buf 0 8 ++ [buf.getD 8 0] ++ [buf.getD 9 0] := by
            rw [serialize, serialize_identifierOf (by omega)]
        _ = bytesAt buf 0 8 ++ buf.drop (0 + 8) := by
            rw [hget 0, hget 1, Nat.zero_add, hxy]
            simp
        _ = buf := by rw [bytesAt_append_drop, List.drop_zero]
    · simp at hok

theorem ControllersInfoRequest.serialize_eq (v : ControllersInfoRequest) :
    v.serialize = Pod.toBytes v.ports ++ v.slots := by
  simp [serialize]

theorem ControllersInfoRequest.inverse : Inverse serialize deserialize
    (fun v => v.ports.toInt = v.slots.length ∧ v.slots.length ≤ 4)
    fun v buf => bytesAt buf 0 (4 + v.ports.toInt).toNat where
  decodes v target hv := by
    obtain ⟨hports, h4⟩ := hv
    have hvalue : valueAt Int32 v.serialize 0 = v.ports := by
      rw [serialize_eq]
      exact valueAt_append (x := []) _ rfl
    have hcount : portsOf v.serialize = v.slots.length := by
      rw [portsOf, hvalue, hports]
    have hlen : v.serialize.length = 4 + v.slots.length := by
      rw [serialize_eq, List.length_append, Pod.length_toBytes, Pod.size_int32]
    have hslots : bytesAt v.serialize 4 v.slots.length = v.slots := by
      rw [serialize_eq, bytesAt, List.drop_left' (by simp), List.take_length]
    rw [deserialize_ok (by omega) (by omega) (by omega) (by omega), hvalue, hcount,
      Int.toNat_natCast, hslots]
  encodes v target buf hok := by
    rw [deserialize_eq] at hok
    split_ifs at hok with hlen hcount h0
    · simp at hok
    · obtain ⟨-, rfl⟩ := Exec.unique rfl hok
      have hports : (4 + (valueAt Int32 buf 0).toInt).toNat = 4 + (portsOf buf).toNat := by
        rw [← portsOf]
        omega
      have hvalue : Pod.toBytes (valueAt Int32 buf 0) = bytesAt buf 0 4 :=
        toBytes_valueAt (by simp; omega)
      rw [hports, serialize_eq, hvalue]
      exact bytesAt_add buf 0 4 _
    · simp at hok

/-- The codecs of the four requests that have a body. -/
theorem requests_inverse :
    Inverse ControllersInfoRequest.serialize ControllersInfoRequest.deserialize
        (fun v => v.ports.toInt = v.slots.length ∧ v.slots.length ≤ 4)
        (fun v buf => bytesAt buf 0 (4 + v.ports.toInt).toNat)
      ∧ Inverse ControllersDataRequest.serialize ControllersDataRequest.deserialize
        (fun _ => True) (fun _ buf => buf)
      ∧ Inverse ControllersMotorsRequest.serialize ControllersMotorsRequest.deserialize
        (fun _ => True) (fun _ buf => bytesAt buf 0 8)
      ∧ Inverse ControllersMotorsRumbleRequest.serialize ControllersMotorsRumbleRequest.deserialize
        (fun _ => True) (fun _ buf => buf) :=
  ⟨ControllersInfoRequest.inverse, ControllersDataRequest.inverse, ControllersMotorsRequest.inverse,
    ControllersMotorsRumbleRequest.inverse⟩

end ProConDSU
