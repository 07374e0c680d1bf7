import ProConDSU.Proofs.Reader

/-!
# What the encoders write

Each record is the concatenation of its fields' bytes, so a field is read off at the sum of the
widths before it. The info reply pads an entry with an `int`, so its entries are `15` bytes, three
more than a `ControllerInfoResponse` (`ControllersInfoResponse.serialize_eq_flatMap`).
-/

namespace ProConDSU

section Bytes

variable {x y z : ByteBuffer} {i n : ℕ}

theorem bytesAt_append (hi : x.length = i) (hn : y.length = n) :
    bytesAt (x ++ (y ++ z)) i n = y := by
  rw [bytesAt, List.drop_left' hi, List.take_left' hn]

theorem valueAt_append {α : Type} [Pod α] (a : α) (hi : x.length = i) :
    valueAt α (x ++ (Pod.toBytes a ++ z)) i = a := by
  rw [valueAt, bytesAt_append hi (Pod.length_toBytes a), Pod.ofBytes_toBytes]

@[simp] theorem take_toList {n : ℕ} (v : Vector UInt8 n) : v.toList.take n = v.toList :=
  List.take_of_length_le (by simp)

end Bytes

namespace ControllerInfoShared

theorem serialize_eq (i : ControllerInfoShared) :
    i.serialize = [i.slot, i.state.val, i.model.val, i.connection.val]
      ++ (i.macAddress.toList ++ [i.batteryState.val]) := by
  simp [serialize]

@[simp] theorem length_serialize (i : ControllerInfoShared) : i.serialize.length = 11 := by
  simp [serialize_eq]

theorem serialize_inj {i j : ControllerInfoShared} (h : i.serialize = j.serialize) : i = j := by
  rw [serialize_eq, serialize_eq] at h
  obtain ⟨h1, h2⟩ := List.append_inj h rfl
  obtain ⟨hm, hb⟩ := List.append_inj h2 (by simp)
  simp only [List.cons.injEq, and_true] at h1 hb
  obtain ⟨hslot, hstate, hmodel, hconn⟩ := h1
  rcases i with ⟨_, ⟨_⟩, ⟨_⟩, ⟨_⟩, _, ⟨_⟩⟩
  rcases j with ⟨_, ⟨_⟩, ⟨_⟩, ⟨_⟩, _, ⟨_⟩⟩
  simp_all [Vector.toList_inj]

end ControllerInfoShared

namespace ControllersInfoResponse

def entryBytes (c : ControllerInfoResponse) : ByteBuffer := c.info.serialize ++ [0, 0, 0, 0]

@[simp] theorem length_entryBytes (c : ControllerInfoResponse) : (entryBytes c).length = 15 := by
  simp [entryBytes]

theorem writeEntry_buf (w : BinaryWriter) (c : ControllerInfoResponse) :
    (writeEntry w c).buf = w.buf ++ entryBytes c := by
  have htake : c.serialize.take 11 = c.info.serialize :=
    List.take_left' (ControllerInfoShared.length_serialize _)
  simp only [writeEntry, BinaryWriter.buf_write, BinaryWriter.buf_writeBytes, htake, entryBytes,
    List.append_assoc]
  rfl

theorem serialize_eq_flatMap (r : ControllersInfoResponse) :
    r.serialize = r.info.flatMap entryBytes := by
  have hfold : ∀ (l : List ControllerInfoResponse) (w : BinaryWriter),
      (l.foldl writeEntry w).buf = w.buf ++ l.flatMap entryBytes := by
    intro l
    induction l with
    | nil => simp
    | cons c l ih =>
      intro w
      rw [List.foldl_cons, ih, writeEntry_buf, List.flatMap_cons, List.append_assoc]
  simp [serialize, hfold]

@[simp] theorem length_serialize (r : ControllersInfoResponse) :
    r.serialize.length = 15 * r.info.length := by
  simp [serialize_eq_flatMap, List.length_flatMap, Nat.mul_comm, List.map_const']

theorem flatMap_entryBytes_inj : ∀ l m : List ControllerInfoResponse,
    l.flatMap entryBytes = m.flatMap entryBytes →
      l.map ControllerInfoResponse.info = m.map ControllerInfoResponse.info
  | [], [], _ => rfl
  | [], c :: m, h => by simp [entryBytes] at h
  | c :: l, [], h => by simp [entryBytes] at h
  | c :: l, d :: m, h => by
    rw [List.flatMap_cons, List.flatMap_cons] at h
    obtain ⟨hc, hl⟩ := List.append_inj h (by simp)
    have hinfo : c.info = d.info :=
      ControllerInfoShared.serialize_inj (List.append_inj hc (by simp)).1
    rw [List.map_cons, List.map_cons, hinfo, flatMap_entryBytes_inj l m hl]

/-- The reply's bytes determine its entries' infos. -/
theorem serialize_inj {r s : ControllersInfoResponse} (h : r.serialize = s.serialize) :
    r.info.map ControllerInfoResponse.info = s.info.map ControllerInfoResponse.info := by
  rw [serialize_eq_flatMap, serialize_eq_flatMap] at h
  exact flatMap_entryBytes_inj _ _ h

end ControllersInfoResponse

@[simp] theorem ControllersMotorsResponse.length_serialize (r : ControllersMotorsResponse) :
    r.serialize.length = 12 := by
  simp [serialize]

@[simp] theorem ProtocolVersionResponse.length_serialize (r : ProtocolVersionResponse) :
    r.serialize.length = 2 := by
  simp [serialize]

@[simp] theorem Touch.length_serialize (t : Touch) : t.serialize.length = 6 := by
  simp [serialize]

theorem Vectors3f.serialize_eq (v : Vectors3f) : v.serialize
    = Pod.toBytes v.x ++ (Pod.toBytes v.y ++ (Pod.toBytes v.z ++ [])) := by
  simp [serialize]

@[simp] theorem Vectors3f.length_serialize (v : Vectors3f) : v.serialize.length = 12 := by
  simp [serialize]

namespace ControllersDataResponse

def rest (r : ControllersDataResponse) : ByteBuffer :=
  [boolByte r.touchButton, r.lStickX, r.lStickY, r.rStickX, r.rStickY, r.aDPadL, r.aDPadD,
    r.aDPadR, r.aDPadU, r.aY, r.aB, r.aA, r.aX, r.aR1, r.aL1, r.aR2, r.aL2]
    ++ (r.touch1.serialize ++ (r.touch2.serialize ++ (Pod.toBytes r.timestamp
      ++ (r.accel.serialize ++ r.gyro.serialize))))

theorem serialize_eq (r : ControllersDataResponse) :
    r.serialize = r.info.serialize ++ ([boolByte r.connected] ++ (Pod.toBytes r.packetNum
      ++ ([r.buttons.buttons1, r.buttons.buttons2, boolByte r.home] ++ r.rest))) := by
  simp only [serialize, rest, BinaryWriter.getBuffer_eq, BinaryWriter.buf_write,
    BinaryWriter.buf_writeBytes, BinaryWriter.buf_new, Pod.toBytes_uint8, List.take_length,
    List.append_assoc, List.nil_append, List.cons_append]

@[simp] theorem length_serialize (r : ControllersDataResponse) : r.serialize.length = 80 := by
  simp [serialize_eq, rest]

end ControllersDataResponse

namespace PacketHeader

variable (h : PacketHeader) (rest : ByteBuffer)

theorem serialize_append : h.serialize ++ rest = h.magic.toList ++ (Pod.toBytes h.protocol
    ++ (Pod.toBytes h.length ++ (Pod.toBytes h.crc32
      ++ (Pod.toBytes h.clientServerID ++ rest)))) := by
  simp [serialize]

@[simp] theorem length_serialize : h.serialize.length = 16 := by
  simp [serialize]

theorem bytesAt_magic : bytesAt (h.serialize ++ rest) 0 4 = h.magic.toList := by
  rw [serialize_append]
  exact bytesAt_append (x := []) rfl (by simp)

theorem valueAt_protocol : valueAt UInt16 (h.serialize ++ rest) 4 = h.protocol := by
  rw [serialize_append]
  exact valueAt_append _ (by simp)

theorem valueAt_length : valueAt UInt16 (h.serialize ++ rest) 6 = h.length := by
  rw [serialize_append, ← List.append_assoc]
  exact valueAt_append _ (by simp)

theorem valueAt_crc32 : valueAt UInt32 (h.serialize ++ rest) 8 = h.crc32 := by
  rw [serialize_append, ← List.append_assoc, ← List.append_assoc]
  exact valueAt_append _ (by simp)

theorem valueAt_clientServerID :
    valueAt UInt32 (h.serialize ++ rest) 12 = h.clientServerID := by
  rw [serialize_append, ← List.append_assoc, ← List.append_assoc, ← List.append_assoc]
  exact valueAt_append _ (by simp)

/-- Patching the checksum in a packet is setting its header's. -/
theorem patchCrc_append (crc : UInt32) : patchCrc (h.serialize ++ rest) crc
    = ({ h with crc32 := crc } : PacketHeader).serialize ++ rest := by
  have htake : (h.serialize ++ rest).take 8
      = h.magic.toList ++ (Pod.toBytes h.protocol ++ Pod.toBytes h.length) := by
    rw [serialize_append, ← List.append_assoc, ← List.append_assoc, List.take_left' (by simp),
      List.append_assoc]
  have hdrop : (h.serialize ++ rest).drop 12 = Pod.toBytes h.clientServerID ++ rest := by
    rw [serialize_append, ← List.append_assoc, ← List.append_assoc, ← List.append_assoc,
      List.drop_left' (by simp)]
  rw [patchCrc, htake, hdrop, serialize_append]
  simp only [List.append_assoc]

end PacketHeader

namespace Packet

variable (p : Packet)

theorem zeroed_eq : p.zeroed = ({ p.header with crc32 := 0 } : PacketHeader).serialize
    ++ (Pod.toBytes p.type ++ p.body) := by
  simp [zeroed, PacketHeader.serialize]

@[simp] theorem length_zeroed : p.zeroed.length = 20 + p.body.length := by
  simp [zeroed_eq]
  omega

theorem serialize_eq :
    p.serialize = ({ p.header with crc32 := computeCrc32 p.zeroed } : PacketHeader).serialize
      ++ (Pod.toBytes p.type ++ p.body) := by
  rw [serialize]
  generalize computeCrc32 p.zeroed = crc
  rw [zeroed_eq, PacketHeader.patchCrc_append]

@[simp] theorem length_serialize : p.serialize.length = 20 + p.body.length := by
  simp [serialize_eq]
  omega

theorem drop_serialize : p.serialize.drop 20 = p.body := by
  rw [serialize_eq, ← List.append_assoc]
  exact List.drop_left' (by simp)

theorem patchCrc_serialize : patchCrc p.serialize 0 = p.zeroed := by
  rw [serialize_eq, PacketHeader.patchCrc_append, zeroed_eq]

end Packet

end ProConDSU
