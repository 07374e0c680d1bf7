import ProConDSU.Lib.Crc
import ProConDSU.Utils

/-!
# The checksum

`compute_crc32` is the reflected CRC-32 of its data, at its first call and at any later one.
-/

namespace ProConDSU

/-- CRC-32 (IEEE): polynomial `0xEDB88320`, reflected, all ones in and out. -/
def crc32Ieee (data : ByteBuffer) : UInt32 :=
  ⟨Crc.check 0xEDB88320#32 0xFFFFFFFF#32 0xFFFFFFFF#32 data⟩

theorem crcBit_toBitVec (c : UInt32) :
    (crcBit c).toBitVec = Crc.bitStep 0xEDB88320#32 c.toBitVec := by
  have hlow : (c &&& 1).toBitVec = BitVec.setWidth 32 (BitVec.ofBool (c.toBitVec.getLsbD 0)) := by
    rw [UInt32.toBitVec_and]
    exact BitVec.and_one_eq_setWidth_ofBool_getLsbD
  unfold crcBit Crc.bitStep
  rcases hb : c.toBitVec.getLsbD 0
  · have h0 : c &&& 1 = 0 := UInt32.toBitVec_inj.1 (by rw [hlow, hb]; rfl)
    simp [h0]
  · have h1 : c &&& 1 = 1 := UInt32.toBitVec_inj.1 (by rw [hlow, hb]; rfl)
    simp [h1]

theorem crcEntry_toBitVec (c : UInt32) :
    (crcEntry c).toBitVec = (Crc.bitStep 0xEDB88320#32)^[8] c.toBitVec := by
  have : ∀ n c, (crcBit^[n] c).toBitVec = (Crc.bitStep 0xEDB88320#32)^[n] c.toBitVec := by
    intro n
    induction n with
    | zero => exact fun _ => rfl
    | succ n ih =>
      intro c
      rw [Function.iterate_succ_apply, Function.iterate_succ_apply, ih, crcBit_toBitVec]
  exact this 8 c

/-- A lookup in the table is the eight bit steps of the low byte. -/
theorem crcStep_toBitVec (c : UInt32) (b : UInt8) :
    (crcStep initCrc32Table c b).toBitVec = Crc.byteStep 0xEDB88320#32 c.toBitVec b := by
  simp only [crcStep, initCrc32Table, Vector.getElem_ofFn, UInt32.ofNat_toNat, UInt32.toBitVec_xor,
    crcEntry_toBitVec, Crc.byteStep_eq]
  rfl

theorem CrcStatics.init_table (s : CrcStatics) : s.init.crc32Table = initCrc32Table :=
  s.init.filled (by unfold CrcStatics.init; split_ifs with h <;> simp [h])

theorem computeCrc32Call_fst (s : CrcStatics) (data : ByteBuffer) :
    (computeCrc32Call s data).1 = crc32Ieee data := by
  have hfold : ∀ (l : ByteBuffer) (c : UInt32), (l.foldl (crcStep initCrc32Table) c).toBitVec
      = l.foldl (Crc.byteStep 0xEDB88320#32) c.toBitVec := by
    intro l
    induction l with
    | nil => exact fun _ => rfl
    | cons b l ih =>
      intro c
      rw [List.foldl_cons, List.foldl_cons, ih, crcStep_toBitVec]
  apply UInt32.toBitVec_inj.1
  rw [computeCrc32Call, CrcStatics.init_table, UInt32.toBitVec_xor, hfold]
  rfl

theorem computeCrc32_eq (data : ByteBuffer) : computeCrc32 data = crc32Ieee data :=
  computeCrc32Call_fst _ data

end ProConDSU
