import ProConDSU.Lib.CrcPoly
import ProConDSU.Proofs.PacketCodec

/-!
# What the checksum is, and what it detects

`compute_crc32` is the remainder of its data by the CRC-32 generator (`CrcStatics.standard`), so it
tells apart any two buffers that differ only within four bytes (`computeCrc32_detects`).
-/

open Polynomial

namespace ProConDSU

/-- The CRC-32 generator (IEEE). -/
noncomputable def crc32Generator : (ZMod 2)[X] :=
  X ^ 32 + X ^ 26 + X ^ 23 + X ^ 22 + X ^ 16 + X ^ 12 + X ^ 11 + X ^ 10 + X ^ 8 + X ^ 7 + X ^ 5
    + X ^ 4 + X ^ 2 + X + 1

theorem generator_eq : Crc.generator 0xEDB88320#32 = crc32Generator := by
  simp [Crc.generator, Crc.reflect, Finset.sum_range_succ, crc32Generator, BitVec.getMsbD,
    monomial_one_right_eq_X_pow]
  ring

/-- What complements thirty-two bits. -/
noncomputable def allOnes : (ZMod 2)[X] := ∑ k ∈ Finset.range 32, X ^ k

/-- A call of `compute_crc32` finds the CRC-32 of its data, `s` being what the statics hold. -/
structure CrcStatics.Standard (s : CrcStatics) (data : ByteBuffer) : Prop where
  bitwise : (computeCrc32Call s data).1 = crc32Ieee data
  remainder : Crc.reflect (computeCrc32Call s data).1.toBitVec
    = (X ^ (8 * data.length) * allOnes + X ^ 32 * Crc.message data) %ₘ crc32Generator + allOnes
  table : ∀ i : Fin 256, (s.init.crc32Table[i]).toBitVec
    = (Crc.bitStep 0xEDB88320#32)^[8] (BitVec.ofNat 32 i)
  step : ∀ (crc : UInt32) (b : UInt8), (crcStep s.init.crc32Table crc b).toBitVec
    = (Crc.bitStep 0xEDB88320#32)^[8] (crc.toBitVec ^^^ b.toBitVec.setWidth 32)

/-- At every call, on all data. -/
theorem CrcStatics.standard (s : CrcStatics) (data : ByteBuffer) : s.Standard data where
  bitwise := computeCrc32Call_fst s data
  remainder := by
    rw [computeCrc32Call_fst, crc32Ieee, Crc.reflect_check _ (by decide), generator_eq,
      show (0xFFFFFFFF#32) = BitVec.allOnes 32 from rfl, Crc.reflect_allOnes, allOnes]
  table i := by
    rw [init_table]
    simp only [initCrc32Table, Fin.getElem_fin, Vector.getElem_ofFn, crcEntry_toBitVec]
    rfl
  step crc b := by
    rw [init_table]
    exact crcStep_toBitVec crc b

theorem crc32Ieee_ne (p s : ByteBuffer) {u v : ByteBuffer} (hlen : u.length = v.length)
    (h4 : u.length ≤ 4) (hne : u ≠ v) : crc32Ieee (p ++ u ++ s) ≠ crc32Ieee (p ++ v ++ s) := by
  intro h
  exact Crc.check_ne_of_window 0xEDB88320#32 (by decide) (by decide) _ _ p s hlen (by omega) hne
    (congrArg UInt32.toBitVec h)

/-- A window beside the checksum's bytes can be filled in without touching them. -/
theorem exists_patchCrc_window (pre post : ByteBuffer) {n : ℕ}
    (h : pre.length + n ≤ 8 ∨ 12 ≤ pre.length) : ∃ p s stored : ByteBuffer,
      ∀ u : ByteBuffer, u.length = n → patchCrc (pre ++ u ++ post) 0 = p ++ u ++ s
        ∧ bytesAt (pre ++ u ++ post) 8 4 = stored := by
  rcases h with h | h
  · refine ⟨pre, post.take (8 - (pre.length + n)) ++ (Pod.toBytes (0 : UInt32)
      ++ post.drop (12 - (pre.length + n))), bytesAt post (8 - (pre.length + n)) 4, ?_⟩
    rintro u rfl
    have htake : (pre ++ u ++ post).take 8
        = pre ++ u ++ post.take (8 - (pre.length + u.length)) := by
      rw [List.take_append, List.length_append, List.take_of_length_le (by simpa using h)]
    have hdrop : ∀ k, 8 ≤ k →
        (pre ++ u ++ post).drop k = post.drop (k - (pre.length + u.length)) := by
      intro k hk
      rw [List.drop_append, List.length_append, List.drop_of_length_le (by simp; omega),
        List.nil_append]
    rw [patchCrc, htake, hdrop 12 (by omega), bytesAt, hdrop 8 le_rfl, bytesAt]
    simp only [List.append_assoc, and_self]
  · refine ⟨patchCrc pre 0, post, bytesAt pre 8 4, ?_⟩
    intro u _
    have htake : (pre ++ u ++ post).take 8 = pre.take 8 := by
      rw [List.append_assoc, List.take_append_of_le_length (by omega)]
    have hdrop : ∀ k, k ≤ 12 → (pre ++ u ++ post).drop k = pre.drop k ++ (u ++ post) := by
      intro k hk
      rw [List.append_assoc, List.drop_append_of_le_length (by omega)]
    rw [patchCrc, htake, hdrop 12 le_rfl, bytesAt, hdrop 8 (by omega),
      List.take_append_of_le_length (by simp; omega), patchCrc, bytesAt]
    simp only [List.append_assoc, and_self]

/-- Any two buffers that differ only within four bytes have different checksums, and a packet
altered so beside its checksum no longer matches it. -/
theorem computeCrc32_detects :
    (∀ (st₁ st₂ : CrcStatics) (p s w₁ w₂ : ByteBuffer), w₁.length = w₂.length → w₁.length ≤ 4 →
        w₁ ≠ w₂ → (computeCrc32Call st₁ (p ++ w₁ ++ s)).1 ≠ (computeCrc32Call st₂ (p ++ w₂ ++ s)).1)
      ∧ ∀ (st : CrcStatics) (packet : Packet) (pre w₁ w₂ post : ByteBuffer),
        packet.serialize = pre ++ w₁ ++ post → w₁.length = w₂.length → w₁.length ≤ 4 → w₁ ≠ w₂ →
        pre.length + w₁.length ≤ 8 ∨ 12 ≤ pre.length →
        valueAt UInt32 (pre ++ w₂ ++ post) 8
          ≠ (computeCrc32Call st (patchCrc (pre ++ w₂ ++ post) 0)).1 := by
  refine ⟨?_, ?_⟩
  · intro st₁ st₂ p s w₁ w₂ hlen h4 hne
    rw [computeCrc32Call_fst, computeCrc32Call_fst]
    exact crc32Ieee_ne p s hlen h4 hne
  · intro st packet pre w₁ w₂ post hpacket hlen h4 hne hbeside
    obtain ⟨p, s, stored, hwindow⟩ := exists_patchCrc_window pre post hbeside
    obtain ⟨hpatch₁, hstored₁⟩ := hwindow w₁ rfl
    obtain ⟨hpatch₂, hstored₂⟩ := hwindow w₂ hlen.symm
    have hsame : valueAt UInt32 (pre ++ w₂ ++ post) 8 = crc32Ieee (p ++ w₁ ++ s) := by
      rw [valueAt, Pod.size_uint32, hstored₂, ← hstored₁, ← hpatch₁, ← hpacket,
        Packet.patchCrc_serialize, ← computeCrc32_eq, ← Packet.valueAt_crc32]
      rfl
    rw [computeCrc32Call_fst, hpatch₂, hsame]
    exact crc32Ieee_ne p s hlen h4 hne

end ProConDSU
