import Mathlib.Logic.Function.Iterate
import Mathlib.Tactic.Ring

/-!
# Reflected cyclic redundancy checks

A check of width `w` over bytes, a bit at a time, least significant bit first. A bit step is linear
in exclusive or (`bitStep_xor`), and only shifts a remainder whose low bit is clear, so eight bit
steps are eight of the low byte and a shift of the rest by eight (`iterate_eight`).
-/

namespace Crc

variable {w : ℕ} (poly : BitVec w)

/-- The remainder shifted by one bit, less the polynomial if the bit shifted out was set. -/
def bitStep (c : BitVec w) : BitVec w :=
  if c.getLsbD 0 then c >>> 1 ^^^ poly else c >>> 1

def byteStep (c : BitVec w) (b : UInt8) : BitVec w :=
  (bitStep poly)^[8] (c ^^^ b.toBitVec.setWidth w)

def check (init out : BitVec w) (bs : List UInt8) : BitVec w :=
  bs.foldl (byteStep poly) init ^^^ out

theorem bitStep_xor (a b : BitVec w) :
    bitStep poly (a ^^^ b) = bitStep poly a ^^^ bitStep poly b := by
  have cancel : (a >>> 1 ^^^ poly) ^^^ (b >>> 1 ^^^ poly) = a >>> 1 ^^^ b >>> 1 := by
    rw [BitVec.xor_assoc, BitVec.xor_comm (b >>> 1), ← BitVec.xor_assoc poly, BitVec.xor_self,
      BitVec.zero_xor]
  unfold bitStep
  rw [BitVec.getLsbD_xor, BitVec.ushiftRight_xor_distrib]
  rcases a.getLsbD 0 <;> rcases b.getLsbD 0 <;>
    simp only [Bool.false_eq_true, Bool.xor_false, Bool.xor_true, Bool.not_true, Bool.not_false,
      ↓reduceIte]
  · rw [BitVec.xor_assoc]
  · rw [BitVec.xor_assoc, BitVec.xor_assoc, BitVec.xor_comm poly]
  · rw [cancel]

theorem iterate_xor (n : ℕ) (a b : BitVec w) :
    (bitStep poly)^[n] (a ^^^ b) = (bitStep poly)^[n] a ^^^ (bitStep poly)^[n] b := by
  induction n generalizing a b with
  | zero => rfl
  | succ n ih => simp only [Function.iterate_succ_apply, bitStep_xor, ih]

/-- Bit steps only shift while the bits shifted out are clear. -/
theorem iterate_of_low_clear {c : BitVec w} {n : ℕ} (h : ∀ i < n, c.getLsbD i = false) :
    (bitStep poly)^[n] c = c >>> n := by
  induction n with
  | zero => simp
  | succ n ih =>
    have hbit : (c >>> n).getLsbD 0 = false := by simpa using h n (by omega)
    rw [Function.iterate_succ_apply', ih fun i hi => h i (by omega), bitStep, hbit,
      if_neg (by simp), ← BitVec.shiftRight_add]

theorem low_xor_high (x m : BitVec w) : x = (x &&& m) ^^^ (x &&& ~~~m) := by
  ext i hi
  simp only [BitVec.getElem_xor, BitVec.getElem_and, BitVec.getElem_not]
  rcases x[i] <;> rcases m[i] <;> rfl

theorem getLsbD_byteMask (i : ℕ) : (255#w).getLsbD i = (decide (i < w) && decide (i < 8)) := by
  rw [BitVec.getLsbD_ofNat, show 255 = 2 ^ 8 - 1 by rfl, Nat.testBit_two_pow_sub_one]

/-- Eight bit steps are those of the low byte, and a shift of the rest by eight. -/
theorem iterate_eight (c : BitVec w) :
    (bitStep poly)^[8] c = (bitStep poly)^[8] (c &&& 255#w) ^^^ c >>> 8 := by
  have hlow : ∀ i < 8, (c &&& ~~~255#w).getLsbD i = false := by
    intro i hi
    rw [BitVec.getLsbD_and, BitVec.getLsbD_not, getLsbD_byteMask]
    by_cases hw : i < w <;> simp [hi, hw]
  have hhigh : (c &&& ~~~255#w) >>> 8 = c >>> 8 := by
    apply BitVec.eq_of_getLsbD_eq
    intro i _
    rw [BitVec.getLsbD_ushiftRight, BitVec.getLsbD_ushiftRight, BitVec.getLsbD_and,
      BitVec.getLsbD_not, getLsbD_byteMask]
    by_cases hw : 8 + i < w
    · simp [hw]
    · simp [BitVec.getLsbD_of_ge c (8 + i) (by omega)]
  calc (bitStep poly)^[8] c
      = (bitStep poly)^[8] ((c &&& 255#w) ^^^ (c &&& ~~~255#w)) := by rw [← low_xor_high]
    _ = (bitStep poly)^[8] (c &&& 255#w) ^^^ (bitStep poly)^[8] (c &&& ~~~255#w) :=
        iterate_xor poly 8 _ _
    _ = (bitStep poly)^[8] (c &&& 255#w) ^^^ c >>> 8 := by
        rw [iterate_of_low_clear poly hlow, hhigh]

/-- A byte's step looks up the eight bit steps of the low byte, and shifts the rest. -/
theorem byteStep_eq (c : BitVec w) (b : UInt8) :
    byteStep poly c b
      = (bitStep poly)^[8] ((c ^^^ b.toBitVec.setWidth w) &&& 255#w) ^^^ c >>> 8 := by
  have hb : b.toBitVec.setWidth w >>> 8 = 0#w := by
    apply BitVec.eq_of_getLsbD_eq
    intro i _
    simp
  rw [byteStep, iterate_eight, BitVec.ushiftRight_xor_distrib, hb, BitVec.xor_zero]

end Crc
