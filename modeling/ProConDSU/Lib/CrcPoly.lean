import Mathlib.Algebra.CharP.Two
import Mathlib.Algebra.Field.ZMod
import Mathlib.RingTheory.AdjoinRoot
import Mathlib.RingTheory.Coprime.Lemmas
import ProConDSU.Lib.Crc

/-!
# Checks as polynomial division

A reflected remainder is a polynomial over the field of two elements, its lowest bit the
coefficient of the highest power. A bit step multiplies by `X` modulo the generator, so a check is
the remainder of its message, but for `init` and `out` (`reflect_check`). Messages of one length
with one check differ by a multiple of the generator, and within a window no wider than it there is
none but zero (`check_ne_of_window`).
-/

open Polynomial

namespace Crc

variable {w : ℕ}

/-- The polynomial of a reflected remainder. -/
noncomputable def reflect (c : BitVec w) : (ZMod 2)[X] :=
  ∑ k ∈ Finset.range w, monomial k (if c.getMsbD k then 1 else 0)

theorem coeff_reflect (c : BitVec w) (k : ℕ) :
    (reflect c).coeff k = if c.getMsbD k then 1 else 0 := by
  have hhigh : w ≤ k → c.getMsbD k = false := fun h => BitVec.getMsbD_of_ge c k h
  simp only [reflect, finsetSum_coeff, coeff_monomial, Finset.sum_ite_eq', Finset.mem_range]
  split_ifs with hk hbit hbit
  · rfl
  · rfl
  · rw [hhigh (by omega)] at hbit
    exact absurd hbit (by simp)
  · rfl

theorem coeff_reflect_of_ge (c : BitVec w) {k : ℕ} (h : w ≤ k) : (reflect c).coeff k = 0 := by
  rw [coeff_reflect, BitVec.getMsbD_of_ge c k h, if_neg (by simp)]

theorem degree_reflect_lt (c : BitVec w) : (reflect c).degree < w :=
  (degree_lt_iff_coeff_zero _ _).2 fun _ => coeff_reflect_of_ge c

theorem reflect_xor (a b : BitVec w) : reflect (a ^^^ b) = reflect a + reflect b := by
  ext k
  rw [coeff_add, coeff_reflect, coeff_reflect, coeff_reflect, BitVec.getMsbD_xor]
  rcases a.getMsbD k <;> rcases b.getMsbD k <;> decide

theorem reflect_inj {a b : BitVec w} (h : reflect a = reflect b) : a = b := by
  refine BitVec.eq_of_getMsbD_eq fun k _ => ?_
  have hk := congrArg (coeff · k) h
  simp only [coeff_reflect] at hk
  rcases ha : a.getMsbD k <;> rcases hb : b.getMsbD k <;> simp [ha, hb] at hk ⊢

theorem reflect_allOnes : reflect (BitVec.allOnes w) = ∑ k ∈ Finset.range w, X ^ k := by
  refine Finset.sum_congr rfl fun k hk => ?_
  have hbit : (BitVec.allOnes w).getMsbD k = true := by
    rw [BitVec.getMsbD_allOnes]
    exact decide_eq_true (Finset.mem_range.1 hk)
  rw [hbit, if_pos rfl, monomial_one_right_eq_X_pow]

theorem reflect_setWidth {n : ℕ} (h : n ≤ w) (v : BitVec n) :
    reflect (v.setWidth w) = X ^ (w - n) * reflect v := by
  ext k
  rw [coeff_reflect, coeff_X_pow_mul', BitVec.getMsbD_setWidth]
  by_cases hk : w - n ≤ k
  · rw [if_pos hk, coeff_reflect, show k + n - w = k - (w - n) by omega]
    simp [hk]
  · simp [hk]

/-- The generator: the polynomial with its leading power, which its bits leave out. -/
noncomputable def generator (poly : BitVec w) : (ZMod 2)[X] := X ^ w + reflect poly

variable (poly : BitVec w)

theorem monic_generator : (generator poly).Monic := monic_X_pow_add (degree_reflect_lt poly)

theorem degree_generator : (generator poly).degree = w := by
  have h : (reflect poly).degree < (X ^ w : (ZMod 2)[X]).degree := by
    rw [degree_X_pow]
    exact degree_reflect_lt poly
  rw [generator, degree_add_eq_left_of_degree_lt h, degree_X_pow]

theorem getMsbD_last (c : BitVec w) {k : ℕ} (hk : k + 1 = w) : c.getMsbD k = c.getLsbD 0 := by
  simp [BitVec.getMsbD, show k < w by omega, show w - 1 - k = 0 by omega]

theorem X_mul_reflect (c : BitVec w) :
    X * reflect c = reflect (c >>> 1) + if c.getLsbD 0 then X ^ w else 0 := by
  have htop : ∀ k, (if c.getLsbD 0 then X ^ w else 0 : (ZMod 2)[X]).coeff k
      = if k = w ∧ c.getLsbD 0 then 1 else 0 := by
    intro k
    split_ifs <;> simp_all [coeff_X_pow]
  ext (_ | k)
  · have hpos : ¬ (0 = w ∧ c.getLsbD 0 = true) := by
      rintro ⟨rfl, h⟩
      exact absurd (BitVec.lt_of_getLsbD h) (lt_irrefl 0)
    rw [mul_coeff_zero, coeff_X_zero, zero_mul, coeff_add, coeff_reflect, htop, if_neg hpos,
      BitVec.getMsbD_ushiftRight]
    simp
  · rw [coeff_X_mul, coeff_add, coeff_reflect, coeff_reflect, htop, BitVec.getMsbD_ushiftRight]
    rcases lt_trichotomy (k + 1) w with h | h | h
    · simp [h, h.ne]
    · simp [h, getMsbD_last c h]
    · simp [h.ne', show ¬ k + 1 < w by omega, BitVec.getMsbD_of_ge c k (by omega)]

/-- A bit step goes up by one power, and takes the generator off what overflows. -/
theorem X_mul_reflect_eq (c : BitVec w) : X * reflect c
    = reflect (bitStep poly c) + if c.getLsbD 0 then generator poly else 0 := by
  rw [X_mul_reflect, bitStep]
  split_ifs with hbit
  · rw [reflect_xor, generator, add_assoc, add_left_comm (reflect poly), CharTwo.add_self_eq_zero,
      add_zero]
  · rfl

open AdjoinRoot in
theorem mk_bitStep (c : BitVec w) : mk (generator poly) (reflect (bitStep poly c))
    = root (generator poly) * mk (generator poly) (reflect c) := by
  rw [← mk_X, ← map_mul, X_mul_reflect_eq poly, map_add]
  split_ifs
  · rw [mk_self, add_zero]
  · rw [map_zero, add_zero]

open AdjoinRoot in
theorem mk_iterate (n : ℕ) (c : BitVec w) : mk (generator poly) (reflect ((bitStep poly)^[n] c))
    = root (generator poly) ^ n * mk (generator poly) (reflect c) := by
  induction n generalizing c with
  | zero => simp
  | succ n ih => rw [Function.iterate_succ_apply, ih, mk_bitStep, pow_succ, mul_assoc]

section Messages

/-- The polynomial of a message, its first bit the coefficient of the highest power. -/
noncomputable def message : List UInt8 → (ZMod 2)[X]
  | [] => 0
  | b :: bs => X ^ (8 * bs.length) * reflect b.toBitVec + message bs

theorem message_append : ∀ as bs : List UInt8,
    message (as ++ bs) = X ^ (8 * bs.length) * message as + message bs
  | [], bs => by simp [message]
  | a :: as, bs => by
    rw [List.cons_append, message, message, message_append as bs, List.length_append, mul_add,
      pow_add]
    ring

theorem coeff_message_of_ge : ∀ (bs : List UInt8) {k : ℕ}, 8 * bs.length ≤ k →
    (message bs).coeff k = 0
  | [], _, _ => by simp [message]
  | b :: bs, k, h => by
    rw [List.length_cons] at h
    rw [message, coeff_add, coeff_message_of_ge bs (by omega), coeff_X_pow_mul',
      if_pos (by omega), coeff_reflect_of_ge _ (by omega), add_zero]

theorem degree_message_lt (bs : List UInt8) : (message bs).degree < (8 * bs.length : ℕ) :=
  (degree_lt_iff_coeff_zero _ _).2 fun _ => coeff_message_of_ge bs

theorem message_inj : ∀ {as bs : List UInt8}, as.length = bs.length →
    message as = message bs → as = bs
  | [], [], _, _ => rfl
  | a :: as, b :: bs, hlen, h => by
    have hn : as.length = bs.length := by simpa using hlen
    have hhead : ∀ (x : UInt8) (xs : List UInt8) (k : ℕ),
        (message (x :: xs)).coeff (k + 8 * xs.length) = (reflect x.toBitVec).coeff k := by
      intro x xs k
      rw [message, coeff_add, coeff_X_pow_mul, coeff_message_of_ge xs (by omega), add_zero]
    have hab : reflect a.toBitVec = reflect b.toBitVec := by
      ext k
      rw [← hhead a as, ← hhead b bs, h, hn]
    rw [message, message, hn, hab, add_right_inj] at h
    rw [UInt8.toBitVec_inj.1 (reflect_inj hab), message_inj hn h]

open AdjoinRoot in
theorem mk_byteStep (hw : 8 ≤ w) (c : BitVec w) (b : UInt8) :
    mk (generator poly) (reflect (byteStep poly c b))
      = mk (generator poly) (X ^ 8 * reflect c + X ^ w * reflect b.toBitVec) := by
  have hpow : (X : (ZMod 2)[X]) ^ w = X ^ 8 * X ^ (w - 8) := by
    rw [← pow_add]
    congr 1
    omega
  rw [byteStep, mk_iterate, reflect_xor, reflect_setWidth hw, ← mk_X, ← map_pow, ← map_mul, hpow]
  congr 1
  ring

open AdjoinRoot in
theorem mk_foldl (hw : 8 ≤ w) (bs : List UInt8) (c : BitVec w) :
    mk (generator poly) (reflect (bs.foldl (byteStep poly) c))
      = mk (generator poly) (X ^ (8 * bs.length) * reflect c + X ^ w * message bs) := by
  induction bs generalizing c with
  | nil => simp [message]
  | cons b bs ih =>
    have hmul : mk (generator poly) (X ^ (8 * bs.length) * reflect (byteStep poly c b))
        = mk (generator poly)
          (X ^ (8 * bs.length) * (X ^ 8 * reflect c + X ^ w * reflect b.toBitVec)) := by
      rw [map_mul, mk_byteStep poly hw, ← map_mul]
    rw [List.foldl_cons, ih, map_add, hmul, ← map_add]
    refine congrArg _ ?_
    rw [message, List.length_cons, mul_add 8, pow_add]
    ring

/-- A check is the remainder of its message. -/
theorem reflect_check (hw : 8 ≤ w) (init out : BitVec w) (bs : List UInt8) :
    reflect (check poly init out bs)
      = (X ^ (8 * bs.length) * reflect init + X ^ w * message bs) %ₘ generator poly
        + reflect out := by
  have hmod := modByMonic_eq_of_dvd_sub (monic_generator poly)
    (AdjoinRoot.mk_eq_mk.1 (mk_foldl poly hw bs init))
  have hself : reflect (bs.foldl (byteStep poly) init) %ₘ generator poly
      = reflect (bs.foldl (byteStep poly) init) := by
    rw [modByMonic_eq_self_iff (monic_generator poly), degree_generator]
    exact degree_reflect_lt _
  rw [check, reflect_xor, ← hself, hmod]

end Messages

section Windows

/-- A polynomial whose highest bit is set has a generator with a constant term. -/
theorem isCoprime_generator (hpoly : poly.msb = true) (n : ℕ) :
    IsCoprime (generator poly) (X ^ n) := by
  have hw : 0 < w := by
    by_contra h
    obtain rfl : w = 0 := by omega
    simp [BitVec.eq_nil poly] at hpoly
  have hconst : (generator poly).coeff 0 = 1 := by
    rw [generator, coeff_add, coeff_X_pow, if_neg hw.ne, coeff_reflect,
      ← BitVec.msb_eq_getMsbD_zero, hpoly]
    simp
  refine IsCoprime.pow_right ⟨1, -(generator poly).divX, ?_⟩
  have hsplit := divX_mul_X_add (generator poly)
  rw [hconst, map_one] at hsplit
  linear_combination -hsplit

/-- Messages that differ only within a window no wider than the remainder have different checks. -/
theorem check_ne_of_window (hw : 8 ≤ w) (hpoly : poly.msb = true) (init out : BitVec w)
    (p s : List UInt8) {u v : List UInt8} (hlen : u.length = v.length) (hwide : 8 * u.length ≤ w)
    (hne : u ≠ v) : check poly init out (p ++ u ++ s) ≠ check poly init out (p ++ v ++ s) := by
  intro h
  have hsplit : ∀ x : List UInt8, message (p ++ x ++ s)
      = X ^ (8 * (x.length + s.length)) * message p + X ^ (8 * s.length) * message x
        + message s := by
    intro x
    rw [message_append, message_append, mul_add 8, pow_add]
    ring
  have hrem := congrArg reflect h
  rw [reflect_check poly hw, reflect_check poly hw, add_left_inj] at hrem
  have hdvd := (modByMonic_eq_zero_iff_dvd (monic_generator poly)).1
    ((sub_modByMonic _ _ _).trans (sub_eq_zero.2 hrem))
  have hdiff : X ^ (8 * (p ++ u ++ s).length) * reflect init + X ^ w * message (p ++ u ++ s)
      - (X ^ (8 * (p ++ v ++ s).length) * reflect init + X ^ w * message (p ++ v ++ s))
      = X ^ (w + 8 * s.length) * (message u - message v) := by
    rw [hsplit, hsplit, List.length_append, List.length_append, List.length_append,
      List.length_append, hlen, pow_add]
    ring
  rw [hdiff] at hdvd
  have hdeg : (message u - message v).degree < (generator poly).degree := by
    have hle : (message u - message v).degree < (8 * u.length : ℕ) :=
      (degree_sub_le _ _).trans_lt (max_lt (degree_message_lt u) (hlen ▸ degree_message_lt v))
    rw [degree_generator]
    exact hle.trans_le (by exact_mod_cast hwide)
  have hzero := eq_zero_of_dvd_of_degree_lt
    ((isCoprime_generator poly hpoly _).dvd_of_dvd_mul_left hdvd) hdeg
  exact hne (message_inj hlen (sub_eq_zero.1 hzero))

end Windows

end Crc
