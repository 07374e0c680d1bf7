import Mathlib.Data.Nat.Basic
import Mathlib.Tactic.Ring

/-!
# Plain-old-data types

A value copied with `memcpy` is its object representation: a fixed number of bytes, each string of
that many bytes standing for exactly one value. `Pod` is such a type. The integers' bytes are
little-endian (`leBytes`, `leNat`).
-/

namespace LittleEndian

/-- The low `w` bytes of `n`, least significant first. -/
def leBytes : ℕ → ℕ → List UInt8
  | 0, _ => []
  | w + 1, n => UInt8.ofNat n :: leBytes w (n / 256)

def leNat : List UInt8 → ℕ
  | [] => 0
  | b :: bs => b.toNat + 256 * leNat bs

@[simp] theorem length_leBytes : ∀ w n : ℕ, (leBytes w n).length = w
  | 0, _ => rfl
  | w + 1, n => by simp [leBytes, length_leBytes w]

theorem leNat_leBytes : ∀ w n : ℕ, leNat (leBytes w n) = n % 256 ^ w
  | 0, n => by simp [leBytes, leNat, Nat.mod_one]
  | w + 1, n => by
    rw [leBytes, leNat, leNat_leBytes w, pow_succ', Nat.mod_mul]
    simp

theorem leNat_lt : ∀ bs : List UInt8, leNat bs < 256 ^ bs.length
  | [] => by simp [leNat]
  | b :: bs => by
    have hb := b.toNat_lt
    have ih := leNat_lt bs
    rw [leNat, List.length_cons, pow_succ]
    omega

theorem leBytes_leNat : ∀ bs : List UInt8, leBytes bs.length (leNat bs) = bs
  | [] => rfl
  | b :: bs => by
    have hb := b.toNat_lt
    have hdiv : (b.toNat + 256 * leNat bs) / 256 = leNat bs := by omega
    have hlow : UInt8.ofNat (b.toNat + 256 * leNat bs) = b := by
      apply UInt8.toNat_inj.1
      rw [UInt8.toNat_ofNat']
      omega
    rw [List.length_cons, leNat, leBytes, hdiv, hlow, leBytes_leNat bs]

end LittleEndian

/-- A type copied as its object representation. -/
class Pod (α : Type) where
  size : ℕ
  toBytes : α → List UInt8
  ofBytes : List UInt8 → α
  length_toBytes : ∀ a, (toBytes a).length = size
  ofBytes_toBytes : ∀ a, ofBytes (toBytes a) = a
  toBytes_ofBytes : ∀ bs, bs.length = size → toBytes (ofBytes bs) = bs

namespace Pod

open LittleEndian

attribute [simp] length_toBytes ofBytes_toBytes

/-- An unsigned integer of `w` bytes, given by its value. -/
@[reducible] def ofToNat {α : Type} (w : ℕ) (toNat : α → ℕ) (ofNat : ℕ → α)
    (lt : ∀ a, toNat a < 256 ^ w) (ofNat_toNat : ∀ a, ofNat (toNat a) = a)
    (toNat_ofNat : ∀ n, n < 256 ^ w → toNat (ofNat n) = n) : Pod α where
  size := w
  toBytes a := leBytes w (toNat a)
  ofBytes bs := ofNat (leNat bs)
  length_toBytes a := length_leBytes w (toNat a)
  ofBytes_toBytes a := by rw [leNat_leBytes, Nat.mod_eq_of_lt (lt a), ofNat_toNat]
  toBytes_ofBytes bs h := by
    rw [toNat_ofNat _ (h ▸ leNat_lt bs), ← h, leBytes_leNat]

/-- A type with the values, and so the bytes, of another. -/
@[reducible] def ofEquiv {α β : Type} [Pod β] (f : α → β) (g : β → α)
    (g_f : ∀ a, g (f a) = a) (f_g : ∀ b, f (g b) = b) : Pod α where
  size := size β
  toBytes a := toBytes (f a)
  ofBytes bs := g (ofBytes bs)
  length_toBytes a := length_toBytes (f a)
  ofBytes_toBytes a := by rw [ofBytes_toBytes, g_f]
  toBytes_ofBytes bs h := by rw [f_g, toBytes_ofBytes bs h]

instance : Pod UInt8 :=
  ofToNat 1 UInt8.toNat UInt8.ofNat (fun a => a.toNat_lt) (fun _ => UInt8.ofNat_toNat)
    fun _ h => UInt8.toNat_ofNat_of_lt' h

instance : Pod UInt16 :=
  ofToNat 2 UInt16.toNat UInt16.ofNat (fun a => a.toNat_lt) (fun _ => UInt16.ofNat_toNat)
    fun _ h => UInt16.toNat_ofNat_of_lt' h

instance : Pod UInt32 :=
  ofToNat 4 UInt32.toNat UInt32.ofNat (fun a => a.toNat_lt) (fun _ => UInt32.ofNat_toNat)
    fun _ h => UInt32.toNat_ofNat_of_lt' h

instance : Pod UInt64 :=
  ofToNat 8 UInt64.toNat UInt64.ofNat (fun a => a.toNat_lt) (fun _ => UInt64.ofNat_toNat)
    fun _ h => UInt64.toNat_ofNat_of_lt' h

instance : Pod Int32 :=
  ofEquiv Int32.toUInt32 UInt32.toInt32 (fun _ => rfl) fun _ => rfl

instance (n : ℕ) : Pod (Vector UInt8 n) where
  size := n
  toBytes v := v.toList
  ofBytes bs := Vector.ofFn fun i => bs.getD i 0
  length_toBytes v := by simp
  ofBytes_toBytes v := by
    ext i hi
    simp [List.getD_eq_getElem?_getD]
  toBytes_ofBytes bs h := by
    subst h
    apply List.ext_getElem <;> simp

@[simp] theorem size_uint8 : size UInt8 = 1 := rfl
@[simp] theorem size_uint16 : size UInt16 = 2 := rfl
@[simp] theorem size_uint32 : size UInt32 = 4 := rfl
@[simp] theorem size_uint64 : size UInt64 = 8 := rfl
@[simp] theorem size_int32 : size Int32 = 4 := rfl
@[simp] theorem size_vector (n : ℕ) : size (Vector UInt8 n) = n := rfl

@[simp] theorem toBytes_uint8 (a : UInt8) : toBytes a = [a] := by
  show [UInt8.ofNat a.toNat] = [a]
  rw [UInt8.ofNat_toNat]

@[simp] theorem toBytes_vector {n : ℕ} (v : Vector UInt8 n) : toBytes v = v.toList := rfl

end Pod
