import ProConDSU.Lib.Pod

/-!
# Records of fixed-width fields

A record is its fields' bytes one after another, each field a value or a block of bytes. Read by
its fields' widths it gives the fields back (`decode_append`), and cut short anywhere it gives those
before the cut (`decode_take`).
-/

namespace Record

/-- What there is to read: a value of a type, or a number of bytes. -/
inductive Width : Type 1
  | value (α : Type) [Pod α]
  | block (n : ℕ)

inductive Field : Type 1
  | value {α : Type} [Pod α] (a : α)
  | block (bytes : List UInt8)

def Width.size : Width → ℕ
  | @value α _ => Pod.size α
  | block n => n

/-- The field that bytes of this width stand for. -/
def Width.ofBytes : Width → List UInt8 → Field
  | @value α _, bs => .value (Pod.ofBytes bs : α)
  | block _, bs => .block bs

namespace Field

def width : Field → Width
  | @value α _ _ => .value α
  | block bytes => .block bytes.length

def bytes : Field → List UInt8
  | value a => Pod.toBytes a
  | block bytes => bytes

@[simp] theorem length_bytes (f : Field) : f.bytes.length = f.width.size := by
  rcases f with a | bytes
  · exact Pod.length_toBytes a
  · rfl

@[simp] theorem ofBytes_bytes (f : Field) : f.width.ofBytes f.bytes = f := by
  rcases f with a | bytes
  · exact congrArg value (Pod.ofBytes_toBytes a)
  · rfl

end Field

/-- The number of bytes in a record of these widths. -/
def total (ws : List Width) : ℕ := (ws.map Width.size).sum

@[simp] theorem total_cons (w : Width) (ws : List Width) : total (w :: ws) = w.size + total ws :=
  List.sum_cons

def encode (fs : List Field) : List UInt8 := fs.flatMap Field.bytes

@[simp] theorem encode_nil : encode [] = [] := rfl

@[simp] theorem encode_cons (f : Field) (fs : List Field) :
    encode (f :: fs) = f.bytes ++ encode fs := rfl

@[simp] theorem length_encode : ∀ fs : List Field, (encode fs).length = total (fs.map Field.width)
  | [] => rfl
  | f :: fs => by simp [length_encode fs]

/-- The fields up to the first that the bytes are too few for, and what is left after the last if
there is none. -/
def decode : List Width → List UInt8 → List Field × Option (List UInt8)
  | [], bs => ([], some bs)
  | w :: ws, bs =>
    if bs.length < w.size then ([], none)
    else (decode ws (bs.drop w.size)).map (w.ofBytes (bs.take w.size) :: ·) id

theorem decode_cons_short {w : Width} {bs : List UInt8} (h : bs.length < w.size)
    (ws : List Width) : decode (w :: ws) bs = ([], none) := by
  rw [decode, if_pos h]

theorem decode_cons_append (f : Field) (ws : List Width) (bs : List UInt8) :
    decode (f.width :: ws) (f.bytes ++ bs) = (decode ws bs).map (f :: ·) id := by
  rw [decode, if_neg (by simp), List.take_left' f.length_bytes, List.drop_left' f.length_bytes,
    f.ofBytes_bytes]

theorem decode_append : ∀ (fs : List Field) (rest : List UInt8),
    decode (fs.map Field.width) (encode fs ++ rest) = (fs, some rest)
  | [], rest => rfl
  | f :: fs, rest => by
    rw [List.map_cons, encode_cons, List.append_assoc, decode_cons_append, decode_append fs rest]
    rfl

/-- The cut falls in one of the fields: those before it are read, and it is not. -/
theorem decode_take : ∀ (fs : List Field) {k : ℕ}, k < (encode fs).length →
    ∃ pre f post, fs = pre ++ f :: post
      ∧ decode (fs.map Field.width) ((encode fs).take k) = (pre, none)
  | [], _, h => by simp at h
  | f :: fs, k, h => by
    by_cases hk : k < f.width.size
    · refine ⟨[], f, fs, rfl, decode_cons_short ?_ _⟩
      rw [List.length_take]
      omega
    · obtain ⟨j, rfl⟩ : ∃ j, k = f.bytes.length + j :=
        ⟨k - f.width.size, by rw [f.length_bytes]; omega⟩
      have hj : j < (encode fs).length := by
        rw [encode_cons, List.length_append] at h
        omega
      obtain ⟨pre, g, post, rfl, hcut⟩ := decode_take fs hj
      refine ⟨f :: pre, g, post, rfl, ?_⟩
      rw [List.map_cons, encode_cons, List.take_length_add_append, decode_cons_append, hcut]
      rfl

end Record
