import ProConDSU.Packet

/-!
# Running a decoder

Where the position does not wrap, a read within bounds is the value at the position, and one out of
bounds is an error (`read_ok`, `read_short`); so a `deserialize` is run by rewriting.
-/

namespace ProConDSU

/-- The value whose representation starts at offset `i` of `b`. -/
def valueAt (α : Type) [Pod α] (b : ByteBuffer) (i : ℕ) : α :=
  Pod.ofBytes (bytesAt b i (Pod.size α))

theorem length_bytesAt {b : ByteBuffer} {i n : ℕ} (h : i + n ≤ b.length) :
    (bytesAt b i n).length = n := by
  simp only [bytesAt, List.length_take, List.length_drop]
  omega

theorem bytesAt_succ (b : ByteBuffer) (i n : ℕ) :
    bytesAt b (i + 1) n = (bytesAt b i (n + 1)).drop 1 := by
  rw [bytesAt, bytesAt, List.drop_take, List.drop_drop, Nat.add_sub_cancel]

theorem bytesAt_add (b : ByteBuffer) (i m n : ℕ) :
    bytesAt b i m ++ bytesAt b (i + m) n = bytesAt b i (m + n) := by
  rw [bytesAt, bytesAt, bytesAt, List.take_add, List.drop_drop]

theorem bytesAt_append_drop (b : ByteBuffer) (i n : ℕ) :
    bytesAt b i n ++ b.drop (i + n) = b.drop i := by
  rw [bytesAt, ← List.drop_drop, List.take_append_drop]

theorem toBytes_valueAt {α : Type} [Pod α] {b : ByteBuffer} {i : ℕ}
    (h : i + Pod.size α ≤ b.length) : Pod.toBytes (valueAt α b i) = bytesAt b i (Pod.size α) :=
  Pod.toBytes_ofBytes _ (length_bytesAt h)

theorem sizeT_of_lt {n : ℕ} (h : n < 2 ^ 64) : sizeT n = n := by
  unfold sizeT
  omega

theorem sizeT_eq {n : ℤ} (h0 : 0 ≤ n) (h : n < 2 ^ 64) : sizeT n = n.toNat := by
  unfold sizeT
  omega

/-- A call returns one value. -/
theorem Exec.unique {α β : Type} {x : Exec (α × β)} {a a' : α} {b b' : β} (h : x = .ok (a, b))
    (h' : x = .ok (a', b')) : a = a' ∧ b = b' := by
  rw [h] at h'
  simpa using h'

namespace BinaryReader

variable {buf : ByteBuffer}

theorem readBytes_of_le (r : BinaryReader buf) {dest : Dest} {count : ℕ}
    (hdest : dest = .nullptr → count = 0) (h : r.pos + count ≤ buf.length)
    (hlt : r.pos + count < 2 ^ 64) :
    r.readBytes dest count = .ok (.ok (bytesAt buf r.pos count), ⟨r.pos + count, h⟩) := by
  have hs : sizeT (r.pos + count) = r.pos + count := by
    exact_mod_cast sizeT_of_lt hlt
  have hnull : ¬ (dest = .nullptr ∧ 0 < count) := fun h => by have := hdest h.1; omega
  simp only [readBytes, hs]
  rw [dif_neg (by omega), if_neg hnull, if_neg (by omega)]

theorem readBytes_ok (r : BinaryReader buf) {count : ℕ} (h : r.pos + count ≤ buf.length)
    (hlt : r.pos + count < 2 ^ 64) :
    r.readBytes .storage count = .ok (.ok (bytesAt buf r.pos count), ⟨r.pos + count, h⟩) :=
  r.readBytes_of_le (by simp) h hlt

theorem readBytes_short (r : BinaryReader buf) (dest : Dest) {count : ℕ}
    (h : buf.length < r.pos + count) (hlt : r.pos + count < 2 ^ 64) :
    r.readBytes dest count = .ok (.error .errParseError, r) := by
  have hs : sizeT (r.pos + count) = r.pos + count := by
    exact_mod_cast sizeT_of_lt hlt
  simp only [readBytes, hs]
  rw [dif_pos h]

theorem readBytes_null (hbuf : buf.length ≤ maxSize) (r : BinaryReader buf) {count : ℕ}
    (h : r.pos + count ≤ buf.length) (h0 : 0 < count) :
    r.readBytes .nullptr count = .error .nullCopy := by
  have hs : sizeT (r.pos + count) = r.pos + count := by
    unfold maxSize at hbuf
    exact_mod_cast sizeT_of_lt (n := r.pos + count) (by omega)
  simp only [readBytes, hs]
  rw [dif_neg (by omega), if_pos (by simpa using h0)]

/-- A sum that wraps passes the check. -/
theorem readBytes_wraps (hbuf : buf.length ≤ maxSize) (r : BinaryReader buf) (dest : Dest)
    {count : ℕ} (hlt : count < 2 ^ 64) (h : 2 ^ 64 ≤ r.pos + count) :
    ∃ f, r.readBytes dest count = .error f := by
  have hpos := r.pos_le
  have hs : sizeT (r.pos + count) = r.pos + count - 2 ^ 64 := by
    unfold maxSize at hbuf
    unfold sizeT
    omega
  simp only [readBytes, hs]
  rw [dif_neg (by omega), if_pos (show buf.length < r.pos + count by unfold maxSize at hbuf; omega)]
  split_ifs
  · exact ⟨_, rfl⟩
  · exact ⟨_, rfl⟩

theorem length_of_readBytes {r r' : BinaryReader buf} {dest : Dest} {count : ℕ}
    {bytes : ByteBuffer} (h : r.readBytes dest count = .ok (.ok bytes, r')) :
    bytes.length = count := by
  unfold readBytes at h
  split_ifs at h with hwrap
  · simp at h
  · obtain ⟨hbytes, -⟩ := Exec.unique rfl h
    obtain rfl : bytesAt buf r.pos count = bytes := by simpa using hbytes
    exact length_bytesAt (by omega)

theorem read_ok {α : Type} [Pod α] (r : BinaryReader buf) (h : r.pos + Pod.size α ≤ buf.length)
    (hlt : r.pos + Pod.size α < 2 ^ 64) :
    r.read α = .ok (.ok (valueAt α buf r.pos), ⟨r.pos + Pod.size α, h⟩) := by
  rw [read, readBytes_ok r h hlt]
  rfl

theorem read_short {α : Type} [Pod α] (r : BinaryReader buf) (h : buf.length < r.pos + Pod.size α)
    (hlt : r.pos + Pod.size α < 2 ^ 64) : r.read α = .ok (.error .errParseError, r) := by
  rw [read, readBytes_short r _ h hlt]
  rfl

end BinaryReader

namespace Decode

variable {buf : ByteBuffer} {σ τ α β : Type}

@[simp] theorem pure_apply (a : α) (self : σ) (r : BinaryReader buf) :
    (pure a : Decode buf σ α) self r = .next a self r := rfl

theorem bind_apply (d : Decode buf σ α) (f : α → Decode buf σ β) (self : σ)
    (r : BinaryReader buf) :
    (d >>= f) self r = match d self r with
      | .next a self r => f a self r
      | .ret err self => .ret err self
      | .fault f => .fault f := rfl

theorem ite_apply (p : Prop) [Decidable p] (d e : Decode buf σ α) (self : σ)
    (r : BinaryReader buf) :
    (if p then d else e) self r = if p then d self r else e self r := by
  split <;> rfl

@[simp] theorem fail_apply (err : DeserializeError) (self : σ) (r : BinaryReader buf) :
    (fail err : Decode buf σ Unit) self r = .ret err self := rfl

@[simp] theorem assign_apply (f : σ → σ) (self : σ) (r : BinaryReader buf) :
    (assign f : Decode buf σ Unit) self r = .next () (f self) r := rfl

@[simp] theorem remaining_apply (self : σ) (r : BinaryReader buf) :
    (remaining : Decode buf σ ℕ) self r = .next (buf.length - r.pos) self r := rfl

theorem read_apply [Pod α] (self : σ) (r : BinaryReader buf)
    (h : r.pos + Pod.size α ≤ buf.length) (hlt : r.pos + Pod.size α < 2 ^ 64) :
    (read : Decode buf σ α) self r
      = .next (valueAt α buf r.pos) self ⟨r.pos + Pod.size α, h⟩ := by
  rw [read, check, BinaryReader.read_ok r h hlt]

theorem read_apply_short [Pod α] (self : σ) (r : BinaryReader buf)
    (h : buf.length < r.pos + Pod.size α) (hlt : r.pos + Pod.size α < 2 ^ 64) :
    (read : Decode buf σ α) self r = .ret .errParseError self := by
  rw [read, check, BinaryReader.read_short r h hlt]

theorem readBytes_apply (self : σ) (r : BinaryReader buf) {n : ℕ} (h : r.pos + n ≤ buf.length)
    (hlt : r.pos + n < 2 ^ 64) :
    (readBytes .storage n : Decode buf σ ByteBuffer) self r
      = .next (bytesAt buf r.pos n) self ⟨r.pos + n, h⟩ := by
  rw [readBytes, check, BinaryReader.readBytes_ok r h hlt]

theorem resize_apply (self : σ) (r : BinaryReader buf) {n : ℕ} (set : ByteBuffer → σ → σ)
    (h : n ≤ maxSize) :
    (resize n set : Decode buf σ Unit) self r = .next () (set (List.replicate n 0) self) r := by
  rw [resize, if_neg (by omega)]

theorem run_of_next {d : Decode buf σ Unit} {self self' : σ} {r : BinaryReader buf}
    (h : d self (.start buf) = .next () self' r) : run buf d self = .ok (.none, self') := by
  rw [run, h]

end Decode

end ProConDSU
