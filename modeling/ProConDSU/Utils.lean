import ProConDSU.Lib.Pod

/-!
# Buffers, readers and writers

`packet/utils.hpp` and `packet/utils.cpp`. `size_t` is 64 bits and its arithmetic wraps (`sizeT`);
the host is little-endian. A `deserialize` body is a `Decode`: it fills the fields of an object it
is given, and returns early with an error code, the object as filled so far.
-/

namespace ProConDSU

abbrev ByteBuffer := List UInt8

def bytesAt (b : ByteBuffer) (i n : ℕ) : ByteBuffer := (b.drop i).take n

/-- How a call ends without returning: an exception, or undefined behaviour. -/
inductive Fault
  /-- `std::length_error`, from a vector resized beyond `max_size()`. -/
  | lengthError
  /-- A `memcpy` of a positive count into a null pointer. -/
  | nullCopy
  /-- A `memcpy` from past the end of a buffer. -/
  | outOfBounds
  deriving DecidableEq, Repr

abbrev Exec := Except Fault

def sizeT (n : ℤ) : ℕ := (n % 2 ^ 64).toNat

/-- `max_size()` of a vector of bytes: no buffer is longer. -/
def maxSize : ℕ := 2 ^ 63 - 1

inductive DeserializeError
  | none
  | errInvalidPacket
  | errInvalidLength
  | errParseError
  deriving DecidableEq, Repr

/-- `std::strncmp`: the difference of the first unlike characters, none of them after a NUL. -/
def strncmp (s t : List UInt8) : ℕ → ℤ
  | 0 => 0
  | n + 1 =>
    let a := s.headD 0
    let b := t.headD 0
    if a ≠ b then (a.toNat : ℤ) - b.toNat
    else if a = 0 then 0
    else strncmp s.tail t.tail n

def dsuc : ByteBuffer := [0x44, 0x53, 0x55, 0x43]

def isValidMessage (buf : ByteBuffer) : DeserializeError :=
  if buf.length < 20 then .errInvalidLength
  else if strncmp buf dsuc 4 ≠ 0 then .errInvalidPacket
  else .none

/-- A `memcpy`'s destination: null, or storage for the bytes it copies. -/
inductive Dest
  | nullptr
  | storage
  deriving DecidableEq

/-- The check before each copy is what keeps the position within the buffer. -/
structure BinaryReader (buf : ByteBuffer) where
  pos : ℕ
  pos_le : pos ≤ buf.length

namespace BinaryReader

variable {buf : ByteBuffer}

def start (buf : ByteBuffer) : BinaryReader buf := ⟨0, Nat.zero_le _⟩

def readBytes (r : BinaryReader buf) (dest : Dest) (count : ℕ) :
    Exec (Except DeserializeError ByteBuffer × BinaryReader buf) :=
  if h : sizeT (r.pos + count) > buf.length then
    .ok (.error .errParseError, r)
  else if dest = .nullptr ∧ 0 < count then
    .error .nullCopy
  else if buf.length < r.pos + count then
    -- the sum wrapped, and passed the check
    .error .outOfBounds
  else
    .ok (.ok (bytesAt buf r.pos count), ⟨sizeT (r.pos + count), not_lt.1 h⟩)

/-- The template's body is `readBytes` of `sizeof(T)` bytes into the value. -/
def read (α : Type) [Pod α] (r : BinaryReader buf) :
    Exec (Except DeserializeError α × BinaryReader buf) :=
  (r.readBytes .storage (Pod.size α)).map fun p => (p.1.map Pod.ofBytes, p.2)

def remaining (r : BinaryReader buf) : ℕ := buf.length - r.pos

def position (r : BinaryReader buf) : ℕ := r.pos

end BinaryReader

/-- Where a step of a `deserialize` body leads, `self` being the object it fills: to the next step,
or out of the function. -/
inductive Decoded (buf : ByteBuffer) (σ α : Type)
  | next (a : α) (self : σ) (reader : BinaryReader buf)
  | ret (err : DeserializeError) (self : σ)
  | fault (f : Fault)

def Decode (buf : ByteBuffer) (σ α : Type) : Type := σ → BinaryReader buf → Decoded buf σ α

namespace Decode

variable {buf : ByteBuffer} {σ τ α β : Type}

protected def bind (d : Decode buf σ α) (f : α → Decode buf σ β) : Decode buf σ β := fun self r =>
  match d self r with
  | .next a self r => f a self r
  | .ret err self => .ret err self
  | .fault f => .fault f

instance : Monad (Decode buf σ) where
  pure a := fun self r => .next a self r
  bind := Decode.bind

def fail (err : DeserializeError) : Decode buf σ Unit := fun self _ => .ret err self

def assign (f : σ → σ) : Decode buf σ Unit := fun self r => .next () (f self) r

/-- Goes on from what a read returns: `if (err != DeserializeError::None) return err;` -/
def check (f : BinaryReader buf → Exec (Except DeserializeError α × BinaryReader buf)) :
    Decode buf σ α := fun self r =>
  match f r with
  | .ok (.ok a, r) => .next a self r
  | .ok (.error err, _) => .ret err self
  | .error f => .fault f

def read [Pod α] : Decode buf σ α := check (BinaryReader.read α)

def readBytes (dest : Dest) (count : ℕ) : Decode buf σ ByteBuffer := check (·.readBytes dest count)

/-- `reader.readBytes(nullptr, count);` with its result dropped. -/
def skip (count : ℕ) : Decode buf σ Unit := fun self r =>
  match r.readBytes .nullptr count with
  | .ok (_, r) => .next () self r
  | .error f => .fault f

def position : Decode buf σ ℕ := fun self r => .next r.position self r

def remaining : Decode buf σ ℕ := fun self r => .next r.remaining self r

/-- `v.clear(); v.resize(n);` for a vector of the object. -/
def resize (n : ℕ) (set : ByteBuffer → σ → σ) : Decode buf σ Unit := fun self r =>
  if maxSize < n then .fault .lengthError else .next () (set (List.replicate n 0) self) r

/-- `err = member.deserialize(sub);` and the check of `err`. -/
def member (get : σ → τ) (set : τ → σ → σ) (d : τ → Exec (DeserializeError × τ)) :
    Decode buf σ Unit := fun self r =>
  match d (get self) with
  | .ok (.none, t) => .next () (set t self) r
  | .ok (err, t) => .ret err (set t self)
  | .error f => .fault f

def run (buf : ByteBuffer) (d : Decode buf σ Unit) (self : σ) : Exec (DeserializeError × σ) :=
  match d self (.start buf) with
  | .next _ self _ => .ok (.none, self)
  | .ret err self => .ok (err, self)
  | .fault f => .error f

end Decode

structure BinaryWriter where
  buf : ByteBuffer

namespace BinaryWriter

def new : BinaryWriter := ⟨[]⟩

def write {α : Type} [Pod α] (w : BinaryWriter) (value : α) : BinaryWriter :=
  ⟨w.buf ++ Pod.toBytes value⟩

def writeBytes (w : BinaryWriter) (src : ByteBuffer) (count : ℕ) : BinaryWriter :=
  ⟨w.buf ++ src.take count⟩

def getBuffer (w : BinaryWriter) : ByteBuffer := w.buf

@[simp] theorem buf_new : new.buf = [] := rfl

@[simp] theorem buf_write {α : Type} [Pod α] (w : BinaryWriter) (value : α) :
    (w.write value).buf = w.buf ++ Pod.toBytes value := rfl

@[simp] theorem buf_writeBytes (w : BinaryWriter) (src : ByteBuffer) (count : ℕ) :
    (w.writeBytes src count).buf = w.buf ++ src.take count := rfl

@[simp] theorem getBuffer_eq (w : BinaryWriter) : w.getBuffer = w.buf := rfl

end BinaryWriter

/-- One pass of the inner loop of `init_crc32_table`. -/
def crcBit (crc : UInt32) : UInt32 :=
  if crc &&& 1 ≠ 0 then (crc >>> 1) ^^^ 0xEDB88320 else crc >>> 1

def crcEntry (i : UInt32) : UInt32 := crcBit^[8] i

def initCrc32Table : Vector UInt32 256 := Vector.ofFn fun i => crcEntry (UInt32.ofNat i)

/-- `crc32_table` and `compute_crc32`'s `initialized`: once set, the table has been filled. -/
structure CrcStatics where
  initialized : Bool
  crc32Table : Vector UInt32 256
  filled : initialized = true → crc32Table = initCrc32Table

namespace CrcStatics

def boot : CrcStatics := ⟨false, Vector.replicate 256 0, by simp⟩

def init (s : CrcStatics) : CrcStatics :=
  if s.initialized then s else ⟨true, initCrc32Table, fun _ => rfl⟩

end CrcStatics

theorem and_ff_lt (c : UInt32) : (c &&& 0xFF).toNat < 256 := by
  have : (c &&& 0xFF).toNat ≤ 0xFF := by
    rw [UInt32.toNat_and]
    exact Nat.and_le_right
  omega

def crcStep (table : Vector UInt32 256) (crc : UInt32) (b : UInt8) : UInt32 :=
  have := and_ff_lt (crc ^^^ b.toUInt32)
  table[((crc ^^^ b.toUInt32) &&& 0xFF).toNat] ^^^ (crc >>> 8)

def computeCrc32Call (s : CrcStatics) (data : ByteBuffer) : UInt32 × CrcStatics :=
  (data.foldl (crcStep s.init.crc32Table) 0xFFFFFFFF ^^^ 0xFFFFFFFF, s.init)

/-- What `compute_crc32` returns: the same at every call (`computeCrc32Call_fst`). -/
def computeCrc32 (data : ByteBuffer) : UInt32 := (computeCrc32Call .boot data).1

end ProConDSU
