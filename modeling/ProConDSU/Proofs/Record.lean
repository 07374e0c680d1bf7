import ProConDSU.Lib.Record
import ProConDSU.Proofs.Reader

/-!
# Records, written and read

Fields written one after another with a `BinaryWriter` are a record, and read one after another with
a `BinaryReader` are its decoding (`readRecord_eq`). So reading undoes writing, whatever the fields,
and of a buffer cut short it undoes what comes before the cut (`recordCodec`).
-/

namespace ProConDSU

open Record

def writeField (w : BinaryWriter) : Field → BinaryWriter
  | @Field.value α _ a => w.write (a : α)
  | .block bytes => w.writeBytes bytes bytes.length

def writeRecord (fs : List Field) : ByteBuffer := (fs.foldl writeField .new).getBuffer

theorem buf_writeField (w : BinaryWriter) (f : Field) :
    (writeField w f).buf = w.buf ++ f.bytes := by
  rcases f with a | bytes
  · rfl
  · rw [writeField, BinaryWriter.buf_writeBytes, List.take_length]
    rfl

theorem writeRecord_eq (fs : List Field) : writeRecord fs = encode fs := by
  have hfold : ∀ (fs : List Field) (w : BinaryWriter),
      (fs.foldl writeField w).buf = w.buf ++ encode fs := by
    intro fs
    induction fs with
    | nil => simp
    | cons f fs ih =>
      intro w
      rw [List.foldl_cons, ih, buf_writeField, encode_cons, List.append_assoc]
  exact hfold fs .new

section Reading

variable {buf : ByteBuffer}

def readField (r : BinaryReader buf) :
    Width → Exec (Except DeserializeError Field × BinaryReader buf)
  | @Width.value α _ => (r.read α).map fun p => (p.1.map .value, p.2)
  | .block n => (r.readBytes .storage n).map fun p => (p.1.map .block, p.2)

/-- Reads in order up to the first that fails: what was read, and how the last read went. -/
def readRecord : List Width → BinaryReader buf →
    Exec (List Field × DeserializeError × BinaryReader buf)
  | [], r => .ok ([], .none, r)
  | w :: ws, r =>
    match readField r w with
    | .ok (.ok f, r) => (readRecord ws r).map fun p => (f :: p.1, p.2)
    | .ok (.error err, r) => .ok ([], err, r)
    | .error f => .error f

theorem readField_ok (r : BinaryReader buf) (w : Width) (h : r.pos + w.size ≤ buf.length)
    (hlt : r.pos + w.size < 2 ^ 64) :
    readField r w = .ok (.ok (w.ofBytes (bytesAt buf r.pos w.size)), ⟨r.pos + w.size, h⟩) := by
  rcases w with α | n
  · rw [readField, r.read_ok h hlt]
    rfl
  · show (r.readBytes .storage (Width.block n).size).map _ = _
    rw [r.readBytes_ok h hlt]
    rfl

theorem readField_short (r : BinaryReader buf) (w : Width) (h : buf.length < r.pos + w.size)
    (hlt : r.pos + w.size < 2 ^ 64) : readField r w = .ok (.error .errParseError, r) := by
  rcases w with α | n
  · rw [readField, r.read_short h hlt]
    rfl
  · show (r.readBytes .storage (Width.block n).size).map _ = _
    rw [r.readBytes_short _ h hlt]
    rfl

/-- How the reads end that leave `rest`, if none fails. -/
def endOf (rest : Option ByteBuffer) : DeserializeError :=
  if rest.isSome then .none else .errParseError

/-- Where the widths do not wrap, the reader decodes what lies after its position. -/
theorem readRecord_eq : ∀ (ws : List Width) (r : BinaryReader buf), r.pos + total ws < 2 ^ 64 →
    ∃ r', readRecord ws r
        = .ok ((decode ws (buf.drop r.pos)).1, endOf (decode ws (buf.drop r.pos)).2, r')
      ∧ ∀ rest, (decode ws (buf.drop r.pos)).2 = some rest → buf.drop r'.pos = rest
  | [], r, _ => ⟨r, rfl, fun _ h => Option.some.inj h⟩
  | w :: ws, r, hlt => by
    rw [total_cons] at hlt
    have hpos := r.pos_le
    by_cases hshort : buf.length < r.pos + w.size
    · have hread := readField_short r w hshort (by omega)
      rw [decode_cons_short (by rw [List.length_drop]; omega)]
      refine ⟨r, ?_, fun _ h => by cases h⟩
      rw [readRecord, hread]
      rfl
    · have hread := readField_ok r w (by omega) (by omega)
      obtain ⟨r', hrest, hend⟩ := readRecord_eq ws ⟨r.pos + w.size, by omega⟩
        (show r.pos + w.size + total ws < 2 ^ 64 by omega)
      rw [decode, if_neg (by rw [List.length_drop]; omega), List.drop_drop]
      refine ⟨r', ?_, hend⟩
      rw [readRecord, hread]
      simp only [hrest]
      rfl

end Reading

/-- Reading the widths that were written gives the fields, and on every strict prefix of the buffer
those before one that fails. -/
structure RecordCodec (fs : List Field) : Prop where
  length : (writeRecord fs).length = (fs.map fun f => f.width.size).sum
  reads : ∃ r, readRecord (fs.map Field.width) (.start (writeRecord fs)) = .ok (fs, .none, r)
    ∧ r.remaining = 0
  cut : ∀ k < (writeRecord fs).length, ∃ pre f post r, fs = pre ++ f :: post
    ∧ readRecord (fs.map Field.width) (.start ((writeRecord fs).take k))
      = .ok (pre, .errParseError, r)

theorem recordCodec (fs : List Field) (h : (fs.map fun f => f.width.size).sum < 2 ^ 63) :
    RecordCodec fs := by
  have htotal : total (fs.map Field.width) = (fs.map fun f => f.width.size).sum := by
    rw [total, List.map_map]
    rfl
  have hlt : ∀ buf : ByteBuffer,
      (BinaryReader.start buf).pos + total (fs.map Field.width) < 2 ^ 64 := fun buf => by
    show 0 + total (fs.map Field.width) < 2 ^ 64
    omega
  refine ⟨?_, ?_, fun k hk => ?_⟩
  · rw [writeRecord_eq, length_encode, htotal]
  · have hdecode := decode_append fs []
    rw [List.append_nil, ← writeRecord_eq] at hdecode
    obtain ⟨r, hread, hend⟩ := readRecord_eq _ _ (hlt (writeRecord fs))
    rw [show (writeRecord fs).drop (BinaryReader.start _).pos = writeRecord fs from rfl,
      hdecode] at hread hend
    have hrest := hend [] rfl
    exact ⟨r, hread, by rw [BinaryReader.remaining, ← List.length_drop, hrest]; rfl⟩
  · rw [writeRecord_eq] at hk ⊢
    obtain ⟨pre, f, post, hfs, hdecode⟩ := decode_take fs hk
    obtain ⟨r, hread, -⟩ := readRecord_eq _ _ (hlt ((encode fs).take k))
    rw [show ((encode fs).take k).drop (BinaryReader.start _).pos = (encode fs).take k from rfl,
      hdecode] at hread
    exact ⟨pre, f, post, r, hfs, hread⟩

theorem recordCodec_mixed : RecordCodec [.value (7 : UInt8), .block [1, 2, 3],
    .value (500 : UInt16), .block [], .value (70000 : UInt32), .value (5 : UInt64)] :=
  recordCodec _ (by decide)

/-- A version, and a block of which a byte is missing. -/
example : ((readRecord [.value UInt16, .block 2] (.start [0xE9, 3, 7])).map fun p => p.2.1)
    = .ok .errParseError := rfl

end ProConDSU
