import ProConDSU.Proofs.Reader

/-!
# The reader's bounds

`read` and `readBytes` add the count to the position before they compare it with the size. Where
the sum does not wrap a call stays within the buffer, and where it does the call is let through
(`ReadCall.inBounds_iff`), so a sequence of calls stays within bounds just when none of them wraps.
-/

namespace ProConDSU

/-- What a call returns and what it leaves. -/
structure ReadOutcome (buf : ByteBuffer) where
  err : DeserializeError
  /-- The destination's bytes. -/
  held : ByteBuffer
  reader : BinaryReader buf

/-- The destination, that held `held`, is written from its start on when the read succeeds. -/
def ReadOutcome.of {buf : ByteBuffer} (held : ByteBuffer) :
    Except DeserializeError ByteBuffer × BinaryReader buf → ReadOutcome buf
  | (.ok bytes, r) => ⟨.none, bytes ++ held.drop bytes.length, r⟩
  | (.error err, r) => ⟨err, held, r⟩

/-- A call with its destination: a value, or bytes if the pointer is not null. Both counts are of
type `size_t`. -/
inductive ReadCall : Type 1
  | read {α : Type} [Pod α] (value : α) (size_lt : Pod.size α < 2 ^ 64)
  | readBytes (dest : Option ByteBuffer) (count : UInt64)

namespace ReadCall

variable {buf : ByteBuffer}

def count : ReadCall → ℕ
  | @read α _ _ _ => Pod.size α
  | readBytes _ count => count.toNat

def dest : ReadCall → Dest
  | read .. | readBytes (some _) _ => .storage
  | readBytes none _ => .nullptr

def held : ReadCall → ByteBuffer
  | read value _ => Pod.toBytes value
  | readBytes dest _ => dest.getD []

def call (r : BinaryReader buf) : ReadCall → Exec (ReadOutcome buf)
  | @read α _ value _ => (r.read α).map fun p => .of (Pod.toBytes value) (p.1.map Pod.toBytes, p.2)
  | c@(readBytes _ count) => (r.readBytes c.dest count.toNat).map (.of c.held)

theorem count_lt (c : ReadCall) : c.count < 2 ^ 64 := by
  rcases c with ⟨_, h⟩ | ⟨_, count⟩
  · exact h
  · exact count.toNat_lt

/-- The two calls are alike. -/
theorem call_eq (c : ReadCall) (r : BinaryReader buf) :
    c.call r = (r.readBytes c.dest c.count).map (.of c.held) := by
  rcases c with @⟨α, _, value, h⟩ | ⟨dest, count⟩
  · show ((r.readBytes .storage (Pod.size α)).map _).map _
      = (r.readBytes .storage (Pod.size α)).map _
    rcases hread : r.readBytes .storage (Pod.size α) with f | ⟨err | bytes, r'⟩
    · rfl
    · rfl
    · simp only [Except.map, Pod.toBytes_ofBytes bytes (BinaryReader.length_of_readBytes hread),
        held]
  · rfl

/-- What a call should do: read the bytes that follow, or nothing. -/
def InBounds (r : BinaryReader buf) (c : ReadCall) : Prop :=
  ∃ o, c.call r = .ok o
    ∧ (o.err = .none ↔ c.count ≤ buf.length - r.pos)
    ∧ (o.err = .none → o.held = bytesAt buf r.pos c.count ++ c.held.drop c.count
      ∧ o.reader.pos = r.pos + c.count)
    ∧ (o.err ≠ .none → o.held = c.held ∧ o.reader = r)

/-- The sum does not wrap, and there is somewhere to put what is read. -/
def Fits (r : BinaryReader buf) (c : ReadCall) : Prop :=
  r.pos + c.count < 2 ^ 64
    ∧ (c.dest = .nullptr → c.count = 0 ∨ buf.length < r.pos + c.count)

theorem inBounds_iff (hbuf : buf.length ≤ maxSize) (r : BinaryReader buf) (c : ReadCall) :
    c.InBounds r ↔ c.Fits r := by
  have hpos := r.pos_le
  unfold InBounds Fits
  rw [c.call_eq]
  by_cases hwrap : 2 ^ 64 ≤ r.pos + c.count
  · obtain ⟨f, hf⟩ := r.readBytes_wraps hbuf c.dest c.count_lt hwrap
    refine iff_of_false ?_ fun h => by omega
    rintro ⟨o, hcall, -⟩
    rw [hf] at hcall
    cases hcall
  by_cases hshort : buf.length < r.pos + c.count
  · rw [r.readBytes_short c.dest hshort (by omega)]
    refine iff_of_true ⟨_, rfl, ?_, ?_, fun _ => ⟨rfl, rfl⟩⟩ ⟨by omega, fun _ => .inr hshort⟩
    · simp only [ReadOutcome.of, reduceCtorEq, false_iff]
      omega
    · simp [ReadOutcome.of]
  by_cases hnull : c.dest = .nullptr ∧ 0 < c.count
  · rw [hnull.1, r.readBytes_null hbuf (by omega) hnull.2]
    refine iff_of_false ?_ fun h => by have := h.2 rfl; omega
    rintro ⟨o, hcall, -⟩
    cases hcall
  · have hdest : c.dest = .nullptr → c.count = 0 := fun h => by
      by_contra h0
      exact hnull ⟨h, by omega⟩
    rw [r.readBytes_of_le hdest (by omega) (by omega)]
    refine iff_of_true ⟨_, rfl, ?_, fun _ => ⟨?_, rfl⟩, fun h => absurd rfl h⟩
      ⟨by omega, fun h => .inl (hdest h)⟩
    · simp only [ReadOutcome.of, true_iff]
      omega
    · simp only [ReadOutcome.of, length_bytesAt (show r.pos + c.count ≤ buf.length by omega)]

/-- A call within bounds does not move the position back. -/
theorem InBounds.call_ok {r : BinaryReader buf} {c : ReadCall} (h : c.InBounds r) :
    ∃ o, c.call r = .ok o ∧ r.pos ≤ o.reader.pos := by
  obtain ⟨o, hcall, -, hok, herr⟩ := h
  refine ⟨o, hcall, ?_⟩
  by_cases hnone : o.err = .none
  · have := (hok hnone).2
    omega
  · rw [(herr hnone).2]

end ReadCall

section Calls

variable {buf : ByteBuffer}

def readFrom : BinaryReader buf → List ReadCall → Exec (BinaryReader buf)
  | r, [] => .ok r
  | r, c :: cs => do
    let o ← c.call r
    readFrom o.reader cs

theorem readFrom_cons {r : BinaryReader buf} {c : ReadCall} {o : ReadOutcome buf}
    (h : c.call r = .ok o) (cs : List ReadCall) : readFrom r (c :: cs) = readFrom o.reader cs := by
  rw [readFrom, h]
  rfl

theorem readFrom_concat {r' : BinaryReader buf} {c : ReadCall} {o : ReadOutcome buf}
    (h : c.call r' = .ok o) : ∀ (cs : List ReadCall) (r : BinaryReader buf),
      readFrom r cs = .ok r' → readFrom r (cs ++ [c]) = .ok o.reader
  | [], r, hr => by
    obtain rfl : r = r' := by simpa [readFrom] using hr
    exact readFrom_cons h []
  | d :: cs, r, hr => by
    rcases hd : d.call r with f | o'
    · rw [readFrom, hd] at hr
      cases hr
    · rw [readFrom_cons hd] at hr
      rw [List.cons_append, readFrom_cons hd]
      exact readFrom_concat h cs _ hr

/-- Each of `calls`, from the start of `buf`, is within bounds, and so are the stretches of them:
the position goes from lower to higher, no further than the end, and what remains is the rest. -/
structure StaysInBounds (buf : ByteBuffer) (calls : List ReadCall) : Prop where
  call : ∀ pre c post r, calls = pre ++ c :: post → readFrom (.start buf) pre = .ok r → c.InBounds r
  stretch : ∀ pre mid post r, calls = pre ++ (mid ++ post) → readFrom (.start buf) pre = .ok r →
    ∃ r', readFrom r mid = .ok r' ∧ r.pos ≤ r'.pos ∧ r'.pos ≤ buf.length
      ∧ r'.remaining + r'.pos = buf.length

theorem stretch_of_calls {calls : List ReadCall}
    (h : ∀ pre c post r, calls = pre ++ c :: post → readFrom (.start buf) pre = .ok r →
      c.InBounds r) : ∀ (mid pre post : List ReadCall) (r : BinaryReader buf),
      calls = pre ++ (mid ++ post) → readFrom (.start buf) pre = .ok r →
      ∃ r', readFrom r mid = .ok r' ∧ r.pos ≤ r'.pos
  | [], _, _, r, _, _ => ⟨r, rfl, le_rfl⟩
  | c :: mid, pre, post, r, hcalls, hpre => by
    obtain ⟨o, hcall, hle⟩ := (h pre c (mid ++ post) r hcalls hpre).call_ok
    obtain ⟨r', hmid, hle'⟩ := stretch_of_calls h mid (pre ++ [c]) post o.reader (by simp [hcalls])
      (readFrom_concat hcall pre _ hpre)
    exact ⟨r', (readFrom_cons hcall mid).trans hmid, hle.trans hle'⟩

/-- No call's sum wraps, and none that reads has a null pointer to read into. -/
def AllFit (buf : ByteBuffer) (calls : List ReadCall) : Prop :=
  ∀ pre c post r, calls = pre ++ c :: post → readFrom (.start buf) pre = .ok r → c.Fits r

theorem staysInBounds_iff (hbuf : buf.length ≤ maxSize) (calls : List ReadCall) :
    StaysInBounds buf calls ↔ AllFit buf calls := by
  refine ⟨fun h pre c post r hcalls hpre => ?_, fun h => ?_⟩
  · exact (ReadCall.inBounds_iff hbuf r c).1 (h.call pre c post r hcalls hpre)
  · have hcall : ∀ pre c post r, calls = pre ++ c :: post → readFrom (.start buf) pre = .ok r →
        c.InBounds r := fun pre c post r hcalls hpre =>
      (ReadCall.inBounds_iff hbuf r c).2 (h pre c post r hcalls hpre)
    refine ⟨hcall, fun pre mid post r hcalls hpre => ?_⟩
    obtain ⟨r', hmid, hle⟩ := stretch_of_calls hcall mid pre post r hcalls hpre
    have hpos := r'.pos_le
    exact ⟨r', hmid, hle, hpos, Nat.sub_add_cancel hpos⟩

/-- Destinations and counts below `2 ^ 63` are enough, wherever the position is. -/
theorem allFit_of_small (hbuf : buf.length ≤ maxSize) {calls : List ReadCall}
    (h : ∀ c ∈ calls, c.dest = .storage ∧ c.count < 2 ^ 63) : AllFit buf calls := by
  rintro pre c post r rfl -
  obtain ⟨hdest, hcount⟩ := h c (by simp)
  have hpos := r.pos_le
  unfold maxSize at hbuf
  exact ⟨by omega, fun hnull => by simp [hdest] at hnull⟩

end Calls

/-- The slots of an info request are read from position four. The counts that do not fit there are
negative ones: the length check lets them through, wrapping alike, and the resize refuses them. -/
theorem ControllersInfoRequest.slots_fits_iff {buf : ByteBuffer} {r : BinaryReader buf}
    (hr : r.pos = 4) (slots : ByteBuffer) (ports : Int32) :
    (ReadCall.readBytes (some slots) (UInt64.ofNat (sizeT ports.toInt))).Fits r
      ↔ ¬ (-4 ≤ ports.toInt ∧ ports.toInt < 0) := by
  have hge := Int32.le_toInt ports
  have hlt := Int32.toInt_lt ports
  have hcount : (UInt64.ofNat (sizeT ports.toInt)).toNat = sizeT ports.toInt := by
    refine UInt64.toNat_ofNat_of_lt' (show sizeT ports.toInt < 2 ^ 64 from ?_)
    unfold sizeT
    omega
  simp only [ReadCall.Fits, ReadCall.count, ReadCall.dest, hcount, hr, reduceCtorEq, false_imp_iff,
    and_true]
  unfold sizeT
  omega

/-- A byte into a value, and two into an array that has room for one more. -/
theorem staysInBounds_iff_two :
    StaysInBounds [7, 8, 9] [.read (0 : UInt8) (by decide), .readBytes (some [0, 0, 0]) 2] := by
  refine (staysInBounds_iff (by decide) _).2 (allFit_of_small (by decide) fun c hc => ?_)
  simp only [List.mem_cons, List.not_mem_nil, or_false] at hc
  rcases hc with rfl | rfl
  · exact ⟨rfl, by decide⟩
  · exact ⟨rfl, by decide⟩

/-- After a byte, a count of `2 ^ 64 - 1` brings the sum to zero. -/
theorem not_staysInBounds_wrapping : ¬ StaysInBounds [7]
    [.read (0 : UInt8) (by decide), .readBytes (some [0, 0, 0, 0]) 0xFFFFFFFFFFFFFFFF] := by
  intro h
  obtain ⟨o, hcall, -⟩ := h.call [.read (0 : UInt8) (by decide)] _ [] ⟨1, le_rfl⟩ rfl rfl
  have hfault : ReadCall.call (⟨1, le_rfl⟩ : BinaryReader [7])
      (.readBytes (some [0, 0, 0, 0]) 0xFFFFFFFFFFFFFFFF) = .error .outOfBounds := rfl
  rw [hfault] at hcall
  cases hcall

end ProConDSU
