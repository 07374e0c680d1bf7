import ProConDSU.Lib.Run
import ProConDSU.Proofs.PacketCodec

/-!
# What a refused buffer leaves

Decoders check a buffer before they store any of it, but for two: `ControllersInfoRequest` stores
the count of slots and then checks it, and `Touch` checks for four bytes and reads six
(`Target.intact_iff`). Without the first an info request's count would stay that of its slots.
-/

namespace ProConDSU

section Touch

variable {buf : ByteBuffer}

/-- What `Touch` reads before the bytes run out. -/
def Touch.withHead (t : Touch) (buf : ByteBuffer) : Touch :=
  { t with active := valueAt UInt8 buf 0 != 0, id := valueAt _ buf 1, x := valueAt _ buf 2 }

theorem Touch.deserialize_eq (self : Touch) : deserialize buf self
    = if buf.length < 4 then .ok (.errInvalidLength, self)
      else if buf.length < 6 then .ok (.errParseError, self.withHead buf)
      else .ok (.none, { self.withHead buf with y := valueAt _ buf 4 }) := by
  split_ifs with h4 h6
  · simp only [deserialize, Decode.run, Decode.bind_apply, h4, if_true, Decode.fail_apply]
  · simp (disch := simp; try omega) only [deserialize, Decode.run, Decode.bind_apply,
      Decode.read_apply, Decode.read_apply_short, Decode.assign_apply, BinaryReader.start, if_neg]
    rfl
  · simp (disch := simp; try omega) only [deserialize, Decode.run, Decode.bind_apply,
      Decode.read_apply, Decode.assign_apply, BinaryReader.start, if_neg]
    rfl

end Touch

/-- A decoder that returns an error leaves `target` as it was. -/
def KeepsOnError {α : Type} (d : α → Exec (DeserializeError × α)) (target : α) : Prop :=
  ∀ err target', d target = .ok (err, target') → err ≠ .none → target' = target

/-- An object to decode into. -/
inductive Target
  | packet (p : Packet)
  | infoRequest (q : ControllersInfoRequest)
  | dataRequest (q : ControllersDataRequest)
  | motorsRequest (q : ControllersMotorsRequest)
  | rumbleRequest (q : ControllersMotorsRumbleRequest)
  | touch (t : Touch)

def Target.Intact (buf : ByteBuffer) : Target → Prop
  | .packet p => KeepsOnError (Packet.deserialize buf) p
  | .infoRequest q => KeepsOnError (ControllersInfoRequest.deserialize buf) q
  | .dataRequest q => KeepsOnError (ControllersDataRequest.deserialize buf) q
  | .motorsRequest q => KeepsOnError (ControllersMotorsRequest.deserialize buf) q
  | .rumbleRequest q => KeepsOnError (ControllersMotorsRumbleRequest.deserialize buf) q
  | .touch t => KeepsOnError (Touch.deserialize buf) t

/-- A count that is refused, and is not the object's already. -/
def ControllersInfoRequest.StoresCount (q : ControllersInfoRequest) (buf : ByteBuffer) : Prop :=
  4 ≤ buf.length ∧ buf.length ≤ 8 ∧ ¬ (-4 ≤ portsOf buf ∧ 4 + portsOf buf ≤ buf.length)
    ∧ portsOf buf ≠ q.ports.toInt

/-- A touch of four or five bytes, that are not the object's already. -/
def Touch.StoresHead (t : Touch) (buf : ByteBuffer) : Prop :=
  4 ≤ buf.length ∧ buf.length < 6
    ∧ ¬ (t.active = (valueAt UInt8 buf 0 != 0) ∧ t.id = valueAt _ buf 1 ∧ t.x = valueAt _ buf 2)

def Target.Overwritten (buf : ByteBuffer) : Target → Prop
  | .infoRequest q => q.StoresCount buf
  | .touch t => t.StoresHead buf
  | .packet _ | .dataRequest _ | .motorsRequest _ | .rumbleRequest _ => False

section Intact

variable {buf : ByteBuffer}

section KeepsOnError

variable {α : Type} {d : α → Exec (DeserializeError × α)} {target target' : α}

theorem keepsOnError_of_none (h : d target = .ok (.none, target')) : KeepsOnError d target := by
  intro err t hd hne
  exact absurd (Exec.unique h hd).1.symm hne

theorem keepsOnError_of_fault {f : Fault} (h : d target = .error f) : KeepsOnError d target := by
  intro err t hd
  rw [h] at hd
  cases hd

theorem keepsOnError_iff {err : DeserializeError} (h : d target = .ok (err, target'))
    (hne : err ≠ .none) : KeepsOnError d target ↔ target' = target := by
  refine ⟨?_, ?_⟩
  · exact fun hkeeps => hkeeps _ _ h hne
  · rintro rfl err' t hd -
    exact (Exec.unique h hd).2.symm

/-- A decoder that checks everything first. -/
theorem keepsOnError_of_checks {c : Prop} [Decidable c] {err : DeserializeError}
    (h : d target = if c then .ok (.none, target') else .ok (err, target)) (hne : err ≠ .none) :
    KeepsOnError d target := by
  split_ifs at h
  · exact keepsOnError_of_none h
  · exact (keepsOnError_iff h hne).2 rfl

end KeepsOnError

theorem ControllersInfoRequest.keepsOnError_iff (q : ControllersInfoRequest) :
    KeepsOnError (deserialize buf) q ↔ ¬ q.StoresCount buf := by
  have heq : deserialize buf q = _ := deserialize_eq q
  unfold StoresCount
  split_ifs at heq with hlen hcount h0
  · exact iff_of_true ((ProConDSU.keepsOnError_iff heq (by simp)).2 rfl) (by omega)
  · exact iff_of_true (keepsOnError_of_none heq) (by omega)
  · exact iff_of_true (keepsOnError_of_fault heq) (by omega)
  · have hsame : ({ q with ports := valueAt _ buf 0 } : ControllersInfoRequest) = q
        ↔ portsOf buf = q.ports.toInt := by
      rw [portsOf, Int32.toInt_inj]
      exact ⟨fun h => congrArg ports h, fun h => by rw [h]⟩
    rw [ProConDSU.keepsOnError_iff heq (by simp), hsame]
    refine ⟨?_, ?_⟩
    · rintro h ⟨-, -, -, hne⟩
      exact hne h
    · intro h
      by_contra hne
      exact h ⟨by omega, by omega, hcount, hne⟩

theorem Touch.keepsOnError_iff (t : Touch) :
    KeepsOnError (deserialize buf) t ↔ ¬ t.StoresHead buf := by
  have heq : deserialize buf t = _ := deserialize_eq t
  unfold StoresHead
  split_ifs at heq with h4 h6
  · exact iff_of_true ((ProConDSU.keepsOnError_iff heq (by simp)).2 rfl) fun h => by omega
  · have hsame : t.withHead buf = t ↔ t.active = (valueAt UInt8 buf 0 != 0)
        ∧ t.id = valueAt _ buf 1 ∧ t.x = valueAt _ buf 2 := by
      refine ⟨?_, ?_⟩
      · intro h
        rw [← h]
        exact ⟨rfl, rfl, rfl⟩
      · rintro ⟨hactive, hid, hx⟩
        rw [withHead, ← hactive, ← hid, ← hx]
    rw [ProConDSU.keepsOnError_iff heq (by simp), hsame]
    refine ⟨?_, ?_⟩
    · rintro h ⟨-, -, hne⟩
      exact hne h
    · intro h
      by_contra hne
      exact h ⟨by omega, h6, hne⟩
  · exact iff_of_true (keepsOnError_of_none heq) fun h => by omega

/-- A refused buffer is kept out of the object it was decoded into, with two exceptions. -/
theorem Target.intact_iff (hbuf : buf.length ≤ maxSize) (t : Target) :
    t.Intact buf ↔ ¬ t.Overwritten buf := by
  cases t with
  | packet p =>
    refine iff_of_true ?_ not_false
    by_cases h : Enveloped buf
    · exact keepsOnError_of_none (Packet.deserialize_ok hbuf h p)
    · exact (keepsOnError_iff (Packet.deserialize_invalid h p) (isValidMessage_ne h)).2 rfl
  | infoRequest q => exact q.keepsOnError_iff
  | dataRequest q =>
    exact iff_of_true (keepsOnError_of_checks (ControllersDataRequest.deserialize_eq q) (by simp))
      not_false
  | motorsRequest q =>
    exact iff_of_true (keepsOnError_of_checks (ControllersMotorsRequest.deserialize_eq q) (by simp))
      not_false
  | rumbleRequest q =>
    exact iff_of_true
      (keepsOnError_of_checks (ControllersMotorsRumbleRequest.deserialize_eq q) (by simp)) not_false
  | touch t => exact t.keepsOnError_iff

end Intact

namespace ControllersInfoRequest

def Counted (q : ControllersInfoRequest) : Prop := q.ports.toInt = q.slots.length

instance (q : ControllersInfoRequest) : Decidable q.Counted := inferInstanceAs (Decidable (_ = _))

/-- A decode that returns, whether or not it succeeds. -/
def Decodes (q : ControllersInfoRequest) (buf : ByteBuffer) (q' : ControllersInfoRequest) : Prop :=
  ∃ err, deserialize buf q = .ok (err, q')

theorem Decodes.counted_iff {q q' : ControllersInfoRequest} {buf : ByteBuffer} (hq : q.Counted)
    (h : q.Decodes buf q') : q'.Counted ↔ ¬ q.StoresCount buf := by
  obtain ⟨err, h⟩ := h
  rw [deserialize_eq] at h
  unfold StoresCount
  split_ifs at h with hlen hcount h0 <;> simp only [Except.ok.injEq, Prod.mk.injEq] at h <;>
    rw [← h.2]
  · exact iff_of_true hq (by omega)
  · refine iff_of_true ?_ (by omega)
    rw [Counted, length_bytesAt (by omega), ← portsOf]
    omega
  · rw [Counted] at hq ⊢
    rw [← portsOf]
    simp only
    omega

/-- A decode that meets no count it refuses but has stored. -/
def CleanStep (q : ControllersInfoRequest) (buf : ByteBuffer) (q' : ControllersInfoRequest) :
    Prop :=
  q.Decodes buf q' ∧ ¬ q.StoresCount buf

theorem counted_of_run {q q' : ControllersInfoRequest} {bufs : List ByteBuffer} (hq : q.Counted)
    (h : Run CleanStep q bufs q') : q'.Counted :=
  h.invariant Counted hq fun _ _ _ hcounted hstep => (hstep.1.counted_iff hcounted).2 hstep.2

end ControllersInfoRequest

/-- A refused buffer leaves its object as it was just when it is none of those that overwrite it,
and an info request that meets none of them counts its slots. -/
theorem rejected_intact_iff {buf : ByteBuffer} (hbuf : buf.length ≤ maxSize) (t : Target) :
    (t.Intact buf ↔ ¬ t.Overwritten buf)
      ∧ ∀ (q q' : ControllersInfoRequest) (bufs : List ByteBuffer), q.Counted →
        Run ControllersInfoRequest.CleanStep q bufs q' → q'.Counted :=
  ⟨t.intact_iff hbuf, fun _ _ _ hq hrun => ControllersInfoRequest.counted_of_run hq hrun⟩

/-- One slot, and then a buffer too short. -/
theorem rejected_intact_iff_short :
    (Target.Intact [5, 0, 0] (.infoRequest ⟨1, [7]⟩)
        ↔ ¬ Target.Overwritten [5, 0, 0] (.infoRequest ⟨1, [7]⟩))
      ∧ ControllersInfoRequest.Counted ⟨1, [7]⟩ := by
  have hrun : Run ControllersInfoRequest.CleanStep ⟨0, []⟩ [[1, 0, 0, 0, 7], [5, 0, 0]] ⟨1, [7]⟩ :=
    .cons ⟨⟨.none, rfl⟩, fun h => absurd h.2.2.1 (by decide)⟩ <|
      .cons ⟨⟨.errInvalidLength, rfl⟩, fun h => absurd h.1 (by decide)⟩ <| .nil _
  have hbuf : List.length ([5, 0, 0] : ByteBuffer) ≤ maxSize := by decide
  obtain ⟨hintact, hcounted⟩ := rejected_intact_iff hbuf (.infoRequest ⟨1, [7]⟩)
  exact ⟨hintact, hcounted _ _ _ (by decide) hrun⟩

/-- Five slots counted, and none kept; and three fields of a touch that ends early. -/
theorem not_intact_count :
    (ControllersInfoRequest.deserialize [5, 0, 0, 0] ⟨0, []⟩ = .ok (.errParseError, ⟨5, []⟩)
        ∧ ¬ Target.Intact [5, 0, 0, 0] (.infoRequest ⟨0, []⟩))
      ∧ (Touch.deserialize [1, 2, 3, 0] ⟨false, 0, 0, 0⟩ = .ok (.errParseError, ⟨true, 2, 3, 0⟩)
        ∧ ¬ Target.Intact [1, 2, 3, 0] (.touch ⟨false, 0, 0, 0⟩)) := by
  refine ⟨⟨rfl, fun h => ?_⟩, rfl, fun h => ?_⟩
  · exact absurd (h .errParseError _ rfl (by decide)) (by decide)
  · exact absurd (h .errParseError _ rfl (by decide)) (by decide)

end ProConDSU
