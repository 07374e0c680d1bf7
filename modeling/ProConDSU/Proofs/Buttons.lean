import Mathlib.Data.Fintype.BigOperators
import Mathlib.Data.Nat.Digits.Lemmas
import ProConDSU.Proofs.LastStatus

/-!
# Which buttons a reply tells

The two button bytes and the home byte have seventeen bits, one each for seventeen of the
controller's eighteen buttons (`buttonBytes_inj`); there is none for Plus, and no mapping has one
for all (`not_injective_of_bytes`).
-/

namespace ProConDSU

theorem packBits_inj {bits bits' : List Bool} (hlen : bits.length = bits'.length)
    (h8 : bits.length ≤ 8) (h : packBits bits = packBits bits') : bits = bits' := by
  have hdigit : ∀ (l : List Bool), ∀ d ∈ l.map Bool.toNat, d < 2 := by
    intro l d hd
    obtain ⟨b, -, rfl⟩ := List.mem_map.1 hd
    exact Bool.toNat_lt b
  have hlt : ∀ l : List Bool, l.length ≤ 8 → Nat.ofDigits 2 (l.map Bool.toNat) < 2 ^ 8 := by
    intro l hl
    have hpow := Nat.ofDigits_lt_base_pow_length (b := 2) one_lt_two (hdigit l)
    rw [List.length_map] at hpow
    exact hpow.trans_le (Nat.pow_le_pow_right two_pos hl)
  have hnat := congrArg UInt8.toNat h
  rw [packBits, packBits, UInt8.toNat_ofNat_of_lt' (hlt _ h8),
    UInt8.toNat_ofNat_of_lt' (hlt _ (hlen ▸ h8))] at hnat
  have hmap := Nat.ofDigits_inj_of_len_eq one_lt_two (by simpa using hlen) (hdigit bits)
    (hdigit bits') hnat
  exact List.map_injective_iff.2 (fun a b => by cases a <;> cases b <;> simp) hmap

/-- The buttons the reply has a bit for. -/
def mappedButtons (b : ButtonStatus) : List Bool :=
  [b.yButton, b.xButton, b.bButton, b.aButton, b.rButton, b.rzButton, b.minusButton, b.rStick,
    b.lStick, b.homeButton, b.shareButton, b.downButton, b.upButton, b.rightButton, b.leftButton,
    b.lButton, b.lzButton]

theorem buttonBytes_inj (b c : ButtonStatus) :
    buttonBytes b = buttonBytes c ↔ mappedButtons b = mappedButtons c := by
  refine ⟨?_, ?_⟩
  · intro h
    simp only [buttonBytes, List.cons.injEq, and_true] at h
    obtain ⟨h1, h2, h3⟩ := h
    have hb1 := packBits_inj (by rfl) (by simp) h1
    have hb2 := packBits_inj (by rfl) (by simp) h2
    have hb3 : b.homeButton = c.homeButton := by
      cases hb : b.homeButton <;> cases hc : c.homeButton <;> simp [hb, hc, boolByte] at h3 ⊢
    simp_all [mappedButtons]
  · intro h
    simp only [mappedButtons, List.cons.injEq, and_true] at h
    simp [buttonBytes, h]

/-- The reply's button bytes and home byte tell just the buttons that have a bit. -/
theorem bytesAt_buttons_eq_iff {stack₁ stack₂ : Stack} {srv₁ srv₂ : DsuServer} {i : ℕ}
    {status₁ status₂ : InputStatus} (hi₁ : i < srv₁.controllerManager.controllers.length)
    (hstatus₁ : srv₁.controllerManager.lastInputStates[i]? = some status₁)
    (hi₂ : i < srv₂.controllerManager.controllers.length)
    (hstatus₂ : srv₂.controllerManager.lastInputStates[i]? = some status₂) :
    bytesAt (srv₁.buildControllerDataResponse stack₁ i).1.serialize 16 3
        = bytesAt (srv₂.buildControllerDataResponse stack₂ i).1.serialize 16 3
      ↔ mappedButtons status₁.buttons = mappedButtons status₂.buttons := by
  have hdata₁ := srv₁.buildControllerDataResponse_data stack₁ hi₁ hstatus₁
  have hdata₂ := srv₂.buildControllerDataResponse_data stack₂ hi₂ hstatus₂
  rw [ControllersDataResponse.bytesAt_buttons, ControllersDataResponse.bytesAt_buttons,
    hdata₁.buttons, hdata₁.home, hdata₂.buttons, hdata₂.home, mapButtons_eq, mapButtons_eq,
    buttonBytes_inj]

/-- A server whose one controller has reported `status`. -/
def serving (status : InputStatus) : DsuServer := ⟨⟨[⟨5, some ⟨0⟩⟩], [status]⟩, 7, 0⟩

def pressing (buttons : ButtonStatus) : InputStatus := { InputStatus.zero with buttons := buttons }

theorem bytesAt_buttons_eq_iff_home :
    bytesAt ((serving .zero).buildControllerDataResponse (.filled 0) 0).1.serialize 16 3
        = bytesAt ((serving (pressing { InputStatus.zero.buttons with
          homeButton := true })).buildControllerDataResponse (.filled 0) 0).1.serialize 16 3
      ↔ mappedButtons InputStatus.zero.buttons
        = mappedButtons { InputStatus.zero.buttons with homeButton := true } :=
  bytesAt_buttons_eq_iff
    (show 0 < (serving .zero).controllerManager.controllers.length by decide) rfl
    (show 0 < (serving (pressing _)).controllerManager.controllers.length from Nat.one_pos) rfl

/-- The buttons on the controller. -/
def physicalButtons (b : ButtonStatus) : List Bool := b.plusButton :: mappedButtons b

/-- With Plus pressed or not, the reply is the same. -/
theorem not_tells_plus : ∃ b : ButtonStatus,
    physicalButtons b ≠ physicalButtons { b with plusButton := true }
      ∧ ∀ stack, ((serving (pressing b)).buildControllerDataResponse stack 0).1.serialize
        = ((serving (pressing { b with plusButton := true })).buildControllerDataResponse stack
          0).1.serialize :=
  ⟨InputStatus.zero.buttons, by decide, fun _ => rfl⟩

/-- The status with the buttons that `v` says pressed, in the order of `physicalButtons`. -/
def pressed (v : Fin 18 → Bool) : ButtonStatus :=
  ⟨v 1, v 2, v 3, v 4, false, false, v 5, v 6, v 7, v 0, v 8, v 9, v 10, v 11, false, false, v 12,
    v 13, v 14, v 15, false, false, v 16, v 17, 0⟩

theorem physicalButtons_pressed (v : Fin 18 → Bool) : physicalButtons (pressed v) = List.ofFn v :=
  rfl

/-- Two bytes and a flag are too few for eighteen buttons, however they are mapped. -/
theorem not_injective_of_bytes (f : ButtonStatus → UInt8 × UInt8 × Bool) :
    ∃ b c, f b = f c ∧ physicalButtons b ≠ physicalButtons c := by
  by_contra! h
  have hinj : Function.Injective fun v : Fin 18 → Bool =>
      ((f (pressed v)).1.toFin, (f (pressed v)).2.1.toFin, (f (pressed v)).2.2) := by
    intro v v' heq
    simp only [Prod.mk.injEq, UInt8.toFin_inj] at heq
    have hbuttons := h (pressed v) (pressed v') (Prod.ext heq.1 (Prod.ext heq.2.1 heq.2.2))
    rw [physicalButtons_pressed, physicalButtons_pressed] at hbuttons
    exact List.ofFn_injective hbuttons
  have hcard := Fintype.card_le_of_injective _ hinj
  simp [UInt8.size] at hcard

end ProConDSU
