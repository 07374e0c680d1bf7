import Mathlib.Data.List.Infix
import ProConDSU.Lib.Run

/-!
# Linearizations

A history of operations that take time, each from its call to its return, among effects that take
none. `Linearizes` says that a sequence in which each operation is one event accounts for the
history at its every moment: whatever has returned has its event by then, with that result, and
whatever has an event has been called. So each operation's event stands between its call and its
return, and among the effects where the history has them. A system that another one can stand
beside, taking each operation at once, has a linearization of its every run (`Run.linearized`).
-/

/-- What the events of a history and of a sequence say: operations called, done or returned from,
and effects. -/
structure Interface (ε φ κ ρ γ : Type) where
  call : ε → Option κ
  ret : ε → Option ρ
  effect : ε → Option γ
  op : φ → Option κ
  res : φ → Option ρ
  shown : φ → Option γ

namespace Interface

variable {ε φ κ ρ γ : Type} (I : Interface ε φ κ ρ γ)

/-- The sequence is where the history is. -/
structure Agrees (es : List ε) (fs : List φ) : Prop where
  called : fs.filterMap I.op <+: es.filterMap I.call
  returned : es.filterMap I.ret <+: fs.filterMap I.res
  effects : es.filterMap I.effect = fs.filterMap I.shown

def Linearizes (es : List ε) (fs : List φ) : Prop :=
  ∀ pre, pre <+: es → ∃ gs, gs <+: fs ∧ I.Agrees pre gs

/-- Of the operations called, the sequence has all but `rest`, and of those all but `left` have
returned. -/
structure Behind (es : List ε) (fs : List φ) (rest : List κ) (left : List ρ) : Prop where
  called : es.filterMap I.call = fs.filterMap I.op ++ rest
  returned : fs.filterMap I.res = es.filterMap I.ret ++ left
  effects : es.filterMap I.effect = fs.filterMap I.shown

variable {I}

theorem Linearizes.nil : I.Linearizes [] [] := by
  intro pre hpre
  rw [List.prefix_nil.1 hpre]
  exact ⟨[], List.nil_prefix, List.nil_prefix, List.nil_prefix, rfl⟩

/-- Another moment, which `gs` is for. -/
theorem Linearizes.concat {es : List ε} {fs : List φ} (h : I.Linearizes es fs) {e : ε}
    {gs : List φ} (hnow : I.Agrees (es ++ [e]) (fs ++ gs)) :
    I.Linearizes (es ++ [e]) (fs ++ gs) := by
  intro pre hpre
  rcases List.prefix_concat_iff.1 hpre with rfl | hold
  · exact ⟨fs ++ gs, List.prefix_refl _, hnow⟩
  · obtain ⟨hs, hhs, hagrees⟩ := h pre hold
    exact ⟨hs, hhs.trans (List.prefix_append ..), hagrees⟩

theorem Behind.nil : I.Behind [] [] [] [] := ⟨rfl, rfl, rfl⟩

theorem Behind.agrees {es : List ε} {fs : List φ} {rest : List κ} {left : List ρ}
    (h : I.Behind es fs rest left) : I.Agrees es fs where
  called := ⟨rest, h.called.symm⟩
  returned := ⟨left, h.returned.symm⟩
  effects := h.effects

theorem filterMap_single {β : Type} (f : ε → Option β) (e : ε) :
    [e].filterMap f = (f e).toList := by
  rcases h : f e with _ | b <;> simp [h]

/-- The history goes on with `e`, and the sequence with `gs`. -/
theorem Behind.step {es : List ε} {fs gs : List φ} {e : ε} {rest rest' : List κ}
    {left left' : List ρ} (h : I.Behind es fs rest left)
    (hcalled : rest ++ (I.call e).toList = gs.filterMap I.op ++ rest')
    (hreturned : left ++ gs.filterMap I.res = (I.ret e).toList ++ left')
    (heffects : (I.effect e).toList = gs.filterMap I.shown) :
    I.Behind (es ++ [e]) (fs ++ gs) rest' left' where
  called := by
    rw [List.filterMap_append, List.filterMap_append, filterMap_single, h.called, List.append_assoc,
      hcalled, List.append_assoc]
  returned := by
    rw [List.filterMap_append, List.filterMap_append, filterMap_single, h.returned,
      List.append_assoc, hreturned, List.append_assoc]
  effects := by
    rw [List.filterMap_append, List.filterMap_append, filterMap_single, h.effects, heffects]

end Interface

/-- Where a system, `R` beside another, goes on so with none or some steps for each step of the
other, and their events agree, it has a linearization of any run. -/
theorem Run.linearized {ε φ κ ρ γ σ τ : Type} {I : Interface ε φ κ ρ γ} {step : σ → ε → σ → Prop}
    {step' : τ → φ → τ → Prop} (R : List ε → List φ → σ → τ → Prop)
    (hagrees : ∀ es fs s t, R es fs s t → I.Agrees es fs)
    (hstep : ∀ es fs s t e s', R es fs s t → step s e s' →
      ∃ gs t', Run step' t gs t' ∧ R (es ++ [e]) (fs ++ gs) s' t')
    {s s' : σ} {t : τ} {es : List ε} (h : Run step s es s') (h0 : R [] [] s t) :
    ∃ fs t', Run step' t fs t' ∧ I.Linearizes es fs ∧ R es fs s' t' := by
  refine Run.history (fun es s' => ∃ fs t', Run step' t fs t' ∧ I.Linearizes es fs
    ∧ R es fs s' t') h ⟨[], t, .nil t, .nil, h0⟩ ?_
  rintro es s e s' ⟨fs, t', hrun, hlinear, hR⟩ hs
  obtain ⟨gs, t'', hrun', hR'⟩ := hstep es fs s t' e s' hR hs
  exact ⟨fs ++ gs, t'', hrun.append hrun', hlinear.concat (hagrees _ _ _ _ hR'), hR'⟩
