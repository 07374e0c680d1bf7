import Mathlib.Data.List.Basic

/-!
# Labelled runs

A run of a step relation is a list of events, each a step from where the last one ended. What holds
at the start of a run and is kept by each step, with the events so far, holds at its end
(`Run.history`). A run that another step relation can follow, step for step, has a run of that
relation beside it (`Run.map`).
-/

/-- The events `es` take `s` to `t`, one step each. -/
inductive Run {σ ε : Type} (step : σ → ε → σ → Prop) : σ → List ε → σ → Prop
  | nil (s : σ) : Run step s [] s
  | cons {s t u : σ} {e : ε} {es : List ε} : step s e t → Run step t es u → Run step s (e :: es) u

namespace Run

variable {σ ε : Type} {step : σ → ε → σ → Prop}

@[simp] theorem nil_iff {s t : σ} : Run step s [] t ↔ s = t := by
  refine ⟨?_, ?_⟩
  · rintro ⟨⟩
    rfl
  · rintro rfl
    exact .nil s

@[simp] theorem cons_iff {s u : σ} {e : ε} {es : List ε} :
    Run step s (e :: es) u ↔ ∃ t, step s e t ∧ Run step t es u := by
  refine ⟨?_, ?_⟩
  · rintro (_ | ⟨h, hr⟩)
    exact ⟨_, h, hr⟩
  · rintro ⟨t, h, hr⟩
    exact .cons h hr

theorem append {s t u : σ} {es fs : List ε} (h : Run step s es t) (h' : Run step t fs u) :
    Run step s (es ++ fs) u := by
  induction h with
  | nil => exact h'
  | cons hs _ ih => exact .cons hs (ih h')

theorem append_iff {s u : σ} {es fs : List ε} :
    Run step s (es ++ fs) u ↔ ∃ t, Run step s es t ∧ Run step t fs u := by
  refine ⟨fun h => ?_, fun ⟨t, h, h'⟩ => h.append h'⟩
  induction es generalizing s with
  | nil => exact ⟨s, .nil s, h⟩
  | cons e es ih =>
    obtain ⟨t, hstep, hrest⟩ := cons_iff.1 h
    obtain ⟨v, hes, hfs⟩ := ih hrest
    exact ⟨v, .cons hstep hes, hfs⟩

/-- What the events so far and the state satisfy at the start, and each step keeps, they satisfy at
the end. -/
theorem history (I : List ε → σ → Prop) {s t : σ} {es : List ε} (h : Run step s es t) (h0 : I [] s)
    (hstep : ∀ fs a e b, I fs a → step a e b → I (fs ++ [e]) b) : I es t := by
  suffices H : ∀ fs, I fs s → I (fs ++ es) t by simpa using H [] h0
  clear h0
  induction h with
  | nil => exact fun fs hI => by simpa using hI
  | cons hs _ ih =>
    intro fs hI
    simpa using ih _ (hstep _ _ _ _ hI hs)

theorem invariant (I : σ → Prop) {s t : σ} {es : List ε} (h : Run step s es t) (h0 : I s)
    (hstep : ∀ a e b, I a → step a e b → I b) : I t :=
  h.history (fun _ => I) h0 fun _ => hstep

/-- Where another system can follow each step, taking the event `f e` for `e`, it has a run beside
any run. -/
theorem map {τ φ : Type} {step' : τ → φ → τ → Prop} (f : ε → φ) (P : ε → Prop) (R : σ → τ → Prop)
    (follow : ∀ s e s' t, P e → R s t → step s e s' → ∃ t', step' t (f e) t' ∧ R s' t')
    {s s' : σ} {es : List ε} (h : Run step s es s') (hP : ∀ e ∈ es, P e) {t : τ} (hR : R s t) :
    ∃ t', Run step' t (es.map f) t' ∧ R s' t' := by
  induction h generalizing t with
  | nil => exact ⟨t, .nil t, hR⟩
  | @cons s u s' e es hstep _ ih =>
    obtain ⟨v, hstep', hRv⟩ := follow s e u t (hP e (List.mem_cons_self ..)) hR hstep
    obtain ⟨t', hrun, hR'⟩ := ih (fun a ha => hP a (List.mem_cons_of_mem _ ha)) hRv
    exact ⟨t', .cons hstep' hrun, hR'⟩

end Run
