import Mathlib.Data.Nat.Basic
import Mathlib.Data.Nat.Init
import ProConDSU.Lib.Run

/-!
# Fair paths

A path is a run without end, at some moments of which nothing happens. Fairness to some of the
events says that they are not passed over for good: while one of them could be taken at every
moment (`WeaklyFair`), or again and again (`StronglyFair`). What a path must come to is
`StepPath.LeadsTo`, from one step of the fair events, and by induction on a measure.
-/

structure StepPath {σ ε : Type} (step : σ → ε → σ → Prop) where
  state : ℕ → σ
  event : ℕ → Option ε
  stays : ∀ n, event n = none → state (n + 1) = state n
  moves : ∀ n e, event n = some e → step (state n) e (state (n + 1))

namespace StepPath

variable {σ ε : Type} {step : σ → ε → σ → Prop}

/-- Before the path, a step. -/
def cons {s t : σ} {e : ε} (h : step s e t) (ρ : StepPath step) (hρ : ρ.state 0 = t) :
    StepPath step where
  state n := match n with
    | 0 => s
    | n + 1 => ρ.state n
  event n := match n with
    | 0 => some e
    | n + 1 => ρ.event n
  stays n hn := match n with
    | 0 => nomatch hn
    | n + 1 => ρ.stays n hn
  moves n a hn := match n with
    | 0 => by
      obtain rfl : e = a := Option.some.inj hn
      show step s e (ρ.state 0)
      rw [hρ]
      exact h
    | n + 1 => ρ.moves n a hn

/-- The path on which nothing happens. -/
def rest (s : σ) : StepPath step := ⟨fun _ => s, fun _ => none, fun _ _ => rfl, nofun⟩

/-- A run, and then nothing. -/
theorem exists_of_run {s t : σ} {es : List ε} (h : Run step s es t) : ∃ ρ : StepPath step,
    ρ.state 0 = s ∧ (∀ i, ρ.event i = es[i]?) ∧ ∀ n ≥ es.length, ρ.state n = t := by
  induction h with
  | nil s => exact ⟨rest s, rfl, fun i => rfl, fun n _ => rfl⟩
  | @cons s t u e es hstep _ ih =>
    obtain ⟨ρ, hstart, hevents, hend⟩ := ih
    refine ⟨ρ.cons hstep hstart, rfl, fun i => ?_, fun n hn => ?_⟩
    · cases i with
      | zero => rfl
      | succ i => exact hevents i
    · cases n with
      | zero => simp at hn
      | succ n => exact hend n (by simpa using hn)

/-- What happens in the first `n` moments. -/
def taken (ρ : StepPath step) (n : ℕ) : List ε := (List.range n).filterMap ρ.event

theorem run_taken (ρ : StepPath step) (n : ℕ) : Run step (ρ.state 0) (ρ.taken n) (ρ.state n) := by
  induction n with
  | zero => exact .nil _
  | succ n ih =>
    rcases he : ρ.event n with _ | e
    · have htaken : ρ.taken (n + 1) = ρ.taken n := by
        simp [taken, List.range_succ, he]
      rw [htaken, ρ.stays n he]
      exact ih
    · have htaken : ρ.taken (n + 1) = ρ.taken n ++ [e] := by
        simp [taken, List.range_succ, he]
      rw [htaken]
      exact ih.append (.cons (ρ.moves n e he) (.nil _))

theorem invariant (ρ : StepPath step) (I : σ → Prop) (h0 : I (ρ.state 0))
    (hstep : ∀ a e b, I a → step a e b → I b) (n : ℕ) : I (ρ.state n) :=
  (ρ.run_taken n).invariant I h0 hstep

def Enabled (step : σ → ε → σ → Prop) (A : ε → Prop) (s : σ) : Prop := ∃ e t, A e ∧ step s e t

section Fairness

variable (ρ : StepPath step) (A : ε → Prop)

def TakenAt (n : ℕ) : Prop := ∃ e, ρ.event n = some e ∧ A e

def WeaklyFair : Prop :=
  ∀ m, (∀ n ≥ m, Enabled step A (ρ.state n)) → ∃ n ≥ m, ρ.TakenAt A n

def StronglyFair : Prop :=
  ∀ m, (∀ n ≥ m, ∃ k ≥ n, Enabled step A (ρ.state k)) → ∃ n ≥ m, ρ.TakenAt A n

end Fairness

variable {ρ : StepPath step} {A : ε → Prop}

theorem StronglyFair.weaklyFair (h : ρ.StronglyFair A) : ρ.WeaklyFair A :=
  fun m hm => h m fun n hn => ⟨n, le_rfl, hm n hn⟩

/-- Where a path has come to an end, nothing is passed over. -/
theorem stronglyFair_of_end {m : ℕ} (h : ∀ n ≥ m, ¬ Enabled step A (ρ.state n)) :
    ρ.StronglyFair A := by
  intro k hk
  obtain ⟨n, hn, henabled⟩ := hk (max k m) (le_max_left k m)
  exact absurd henabled (h n (le_trans (le_max_right k m) hn))

section Project

variable {τ φ : Type} {step' : τ → φ → τ → Prop} (f : σ → τ) (g : ε → Option φ)

/-- What a path is of another system, which takes the steps that `g` makes of its events. -/
def project (ρ : StepPath step) (hquiet : ∀ s e t, step s e t → g e = none → f t = f s)
    (hstep : ∀ s e t a, step s e t → g e = some a → step' (f s) a (f t)) : StepPath step' where
  state n := f (ρ.state n)
  event n := (ρ.event n).bind g
  stays n hn := by
    rcases he : ρ.event n with _ | e
    · rw [ρ.stays n he]
    · rw [he] at hn
      exact hquiet _ e _ (ρ.moves n e he) hn
  moves n a hn := by
    obtain ⟨e, he, ha⟩ := Option.bind_eq_some_iff.1 hn
    exact hstep _ e _ a (ρ.moves n e he) ha

variable {f g} {hquiet : ∀ s e t, step s e t → g e = none → f t = f s}
  {hstep : ∀ s e t a, step s e t → g e = some a → step' (f s) a (f t)}

/-- It is fair to the events that the path's are. -/
theorem StronglyFair.project (h : ρ.StronglyFair A) {B : φ → Prop}
    (henabled : ∀ s, Enabled step' B (f s) → Enabled step A s)
    (htaken : ∀ e, A e → ∃ a, g e = some a ∧ B a) :
    (ρ.project f g hquiet hstep).StronglyFair B := by
  intro m hm
  obtain ⟨n, hn, e, he, hA⟩ := h m fun n hn => by
    obtain ⟨k, hk, hB⟩ := hm n hn
    exact ⟨k, hk, henabled _ hB⟩
  obtain ⟨a, ha, hB⟩ := htaken e hA
  exact ⟨n, hn, a, Option.bind_eq_some_iff.2 ⟨e, he, ha⟩, hB⟩

end Project

section LeadsTo

def LeadsTo (ρ : StepPath step) (P Q : σ → Prop) : Prop :=
  ∀ m, P (ρ.state m) → ∃ n ≥ m, Q (ρ.state n)

variable {P Q R : σ → Prop}

theorem LeadsTo.of_imp (h : ∀ n, P (ρ.state n) → Q (ρ.state n)) : ρ.LeadsTo P Q :=
  fun m hm => ⟨m, le_rfl, h m hm⟩

theorem LeadsTo.trans (h : ρ.LeadsTo P Q) (h' : ρ.LeadsTo Q R) : ρ.LeadsTo P R := by
  intro m hm
  obtain ⟨n, hn, hQ⟩ := h m hm
  obtain ⟨k, hk, hR⟩ := h' n hQ
  exact ⟨k, le_trans hn hk, hR⟩

/-- What every step keeps holds from then on. -/
theorem stable {I : σ → Prop} (hI : ∀ n, I (ρ.state n))
    (hstep : ∀ s e t, I s → P s → step s e t → P t) {m n : ℕ} (hmn : m ≤ n)
    (hm : P (ρ.state m)) : P (ρ.state n) := by
  induction n, hmn using Nat.le_induction with
  | base => exact hm
  | succ n _ ih =>
    rcases he : ρ.event n with _ | e
    · rwa [ρ.stays n he]
    · exact hstep _ e _ (hI n) ih (ρ.moves n e he)

/-- What holds until something comes. -/
theorem until_of_steps {I : σ → Prop} (hI : ∀ n, I (ρ.state n))
    (hstep : ∀ s e t, I s → P s → step s e t → P t ∨ Q t) {m : ℕ} (hm : P (ρ.state m))
    (hnever : ∀ n ≥ m, ¬ Q (ρ.state n)) {n : ℕ} (hmn : m ≤ n) : P (ρ.state n) := by
  induction n, hmn using Nat.le_induction with
  | base => exact hm
  | succ n hn ih =>
    rcases he : ρ.event n with _ | e
    · rwa [ρ.stays n he]
    · exact (hstep _ e _ (hI n) ih (ρ.moves n e he)).resolve_right (hnever _ (by omega))

/-- What `P` leads to comes while `P` still holds, if `Q` does not come first. -/
theorem LeadsTo.until_of_steps {I : σ → Prop} (h : ρ.LeadsTo P R) (hI : ∀ n, I (ρ.state n))
    (hstep : ∀ s e t, I s → P s → step s e t → P t ∨ Q t) :
    ρ.LeadsTo P fun s => (P s ∧ R s) ∨ Q s := by
  intro m hm
  by_cases hQ : ∃ n ≥ m, Q (ρ.state n)
  · obtain ⟨n, hn, hQ⟩ := hQ
    exact ⟨n, hn, .inr hQ⟩
  · obtain ⟨n, hn, hR⟩ := h m hm
    have hnever : ∀ k ≥ m, ¬ Q (ρ.state k) := fun k hk hQk => hQ ⟨k, hk, hQk⟩
    exact ⟨n, hn, .inl ⟨StepPath.until_of_steps hI hstep hm hnever hn, hR⟩⟩

/-- Under strong fairness to `A`, where `A` can be taken again and again until `Q` comes, and brings
it. -/
theorem LeadsTo.of_strong {I : σ → Prop} (hfair : ρ.StronglyFair A) (hI : ∀ n, I (ρ.state n))
    (hstep : ∀ s e t, I s → P s → step s e t → P t ∨ Q t)
    (hagain : ρ.LeadsTo P fun s => Enabled step A s ∨ Q s)
    (hgo : ∀ s e t, I s → P s → A e → step s e t → Q t) : ρ.LeadsTo P Q := by
  intro m hm
  by_contra hno
  have hnever : ∀ n ≥ m, ¬ Q (ρ.state n) := fun n hn hQ => hno ⟨n, hn, hQ⟩
  have hP : ∀ n ≥ m, P (ρ.state n) := fun n hn => StepPath.until_of_steps hI hstep hm hnever hn
  obtain ⟨n, hn, e, he, hA⟩ := hfair m fun n hn => by
    obtain ⟨k, hk, henabled | hQ⟩ := hagain n (hP n hn)
    · exact ⟨k, hk, henabled⟩
    · exact absurd hQ (hnever k (le_trans hn hk))
  exact hnever (n + 1) (by omega) (hgo _ e _ (hI n) (hP n hn) hA (ρ.moves n e he))

/-- Under weak fairness to `A`, where `A` can be taken until `Q` comes, and brings it. -/
theorem LeadsTo.of_weak {I : σ → Prop} (hfair : ρ.WeaklyFair A) (hI : ∀ n, I (ρ.state n))
    (hstep : ∀ s e t, I s → P s → step s e t → P t ∨ Q t)
    (henabled : ∀ s, I s → P s → Enabled step A s)
    (hgo : ∀ s e t, I s → P s → A e → step s e t → Q t) : ρ.LeadsTo P Q := by
  intro m hm
  by_contra hno
  have hnever : ∀ n ≥ m, ¬ Q (ρ.state n) := fun n hn hQ => hno ⟨n, hn, hQ⟩
  have hP : ∀ n ≥ m, P (ρ.state n) := fun n hn => StepPath.until_of_steps hI hstep hm hnever hn
  obtain ⟨n, hn, e, he, hA⟩ := hfair m fun n hn => henabled _ (hI n) (hP n hn)
  exact hnever (n + 1) (by omega) (hgo _ e _ (hI n) (hP n hn) hA (ρ.moves n e he))

/-- By induction on a measure. -/
theorem LeadsTo.of_measure (f : σ → ℕ)
    (h : ∀ k, ρ.LeadsTo (fun s => P s ∧ f s = k) fun s => (P s ∧ f s < k) ∨ Q s) :
    ρ.LeadsTo P Q := by
  suffices H : ∀ k m, P (ρ.state m) → f (ρ.state m) = k → ∃ n ≥ m, Q (ρ.state n) from
    fun m hm => H _ m hm rfl
  intro k
  induction k using Nat.strong_induction_on with
  | _ k ih =>
    intro m hm hk
    obtain ⟨n, hn, ⟨hP, hless⟩ | hQ⟩ := h k m ⟨hm, hk⟩
    · obtain ⟨n', hn', hQ⟩ := ih _ hless n hP rfl
      exact ⟨n', le_trans hn hn', hQ⟩
    · exact ⟨n, hn, hQ⟩

/-- Where each step of `A` brings down what no step brings up, and one can be taken until it is
zero. -/
theorem LeadsTo.of_rank {I : σ → Prop} (hfair : ρ.WeaklyFair A) (hI : ∀ n, I (ρ.state n))
    (f : σ → ℕ) (hstep : ∀ s e t, I s → P s → step s e t → P t ∧ f t ≤ f s)
    (henabled : ∀ s, I s → P s → f s ≠ 0 → Enabled step A s)
    (hless : ∀ s e t, I s → P s → f s ≠ 0 → A e → step s e t → f t < f s) :
    ρ.LeadsTo P fun s => P s ∧ f s = 0 := by
  refine .of_measure f fun k => ?_
  rcases Nat.eq_zero_or_pos k with rfl | hk
  · exact .of_imp fun n hn => .inr hn
  refine .of_weak hfair hI ?_ ?_ ?_
  · rintro s e t hs ⟨hP, hfs⟩ hst
    obtain ⟨hPt, hle⟩ := hstep s e t hs hP hst
    rcases Nat.lt_or_eq_of_le hle with hlt | heq
    · exact .inr (.inl ⟨hPt, hfs ▸ hlt⟩)
    · exact .inl ⟨hPt, heq.trans hfs⟩
  · rintro s hs ⟨hP, hfs⟩
    exact henabled s hs hP (by omega)
  · rintro s e t hs ⟨hP, hfs⟩ hA hst
    have hlt := hless s e t hs hP (by omega) hA hst
    exact .inl ⟨(hstep s e t hs hP hst).1, hfs ▸ hlt⟩

end LeadsTo

end StepPath
