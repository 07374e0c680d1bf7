import ProConDSU.Lib.Fair
import ProConDSU.Lib.Latch

/-!
# Latches in the long run

On a path that is fair to each thread, the mutex comes free again and again, whoever has come to
raise the flag raises it, and then every waiter gets through (`Latch.gets_through`). A sleeper is
woken by the notice: that it may wake of itself is not relied on.
-/

abbrev LatchPath (τ : Type) [DecidableEq τ] : Type :=
  StepPath fun (l : Latch τ) (e : LatchEvent τ) (l' : Latch τ) => l.step e = some l'

namespace Latch

variable {τ : Type} [DecidableEq τ] {l l' : Latch τ} {e : LatchEvent τ} {t u : τ}

/-- The thread that holds the mutex keeps it until it acts. -/
theorem Inv.step_owner (hl : l.Inv) (h : l.step e = some l') (he : e ≠ .acts u)
    (hu : l.owner = some u) : l'.owner = some u ∧ l'.place u = l.place u := by
  have hholds := (hl.owner u).1 hu
  have hplace : l'.place u = l.place u := step_place h he
    (fun hp => by simp [hp, LatchPlace.holds] at hholds)
    (fun hp => by simp [hp, LatchPlace.holds] at hholds)
  exact ⟨((hl.step h).owner u).2 (by rw [hplace, hholds]), hplace⟩

/-- The steps from unlocking that the mutex's owner is, if it has one. -/
def unlockIn (l : Latch τ) : ℕ :=
  match l.owner with
  | none => 0
  | some u => (l.place u).work

omit [DecidableEq τ] in
theorem unlockIn_some (h : l.owner = some u) : l.unlockIn = (l.place u).work := by
  rw [unlockIn, h]

section Live

variable {ρ : LatchPath τ} (hI : ∀ n, (ρ.state n).Inv)
  (hfair : ∀ t, ρ.StronglyFair fun e => e = .acts t)
include hI hfair

/-- The mutex comes free. -/
theorem comes_free : ρ.LeadsTo (fun _ => True) fun l => l.owner = none := by
  refine .of_measure unlockIn fun k m hm => ?_
  rcases howner : (ρ.state m).owner with _ | u
  · exact ⟨m, le_rfl, .inr howner⟩
  have hnext : ∀ l l' : Latch τ, l.Inv → (l.owner = some u ∧ l.unlockIn = k) → l.act u = some l' →
      (True ∧ l'.unlockIn < k) ∨ l'.owner = none := by
    rintro l l' hl ⟨hu, hk⟩ hact
    obtain ⟨l₁, hact₁, hfree | ⟨hu₁, hless⟩⟩ := hl.owner_act hu
    · rw [hact] at hact₁
      cases hact₁
      exact .inr hfree
    · rw [hact] at hact₁
      cases hact₁
      rw [unlockIn_some hu] at hk
      exact .inl ⟨trivial, by rw [unlockIn_some hu₁]; omega⟩
  refine StepPath.LeadsTo.of_weak (P := fun l => l.owner = some u ∧ l.unlockIn = k)
    (Q := fun l => (True ∧ l.unlockIn < k) ∨ l.owner = none)
    (hfair u).weaklyFair hI ?_ ?_ ?_ m ⟨howner, hm.2⟩
  · rintro l e l' hl ⟨hu, hk⟩ hstep
    by_cases he : e = .acts u
    · subst he
      exact .inr (hnext l l' hl ⟨hu, hk⟩ hstep)
    · obtain ⟨hu', hplace⟩ := hl.step_owner hstep he hu
      rw [unlockIn_some hu] at hk
      exact .inl ⟨hu', by rw [unlockIn_some hu', hplace, hk]⟩
  · rintro l hl ⟨hu, -⟩
    obtain ⟨l', hact, -⟩ := hl.owner_act hu
    exact ⟨.acts u, l', rfl, hact⟩
  · rintro l e l' hl hP rfl hstep
    exact hnext l l' hl hP hstep

/-- A thread that can act where it is, if it holds the mutex or finds it free, does. -/
theorem leaves {p : LatchPlace} {C Q : Latch τ → Prop} (hout : p ≠ .outside) (hsleep : p ≠ .asleep)
    (hC : ∀ l e l', C l → l.step e = some l' → C l')
    (hact : ∀ l : Latch τ, C l → l.place t = p → (l.owner = none ∨ p.holds = true) →
      ∃ l', l.act t = some l')
    (hgo : ∀ l l' : Latch τ, C l → l.place t = p → l.act t = some l' → Q l') :
    ρ.LeadsTo (fun l => C l ∧ l.place t = p) Q := by
  have hstep : ∀ (l : Latch τ) (e : LatchEvent τ) (l' : Latch τ), l.Inv → (C l ∧ l.place t = p) →
      l.step e = some l' → (C l' ∧ l'.place t = p) ∨ Q l' := by
    rintro l e l' - ⟨hCl, rfl⟩ hs
    by_cases he : e = .acts t
    · subst he
      exact .inr (hgo l l' hCl rfl hs)
    · exact .inl ⟨hC l e l' hCl hs, step_place hs he hout hsleep⟩
  have hagain : ρ.LeadsTo (fun l => C l ∧ l.place t = p)
      fun l => StepPath.Enabled (fun l e l' => step l e = some l') (· = .acts t) l ∨ Q l := by
    have hable : ∀ l : Latch τ, C l → l.place t = p → (l.owner = none ∨ p.holds = true) →
        StepPath.Enabled (fun l e l' => step l e = some l') (· = .acts t) l := by
      intro l hCl hp hfree
      obtain ⟨l', hl'⟩ := hact l hCl hp hfree
      exact ⟨.acts t, l', rfl, hl'⟩
    by_cases hholds : p.holds = true
    · exact .of_imp fun n hP => .inl (hable _ hP.1 hP.2 (.inr hholds))
    · have hfree : ρ.LeadsTo (fun l => C l ∧ l.place t = p) fun l => l.owner = none :=
        fun m _ => comes_free hI hfair m trivial
      refine (hfree.until_of_steps hI hstep).trans (.of_imp fun n hn => ?_)
      rcases hn with ⟨⟨hCl, hp⟩, hfree⟩ | hQ
      · exact .inl (hable _ hCl hp (.inl hfree))
      · exact .inr hQ
  refine .of_strong (hfair t) hI hstep hagain ?_
  rintro l e l' - ⟨hCl, hp⟩ rfl hs
  exact hgo l l' hCl hp hs

/-- Whoever has come to raise the flag raises it. -/
theorem comes_up : ρ.LeadsTo (fun l => (l.place u).pending = true) fun l => l.raised = true := by
  have hraise : ρ.LeadsTo (fun l => True ∧ l.place u = .raising) fun l => l.raised = true := by
    refine leaves hI hfair (by simp) (by simp) (fun _ _ _ _ _ => trivial) ?_ ?_
    · intro l _ hp _
      exact ⟨_, by rw [act, hp]⟩
    · intro l l' _ hp hact
      simp only [act, hp] at hact
      cases hact
      rfl
  have harrive : ρ.LeadsTo (fun l => True ∧ l.place u = .arriving)
      fun l => True ∧ l.place u = .raising := by
    refine leaves hI hfair (by simp) (by simp) (fun _ _ _ _ _ => trivial) ?_ ?_
    · rintro l - hp (hfree | hholds)
      · exact ⟨l.lock u .raising, by simp only [act, hp, if_pos hfree]⟩
      · cases hholds
    · intro l l' _ hp hact
      simp only [act, hp] at hact
      split_ifs at hact
      cases hact
      exact ⟨trivial, by simp⟩
  intro m hm
  cases hp : (ρ.state m).place u <;> simp [hp, LatchPlace.pending] at hm
  case arriving => exact (harrive.trans hraise) m ⟨trivial, hp⟩
  case raising => exact hraise m ⟨trivial, hp⟩

/-- A waiter that sleeps on a flag that is up is woken, if it does not wake of itself. -/
theorem wakes_up : ρ.LeadsTo (fun l => l.raised = true ∧ l.place t = .asleep)
    fun l => l.raised = true ∧ l.place t = .entering := by
  rintro m ⟨hraised, hasleep⟩
  obtain ⟨u, hu⟩ := (hI m).asleep hraised t hasleep
  have hnotify : ∀ l l' : Latch τ, l.place t = .asleep → l.place u = .notifying →
      l.act u = some l' → l'.place t = .entering := by
    intro l l' ht hnu hact
    have hne : t ≠ u := by
      rintro rfl
      rw [ht] at hnu
      cases hnu
    simp only [act, hnu] at hact
    cases hact
    rw [goto_place, Function.update_of_ne hne]
    show (l.place t).wake = .entering
    rw [ht]
    rfl
  refine StepPath.LeadsTo.of_weak
    (P := fun l => (l.raised = true ∧ l.place t = .asleep) ∧ l.place u = .notifying)
    (Q := fun l => l.raised = true ∧ l.place t = .entering)
    (hfair u).weaklyFair hI ?_ ?_ ?_ m ⟨⟨hraised, hasleep⟩, hu⟩
  · rintro l e l' - ⟨⟨hr, ht⟩, hnu⟩ hstep
    have hr' := step_raised hstep hr
    by_cases heu : e = .acts u
    · subst heu
      exact .inr ⟨hr', hnotify l l' ht hnu hstep⟩
    · have hnu' : l'.place u = .notifying := by
        rw [step_place hstep heu (by simp [hnu]) (by simp [hnu]), hnu]
      have het : e ≠ .acts t := by
        rintro rfl
        simp [step, act, ht] at hstep
      by_cases hwakes : e = .wakes t
      · subst hwakes
        exact .inr ⟨hr', by rw [(stir_place hstep).2.1, Function.update_self]⟩
      · rcases step_others hstep het hwakes (by simp [ht]) with hsame | hwake
        · exact .inl ⟨⟨hr', by rw [hsame, ht]⟩, hnu'⟩
        · exact .inr ⟨hr', by rw [hwake, ht]; rfl⟩
  · rintro l - ⟨-, hnu⟩
    exact ⟨.acts u, l.notifyAll.goto u .leaving, rfl, by simp only [step, act, hnu]⟩
  · rintro l e l' - ⟨⟨hr, ht⟩, hnu⟩ rfl hstep
    exact ⟨step_raised hstep hr, hnotify l l' ht hnu hstep⟩

/-- Once the flag is up, a waiter gets through. -/
theorem gets_through_of_raised :
    ρ.LeadsTo (fun l => l.raised = true ∧ (l.place t).waits = true)
      fun l => l.place t = .through := by
  have hseen : ρ.LeadsTo (fun l => l.raised = true ∧ l.place t = .seen)
      fun l => l.place t = .through := by
    refine leaves hI hfair (by simp) (by simp) (fun _ _ _ hr hs => step_raised hs hr) ?_ ?_
    · intro l _ hp _
      exact ⟨l.unlock t .through, by simp only [act, hp]⟩
    · intro l l' _ hp hact
      simp only [act, hp] at hact
      cases hact
      simp
  have htesting : ρ.LeadsTo (fun l => l.raised = true ∧ l.place t = .testing)
      fun l => l.raised = true ∧ l.place t = .seen := by
    refine leaves hI hfair (by simp) (by simp) (fun _ _ _ hr hs => step_raised hs hr) ?_ ?_
    · intro l hr hp _
      exact ⟨l.goto t .seen, by simp only [act, hp, hr, if_true]⟩
    · intro l l' hr hp hact
      simp only [act, hp, hr, if_true] at hact
      cases hact
      exact ⟨hr, by simp⟩
  have hentering : ρ.LeadsTo (fun l => l.raised = true ∧ l.place t = .entering)
      fun l => l.raised = true ∧ l.place t = .testing := by
    refine leaves hI hfair (by simp) (by simp) (fun _ _ _ hr hs => step_raised hs hr) ?_ ?_
    · rintro l - hp (hfree | hholds)
      · exact ⟨l.lock t .testing, by simp only [act, hp, if_pos hfree]⟩
      · cases hholds
    · intro l l' hr hp hact
      simp only [act, hp] at hact
      split_ifs at hact
      cases hact
      exact ⟨hr, by simp⟩
  have hthrough := hentering.trans (htesting.trans hseen)
  rintro m ⟨hr, hwaits⟩
  cases hp : (ρ.state m).place t <;> simp [hp, LatchPlace.waits] at hwaits
  case entering => exact hthrough m ⟨hr, hp⟩
  case testing => exact htesting.trans hseen m ⟨hr, hp⟩
  case asleep => exact (wakes_up hI hfair).trans hthrough m ⟨hr, hp⟩
  case seen => exact hseen m ⟨hr, hp⟩
  case through => exact ⟨m, le_rfl, hp⟩

/-- A waiter gets through once the flag is up or a thread has come to raise it. -/
theorem gets_through : ρ.LeadsTo
    (fun l => (l.place t).waits = true ∧ (l.raised = true ∨ (l.place u).pending = true))
    fun l => l.place t = .through := by
  rintro m ⟨hwaits, hcome⟩
  have hup : ∃ n ≥ m, (ρ.state n).raised = true := by
    rcases hcome with hr | hu
    · exact ⟨m, le_rfl, hr⟩
    · exact comes_up hI hfair m hu
  obtain ⟨n, hn, hr⟩ := hup
  have hwaits' : ((ρ.state n).place t).waits = true :=
    StepPath.stable (P := fun l => (l.place t).waits = true) hI
      (fun _ _ _ _ hw hs => step_waits hs hw) hn hwaits
  obtain ⟨k, hk, hthrough⟩ := gets_through_of_raised hI hfair n ⟨hr, hwaits'⟩
  exact ⟨k, le_trans hn hk, hthrough⟩

end Live

end Latch
