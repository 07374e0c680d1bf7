import Mathlib.Logic.Function.Basic
import ProConDSU.Lib.Run

/-!
# Latches

A flag behind a mutex, with a condition variable: a waiter sleeps until the flag is up, and a raiser
puts it up and wakes whoever sleeps. Any number of threads do either. No two hold the mutex at once,
and none sleeps on a flag that is up but for as long as its raiser has yet to notify (`Latch.Inv`);
so a waiter gets through once somebody has come to raise the flag (`Inv.exists_through`).
-/

/-- Where a thread stands in a wait, or in raising the flag. -/
inductive LatchPlace
  | outside
  /-- About to lock the mutex, for the first time or after a wake. -/
  | entering
  | testing
  | asleep
  /-- Has seen the flag up, and is about to unlock. -/
  | seen
  | through
  | arriving
  | raising
  | notifying
  | leaving
  deriving DecidableEq

namespace LatchPlace

def holds : LatchPlace → Bool
  | testing | seen | raising | notifying | leaving => true
  | outside | entering | asleep | through | arriving => false

/-- Where a thread is only once the flag is up. -/
def knows : LatchPlace → Bool
  | seen | through | notifying | leaving => true
  | outside | entering | testing | asleep | arriving | raising => false

/-- Where a thread is in a wait, or has been through one. -/
def waits : LatchPlace → Bool
  | entering | testing | asleep | seen | through => true
  | outside | arriving | raising | notifying | leaving => false

/-- Where a thread has come to raise the flag, and has not yet. -/
def pending : LatchPlace → Bool
  | arriving | raising => true
  | outside | entering | testing | asleep | seen | through | notifying | leaving => false

/-- The steps that a thread that holds the mutex is from unlocking it, at most. -/
def work : LatchPlace → ℕ
  | raising => 3
  | testing | notifying => 2
  | seen | leaving => 1
  | outside | entering | asleep | through | arriving => 0

def wake (p : LatchPlace) : LatchPlace := if p = asleep then entering else p

theorem work_le (p : LatchPlace) : p.work ≤ 3 := by
  cases p <;> simp [work]

end LatchPlace

structure Latch (τ : Type) where
  owner : Option τ
  raised : Bool
  place : τ → LatchPlace

inductive LatchEvent (τ : Type)
  | waits (t : τ)
  | raises (t : τ)
  /-- Its next step, where it is. -/
  | acts (t : τ)
  /-- A wake nobody asked for. -/
  | wakes (t : τ)

namespace Latch

variable {τ : Type}

def boot : Latch τ := ⟨none, false, fun _ => .outside⟩

def notifyAll (l : Latch τ) : Latch τ := { l with place := fun t => (l.place t).wake }

structure Inv (l : Latch τ) : Prop where
  owner : ∀ t, l.owner = some t ↔ (l.place t).holds = true
  knows : ∀ t, (l.place t).knows = true → l.raised = true
  asleep : l.raised = true → ∀ t, l.place t = .asleep → ∃ u, l.place u = .notifying

theorem boot_inv : (boot : Latch τ).Inv where
  owner t := by simp [boot, LatchPlace.holds]
  knows t := by simp [boot, LatchPlace.knows]
  asleep := by simp [boot]

namespace Inv

variable {l : Latch τ} {t : τ}

/-- No two threads hold the mutex. -/
theorem exclusive (h : l.Inv) {u : τ} (ht : (l.place t).holds = true)
    (hu : (l.place u).holds = true) : t = u := by
  rw [← h.owner] at ht hu
  exact Option.some.inj (ht.symm.trans hu)

/-- While a raiser is yet to notify it holds the mutex, and otherwise no waiter sleeps. -/
theorem not_asleep (h : l.Inv) (hraised : l.raised = true)
    (hnone : ∀ u, l.place u ≠ .notifying) (t : τ) : l.place t ≠ .asleep := fun ht => by
  obtain ⟨u, hu⟩ := h.asleep hraised t ht
  exact hnone u hu

theorem work_pos (h : l.Inv) (ht : l.owner = some t) : 0 < (l.place t).work := by
  have hholds := (h.owner t).1 ht
  cases hp : l.place t <;> simp [hp, LatchPlace.holds, LatchPlace.work] at hholds ⊢

end Inv

variable [DecidableEq τ]

def goto (l : Latch τ) (t : τ) (p : LatchPlace) : Latch τ :=
  { l with place := Function.update l.place t p }

def lock (l : Latch τ) (t : τ) (p : LatchPlace) : Latch τ := { l.goto t p with owner := some t }

def unlock (l : Latch τ) (t : τ) (p : LatchPlace) : Latch τ := { l.goto t p with owner := none }

def begin (l : Latch τ) (t : τ) (p : LatchPlace) : Option (Latch τ) :=
  if l.place t = .outside then some (l.goto t p) else none

def act (l : Latch τ) (t : τ) : Option (Latch τ) :=
  match l.place t with
  | .outside | .asleep | .through => none
  | .entering => if l.owner = none then some (l.lock t .testing) else none
  | .testing => some (if l.raised then l.goto t .seen else l.unlock t .asleep)
  | .seen => some (l.unlock t .through)
  | .arriving => if l.owner = none then some (l.lock t .raising) else none
  | .raising => some { l.goto t .notifying with raised := true }
  | .notifying => some (l.notifyAll.goto t .leaving)
  | .leaving => some (l.unlock t .outside)

def stir (l : Latch τ) (t : τ) : Option (Latch τ) :=
  if l.place t = .asleep then some (l.goto t .entering) else none

def step (l : Latch τ) : LatchEvent τ → Option (Latch τ)
  | .waits t => l.begin t .entering
  | .raises t => l.begin t .arriving
  | .acts t => l.act t
  | .wakes t => l.stir t

section Fields

variable (l : Latch τ) (t : τ) (p : LatchPlace)

@[simp] theorem goto_owner : (l.goto t p).owner = l.owner := rfl
@[simp] theorem goto_raised : (l.goto t p).raised = l.raised := rfl
@[simp] theorem goto_place : (l.goto t p).place = Function.update l.place t p := rfl
@[simp] theorem lock_owner : (l.lock t p).owner = some t := rfl
@[simp] theorem lock_raised : (l.lock t p).raised = l.raised := rfl
@[simp] theorem lock_place : (l.lock t p).place = Function.update l.place t p := rfl
@[simp] theorem unlock_owner : (l.unlock t p).owner = none := rfl
@[simp] theorem unlock_raised : (l.unlock t p).raised = l.raised := rfl
@[simp] theorem unlock_place : (l.unlock t p).place = Function.update l.place t p := rfl

end Fields

namespace Inv

variable {l l' : Latch τ} {t : τ} {p : LatchPlace}

/-- Whoever was yet to notify still is, if it is not the thread that moved. -/
theorem asleep_update (h : l.Inv) (hsleep : p = .asleep → l.raised = false)
    (hnotify : l.place t ≠ .notifying) (hraised : l.raised = true) (u : τ)
    (hu : Function.update l.place t p u = .asleep) :
    ∃ v, Function.update l.place t p v = .notifying := by
  have hne : u ≠ t := by
    rintro rfl
    rw [Function.update_self] at hu
    rw [hsleep hu] at hraised
    cases hraised
  rw [Function.update_of_ne hne] at hu
  obtain ⟨v, hv⟩ := h.asleep hraised u hu
  have hvt : v ≠ t := by
    rintro rfl
    exact hnotify hv
  exact ⟨v, by rw [Function.update_of_ne hvt, hv]⟩

theorem knows_update (h : l.Inv) (hknows : p.knows = true → l.raised = true) (u : τ)
    (hu : (Function.update l.place t p u).knows = true) : l.raised = true := by
  rw [Function.update_apply] at hu
  split_ifs at hu with hut
  · exact hknows hu
  · exact h.knows u hu

/-- A thread moves on without touching the mutex. -/
theorem goto (h : l.Inv) (hholds : p.holds = (l.place t).holds)
    (hknows : p.knows = true → l.raised = true) (hsleep : p = .asleep → l.raised = false)
    (hnotify : l.place t ≠ .notifying) : (l.goto t p).Inv where
  owner u := by
    rw [goto_owner, goto_place, Function.update_apply, h.owner u]
    split_ifs with hut
    · rw [hut, hholds]
    · rfl
  knows := h.knows_update hknows
  asleep := h.asleep_update hsleep hnotify

theorem lock (h : l.Inv) (hfree : l.owner = none) (hholds : p.holds = true)
    (hknows : p.knows = true → l.raised = true) : (l.lock t p).Inv where
  owner u := by
    rw [lock_owner, lock_place, Function.update_apply]
    split_ifs with hut
    · simp [hut, hholds]
    · rw [← h.owner u, hfree]
      simpa using fun htu => hut htu.symm
  knows := h.knows_update hknows
  asleep := by
    refine h.asleep_update (fun hp => ?_) fun ht => ?_
    · rw [hp] at hholds
      cases hholds
    · have hown := (h.owner t).2 (by rw [ht]; rfl)
      rw [hfree] at hown
      cases hown

theorem unlock (h : l.Inv) (hheld : (l.place t).holds = true) (hholds : p.holds = false)
    (hknows : p.knows = true → l.raised = true) (hsleep : p = .asleep → l.raised = false)
    (hnotify : l.place t ≠ .notifying) : (l.unlock t p).Inv where
  owner u := by
    rw [unlock_owner, unlock_place, Function.update_apply]
    split_ifs with hut
    · simp [hholds]
    · exact ⟨nofun, fun hu => absurd (h.exclusive hu hheld) hut⟩
  knows := h.knows_update hknows
  asleep := h.asleep_update hsleep hnotify

theorem raise (h : l.Inv) (ht : l.place t = .raising) :
    ({ l.goto t .notifying with raised := true } : Latch τ).Inv where
  owner u := by
    rw [goto_owner, goto_place, Function.update_apply, h.owner u]
    split_ifs with hut
    · rw [hut, ht]
      rfl
    · rfl
  knows _ _ := rfl
  asleep _ _ _ := ⟨t, Function.update_self ..⟩

theorem notify (h : l.Inv) (ht : l.place t = .notifying) :
    (l.notifyAll.goto t .leaving).Inv where
  owner u := by
    show l.owner = some u ↔ _
    rw [goto_place, Function.update_apply, h.owner u]
    split_ifs with hut
    · rw [hut, ht]
      rfl
    · cases hp : l.place u <;> simp [notifyAll, hp, LatchPlace.wake, LatchPlace.holds]
  knows _ _ := h.knows t (by rw [ht]; rfl)
  asleep _ u hu := by
    rw [goto_place, Function.update_apply] at hu
    split_ifs at hu with hut
    cases hp : l.place u <;> simp [notifyAll, hp, LatchPlace.wake] at hu

theorem act (h : l.Inv) (hact : l.act t = some l') : l'.Inv := by
  cases ht : l.place t <;> simp only [Latch.act, ht] at hact
  case outside | asleep | through => cases hact
  case entering =>
    split_ifs at hact with hfree
    cases hact
    exact h.lock hfree rfl (by simp [LatchPlace.knows])
  case testing =>
    cases hact
    split_ifs with hraised
    · exact h.goto (by rw [ht]; rfl) (fun _ => hraised) (by simp) (by simp [ht])
    · exact h.unlock (by rw [ht]; rfl) rfl (by simp [LatchPlace.knows])
        (fun _ => by simpa using hraised) (by simp [ht])
  case seen =>
    cases hact
    exact h.unlock (by rw [ht]; rfl) rfl (fun _ => h.knows t (by rw [ht]; rfl)) (by simp)
      (by simp [ht])
  case arriving =>
    split_ifs at hact with hfree
    cases hact
    exact h.lock hfree rfl (by simp [LatchPlace.knows])
  case raising =>
    cases hact
    exact h.raise ht
  case notifying =>
    cases hact
    exact h.notify ht
  case leaving =>
    cases hact
    exact h.unlock (by rw [ht]; rfl) rfl (by simp [LatchPlace.knows]) (by simp) (by simp [ht])

theorem begin (h : l.Inv) (hbegin : l.begin t p = some l') (hholds : p.holds = false)
    (hknows : p.knows = false) (hsleep : p ≠ .asleep) : l'.Inv := by
  unfold Latch.begin at hbegin
  split_ifs at hbegin with ht
  cases hbegin
  exact h.goto (by rw [ht, hholds]; rfl) (by simp [hknows]) (fun hp => absurd hp hsleep)
    (by simp [ht])

theorem stir (h : l.Inv) (hstir : l.stir t = some l') : l'.Inv := by
  unfold Latch.stir at hstir
  split_ifs at hstir with ht
  cases hstir
  exact h.goto (by rw [ht]; rfl) (by simp [LatchPlace.knows]) (by simp) (by simp [ht])

theorem step (h : l.Inv) {e : LatchEvent τ} (hstep : l.step e = some l') : l'.Inv := by
  cases e with
  | waits t => exact h.begin hstep rfl rfl (by simp)
  | raises t => exact h.begin hstep rfl rfl (by simp)
  | acts t => exact h.act hstep
  | wakes t => exact h.stir hstep

end Inv

variable {l l' : Latch τ} {t u : τ} {ts : List τ} {e : LatchEvent τ}

theorem begin_place {p : LatchPlace} (hbegin : l.begin t p = some l') :
    l'.place = Function.update l.place t p ∧ l'.raised = l.raised := by
  unfold begin at hbegin
  split_ifs at hbegin
  cases hbegin
  exact ⟨rfl, rfl⟩

theorem stir_place (hstir : l.stir t = some l') : l.place t = .asleep
    ∧ l'.place = Function.update l.place t .entering ∧ l'.raised = l.raised := by
  unfold stir at hstir
  split_ifs at hstir with ht
  cases hstir
  exact ⟨ht, rfl, rfl⟩

theorem act_raised (hact : l.act t = some l') (h : l.raised = true) : l'.raised = true := by
  cases ht : l.place t <;> simp only [act, ht, h, if_true] at hact
  case outside | asleep | through => cases hact
  case entering | arriving =>
    split_ifs at hact
    cases hact
    exact h
  case raising =>
    cases hact
    rfl
  case testing | seen | notifying | leaving =>
    cases hact
    exact h

theorem step_raised (h : l.step e = some l') (hraised : l.raised = true) : l'.raised = true := by
  cases e with
  | acts t => exact act_raised h hraised
  | waits t | raises t => rw [(begin_place h).2, hraised]
  | wakes t => rw [(stir_place h).2.2, hraised]

theorem raising_of_act (hact : l.act t = some l') (h : l'.raised = true) :
    l.raised = true ∨ l.place t = .raising := by
  cases ht : l.place t <;> simp only [act, ht] at hact
  case outside | asleep | through => cases hact
  case entering | arriving =>
    split_ifs at hact
    cases hact
    exact .inl h
  case testing =>
    cases hact
    split_ifs at h <;> exact .inl h
  case raising => exact .inr rfl
  case seen | notifying | leaving =>
    cases hact
    exact .inl h

/-- Only a raiser raises the flag. -/
theorem raising_of_step (h : l.step e = some l') (hraised : l'.raised = true) :
    l.raised = true ∨ ∃ t, l.place t = .raising := by
  cases e with
  | acts t => exact (raising_of_act h hraised).imp_right fun ht => ⟨t, ht⟩
  | waits t | raises t => exact .inl ((begin_place h).2 ▸ hraised)
  | wakes t => exact .inl ((stir_place h).2.2 ▸ hraised)

/-- What the other threads see of a step: they stay where they are, but that sleepers may wake. -/
theorem act_others (hact : l.act t = some l') (hu : u ≠ t) :
    l'.place u = l.place u ∨ l'.place u = (l.place u).wake := by
  cases ht : l.place t <;> simp only [act, ht] at hact
  case outside | asleep | through => cases hact
  case entering | arriving =>
    split_ifs at hact
    cases hact
    exact .inl (Function.update_of_ne hu ..)
  case testing =>
    cases hact
    split_ifs <;> exact .inl (Function.update_of_ne hu ..)
  case notifying =>
    cases hact
    exact .inr (Function.update_of_ne hu ..)
  case seen | raising | leaving =>
    cases hact
    exact .inl (Function.update_of_ne hu ..)

theorem step_others (h : l.step e = some l') (he : e ≠ .acts u) (hwakes : e ≠ .wakes u)
    (hu : l.place u ≠ .outside) :
    l'.place u = l.place u ∨ l'.place u = (l.place u).wake := by
  cases e with
  | acts t => exact act_others h fun hut => he (by rw [hut])
  | wakes t =>
    rw [(stir_place h).2.1, Function.update_of_ne fun hut => hwakes (by rw [hut])]
    exact .inl rfl
  | waits t | raises t =>
    have hne : u ≠ t := by
      rintro rfl
      simp [step, begin, hu] at h
    rw [(begin_place h).1, Function.update_of_ne hne]
    exact .inl rfl

/-- A thread that is in no sleep stays where it is until it acts. -/
theorem step_place (h : l.step e = some l') (he : e ≠ .acts u) (hout : l.place u ≠ .outside)
    (hsleep : l.place u ≠ .asleep) : l'.place u = l.place u := by
  have hwakes : e ≠ .wakes u := by
    rintro rfl
    exact hsleep (stir_place h).1
  rcases step_others h he hwakes hout with hsame | hwake
  · exact hsame
  · rw [hwake, LatchPlace.wake, if_neg hsleep]

theorem step_through (h : l.step e = some l') (hu : l.place u = .through) :
    l'.place u = .through := by
  have he : e ≠ .acts u := by
    rintro rfl
    simp [step, act, hu] at h
  rw [step_place h he (by simp [hu]) (by simp [hu]), hu]

/-- A thread that is outside stays there until it comes to wait or to raise the flag. -/
theorem step_outside (h : l.step e = some l') (hwaits : e ≠ .waits u) (hraises : e ≠ .raises u)
    (hu : l.place u = .outside) : l'.place u = .outside := by
  cases e with
  | acts t =>
    have hne : u ≠ t := by
      rintro rfl
      simp [step, act, hu] at h
    rcases act_others h hne with hsame | hwake
    · rw [hsame, hu]
    · rw [hwake, hu]
      rfl
  | wakes t =>
    have hne : u ≠ t := by
      rintro rfl
      rw [(stir_place h).1] at hu
      cases hu
    rw [(stir_place h).2.1, Function.update_of_ne hne, hu]
  | waits t => rw [(begin_place h).1, Function.update_of_ne fun hut => hwaits (by rw [hut]), hu]
  | raises t => rw [(begin_place h).1, Function.update_of_ne fun hut => hraises (by rw [hut]), hu]

theorem act_pending (hact : l.act u = some l') (hu : (l.place u).pending = true) :
    l'.raised = true ∨ (l'.place u).pending = true := by
  cases hp : l.place u <;> simp [hp, LatchPlace.pending] at hu <;> simp only [act, hp] at hact
  case raising =>
    cases hact
    exact .inl rfl
  case arriving =>
    split_ifs at hact
    cases hact
    exact .inr (by simp [LatchPlace.pending])

/-- A thread that has come to raise the flag has yet to until it is up. -/
theorem step_pending (h : l.step e = some l') (hu : (l.place u).pending = true) :
    l'.raised = true ∨ (l'.place u).pending = true := by
  by_cases he : e = .acts u
  · subst he
    exact act_pending h hu
  · right
    rw [step_place h he (fun hp => by simp [hp, LatchPlace.pending] at hu)
      (fun hp => by simp [hp, LatchPlace.pending] at hu), hu]

theorem act_waits (hact : l.act t = some l') (u : τ) :
    (l'.place u).waits = (l.place u).waits := by
  by_cases hu : u = t
  · subst hu
    cases hp : l.place u <;> simp only [act, hp] at hact
    case outside | asleep | through => cases hact
    case entering | arriving =>
      split_ifs at hact
      cases hact
      simp [LatchPlace.waits]
    case testing =>
      cases hact
      split_ifs <;> simp [LatchPlace.waits]
    case seen | raising | notifying | leaving =>
      cases hact
      simp [LatchPlace.waits]
  · rcases act_others hact hu with h | h
    · rw [h]
    · rw [h]
      cases l.place u <;> rfl

theorem step_waits (h : l.step e = some l') (hu : (l.place u).waits = true) :
    (l'.place u).waits = true := by
  by_cases he : e = .acts u
  · subst he
    rw [act_waits h, hu]
  by_cases hwakes : e = .wakes u
  · subst hwakes
    rw [(stir_place h).2.1, Function.update_self]
    rfl
  · have hout : l.place u ≠ .outside := fun hp => by simp [hp, LatchPlace.waits] at hu
    rcases step_others h he hwakes hout with hsame | hwake
    · rw [hsame, hu]
    · rw [hwake]
      cases hp : l.place u <;> simp [hp, LatchPlace.waits, LatchPlace.wake] at hu ⊢

/-- Threads act in turn. -/
abbrev Acts (l : Latch τ) (ts : List τ) (l' : Latch τ) : Prop :=
  Run (fun l t l' => act l t = some l') l ts l'

theorem Acts.inv (h : l.Acts ts l') (hl : l.Inv) : l'.Inv :=
  Run.invariant Inv h hl fun _ _ _ ha hact => ha.act hact

theorem Acts.raised (h : l.Acts ts l') (hl : l.raised = true) : l'.raised = true :=
  Run.invariant (fun l => l.raised = true) h hl fun _ _ _ ha hact => act_raised hact ha

theorem Acts.waits (h : l.Acts ts l') (t : τ) : (l'.place t).waits = (l.place t).waits :=
  Run.invariant (fun l' => (l'.place t).waits = (l.place t).waits) h rfl
    fun _ _ _ ha hact => (act_waits hact t).trans ha

namespace Inv

/-- A thread that holds the mutex can act, and is then nearer to unlocking it. -/
theorem owner_act (h : l.Inv) (hu : l.owner = some u) : ∃ l', l.act u = some l'
    ∧ (l'.owner = none ∨ (l'.owner = some u ∧ (l'.place u).work < (l.place u).work)) := by
  have hholds := (h.owner u).1 hu
  cases hp : l.place u <;> rw [hp] at hholds <;> try cases hholds
  case testing =>
    by_cases hraised : l.raised
    · exact ⟨l.goto u .seen, by simp [Latch.act, hp, hraised], .inr ⟨hu, by simp [LatchPlace.work]⟩⟩
    · exact ⟨l.unlock u .asleep, by simp [Latch.act, hp, hraised], .inl rfl⟩
  case seen => exact ⟨l.unlock u .through, by simp [Latch.act, hp], .inl rfl⟩
  case raising =>
    exact ⟨{ l.goto u .notifying with raised := true }, by simp [Latch.act, hp],
      .inr ⟨hu, by simp [LatchPlace.work]⟩⟩
  case notifying =>
    exact ⟨l.notifyAll.goto u .leaving, by simp [Latch.act, hp],
      .inr ⟨hu, by simp [LatchPlace.work]⟩⟩
  case leaving => exact ⟨l.unlock u .outside, by simp [Latch.act, hp], .inl rfl⟩

/-- The mutex comes free, and whoever had yet to lock it to raise the flag still has. -/
theorem exists_free (n : ℕ) : ∀ {l : Latch τ}, l.Inv →
    (∀ u, l.owner = some u → (l.place u).work ≤ n) →
    ∃ ts l', l.Acts ts l' ∧ l'.owner = none ∧ ts.length ≤ n
      ∧ ∀ v, l.place v = .arriving → l'.place v = .arriving := by
  induction n with
  | zero =>
    intro l h hn
    refine ⟨[], l, .nil l, ?_, Nat.le_refl _, fun _ hv => hv⟩
    rcases howner : l.owner with _ | u
    · rfl
    · have hwork := h.work_pos howner
      have hle := hn u howner
      omega
  | succ n ih =>
    intro l h hn
    rcases howner : l.owner with _ | u
    · exact ⟨[], l, .nil l, howner, Nat.zero_le _, fun _ hv => hv⟩
    obtain ⟨l₁, hact, hnext⟩ := h.owner_act howner
    have hkept : ∀ v, l.place v = .arriving → l₁.place v = .arriving := by
      intro v hv
      have hvu : v ≠ u := by
        rintro rfl
        have hholds := (h.owner v).1 howner
        simp [hv, LatchPlace.holds] at hholds
      rcases act_others hact hvu with hsame | hwake
      · rw [hsame, hv]
      · rw [hwake, hv]
        rfl
    rcases hnext with hfree | ⟨hu, hless⟩
    · exact ⟨[u], l₁, .cons hact (.nil l₁), hfree, by simp, hkept⟩
    · have hle := hn u howner
      obtain ⟨ts, l₂, hrun, hfree, hlen, hkept₂⟩ := ih (h.act hact) fun v hv => by
        rw [hu] at hv
        cases hv
        omega
      exact ⟨u :: ts, l₂, .cons hact hrun, hfree, by simpa using hlen,
        fun v hv => hkept₂ v (hkept v hv)⟩

/-- Once the flag is up, a waiter gets through. -/
theorem exists_through_of_raised (h : l.Inv) (hraised : l.raised = true)
    (ht : (l.place t).waits = true) :
    ∃ ts l', l.Acts ts l' ∧ l'.place t = .through ∧ ts.length ≤ 6 := by
  obtain ⟨ts, l₁, hrun, hfree, hlen, -⟩ := h.exists_free 3 fun u _ => (l.place u).work_le
  have h₁ := hrun.inv h
  have hraised₁ := hrun.raised hraised
  have hwaits := (hrun.waits t).trans ht
  have hholds : (l₁.place t).holds ≠ true := fun hp => by
    rw [← h₁.owner t, hfree] at hp
    cases hp
  have hawake := h₁.not_asleep hraised₁ (fun u hu => by
    have hown := (h₁.owner u).2 (by rw [hu]; rfl)
    rw [hfree] at hown
    cases hown) t
  -- with the mutex free and nobody asleep, it is about to lock or already through
  cases hp : l₁.place t <;> simp [hp, LatchPlace.waits, LatchPlace.holds] at hwaits hholds hawake
  case through => exact ⟨ts, l₁, hrun, hp, by omega⟩
  case entering =>
    let l₂ := l₁.lock t .testing
    let l₃ := l₂.goto t .seen
    let l₄ := l₃.unlock t .through
    have hlast : l₁.Acts [t, t, t] l₄ := by
      refine .cons (t := l₂) ?_ (.cons (t := l₃) ?_ (.cons (t := l₄) ?_ (.nil l₄)))
      · simp [Latch.act, hp, hfree, l₂]
      · simp [Latch.act, l₂, l₃, hraised₁]
      · simp [Latch.act, l₃, l₄]
    refine ⟨ts ++ [t, t, t], l₄, hrun.append hlast, by simp [l₄], ?_⟩
    simp only [List.length_append, List.length_cons, List.length_nil]
    omega

/-- A thread that has come to raise the flag raises it. -/
theorem exists_raised (h : l.Inv) (hu : (l.place u).pending = true) :
    ∃ ts l', l.Acts ts l' ∧ l'.raised = true ∧ ts.length ≤ 5 := by
  have hset : ∀ l : Latch τ, l.place u = .raising → l.Acts [u]
      { l.goto u .notifying with raised := true } := fun l hp =>
    .cons (by simp [Latch.act, hp]) (.nil _)
  cases hp : l.place u <;> simp [hp, LatchPlace.pending] at hu
  case raising => exact ⟨[u], _, hset l hp, rfl, by simp⟩
  case arriving =>
    obtain ⟨ts, l₁, hrun, hfree, hlen, hkept⟩ := h.exists_free 3 fun v _ => (l.place v).work_le
    have hlock : l₁.Acts [u] (l₁.lock u .raising) :=
      .cons (by simp [Latch.act, hkept u hp, hfree]) (.nil _)
    refine ⟨ts ++ ([u] ++ [u]), _, hrun.append (hlock.append (hset _ (by simp))), rfl, ?_⟩
    simp only [List.length_append, List.length_cons, List.length_nil]
    omega

/-- A waiter gets through once the flag is up or a thread has come to raise it. -/
theorem exists_through (h : l.Inv) (ht : (l.place t).waits = true)
    (hcome : l.raised = true ∨ ∃ u, (l.place u).pending = true) :
    ∃ ts l', l.Acts ts l' ∧ l'.place t = .through ∧ ts.length ≤ 11 := by
  rcases hcome with hraised | ⟨u, hu⟩
  · obtain ⟨ts, l', hrun, hp, hlen⟩ := h.exists_through_of_raised hraised ht
    exact ⟨ts, l', hrun, hp, by omega⟩
  · obtain ⟨ts, l₁, hrun, hraised, hlen⟩ := h.exists_raised hu
    obtain ⟨ts', l', hrun', hp, hlen'⟩ :=
      (hrun.inv h).exists_through_of_raised hraised ((hrun.waits t).trans ht)
    refine ⟨ts ++ ts', l', hrun.append hrun', hp, ?_⟩
    rw [List.length_append]
    omega

end Inv

end Latch
