import ProConDSU.Lib.LatchLive
import ProConDSU.Proofs.Shutdown

/-!
# The end of an interrupted process

On a path that is fair to its threads, a process that gets a Ctrl-C returns, whatever else its
threads do and its clients send (`ProcessPath.must_return`). A datagram that terminates the process
is no step, and on no path.
-/

namespace ProConDSU

abbrev ProcessPath (ws : Winsock) : Type :=
  StepPath fun (p : Process) (e : ProcessEvent) (p' : Process) => p.step ws e = .ok (some p')

namespace ProcessEvent

/-- A step of `main` in `main`. -/
def IsMain : ProcessEvent → Prop
  | start | stop | join | destroy | exit => True
  | _ => False

def IsListener : ProcessEvent → Prop
  | listenerChecks | serves _ _ => True
  | _ => False

/-- The step of `mtx`, `cv` and `shutdown_requested` that a step of the process is. -/
def latchEvent : ProcessEvent → Option (LatchEvent Thread)
  | console n dwCtrlType =>
    if consoleCtrlHandler dwCtrlType then some (.raises (.console n)) else none
  | shutdown t => some (.acts t)
  | wakes t => some (.wakes t)
  | start => some (.waits .main)
  | _ => none

end ProcessEvent

/-- No thread is passed over for good. One that finds `mtx` free again and again locks it. That one
wakes of itself is nothing to rely on. -/
structure ProcessPath.Fair {ws : Winsock} (ρ : ProcessPath ws) : Prop where
  shutdown : ∀ t, ρ.StronglyFair fun e => e = .shutdown t
  main : ρ.WeaklyFair ProcessEvent.IsMain
  listener : ρ.WeaklyFair ProcessEvent.IsListener
  updater : ρ.WeaklyFair fun e => e = .updates

/-- Where `main` goes next. -/
def MainAt.next : MainAt → MainAt
  | starting => waiting
  | waiting => joining
  | joining => joined
  | joined => destroying
  | destroying | returned => returned

/-- The steps of its loop that a listener which has been told to stop is from the end. -/
def ListenerAt.left : ListenerAt → ℕ
  | selecting => 2
  | checking => 1
  | unstarted | ended => 0

def UpdaterAt.left : UpdaterAt → ℕ
  | sleeping => 2
  | checking => 1
  | ended => 0

namespace Process

variable {ws : Winsock} {p p' : Process} {e : ProcessEvent}

theorem Moves.main_eq (h : p.Moves ws e p') (he : ¬ e.IsMain) : p'.main = p.main := by
  cases h with
  | start | stop | join | destroy | exit => exact absurd trivial he
  | _ => rfl

theorem Moves.main_next (h : p.Moves ws e p') (he : e.IsMain) : p'.main = p.main.next := by
  cases h with
  | start _ hmain | stop hmain | join hmain | destroy hmain | exit hmain =>
    rw [hmain]
    rfl
  | _ => exact he.elim

theorem Moves.listenStop (h : p.Moves ws e p') (hp : p.listenStop = true) :
    p'.listenStop = true := by
  cases h with
  | stop => rfl
  | _ => exact hp

theorem Moves.updateStop (h : p.Moves ws e p') (hp : p.updateStop = true) :
    p'.updateStop = true := by
  cases h with
  | destroy => rfl
  | _ => exact hp

theorem Moves.ended (h : p.Moves ws e p') (hinv : p.Inv) (hended : p.listener = .ended) :
    p'.listener = .ended := by
  cases h with
  | start l hmain =>
    have hat := hinv.unstarted.2 hmain
    rw [hended] at hat
    cases hat
  | listenerStops => rfl
  | listenerSelects hat | serves _ _ _ hat =>
    rw [hended] at hat
    cases hat
  | _ => exact hended

theorem Moves.updater_ended (h : p.Moves ws e p') (hended : p.updater = .ended) :
    p'.updater = .ended := by
  cases h with
  | updates u hat => exact absurd hended hat
  | _ => exact hended

theorem Moves.listener_left (h : p.Moves ws e p') (hinv : p.Inv) (hstop : p.listenStop = true) :
    p'.listener.left ≤ p.listener.left
      ∧ (e.IsListener → p'.listener.left < p.listener.left) := by
  cases h with
  | start l hmain =>
    rw [hinv.listenStop, hmain] at hstop
    cases hstop
  | listenerStops hat => simp [hat, ListenerAt.left]
  | listenerSelects _ hgo =>
    rw [hgo] at hstop
    cases hstop
  | serves _ _ l hat =>
    rw [hat]
    cases l.running <;> simp [ListenerAt.left]
  | _ => exact ⟨le_rfl, False.elim⟩

theorem listener_enabled (h : p.listener.left ≠ 0) :
    ∃ e p', ProcessEvent.IsListener e ∧ p.step ws e = .ok (some p') := by
  cases hat : p.listener with
  | unstarted | ended =>
    rw [hat] at h
    exact absurd rfl h
  | checking =>
    exact ⟨.listenerChecks, _, trivial, by rw [step, listenerChecks, if_pos hat]⟩
  | selecting =>
    exact ⟨.serves (.filled 0) .timeout, _, trivial, by rw [step, serves, if_pos hat]; rfl⟩

theorem updater_left (h : p.step ws e = .ok (some p')) (hstop : p.updateStop = true) :
    p'.updater.left ≤ p.updater.left
      ∧ (e = .updates → p'.updater.left < p.updater.left) := by
  by_cases he : e = .updates
  · subst he
    cases hat : p.updater <;> simp only [step, updates, hat, hstop, if_true] at h <;> cases h <;>
      simp [UpdaterAt.left]
  · have hsame : p'.updater = p.updater := by
      cases moves_of_step h with
      | updates => exact absurd rfl he
      | _ => rfl
    rw [hsame]
    exact ⟨le_rfl, fun h => absurd h he⟩

theorem updater_enabled (h : p.updater.left ≠ 0) :
    ∃ e p', e = .updates ∧ p.step ws e = .ok (some p') := by
  cases hat : p.updater with
  | ended =>
    rw [hat] at h
    exact absurd rfl h
  | checking => exact ⟨.updates, _, rfl, by rw [step, updates, hat]⟩
  | sleeping => exact ⟨.updates, _, rfl, by rw [step, updates, hat]⟩

theorem Moves.latch_quiet (h : p.Moves ws e p') (he : e.latchEvent = none) :
    p'.shutdown = p.shutdown := by
  cases h with
  | console n dwCtrlType l _ htype => simp [ProcessEvent.latchEvent, htype] at he
  | shutdown | wakes | start => cases he
  | _ => rfl

theorem Moves.latch_step (h : p.Moves ws e p') {a : LatchEvent Thread}
    (he : e.latchEvent = some a) : p.shutdown.step a = some p'.shutdown := by
  cases h with
  | ignored n dwCtrlType _ htype => simp [ProcessEvent.latchEvent, htype] at he
  | console n dwCtrlType l _ htype hl =>
    obtain rfl : .raises (.console n) = a := by simpa [ProcessEvent.latchEvent, htype] using he
    exact hl
  | shutdown t l hl | wakes t l hl | start l _ hl =>
    cases he
    exact hl
  | _ => cases he

end Process

namespace ProcessPath

variable {ws : Winsock} {ρ : ProcessPath ws} {srv : DsuServer}

theorem inv (hboot : ρ.state 0 = .boot srv) (n : ℕ) : (ρ.state n).Inv :=
  ρ.invariant Process.Inv (hboot ▸ Process.boot_inv srv)
    (fun _ _ _ hp hstep => (Process.moves_of_step hstep).inv hp) n

/-- What the path does with the latch. -/
def latch (ρ : ProcessPath ws) : LatchPath Thread :=
  ρ.project Process.shutdown ProcessEvent.latchEvent
    (fun _ _ _ hstep he => (Process.moves_of_step hstep).latch_quiet he)
    fun _ _ _ _ hstep he => (Process.moves_of_step hstep).latch_step he

theorem latch_fair (hfair : ρ.Fair) (t : Thread) : ρ.latch.StronglyFair fun e => e = .acts t := by
  refine (hfair.shutdown t).project ?_ ?_
  · rintro p ⟨e, l, rfl, hact⟩
    refine ⟨.shutdown t, { p with shutdown := l }, rfl, ?_⟩
    simp [Process.step, hact]
  · rintro e rfl
    exact ⟨.acts t, rfl, rfl⟩

/-- An interrupted `main` that waits gets through. -/
theorem gets_through (hboot : ρ.state 0 = .boot srv) (hfair : ρ.Fair) (u : Thread) :
    ρ.LeadsTo (fun p => p.main = .waiting
        ∧ (p.shutdown.raised = true ∨ (p.shutdown.place u).pending = true))
      fun p => p.shutdown.place .main = .through := by
  rintro m ⟨hmain, hcome⟩
  have hI := inv hboot
  have hwaits : ((ρ.state m).shutdown.place .main).waits = true := by
    have hwaiting := (hI m).waiting
    rwa [Process.Waiting, hmain] at hwaiting
  have hlatch : ∀ n, (ρ.latch.state n).Inv := fun n => (hI n).latch
  exact Latch.gets_through hlatch (latch_fair hfair) m ⟨hwaits, hcome⟩

/-- Told to stop, the listener ends. -/
theorem listener_ends (hboot : ρ.state 0 = .boot srv) (hfair : ρ.Fair) :
    ρ.LeadsTo (fun p => p.listenStop = true) fun p => p.listener = .ended := by
  have hrank : ρ.LeadsTo (fun p => p.listenStop = true)
      fun p => p.listenStop = true ∧ p.listener.left = 0 := by
    refine .of_rank hfair.listener (inv hboot) (fun p => p.listener.left) ?_ ?_ ?_
    · intro p e p' hp hstop hstep
      have hmoves := Process.moves_of_step hstep
      exact ⟨hmoves.listenStop hstop, (hmoves.listener_left hp hstop).1⟩
    · intro p _ _ hleft
      exact Process.listener_enabled hleft
    · intro p e p' hp hstop _ he hstep
      exact ((Process.moves_of_step hstep).listener_left hp hstop).2 he
  refine hrank.trans (.of_imp ?_)
  rintro n ⟨hstop, hleft⟩
  have hp := inv hboot n
  cases hat : (ρ.state n).listener with
  | ended => rfl
  | unstarted =>
    rw [hp.listenStop, hp.unstarted.1 hat] at hstop
    cases hstop
  | checking | selecting =>
    rw [hat] at hleft
    cases hleft

/-- And so does the updater. -/
theorem updater_ends (hboot : ρ.state 0 = .boot srv) (hfair : ρ.Fair) :
    ρ.LeadsTo (fun p => p.updateStop = true) fun p => p.updater = .ended := by
  have hrank : ρ.LeadsTo (fun p => p.updateStop = true)
      fun p => p.updateStop = true ∧ p.updater.left = 0 := by
    refine .of_rank hfair.updater (inv hboot) (fun p => p.updater.left) ?_ ?_ ?_
    · intro p e p' _ hstop hstep
      exact ⟨(Process.moves_of_step hstep).updateStop hstop,
        (Process.updater_left hstep hstop).1⟩
    · intro p _ _ hleft
      exact Process.updater_enabled hleft
    · intro p e p' _ hstop _ he hstep
      exact (Process.updater_left hstep hstop).2 he
  refine hrank.trans (.of_imp ?_)
  rintro n ⟨-, hleft⟩
  cases hat : (ρ.state n).updater with
  | ended => rfl
  | checking | sleeping =>
    rw [hat] at hleft
    cases hleft

/-- `main` takes its next step where it can. -/
theorem main_advances (hboot : ρ.state 0 = .boot srv) (hfair : ρ.Fair) (a : MainAt)
    {C : Process → Prop} (hC : ∀ p e p', p.Inv → C p → Process.Moves ws p e p' → C p')
    (henabled : ∀ p, p.Inv → p.main = a → C p → ∃ e p', ProcessEvent.IsMain e
      ∧ Process.step ws p e = .ok (some p')) :
    ρ.LeadsTo (fun p => p.main = a ∧ C p) fun p => p.main = a.next := by
  refine .of_weak hfair.main (inv hboot) ?_ ?_ ?_
  · rintro p e p' hp ⟨hmain, hCp⟩ hstep
    have hmoves := Process.moves_of_step hstep
    by_cases he : e.IsMain
    · exact .inr (by rw [hmoves.main_next he, hmain])
    · exact .inl ⟨by rw [hmoves.main_eq he, hmain], hC p e p' hp hCp hmoves⟩
  · rintro p hp ⟨hmain, hCp⟩
    exact henabled p hp hmain hCp
  · rintro p e p' - ⟨hmain, -⟩ he hstep
    rw [(Process.moves_of_step hstep).main_next he, hmain]

/-- It waits for `C`, which comes where `K` holds, and takes its next step. -/
theorem main_passes (hboot : ρ.state 0 = .boot srv) (hfair : ρ.Fair) (a : MainAt)
    {K C : Process → Prop} (hK : ∀ p e p', K p → Process.Moves ws p e p' → K p')
    (hcomes : ρ.LeadsTo (fun p => p.main = a ∧ K p) C)
    (hC : ∀ p e p', p.Inv → C p → Process.Moves ws p e p' → C p')
    (henabled : ∀ p, p.Inv → p.main = a → C p → ∃ e p', ProcessEvent.IsMain e
      ∧ Process.step ws p e = .ok (some p')) :
    ρ.LeadsTo (fun p => p.main = a ∧ K p) fun p => p.main = a.next := by
  have huntil := hcomes.until_of_steps (Q := fun p => p.main = a.next) (inv hboot) <| by
    rintro p e p' - ⟨hmain, hKp⟩ hstep
    have hmoves := Process.moves_of_step hstep
    by_cases he : e.IsMain
    · exact .inr (by rw [hmoves.main_next he, hmain])
    · exact .inl ⟨by rw [hmoves.main_eq he, hmain], hK p e p' hKp hmoves⟩
  intro m hm
  obtain ⟨n, hn, ⟨⟨hmain, -⟩, hCn⟩ | hnext⟩ := huntil m hm
  · obtain ⟨k, hk, hnext⟩ := main_advances hboot hfair a hC henabled n ⟨hmain, hCn⟩
    exact ⟨k, le_trans hn hk, hnext⟩
  · exact ⟨n, hn, hnext⟩

/-- What an interrupt leaves, until `main` is through. -/
def Interrupts (u : Thread) (p : Process) : Prop :=
  p.shutdown.raised = true ∨ (p.shutdown.place u).pending = true

theorem Interrupts.stable {u : Thread} {p p' : Process} {e : ProcessEvent} (h : Interrupts u p)
    (hmoves : p.Moves ws e p') : Interrupts u p' := by
  rcases he : e.latchEvent with _ | a
  · rw [Interrupts, hmoves.latch_quiet he]
    exact h
  · have hstep := hmoves.latch_step he
    rcases h with hraised | hpending
    · exact .inl (Latch.step_raised hstep hraised)
    · exact Latch.step_pending hstep hpending

section Stages

variable (hboot : ρ.state 0 = .boot srv) (hfair : ρ.Fair)
include hboot hfair

theorem leaves_starting :
    ρ.LeadsTo (fun p => p.main = .starting ∧ True) fun p => p.main = .waiting :=
  main_advances hboot hfair .starting (fun _ _ _ _ _ _ => trivial) fun _ hp hmain _ =>
    ⟨.start, _, trivial, Process.step_start ws hp hmain⟩

theorem leaves_waiting (u : Thread) :
    ρ.LeadsTo (fun p => p.main = .waiting ∧ Interrupts u p) fun p => p.main = .joining := by
  refine main_passes hboot hfair .waiting (fun _ _ _ h hmoves => h.stable hmoves)
    (gets_through hboot hfair u) ?_ ?_
  · intro p e p' _ hthrough hmoves
    rcases he : e.latchEvent with _ | a
    · rw [hmoves.latch_quiet he, hthrough]
    · exact Latch.step_through (hmoves.latch_step he) hthrough
  · intro p _ hmain hthrough
    exact ⟨.stop, _, trivial, by rw [Process.step, if_pos ⟨hmain, hthrough⟩]⟩

theorem leaves_joining :
    ρ.LeadsTo (fun p => p.main = .joining ∧ True) fun p => p.main = .joined := by
  refine main_passes hboot hfair .joining (C := fun p => p.listener = .ended)
    (fun _ _ _ _ _ => trivial) ?_ (fun _ _ _ hp hended hmoves => hmoves.ended hp hended) ?_
  · refine .trans (.of_imp ?_) (listener_ends hboot hfair)
    rintro n ⟨hmain, -⟩
    rw [(inv hboot n).listenStop, hmain]
    rfl
  · intro p _ hmain hended
    exact ⟨.join, _, trivial, by rw [Process.step, if_pos ⟨hmain, hended⟩]⟩

theorem leaves_joined :
    ρ.LeadsTo (fun p => p.main = .joined ∧ True) fun p => p.main = .destroying :=
  main_advances hboot hfair .joined (fun _ _ _ _ _ _ => trivial) fun p _ hmain _ =>
    ⟨.destroy, _, trivial, by rw [Process.step, if_pos hmain]⟩

theorem leaves_destroying :
    ρ.LeadsTo (fun p => p.main = .destroying ∧ True) fun p => p.main = .returned := by
  refine main_passes hboot hfair .destroying (C := fun p => p.updater = .ended)
    (fun _ _ _ _ _ => trivial) ?_ (fun _ _ _ _ hended hmoves => hmoves.updater_ended hended) ?_
  · refine .trans (.of_imp ?_) (updater_ends hboot hfair)
    rintro n ⟨hmain, -⟩
    rw [(inv hboot n).updateStop, hmain]
    rfl
  · intro p _ hmain hended
    exact ⟨.exit, _, trivial, by rw [Process.step, if_pos ⟨hmain, hended⟩]⟩

/-- From wherever an interrupt finds `main`. -/
theorem interrupted_returns (u : Thread) :
    ρ.LeadsTo (Interrupts u) fun p => p.main = .returned := by
  have htrue : ∀ {a : MainAt}, ρ.LeadsTo (fun p => p.main = a) fun p => p.main = a ∧ True :=
    .of_imp fun _ hmain => ⟨hmain, trivial⟩
  have hjoined := (leaves_joined hboot hfair).trans (htrue.trans (leaves_destroying hboot hfair))
  have hjoining := (leaves_joining hboot hfair).trans (htrue.trans hjoined)
  have hwaiting := (leaves_waiting hboot hfair u).trans (htrue.trans hjoining)
  intro m hm
  cases hmain : (ρ.state m).main with
  | starting =>
    obtain ⟨n, hn, hwait⟩ := leaves_starting hboot hfair m ⟨hmain, trivial⟩
    have hstill : Interrupts u (ρ.state n) := StepPath.stable (inv hboot)
      (fun _ _ _ _ h hstep => h.stable (Process.moves_of_step hstep)) hn hm
    obtain ⟨k, hk, hreturned⟩ := hwaiting n ⟨hwait, hstill⟩
    exact ⟨k, le_trans hn hk, hreturned⟩
  | waiting => exact hwaiting m ⟨hmain, hm⟩
  | joining => exact hjoining m ⟨hmain, trivial⟩
  | joined => exact hjoined m ⟨hmain, trivial⟩
  | destroying => exact leaves_destroying hboot hfair m ⟨hmain, trivial⟩
  | returned => exact ⟨m, le_rfl, hmain⟩

end Stages

/-- A handler that has not been called holds nothing and waits for nothing. -/
theorem run_uncalled {es : List ProcessEvent} {p : Process} (h : ProcessRun ws (.boot srv) es p)
    {n : ℕ} (hn : ∀ dwCtrlType, .console n dwCtrlType ∉ es) :
    p.shutdown.place (.console n) = .outside := by
  refine h.history (fun es p => (∀ dwCtrlType, .console n dwCtrlType ∉ es) →
    p.shutdown.place (.console n) = .outside) (fun _ => rfl) ?_ hn
  intro es p e p' ih hstep hnone
  have hout := ih fun dwCtrlType hmem => hnone dwCtrlType (List.mem_append_left _ hmem)
  cases Process.moves_of_step hstep with
  | console n' dwCtrlType l _ _ hl =>
    have hne : Thread.console n ≠ .console n' := by
      rintro ⟨⟩
      exact hnone dwCtrlType (List.mem_append_right _ (List.mem_singleton_self _))
    show l.place _ = _
    rw [(Latch.begin_place hl).1, Function.update_of_ne hne, hout]
  | shutdown t l hl | wakes t l hl => exact Latch.step_outside hl (by simp) (by simp) hout
  | start l _ hl =>
    show l.place _ = _
    rw [(Latch.begin_place hl).1, Function.update_of_ne (by simp), hout]
  | _ => exact hout

/-- A path on which nothing more can happen passes nothing over. -/
theorem fair_of_returned {p : Process} {m : ℕ} (hend : ∀ n ≥ m, ρ.state n = p) (hp : p.Inv)
    (hreturned : p.main = .returned)
    (hidle : ∀ t, p.shutdown.place t = .outside ∨ p.shutdown.place t = .through) : ρ.Fair := by
  have hnever : ∀ A : ProcessEvent → Prop, (∀ e p', A e → ¬ p.Moves ws e p') →
      ρ.StronglyFair A := by
    intro A hA
    refine StepPath.stronglyFair_of_end (m := m) fun n hn => ?_
    rw [hend n hn]
    rintro ⟨e, p', he, hstep⟩
    exact hA e p' he (Process.moves_of_step hstep)
  have hlistener := hp.joined (by rw [hreturned]; rfl)
  refine ⟨fun t => hnever _ ?_, (hnever _ ?_).weaklyFair, (hnever _ ?_).weaklyFair,
    (hnever _ ?_).weaklyFair⟩
  · rintro e p' rfl ⟨⟩
    next l hl =>
    rcases hidle t with ht | ht <;> simp [Latch.step, Latch.act, ht] at hl
  · intro e p' he hmoves
    cases hmoves with
    | start _ hmain | stop hmain | join hmain | destroy hmain | exit hmain =>
      rw [hreturned] at hmain
      cases hmain
    | _ => exact he
  · intro e p' he hmoves
    cases hmoves with
    | listenerStops hat | listenerSelects hat | serves _ _ _ hat =>
      rw [hlistener] at hat
      cases hat
    | _ => exact he
  · rintro e p' rfl ⟨⟩
    next u hat _ => exact hat (hp.exited hreturned)

end ProcessPath

end ProConDSU
