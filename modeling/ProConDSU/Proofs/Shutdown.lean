import ProConDSU.Proofs.Process

/-!
# Shutting down

In whatever order the threads run, `main` leaves `waitForCtrlC` for a Ctrl-C only and does not sleep
through one, the threads it started have ended when it returns, and the listener takes at most one
more datagram once it is told to stop (`ProcessRun.orderly`, `ProcessRun.rounds_after_stop`). Once
interrupted, the process can always run to its end (`ProcessRun.can_return`).
-/

namespace ProConDSU

/-- A Ctrl-C, or a Ctrl-Break. -/
def Interrupted (es : List ProcessEvent) : Prop :=
  ∃ n dwCtrlType, .console n dwCtrlType ∈ es ∧ consoleCtrlHandler dwCtrlType = true

theorem Interrupted.concat {es : List ProcessEvent} (h : Interrupted es) (e : ProcessEvent) :
    Interrupted (es ++ [e]) := by
  obtain ⟨n, dwCtrlType, hmem, htype⟩ := h
  exact ⟨n, dwCtrlType, List.mem_append_left _ hmem, htype⟩

/-- What is not an interrupt does not interrupt. -/
theorem Interrupted.of_concat {es : List ProcessEvent} {e : ProcessEvent}
    (h : Interrupted (es ++ [e]))
    (he : ∀ n dwCtrlType, e = .console n dwCtrlType → consoleCtrlHandler dwCtrlType = false) :
    Interrupted es := by
  obtain ⟨n, dwCtrlType, hmem, htype⟩ := h
  refine ⟨n, dwCtrlType, ?_, htype⟩
  rcases List.mem_append.1 hmem with hold | hnew
  · exact hold
  · rw [List.mem_singleton] at hnew
    rw [he n dwCtrlType hnew.symm] at htype
    cases htype

namespace Process

variable {ws : Winsock} {p p' : Process} {es : List ProcessEvent} {e : ProcessEvent}

theorem Inv.main_not_raising (h : p.Inv) : p.shutdown.place .main ≠ .raising := by
  have hwaiting := h.waiting
  unfold Waiting at hwaiting
  intro hraising
  split at hwaiting <;> simp [hraising, LatchPlace.waits] at hwaiting

/-- The flag is up, or a thread is on its way to raise it, just when the process was interrupted. -/
structure Heard (es : List ProcessEvent) (p : Process) : Prop where
  inv : p.Inv
  console : ∀ n, p.shutdown.place (.console n) ≠ .outside → Interrupted es
  raised : p.shutdown.raised = true → Interrupted es
  pending : Interrupted es →
    p.shutdown.raised = true ∨ ∃ u, (p.shutdown.place u).pending = true

theorem boot_heard (srv : DsuServer) : Heard [] (boot srv) where
  inv := boot_inv srv
  console n h := absurd rfl h
  raised h := by cases h
  pending := by
    rintro ⟨n, dwCtrlType, hmem, -⟩
    cases hmem

/-- A step that leaves the latch alone, and interrupts nothing. -/
theorem Heard.quiet (h : Heard es p) (hinv : p'.Inv) (hlatch : p'.shutdown = p.shutdown)
    (he : ∀ n dwCtrlType, e = .console n dwCtrlType → consoleCtrlHandler dwCtrlType = false) :
    Heard (es ++ [e]) p' where
  inv := hinv
  console n hn := (h.console n (hlatch ▸ hn)).concat e
  raised hr := (h.raised (hlatch ▸ hr)).concat e
  pending hint := by
    rw [hlatch]
    exact h.pending (hint.of_concat he)

theorem Heard.step (h : Heard es p) (hmoves : p.Moves ws e p') : Heard (es ++ [e]) p' := by
  have hinv := hmoves.inv h.inv
  cases hmoves with
  | console n dwCtrlType l hmain htype hl =>
    have hint : Interrupted (es ++ [.console n dwCtrlType]) :=
      ⟨n, dwCtrlType, List.mem_append_right _ (List.mem_singleton_self _), htype⟩
    refine ⟨hinv, fun _ _ => hint, fun _ => hint, fun _ => .inr ⟨.console n, ?_⟩⟩
    show (l.place (.console n)).pending = true
    rw [(Latch.begin_place hl).1, Function.update_self]
    rfl
  | shutdown t l hl | wakes t l hl =>
    refine ⟨hinv, fun n hn => ?_, fun hr => ?_, ?_⟩
    · refine (h.console n fun hout => hn ?_).concat _
      exact Latch.step_outside hl (by simp) (by simp) hout
    · rcases Latch.raising_of_step hl hr with hraised | ⟨u, hraising⟩
      · exact (h.raised hraised).concat _
      · cases u with
        | main => exact absurd hraising h.inv.main_not_raising
        | console n => exact (h.console n (by rw [hraising]; simp)).concat _
    · intro hint
      rcases h.pending (hint.of_concat (by simp)) with hraised | ⟨u, hu⟩
      · exact .inl (Latch.step_raised hl hraised)
      · rcases Latch.step_pending hl hu with hraised | hpending
        · exact .inl hraised
        · exact .inr ⟨u, hpending⟩
  | start l hmain hl =>
    obtain ⟨hplace, hraised⟩ := Latch.begin_place hl
    refine ⟨hinv, fun n hn => ?_, fun hr => ?_, ?_⟩
    · refine (h.console n fun hout => hn ?_).concat _
      show l.place (.console n) = .outside
      rw [hplace, Function.update_of_ne (by simp), hout]
    · exact (h.raised (hraised ▸ hr)).concat _
    · intro hint
      rcases h.pending (hint.of_concat (by simp)) with hup | ⟨u, hu⟩
      · exact .inl (hraised.trans hup)
      · have hout : p.shutdown.place .main = .outside := by
          have hwaiting := h.inv.waiting
          rwa [Waiting, hmain] at hwaiting
        have hne : u ≠ .main := by
          rintro rfl
          rw [hout] at hu
          cases hu
        refine .inr ⟨u, ?_⟩
        show (l.place u).pending = true
        rw [hplace, Function.update_of_ne hne, hu]
  | ignored n dwCtrlType _ htype =>
    refine h.quiet hinv rfl fun n' dwCtrlType' heq => ?_
    cases heq
    exact htype
  | _ => exact h.quiet hinv rfl (by simp)

theorem run_heard {srv : DsuServer} (h : ProcessRun ws (boot srv) es p) : Heard es p :=
  h.history Heard (boot_heard srv) fun _ _ _ _ hp hstep => hp.step (moves_of_step hstep)

end Process

section Runs

variable {ws : Winsock} {srv : DsuServer} {p p' : Process} {es : List ProcessEvent}

section Safety

structure Orderly (es : List ProcessEvent) (p : Process) : Prop where
  interrupted : p.main.stopped = true → Interrupted es
  stop : p.listenStop = p.main.stopped
  listener : p.main.waited = true → p.listener = .ended
  updater : p.main = .returned → p.updater = .ended
  exclusive : ∀ t u, (p.shutdown.place t).holds = true → (p.shutdown.place u).holds = true → t = u
  /-- `main` sleeps on the flag while it is up only until the handler that set it notifies. -/
  awake : p.shutdown.raised = true → p.shutdown.place .main = .asleep →
    ∃ n, p.shutdown.place (.console n) = .notifying

/-- Whatever the order of the threads' steps. -/
theorem ProcessRun.orderly (h : ProcessRun ws (.boot srv) es p) : Orderly es p := by
  have hheard := Process.run_heard h
  have hinv := hheard.inv
  refine ⟨fun hstopped => hheard.raised ?_, hinv.listenStop, hinv.joined, hinv.exited,
    fun t u => hinv.latch.exclusive, fun hraised hasleep => ?_⟩
  · have hwaiting := hinv.waiting
    have hthrough : p.shutdown.place .main = .through := by
      unfold Process.Waiting at hwaiting
      cases hmain : p.main <;> rw [hmain] at hwaiting hstopped
      case starting | waiting => cases hstopped
      all_goals exact hwaiting
    exact hinv.latch.knows .main (by rw [hthrough]; rfl)
  · obtain ⟨t, ht⟩ := hinv.latch.asleep hraised .main hasleep
    cases t with
    | main =>
      rw [hasleep] at ht
      cases ht
    | console n => exact ⟨n, ht⟩

/-- A Ctrl-C while `main` sleeps and the listener selects, and everything ends. -/
def ctrlCRun : List ProcessEvent :=
  [.start, .listenerChecks, .console 3 ctrlCEvent, .shutdown .main, .shutdown .main,
    .shutdown (.console 3), .shutdown (.console 3), .shutdown (.console 3), .shutdown (.console 3),
    .shutdown .main, .shutdown .main, .shutdown .main, .stop, .serves (.filled 0) .timeout,
    .listenerChecks, .join, .destroy, .updates, .exit]

theorem exists_ctrlCRun : ∃ p, p.main = .returned ∧ p.shutdown.place (.console 3) = .outside
    ∧ ProcessRun .documented (.boot DsuServer.oneController) ctrlCRun p :=
  ⟨_, rfl, rfl, .cons rfl <| .cons rfl <| .cons rfl <| .cons rfl <| .cons rfl <| .cons rfl <|
    .cons rfl <| .cons rfl <| .cons rfl <| .cons rfl <| .cons rfl <| .cons rfl <| .cons rfl <|
    .cons rfl <| .cons rfl <| .cons rfl <| .cons rfl <| .cons rfl <| .cons rfl <| .nil _⟩

theorem ProcessRun.orderly_ctrlC : ∃ p, p.main = .returned ∧ Orderly ctrlCRun p := by
  obtain ⟨p, hmain, -, hrun⟩ := exists_ctrlCRun
  exact ⟨p, hmain, ProcessRun.orderly hrun⟩

end Safety

section LastRound

def ProcessEvent.isRound : ProcessEvent → Bool
  | .serves _ _ => true
  | _ => false

/-- The rounds a listener that has been told to stop is in for. -/
def Process.roundsLeft (p : Process) : ℕ := if p.listener = .selecting then 1 else 0

/-- What has happened since a stop was requested, at `p`. -/
structure LastRound (p : Process) (es : List ProcessEvent) (p' : Process) : Prop where
  stop : p'.listenStop = true
  rounds : es.countP ProcessEvent.isRound + p'.roundsLeft ≤ p.roundsLeft
  handled : p'.listening.handled.length
    ≤ p.listening.handled.length + es.countP ProcessEvent.isRound

theorem iterate_handled {σ : Type} {msgHandler : MsgHandler σ} {l l' : Listening σ}
    {select : SelectResult} (h : l.iterate ws msgHandler select = .ok l') :
    l'.handled.length ≤ l.handled.length + 1 := by
  cases select with
  | error | timeout | recvError =>
    cases h
    exact Nat.le_succ _
  | ready d =>
    rcases iterate_ready h with ⟨-, rfl⟩ | ⟨-, reply, s, -, rfl⟩
    · exact Nat.le_succ _
    · simp

theorem LastRound.step {e : ProcessEvent} {q : Process} (h : LastRound p es q)
    (hmoves : q.Moves ws e p') : LastRound p (es ++ [e]) p' := by
  obtain ⟨hstop, hrounds, hhandled⟩ := h
  have hcount : (es ++ [e]).countP ProcessEvent.isRound
      = es.countP ProcessEvent.isRound + if e.isRound then 1 else 0 := by
    rw [List.countP_append, List.countP_singleton]
  rw [Process.roundsLeft] at hrounds
  cases hmoves with
  | serves stack select l hat hround =>
    have hone := iterate_handled hround
    simp only [ProcessEvent.isRound, if_true, hat] at hcount hrounds
    refine ⟨hstop, ?_, ?_⟩
    · have hleft : Process.roundsLeft { q with
          listening := l, listener := if l.running then .checking else .ended } = 0 := by
        rw [Process.roundsLeft]
        cases l.running <;> rfl
      omega
    · show l.handled.length ≤ _
      omega
  | listenerSelects hat hgo =>
    rw [hgo] at hstop
    cases hstop
  | stop | start | listenerStops =>
    simp only [ProcessEvent.isRound] at hcount
    refine ⟨by first | exact hstop | rfl, ?_, ?_⟩
    · rw [hcount, Process.roundsLeft]
      simp
      omega
    · rw [hcount]
      exact hhandled
  | _ =>
    simp only [ProcessEvent.isRound] at hcount
    exact ⟨hstop, hcount ▸ hrounds, hcount ▸ hhandled⟩

/-- Once it is told to stop, the listener takes at most one datagram more. -/
theorem ProcessRun.rounds_after_stop {pre post : List ProcessEvent}
    (h : ProcessRun ws (.boot srv) (pre ++ .stop :: post) p) :
    post.countP ProcessEvent.isRound ≤ 1 ∧ ∃ q, ProcessRun ws (.boot srv) pre q
      ∧ p.listening.handled.length ≤ q.listening.handled.length + 1 := by
  obtain ⟨q, hpre, hrest⟩ := Run.append_iff.1 h
  obtain ⟨q', hstep, hpost⟩ := Run.cons_iff.1 hrest
  have hstop : q'.listenStop = true ∧ q'.listening = q.listening := by
    cases Process.moves_of_step hstep
    exact ⟨rfl, rfl⟩
  have hone : q'.roundsLeft ≤ 1 := by
    rw [Process.roundsLeft]
    split_ifs <;> simp
  obtain ⟨-, hrounds, hhandled⟩ := hpost.history (LastRound q')
    ⟨hstop.1, by simp, by simp⟩ fun _ _ _ _ hq hstep => hq.step (Process.moves_of_step hstep)
  rw [hstop.2] at hhandled
  exact ⟨by omega, q, hpre, by omega⟩

theorem ProcessRun.rounds_after_stop_ctrlC : ∃ p q : Process,
    (ctrlCRun.drop 13).countP ProcessEvent.isRound ≤ 1
      ∧ ProcessRun .documented (.boot DsuServer.oneController) (ctrlCRun.take 12) q
      ∧ p.listening.handled.length ≤ q.listening.handled.length + 1 := by
  obtain ⟨p, -, -, hrun⟩ := exists_ctrlCRun
  have hsplit : ctrlCRun = ctrlCRun.take 12 ++ .stop :: ctrlCRun.drop 13 := rfl
  rw [hsplit] at hrun
  obtain ⟨hrounds, q, hq, hhandled⟩ := ProcessRun.rounds_after_stop hrun
  exact ⟨p, q, hrounds, hq, hhandled⟩

end LastRound

def ProcessEvent.isWake : ProcessEvent → Bool
  | .wakes _ => true
  | _ => false

/-- A run of at most `n` steps, in which no thread wakes of itself and nothing is sent. -/
def Process.Reaches (ws : Winsock) (p : Process) (n : ℕ) (p' : Process) : Prop :=
  ∃ es, ProcessRun ws p es p' ∧ es.length ≤ n ∧ (∀ e ∈ es, e.isWake = false)
    ∧ p'.listening.sent = p.listening.sent

namespace Process

theorem Reaches.trans {q : Process} {m n : ℕ} (h : p.Reaches ws m q) (h' : q.Reaches ws n p') :
    p.Reaches ws (m + n) p' := by
  obtain ⟨es, hrun, hlen, hasked, hsent⟩ := h
  obtain ⟨fs, hrun', hlen', hasked', hsent'⟩ := h'
  refine ⟨es ++ fs, hrun.append hrun', ?_, fun e he => ?_, hsent'.trans hsent⟩
  · rw [List.length_append]
    omega
  · exact (List.mem_append.1 he).elim (hasked e) (hasked' e)

theorem Reaches.mono {m n : ℕ} (h : p.Reaches ws m p') (hmn : m ≤ n) : p.Reaches ws n p' := by
  obtain ⟨es, hrun, hlen, hkept⟩ := h
  exact ⟨es, hrun, hlen.trans hmn, hkept⟩

theorem Reaches.refl (p : Process) : p.Reaches ws 0 p :=
  ⟨[], .nil p, le_rfl, List.forall_mem_nil _, rfl⟩

/-- One step more. -/
theorem Reaches.step {q : Process} {n : ℕ} (h : p.Reaches ws n q) {e : ProcessEvent}
    (hstep : q.step ws e = .ok (some p')) (hasked : e.isWake = false)
    (hsent : p'.listening.sent = q.listening.sent) : p.Reaches ws (n + 1) p' :=
  h.trans ⟨[e], .cons hstep (.nil p'), le_rfl, List.forall_mem_singleton.2 hasked, hsent⟩

theorem Reaches.inv {n : ℕ} (h : p.Reaches ws n p') (hp : p.Inv) : p'.Inv := by
  obtain ⟨es, hrun, -⟩ := h
  exact hrun.invariant Inv hp fun _ _ _ hq hstep => (moves_of_step hstep).inv hq

/-- The threads of the latch run on their own. -/
theorem run_shutdown {ts : List Thread} {l l' : Latch Thread} (h : l.Acts ts l') :
    ∀ p : Process, p.shutdown = l →
      ProcessRun ws p (ts.map .shutdown) { p with shutdown := l' } := by
  induction h with
  | nil l =>
    rintro p rfl
    exact .nil p
  | @cons l l₁ l' t ts hact _ ih =>
    rintro p rfl
    refine .cons (t := { p with shutdown := l₁ }) ?_ (ih _ rfl)
    simp [Process.step, Latch.step, hact]

variable (ws)

theorem step_start (hp : p.Inv) (hmain : p.main = .starting) :
    p.step ws .start = .ok (some { p with
      shutdown := p.shutdown.goto .main .entering, main := .waiting, listener := .checking }) := by
  have hout : p.shutdown.place .main = .outside := by
    have hwaiting := hp.waiting
    rwa [Waiting, hmain] at hwaiting
  simp [Process.step, Process.start, Latch.step, Latch.begin, hmain, hout]

theorem reaches_waiting (hp : p.Inv) (hmain : p.main = .starting) :
    ∃ p', p.Reaches ws 1 p' ∧ p'.main = .waiting
      ∧ (∀ u, (p.shutdown.place u).pending = true → (p'.shutdown.place u).pending = true)
      ∧ p'.shutdown.raised = p.shutdown.raised := by
  have hout : p.shutdown.place .main = .outside := by
    have hwaiting := hp.waiting
    rwa [Waiting, hmain] at hwaiting
  let q : Process := { p with
    shutdown := p.shutdown.goto .main .entering, main := .waiting, listener := .checking }
  have hstep : p.step ws .start = .ok (some q) := step_start ws hp hmain
  refine ⟨q, (Reaches.refl p).step hstep rfl rfl, rfl, fun u hu => ?_, rfl⟩
  have hne : u ≠ .main := by
    rintro rfl
    rw [hout] at hu
    cases hu
  simpa [q, Function.update_of_ne hne] using hu

/-- An interrupted process's `main` gets out of `waitForCtrlC`. -/
theorem reaches_joining (hp : p.Inv) (hmain : p.main = .waiting)
    (hcome : p.shutdown.raised = true ∨ ∃ u, (p.shutdown.place u).pending = true) :
    ∃ p', p.Reaches ws 12 p' ∧ p'.main = .joining := by
  have hwaits : (p.shutdown.place .main).waits = true := by
    have hwaiting := hp.waiting
    rwa [Waiting, hmain] at hwaiting
  obtain ⟨ts, l, hacts, hthrough, hlen⟩ := hp.latch.exists_through hwaits hcome
  let q : Process := { p with shutdown := l }
  have hq : p.Reaches ws 11 q :=
    ⟨_, run_shutdown hacts p rfl, by simpa using hlen, by simp [ProcessEvent.isWake], rfl⟩
  have hstep : q.step ws .stop
      = .ok (some { q with main := .joining, listenStop := true }) := by
    simp [Process.step, q, hmain, hthrough]
  exact ⟨_, hq.step hstep rfl rfl, rfl⟩

theorem reaches_joined (hp : p.Inv) (hmain : p.main = .joining) :
    ∃ p', p.Reaches ws 3 p' ∧ p'.main = .joined := by
  have hstop : p.listenStop = true := by
    rw [hp.listenStop, hmain]
    rfl
  have hended : ∃ q, p.Reaches ws 2 q ∧ q.main = .joining ∧ q.listener = .ended := by
    let q : Process :=
      { p with listener := .ended, listening := { p.listening with running := false } }
    cases hat : p.listener with
    | unstarted =>
      rw [hp.unstarted, hmain] at hat
      cases hat
    | ended => exact ⟨p, (Reaches.refl p).mono (by omega), hmain, hat⟩
    | checking =>
      have hstep : p.step ws .listenerChecks = .ok (some q) := by
        simp [Process.step, Process.listenerChecks, hat, hstop, q]
      exact ⟨q, ((Reaches.refl p).step hstep rfl rfl).mono (by omega), hmain, rfl⟩
    | selecting =>
      -- the select times out, and the check sees the request
      have hrunning : p.listening.running = true := by
        rw [← Bool.not_eq_false, hp.running, hat]
        simp
      have hround : p.step ws (.serves (.filled 0) .timeout)
          = .ok (some { p with listener := .checking }) := by
        simp [Process.step, Process.serves, hat, Listening.iterate, hrunning]
      have hcheck : Process.step ws { p with listener := .checking } .listenerChecks
          = .ok (some q) := by
        simp [Process.step, Process.listenerChecks, hstop, q]
      exact ⟨q, ((Reaches.refl p).step hround rfl rfl).step hcheck rfl rfl, hmain, rfl⟩
  obtain ⟨q, hq, hmainq, hendq⟩ := hended
  have hstep : q.step ws .join = .ok (some { q with main := .joined }) := by
    simp [Process.step, hmainq, hendq]
  exact ⟨_, hq.step hstep rfl rfl, rfl⟩

theorem reaches_returned_of_destroying (hp : p.Inv) (hmain : p.main = .destroying) :
    ∃ p', p.Reaches ws 3 p' ∧ p'.main = .returned := by
  have hstop : p.updateStop = true := by
    rw [hp.updateStop, hmain]
    rfl
  have hended : p.Reaches ws 2 { p with updater := .ended } := by
    cases hat : p.updater with
    | ended =>
      have heq : { p with updater := .ended } = p := by simp [← hat]
      rw [heq]
      exact (Reaches.refl p).mono (by omega)
    | checking =>
      have hstep : p.step ws .updates = .ok (some { p with updater := .ended }) := by
        simp [Process.step, Process.updates, hat, hstop]
      exact ((Reaches.refl p).step hstep rfl rfl).mono (by omega)
    | sleeping =>
      have hwake : p.step ws .updates = .ok (some { p with updater := .checking }) := by
        simp [Process.step, Process.updates, hat]
      have hstep : Process.step ws { p with updater := .checking } .updates
          = .ok (some { p with updater := .ended }) := by
        simp [Process.step, Process.updates, hstop]
      exact ((Reaches.refl p).step hwake rfl rfl).step hstep rfl rfl
  have hexit : Process.step ws { p with updater := .ended } .exit
      = .ok (some { p with updater := .ended, main := .returned }) := by
    simp [Process.step, hmain]
  exact ⟨_, hended.step hexit rfl rfl, rfl⟩

theorem reaches_returned_of_joined (hp : p.Inv) (hmain : p.main = .joined) :
    ∃ p', p.Reaches ws 4 p' ∧ p'.main = .returned := by
  have hdestroy : p.step ws .destroy
      = .ok (some { p with main := .destroying, updateStop := true }) := by
    simp [Process.step, hmain]
  have hq : p.Reaches ws 1 { p with main := .destroying, updateStop := true } :=
    (Reaches.refl p).step hdestroy rfl rfl
  obtain ⟨p', hp', hreturned⟩ := reaches_returned_of_destroying ws (hq.inv hp) rfl
  exact ⟨p', (hq.trans hp').mono (by omega), hreturned⟩

theorem reaches_returned_of_joining (hp : p.Inv) (hmain : p.main = .joining) :
    ∃ p', p.Reaches ws 7 p' ∧ p'.main = .returned := by
  obtain ⟨q, hq, hmainq⟩ := reaches_joined ws hp hmain
  obtain ⟨p', hp', hreturned⟩ := reaches_returned_of_joined ws (hq.inv hp) hmainq
  exact ⟨p', hq.trans hp', hreturned⟩

theorem reaches_returned_of_waiting (hp : p.Inv) (hmain : p.main = .waiting)
    (hcome : p.shutdown.raised = true ∨ ∃ u, (p.shutdown.place u).pending = true) :
    ∃ p', p.Reaches ws 19 p' ∧ p'.main = .returned := by
  obtain ⟨q, hq, hmainq⟩ := reaches_joining ws hp hmain hcome
  obtain ⟨p', hp', hreturned⟩ := reaches_returned_of_joining ws (hq.inv hp) hmainq
  exact ⟨p', hq.trans hp', hreturned⟩

end Process

/-- An interrupted process can run to its end, from wherever its threads are, in `20` steps and
without sending anything more. -/
theorem ProcessRun.can_return (h : ProcessRun ws (.boot srv) es p) (hint : Interrupted es) :
    ∃ p', p.Reaches ws 20 p' ∧ p'.main = .returned := by
  have hheard := Process.run_heard h
  have hinv := hheard.inv
  have hcome := hheard.pending hint
  cases hmain : p.main with
  | starting =>
    obtain ⟨q, hq, hmainq, hpending, hraised⟩ := Process.reaches_waiting ws hinv hmain
    have hcomeq : q.shutdown.raised = true ∨ ∃ u, (q.shutdown.place u).pending = true := by
      rcases hcome with hup | ⟨u, hu⟩
      · exact .inl (hraised.trans hup)
      · exact .inr ⟨u, hpending u hu⟩
    obtain ⟨p', hp', hreturned⟩ := Process.reaches_returned_of_waiting ws (hq.inv hinv)
      hmainq hcomeq
    exact ⟨p', (hq.trans hp').mono (by omega), hreturned⟩
  | waiting =>
    obtain ⟨p', hp', hreturned⟩ := Process.reaches_returned_of_waiting ws hinv hmain hcome
    exact ⟨p', hp'.mono (by omega), hreturned⟩
  | joining =>
    obtain ⟨p', hp', hreturned⟩ := Process.reaches_returned_of_joining ws hinv hmain
    exact ⟨p', hp'.mono (by omega), hreturned⟩
  | joined =>
    obtain ⟨p', hp', hreturned⟩ := Process.reaches_returned_of_joined ws hinv hmain
    exact ⟨p', hp'.mono (by omega), hreturned⟩
  | destroying =>
    obtain ⟨p', hp', hreturned⟩ := Process.reaches_returned_of_destroying ws hinv hmain
    exact ⟨p', hp'.mono (by omega), hreturned⟩
  | returned => exact ⟨p, (Process.Reaches.refl p).mono (by omega), hmain⟩

theorem ProcessRun.can_return_ctrlC : ∃ p p' : Process,
    ProcessRun .documented (.boot DsuServer.oneController) [.console 3 ctrlCEvent] p
      ∧ p.Reaches .documented 20 p' ∧ p'.main = .returned := by
  have hrun : ProcessRun .documented (.boot DsuServer.oneController) [.console 3 ctrlCEvent] _ :=
    .cons rfl (.nil _)
  obtain ⟨p', hp', hreturned⟩ := ProcessRun.can_return hrun ⟨3, ctrlCEvent, by simp, rfl⟩
  exact ⟨_, p', hrun, hp', hreturned⟩

end Runs

end ProConDSU
