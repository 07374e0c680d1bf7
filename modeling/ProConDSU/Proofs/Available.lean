import ProConDSU.Proofs.Wire

/-!
# Whether it still serves

Before it is told to stop, the process is ready for any next datagram it can take just when no
round has ended the listener's loop, wherever its other threads are (`ProcessRun.available_iff`).
-/

namespace ProConDSU

theorem iterate_running {σ : Type} {ws : Winsock} {msgHandler : MsgHandler σ} {l l' : Listening σ}
    {select : SelectResult} (h : l.iterate ws msgHandler select = .ok l')
    (hrunning : l.running = true) (stack : Stack) :
    l'.running = false ↔ (ProcessEvent.serves stack select).EndsLoop := by
  cases select with
  | error | recvError =>
    cases h
    exact iff_of_true rfl trivial
  | timeout =>
    cases h
    exact iff_of_false (by simp [hrunning]) id
  | ready d =>
    rcases iterate_ready h with ⟨hlong, rfl⟩ | ⟨hfits, reply, s, -, rfl⟩
    · exact iff_of_true rfl hlong
    · exact iff_of_false (by simp [hrunning]) (not_lt.2 hfits)

/-- What a run says of its listener. -/
structure Located (es : List ProcessEvent) (p : Process) : Prop where
  inv : p.Inv
  started : .start ∈ es → p.main ≠ .starting
  stopped : p.main.stopped = true → .stop ∈ es
  ended : p.listener = .ended → .stop ∈ es ∨ ∃ e ∈ es, e.EndsLoop
  stays : (∃ e ∈ es, e.EndsLoop) → p.listener = .ended

section Located

variable {ws : Winsock} {es : List ProcessEvent} {e : ProcessEvent} {p p' : Process}

/-- The run's next event. -/
theorem Located.next (h : Located es p) (hinv : p'.Inv)
    (hstarted : p'.main = .starting → p.main = .starting ∧ e ≠ .start)
    (hstopped : p'.main.stopped = true → p.main.stopped = true ∨ e = .stop)
    (hended : p'.listener = .ended → p.listener = .ended ∨ p.main.stopped = true ∨ e.EndsLoop)
    (hstays : p.listener = .ended ∨ e.EndsLoop → p'.listener = .ended) :
    Located (es ++ [e]) p' where
  inv := hinv
  started hmem hmain := by
    obtain ⟨hold, hne⟩ := hstarted hmain
    rcases List.mem_append.1 hmem with hmem | hnew
    · exact h.started hmem hold
    · exact hne (List.mem_singleton.1 hnew).symm
  stopped hs := by
    rcases hstopped hs with hold | rfl
    · exact List.mem_append_left _ (h.stopped hold)
    · exact List.mem_append_right _ (List.mem_singleton_self _)
  ended he := by
    rcases hended he with hold | hstop | hnew
    · rcases h.ended hold with hstop | ⟨a, ha, haends⟩
      · exact .inl (List.mem_append_left _ hstop)
      · exact .inr ⟨a, List.mem_append_left _ ha, haends⟩
    · exact .inl (List.mem_append_left _ (h.stopped hstop))
    · exact .inr ⟨e, List.mem_append_right _ (List.mem_singleton_self _), hnew⟩
  stays := by
    rintro ⟨a, ha, haends⟩
    rcases List.mem_append.1 ha with hold | hnew
    · exact hstays (.inl (h.stays ⟨a, hold, haends⟩))
    · exact hstays (.inr (List.mem_singleton.1 hnew ▸ haends))

theorem Located.step (h : Located es p) (hmoves : p.Moves ws e p') : Located (es ++ [e]) p' := by
  have hinv := hmoves.inv h.inv
  cases hmoves with
  | start l hmain =>
    refine h.next hinv nofun nofun nofun fun hended => ?_
    have hat := h.inv.unstarted.2 hmain
    rw [hat] at hended
    rcases hended with hended | hends
    · cases hended
    · exact hends.elim
  | stop => exact h.next hinv nofun (fun _ => .inr rfl) .inl fun hended => hended.resolve_right id
  | join hmain | destroy hmain | exit hmain =>
    refine h.next hinv nofun (fun _ => .inl ?_) .inl fun hended => hended.resolve_right id
    rw [hmain]
    rfl
  | listenerStops hat hstop =>
    refine h.next hinv (fun hm => ⟨hm, by simp⟩) .inl (fun _ => .inr (.inl ?_)) fun _ => rfl
    rw [← h.inv.listenStop, hstop]
  | listenerSelects hat =>
    refine h.next hinv (fun hm => ⟨hm, by simp⟩) .inl nofun fun hended => ?_
    rw [hat] at hended
    rcases hended with hended | hends
    · cases hended
    · exact hends.elim
  | serves stack select l hat hround =>
    have hrunning : p.listening.running = true := by
      rw [← Bool.not_eq_false, h.inv.running, hat]
      simp
    have hiff := iterate_running hround hrunning stack
    refine h.next hinv (fun hm => ⟨hm, by simp⟩) .inl (fun hended => .inr (.inr ?_))
      fun hended => ?_
    · rw [← hiff]
      by_contra hon
      simp [hon] at hended
    · rw [hat] at hended
      rcases hended with hended | hends
      · cases hended
      · simp [hiff.2 hends]
  | _ =>
    exact h.next hinv (fun hm => ⟨hm, by simp⟩) .inl .inl fun hended => hended.resolve_right id

theorem Process.run_located {srv : DsuServer} (h : ProcessRun ws (boot srv) es p) :
    Located es p :=
  h.history Located ⟨boot_inv srv, nofun, nofun, nofun, by simp⟩
    fun _ _ _ _ hp hstep => hp.step (moves_of_step hstep)

end Located

/-- The datagram has been taken, and answered if it asks for an answer. -/
structure Takes (p : Process) (d : Datagram) (p' : Process) : Prop where
  handled : p'.listening.handled = p.listening.handled ++ [(d.payload, d.sender)]
  sent : ∃ reply, (reply ≠ [] ↔ Answerable d.payload)
    ∧ p'.listening.sent = p.listening.sent ++ if reply = [] then [] else [(reply, d.sender)]

/-- In at most two of the listener's own next steps, whatever is on its stack. -/
def Process.Ready (ws : Winsock) (p : Process) (d : Datagram) : Prop :=
  ∀ stack : Stack, ∃ fs p', fs.length ≤ 2 ∧ OwnSteps stack [⟨false, .ready d⟩] fs
    ∧ ProcessRun ws p fs p' ∧ Takes p d p'

section Ready

variable {ws : Winsock} {srv : DsuServer} {p : Process} {es : List ProcessEvent} {d : Datagram}

theorem Process.takes_of_selecting (hat : p.listener = .selecting)
    (hrunning : p.listening.running = true) (hfits : d.payload.length ≤ 512)
    (hwraps : ¬ WrapsPorts d.payload) (stack : Stack) :
    ∃ p', p.step ws (.serves stack (.ready d)) = .ok (some p') ∧ Takes p d p' := by
  have hbuf : d.payload.length ≤ maxSize := hfits.trans (by decide)
  rcases hm : p.server.handleMessage stack d.payload d.sender with f | ⟨reply, srv'⟩
  · exact absurd ((DsuServer.handleMessage_throws hbuf).1 hm).2 hwraps
  · refine ⟨_, Process.step_serves hat hrunning hfits hm, rfl, reply, ?_, rfl⟩
    rcases DsuServer.handleMessage_reply hbuf hm with ⟨hans, hne, -⟩ | ⟨hans, hnil⟩
    · exact iff_of_true hne hans
    · exact iff_of_false (not_not.2 hnil) hans

theorem Process.Inv.ready (h : p.Inv) (hstarted : p.main ≠ .starting) (hgo : p.listenStop = false)
    (hon : p.listener ≠ .ended) (hfits : d.payload.length ≤ 512)
    (hwraps : ¬ WrapsPorts d.payload) : p.Ready ws d := by
  intro stack
  have hrunning : p.listening.running = true := by
    rw [← Bool.not_eq_false, h.running]
    exact hon
  cases hat : p.listener with
  | unstarted => exact absurd (h.unstarted.1 hat) hstarted
  | ended => exact absurd hat hon
  | selecting =>
    obtain ⟨p', hstep, htakes⟩ := Process.takes_of_selecting hat hrunning hfits hwraps stack
    exact ⟨_, p', by simp, by simp [Process.OwnSteps], .cons hstep (.nil p'), htakes⟩
  | checking =>
    let q : Process := { p with listener := .selecting }
    have hcheck : p.step ws .listenerChecks = .ok (some q) := by
      simp [Process.step, Process.listenerChecks, hat, hgo, q]
    obtain ⟨p', hstep, htakes⟩ :=
      Process.takes_of_selecting (p := q) rfl hrunning hfits hwraps stack
    exact ⟨_, p', by simp, by simp [Process.OwnSteps], .cons hcheck (.cons hstep (.nil p')),
      htakes.handled, htakes.sent⟩

/-- A listener that has ended takes nothing. -/
theorem Process.Inv.not_ready (h : p.Inv) (hended : p.listener = .ended) : ¬ p.Ready ws d := by
  intro hready
  obtain ⟨fs, p', -, -, hrun, htakes⟩ := hready (.filled 0)
  have hdeaf : Deaf p p' := hrun.invariant (Deaf p) ⟨h, hended, rfl, rfl, rfl⟩
    fun _ _ _ hq hstep => hq.step (Process.moves_of_step hstep)
  have hlen := congrArg List.length (hdeaf.handled.symm.trans htakes.handled)
  simp at hlen

/-- The process is ready for every datagram it can take, or for none, for good. -/
theorem ProcessRun.available_iff (h : ProcessRun ws (.boot srv) es p) (hstart : .start ∈ es)
    (hstop : .stop ∉ es) (hfits : d.payload.length ≤ 512) (hwraps : ¬ WrapsPorts d.payload) :
    p.Ready ws d ↔ ∀ e ∈ es, ¬ e.EndsLoop := by
  have hlocated := Process.run_located h
  have hinv := hlocated.inv
  refine ⟨fun hready e he hends => ?_, fun hnone => ?_⟩
  · exact hinv.not_ready (hlocated.stays ⟨e, he, hends⟩) hready
  · have hgo : p.listenStop = false := by
      rw [hinv.listenStop, ← Bool.not_eq_true]
      exact fun hs => hstop (hlocated.stopped hs)
    refine hinv.ready (hlocated.started hstart) hgo (fun hended => ?_) hfits hwraps
    rcases hlocated.ended hended with hs | ⟨e, he, hends⟩
    · exact hstop hs
    · exact hnone e he hends

theorem ProcessRun.available_iff_version : ∃ p : Process, p.listening.sent.length = 1
    ∧ p.Ready .documented versionDatagram := by
  obtain ⟨p, hsent, hrun⟩ := exists_versionRun
  have hfits : versionDatagram.payload.length ≤ 512 := by decide
  refine ⟨p, hsent, (ProcessRun.available_iff hrun (by simp [versionRun]) (by simp [versionRun])
    hfits ?_).2 ?_⟩
  · rw [← requestOf_faults]
    decide
  · simp [versionRun, ProcessEvent.EndsLoop, hfits]

end Ready

end ProConDSU
