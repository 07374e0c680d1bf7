import ProConDSU.Proofs.PacketNum

/-!
# What a message leaves as it was

The answer to a connected slot's data request moves the packet counter on by one, and no other
message changes the server (`handleMessage_frame`). Over a run the counter has counted those
answers, and each carries what the counter had come to (`ServerRun.framed`).
-/

namespace ProConDSU

/-- What a run's messages leave, `srv` having `n` slots. -/
structure Framed (n : ℕ) (srv : DsuServer) (es : List ServerEvent) (srv' : DsuServer) : Prop where
  counter : srv'.packetCounter = srv.packetCounter + UInt32.ofNat (askers n es).length
  packetNum : ∀ (k : ℕ) (conn : Connection) (num : UInt32),
    (numberedReplies n es)[k]? = some (conn, num) → num = srv.packetCounter + UInt32.ofNat k
  answered : ∀ pre post stack buf conn reply s t,
    es = pre ++ .message stack buf conn reply :: post → ServerRun srv pre s →
    s.Step (.message stack buf conn reply) t → AsksConnected n buf →
    t = { s with packetCounter := s.packetCounter + 1 }
  others : ∀ pre post stack buf conn reply s t,
    es = pre ++ .message stack buf conn reply :: post → ServerRun srv pre s →
    s.Step (.message stack buf conn reply) t → ¬ AsksConnected n buf → t = s

section Runs

variable {srv srv' : DsuServer} {es : List ServerEvent}

theorem ServerRun.controllers (h : ServerRun srv es srv') :
    srv'.controllerManager.controllers = srv.controllerManager.controllers :=
  h.invariant (fun s => s.controllerManager.controllers = srv.controllerManager.controllers) rfl
    fun _ _ _ hs hstep => hstep.controllers.trans hs

theorem ServerRun.packetCounter (h : ServerRun srv es srv') :
    srv'.packetCounter = srv.packetCounter
      + UInt32.ofNat (askers srv.controllerManager.controllers.length es).length := by
  rw [← iterate_add_one]
  induction h with
  | nil => rfl
  | cons hstep _ ih =>
    rw [hstep.controllers] at ih
    rw [ih, askers, askers, List.filterMap_cons]
    rcases hstep.packetNum with ⟨conn, hconn, -, hnext⟩ | ⟨hnone, hsame⟩
    · rw [hconn, List.length_cons, Function.iterate_succ_apply, hnext]
    · rw [hnone, hsame]

/-- Over any run, from any state. -/
theorem ServerRun.framed (h : ServerRun srv es srv') :
    Framed srv.controllerManager.controllers.length srv es srv' where
  counter := h.packetCounter
  packetNum k conn num hk := by
    rw [DsuServer.numberedReplies_eq h, Numbering.getElem?_number, iterate_add_one] at hk
    obtain ⟨conn', -, heq⟩ := Option.map_eq_some_iff.1 hk
    exact (Prod.ext_iff.1 heq).2.symm
  answered pre post stack buf conn reply s t _ hpre hstep := by
    rw [← hpre.controllers]
    exact (DsuServer.handleMessage_frame hstep.1 hstep.2).1
  others pre post stack buf conn reply s t _ hpre hstep := by
    rw [← hpre.controllers]
    exact (DsuServer.handleMessage_frame hstep.1 hstep.2).2

end Runs

theorem ServerRun.framed_twice : ∃ es srv', ServerRun DsuServer.oneController es srv'
    ∧ askers 1 es = [⟨1, 1⟩, ⟨2, 2⟩] ∧ Framed 1 DsuServer.oneController es srv' := by
  obtain ⟨es, srv', hrun, hask⟩ := exists_run_askers [⟨1, 1⟩, ⟨2, 2⟩] DsuServer.oneController
    (by decide)
  exact ⟨es, srv', hrun, hask, ServerRun.framed hrun⟩

end ProConDSU
