import Mathlib.Data.List.Forall2
import ProConDSU.Main
import ProConDSU.Proofs.Listen
import ProConDSU.Proofs.Reply
import ProConDSU.Proofs.Slots

/-!
# The process's steps

What each step of the process does (`Process.Moves`), and what they all keep: where `main` stands
says what the other threads have done (`Process.Inv`).
-/

namespace ProConDSU

namespace MainAt

/-- `main` has called `server.stop()`. -/
def stopped : MainAt → Bool
  | joining | joined | destroying | returned => true
  | starting | waiting => false

/-- `server.wait()` has returned. -/
def waited : MainAt → Bool
  | joined | destroying | returned => true
  | starting | waiting | joining => false

def inDestructor : MainAt → Bool
  | destroying | returned => true
  | starting | waiting | joining | joined => false

end MainAt

namespace Process

variable {ws : Winsock} {p p' : Process}

inductive Moves (ws : Winsock) (p : Process) : ProcessEvent → Process → Prop
  | ignored (n : ℕ) (dwCtrlType : UInt32) : p.main ≠ .returned →
    consoleCtrlHandler dwCtrlType = false → Moves ws p (.console n dwCtrlType) p
  | console (n : ℕ) (dwCtrlType : UInt32) (l : Latch Thread) : p.main ≠ .returned →
    consoleCtrlHandler dwCtrlType = true → p.shutdown.step (.raises (.console n)) = some l →
    Moves ws p (.console n dwCtrlType) { p with shutdown := l }
  | shutdown (t : Thread) (l : Latch Thread) : p.shutdown.step (.acts t) = some l →
    Moves ws p (.shutdown t) { p with shutdown := l }
  | wakes (t : Thread) (l : Latch Thread) : p.shutdown.step (.wakes t) = some l →
    Moves ws p (.wakes t) { p with shutdown := l }
  | start (l : Latch Thread) : p.main = .starting → p.shutdown.step (.waits .main) = some l →
    Moves ws p .start { p with shutdown := l, main := .waiting, listener := .checking }
  | stop : p.main = .waiting → p.shutdown.place .main = .through →
    Moves ws p .stop { p with main := .joining, listenStop := true }
  | join : p.main = .joining → p.listener = .ended → Moves ws p .join { p with main := .joined }
  | destroy : p.main = .joined →
    Moves ws p .destroy { p with main := .destroying, updateStop := true }
  | exit : p.main = .destroying → p.updater = .ended → Moves ws p .exit { p with main := .returned }
  | listenerStops : p.listener = .checking → p.listenStop = true →
    Moves ws p .listenerChecks
      { p with listener := .ended, listening := { p.listening with running := false } }
  | listenerSelects : p.listener = .checking → p.listenStop = false →
    Moves ws p .listenerChecks { p with listener := .selecting }
  | serves (stack : Stack) (select : SelectResult) (l : Listening DsuServer) :
    p.listener = .selecting →
    p.listening.iterate ws (msgHandler stack) select = .ok l →
    Moves ws p (.serves stack select)
      { p with listening := l, listener := if l.running then .checking else .ended }
  | updates (u : UpdaterAt) : p.updater ≠ .ended → (u = .ended → p.updateStop = true) →
    Moves ws p .updates { p with updater := u }
  | inputStatus (c : ProController) (handle : ℕ) (status : InputStatus) : p.main ≠ .returned →
    c ∈ p.server.controllerManager.controllers → c.handle = handle →
    Moves ws p (.inputStatus handle status) (p.setServer { p.server with
      controllerManager := c.deliver status p.server.controllerManager })

theorem moves_of_step {e : ProcessEvent} (h : p.step ws e = .ok (some p')) : p.Moves ws e p' := by
  cases e <;> simp only [step, Except.ok.injEq] at h
  case console n dwCtrlType =>
    unfold Process.console at h
    split_ifs at h with hmain htype
    · obtain ⟨l, hl, rfl⟩ := Option.map_eq_some_iff.1 h
      exact .console n dwCtrlType l hmain htype hl
    · cases h
      exact .ignored n dwCtrlType hmain (by simpa using htype)
  case shutdown t =>
    obtain ⟨l, hl, rfl⟩ := Option.map_eq_some_iff.1 h
    exact .shutdown t l hl
  case wakes t =>
    obtain ⟨l, hl, rfl⟩ := Option.map_eq_some_iff.1 h
    exact .wakes t l hl
  case start =>
    unfold Process.start at h
    split_ifs at h with hmain
    obtain ⟨l, hl, rfl⟩ := Option.map_eq_some_iff.1 h
    exact .start l hmain hl
  case listenerChecks =>
    unfold Process.listenerChecks at h
    split_ifs at h with hat hstop <;> cases h
    · exact .listenerStops hat hstop
    · exact .listenerSelects hat (by simpa using hstop)
  case serves stack select =>
    unfold Process.serves at h
    split_ifs at h with hat
    · split at h
      · cases h
      · next l hl =>
        cases h
        exact .serves stack select l hat hl
    · cases h
  case updates =>
    unfold Process.updates at h
    split at h <;> cases h
    · next hat =>
      refine .updates _ (by simp [hat]) fun hended => ?_
      split_ifs at hended with hstop
      exact hstop
    · next hat => exact .updates _ (by simp [hat]) nofun
  case inputStatus handle status =>
    unfold Process.inputStatus at h
    split_ifs at h with hmain
    obtain ⟨c, hc, rfl⟩ := Option.map_eq_some_iff.1 h
    exact .inputStatus c handle status hmain (List.mem_of_find?_eq_some hc)
      (by simpa using List.find?_some hc)
  case stop =>
    split_ifs at h with hat
    cases h
    exact .stop hat.1 hat.2
  case join =>
    split_ifs at h with hat
    cases h
    exact .join hat.1 hat.2
  case destroy =>
    split_ifs at h with hat
    cases h
    exact .destroy hat
  case exit =>
    split_ifs at h with hat
    cases h
    exact .exit hat.1 hat.2

/-- Where `main` is in `waitForCtrlC` while it is there, and otherwise before or after. -/
def Waiting (p : Process) : Prop :=
  match p.main with
  | .starting => p.shutdown.place .main = .outside
  | .waiting => (p.shutdown.place .main).waits = true
  | .joining | .joined | .destroying | .returned => p.shutdown.place .main = .through

structure Inv (p : Process) : Prop where
  latch : p.shutdown.Inv
  waiting : p.Waiting
  unstarted : p.listener = .unstarted ↔ p.main = .starting
  listenStop : p.listenStop = p.main.stopped
  joined : p.main.waited = true → p.listener = .ended
  running : p.listening.running = false ↔ p.listener = .ended
  updateStop : p.updateStop = p.main.inDestructor
  updater : p.updater = .ended → p.updateStop = true
  exited : p.main = .returned → p.updater = .ended

theorem boot_inv (srv : DsuServer) : (boot srv).Inv where
  latch := Latch.boot_inv
  waiting := rfl
  unstarted := by simp [boot]
  listenStop := rfl
  joined := by simp [boot, MainAt.waited]
  running := by simp [boot, Listening.start]
  updateStop := rfl
  updater := by simp [boot]
  exited := by simp [boot]

theorem Moves.latch {e : ProcessEvent} (h : p.Moves ws e p') (hp : p.shutdown.Inv) :
    p'.shutdown.Inv := by
  cases h with
  | console _ _ _ _ _ hl | shutdown _ _ hl | wakes _ _ hl | start _ _ hl => exact hp.step hl
  | _ => exact hp

theorem Moves.waiting {e : ProcessEvent} (h : p.Moves ws e p') (hp : p.Waiting) : p'.Waiting := by
  unfold Waiting at hp
  cases h with
  | console n _ l _ _ hl =>
    have hplace : l.place .main = p.shutdown.place .main := by
      rw [(Latch.begin_place hl).1, Function.update_of_ne (by simp)]
    simpa [Waiting, hplace] using hp
  | shutdown t l hl | wakes t l hl =>
    cases hmain : p.main <;> simp only [hmain, Waiting] at hp ⊢
    case starting => exact Latch.step_outside hl (by simp) (by simp) hp
    case waiting => exact Latch.step_waits hl hp
    all_goals exact Latch.step_through hl hp
  | start l _ hl =>
    show (l.place .main).waits = true
    rw [(Latch.begin_place hl).1, Function.update_self]
    rfl
  | stop _ hthrough => exact hthrough
  | join hmain | destroy hmain | exit hmain =>
    rw [hmain] at hp
    exact hp
  | _ => exact hp

theorem Moves.inv {e : ProcessEvent} (h : p.Moves ws e p') (hp : p.Inv) : p'.Inv := by
  have hlatch := h.latch hp.latch
  have hwaiting := h.waiting hp.waiting
  obtain ⟨-, -, hunstarted, hstop, hjoined, hrunning, hupdate, hupdater, hexited⟩ := hp
  cases h with
  | ignored | console | shutdown | wakes | inputStatus =>
    exact ⟨hlatch, hwaiting, hunstarted, hstop, hjoined, hrunning, hupdate, hupdater, hexited⟩
  | start _ hmain =>
    have hat := hunstarted.2 hmain
    rw [hat] at hrunning
    rw [hmain] at hstop hupdate
    exact ⟨hlatch, hwaiting, by simp, hstop, nofun, by simpa using hrunning, hupdate, hupdater,
      nofun⟩
  | stop hmain =>
    rw [hmain] at hunstarted hupdate
    exact ⟨hlatch, hwaiting, by simpa using hunstarted, rfl, nofun, hrunning, hupdate, hupdater,
      nofun⟩
  | join hmain hended =>
    rw [hmain] at hunstarted hstop hupdate
    exact ⟨hlatch, hwaiting, by simpa using hunstarted, hstop, fun _ => hended, hrunning, hupdate,
      hupdater, nofun⟩
  | destroy hmain =>
    rw [hmain] at hunstarted hstop hjoined
    exact ⟨hlatch, hwaiting, by simpa using hunstarted, hstop, hjoined, hrunning, rfl,
      fun _ => rfl, nofun⟩
  | exit hmain hended =>
    rw [hmain] at hunstarted hstop hjoined hupdate
    exact ⟨hlatch, hwaiting, by simpa using hunstarted, hstop, hjoined, hrunning, hupdate,
      hupdater, fun _ => hended⟩
  | listenerStops hat =>
    rw [hat] at hunstarted
    exact ⟨hlatch, hwaiting, by simpa using hunstarted, hstop, fun _ => rfl, by simp, hupdate,
      hupdater, hexited⟩
  | listenerSelects hat =>
    rw [hat] at hunstarted hjoined hrunning
    exact ⟨hlatch, hwaiting, by simpa using hunstarted, hstop, by simpa using hjoined,
      by simpa using hrunning, hupdate, hupdater, hexited⟩
  | serves _ _ l hat =>
    rw [hat] at hunstarted hjoined
    have hwaited : p.main.waited = false := by simpa using hjoined
    refine ⟨hlatch, hwaiting, ?_, hstop, by simp [hwaited], ?_, hupdate, hupdater, hexited⟩
    · split_ifs <;> simpa using hunstarted
    · show l.running = false ↔ _
      split_ifs with hon <;> simp [hon]
  | updates u hat hended =>
    refine ⟨hlatch, hwaiting, hunstarted, hstop, hjoined, hrunning, hupdate, hended,
      fun hmain => ?_⟩
    exact absurd (hexited hmain) hat

theorem run_inv {srv : DsuServer} {es : List ProcessEvent} (h : ProcessRun ws (boot srv) es p) :
    p.Inv :=
  h.invariant Inv (boot_inv srv) fun _ _ _ hp hstep => (moves_of_step hstep).inv hp

end Process

theorem DsuServer.reply_ne_nil (srv : DsuServer) (stack : Stack) (type : MessageType)
    (body : ByteBuffer) : srv.reply stack type body ≠ [] := by
  rw [← List.length_pos_iff, length_reply]
  omega

section Round

variable {σ : Type} {ws : Winsock} {msgHandler : MsgHandler σ} {l l' : Listening σ} {d : Datagram}

/-- What the handler throws, the loop does not catch. -/
theorem iterate_throws (h : d.payload.length ≤ 512) {f : Fault}
    (hthrow : msgHandler d.payload d.sender l.handler = .error f) :
    l.iterate ws msgHandler (.ready d) = .error f := by
  have hrecv := ws.recv_fits d.payload (List.replicate 512 0)
    (by rw [List.length_replicate]; exact h)
  rw [Listening.iterate, hrecv]
  simp only [List.take_left, hthrow]
  rfl

/-- A round that a datagram is ready in: it does not fit, and the loop is left, or it is handled and
its reply sent. -/
theorem iterate_ready (h : l.iterate ws msgHandler (.ready d) = .ok l') :
    (512 < d.payload.length ∧ l' = { l with running := false })
      ∨ (d.payload.length ≤ 512
        ∧ ∃ reply s, msgHandler d.payload d.sender l.handler = .ok (reply, s) ∧ l' = {
          running := l.running
          handler := s
          handled := l.handled ++ [(d.payload, d.sender)]
          sent := l.sent ++ if reply = [] then [] else [(reply, d.sender)] }) := by
  rcases Nat.lt_or_ge 512 d.payload.length with hlong | hfits
  · rw [iterate_oversized ws l hlong] at h
    cases h
    exact .inl ⟨hlong, rfl⟩
  · rcases hreply : msgHandler d.payload d.sender l.handler with f | ⟨reply, s⟩
    · rw [iterate_throws hfits hreply] at h
      cases h
    · rw [iterate_fits ws l hfits hreply] at h
      cases h
      exact .inr ⟨hfits, reply, s, rfl, rfl⟩

end Round

theorem Process.step_serves {ws : Winsock} {p : Process} {stack : Stack} {d : Datagram}
    {reply : ByteBuffer} {srv : DsuServer} (hat : p.listener = .selecting)
    (hrunning : p.listening.running = true) (hfits : d.payload.length ≤ 512)
    (hreply : p.server.handleMessage stack d.payload d.sender = .ok (reply, srv)) :
    p.step ws (.serves stack (.ready d)) = .ok (some { p with
      listener := .checking
      listening := {
        running := true
        handler := srv
        handled := p.listening.handled ++ [(d.payload, d.sender)]
        sent := p.listening.sent ++ if reply = [] then [] else [(reply, d.sender)] } }) := by
  have hround : p.listening.iterate ws (msgHandler stack) (.ready d) = .ok _ :=
    iterate_fits ws p.listening hfits hreply
  simp [step, serves, hat, hround, hrunning]

section Alone

variable {ws : Winsock} {stack : Stack}

/-- The listener's steps for these rounds. -/
def Process.OwnSteps (stack : Stack) (rounds : List Round) (es : List ProcessEvent) : Prop :=
  ∀ e ∈ es, e = .listenerChecks ∨ ∃ r ∈ rounds, e = .serves stack r.select

theorem Process.OwnSteps.cons {r : Round} {rounds : List Round} {es fs : List ProcessEvent}
    (h : OwnSteps stack [r] es) (h' : OwnSteps stack rounds fs) :
    OwnSteps stack (r :: rounds) (es ++ fs) := by
  intro e he
  rcases List.mem_append.1 he with hes | hfs
  · rcases h e hes with hcheck | ⟨r', hr', hserve⟩
    · exact .inl hcheck
    · exact .inr ⟨r', List.mem_cons.2 (.inl (List.mem_singleton.1 hr')), hserve⟩
  · rcases h' e hfs with hcheck | ⟨r', hr', hserve⟩
    · exact .inl hcheck
    · exact .inr ⟨r', List.mem_cons_of_mem _ hr', hserve⟩

/-- `listen` is what the process's listener does while no other thread takes a step. -/
theorem Process.listen_run : ∀ (rounds : List Round) (p : Process) {l : Listening DsuServer},
    p.listener = .checking → p.listening.running = true →
    (∀ r ∈ rounds, r.stopRequested = p.listenStop) →
    listen ws (msgHandler stack) p.listening rounds = .ok l →
    ∃ es p', ProcessRun ws p es p' ∧ OwnSteps stack rounds es ∧ p'.listening = l
  | [], p, l, _, _, _, h => by
    cases h
    exact ⟨[], p, .nil p, by simp [OwnSteps], rfl⟩
  | r :: rounds, p, l, hat, hrunning, hstops, h => by
    have hstop := hstops r (List.mem_cons_self ..)
    rcases hgo : p.listenStop with _ | _
    · rw [listen_cons ws _ hrunning (hstop.trans hgo)] at h
      rcases hround : p.listening.iterate ws (msgHandler stack) r.select with f | l₁ <;>
        rw [hround] at h
      · cases h
      have hcheck : p.step ws .listenerChecks = .ok (some { p with listener := .selecting }) := by
        simp [step, Process.listenerChecks, hat, hgo]
      have hserve : Process.step ws { p with listener := .selecting } (.serves stack r.select)
          = .ok (some { p with
            listening := l₁, listener := if l₁.running then .checking else .ended }) := by
        simp [step, Process.serves, hround]
      have hown : OwnSteps stack [r] [.listenerChecks, .serves stack r.select] := by
        simp [OwnSteps]
      rcases hrunning₁ : l₁.running with _ | _
      · have hl : l₁ = l := by
          have hleft := listen_stopped ws (msgHandler stack) hrunning₁ rounds
          exact Except.ok.inj (hleft.symm.trans h)
        refine ⟨[.listenerChecks, .serves stack r.select], _, .cons hcheck (.cons hserve (.nil _)),
          ?_, hl⟩
        have hrest : OwnSteps stack rounds [] := by simp [OwnSteps]
        simpa using hown.cons hrest
      · obtain ⟨es, p', hrun, hes, hl⟩ := listen_run rounds
          { p with listening := l₁, listener := if l₁.running then .checking else .ended }
          (by simp [hrunning₁]) hrunning₁ (fun r' hr' => hstops r' (List.mem_cons_of_mem _ hr')) h
        exact ⟨_, p', .cons hcheck (.cons hserve hrun), hown.cons hes, hl⟩
    · have hleave : listen ws (msgHandler stack) p.listening (r :: rounds)
          = .ok { p.listening with running := false } := by
        simp [listen, hstop, hgo]
      rw [hleave] at h
      cases h
      refine ⟨[.listenerChecks], _, .cons (t := { p with
        listener := .ended, listening := { p.listening with running := false } }) ?_ (.nil _),
        by simp [OwnSteps], rfl⟩
      simp [step, Process.listenerChecks, hat, hgo]

end Alone

namespace ServerEvent

/-- The datagram an event hands to the handler. -/
def handled : ServerEvent → Option (ByteBuffer × Connection)
  | message _ buf conn _ => some (buf, conn)
  | inputStatus _ _ => none

def sent : ServerEvent → Option (ByteBuffer × Connection)
  | message _ _ conn reply => if reply = [] then none else some (reply, conn)
  | inputStatus _ _ => none

section Message

variable {stack : Stack} {buf reply : ByteBuffer} {conn : Connection}

theorem sent_message (h : reply ≠ []) : (message stack buf conn reply).sent = some (reply, conn) :=
  if_neg h

theorem sent_message_nil (h : reply = []) : (message stack buf conn reply).sent = none := if_pos h

end Message

end ServerEvent

/-- A datagram that fits the listener's buffer, or a controller's status. -/
def ProcessEvent.reachesServer : ProcessEvent → Bool
  | .serves _ (.ready d) => d.payload.length ≤ 512
  | .inputStatus _ _ => true
  | _ => false

inductive ProcessEvent.Causes : ProcessEvent → ServerEvent → Prop
  | message (stack : Stack) (d : Datagram) (reply : ByteBuffer) :
    Causes (.serves stack (.ready d)) (.message stack d.payload d.sender reply)
  | inputStatus (handle : ℕ) (status : InputStatus) :
    Causes (.inputStatus handle status) (.inputStatus handle status)

/-- What the process has done with its server, from `srv` on: the server has taken a step for each
event that reaches it, and no other, and what was handled and sent is what those steps say. -/
structure Realizes (srv : DsuServer) (es : List ProcessEvent) (fs : List ServerEvent)
    (p : Process) : Prop where
  run : ServerRun srv fs p.server
  causes : List.Forall₂ ProcessEvent.Causes (es.filter ProcessEvent.reachesServer) fs
  handled : p.listening.handled = fs.filterMap ServerEvent.handled
  sent : p.listening.sent = fs.filterMap ServerEvent.sent

namespace Realizes

variable {srv : DsuServer} {es : List ProcessEvent} {fs : List ServerEvent} {ws : Winsock}
  {p p' : Process} {e : ProcessEvent}

theorem hidden (h : Realizes srv es fs p) (he : e.reachesServer = false)
    (hserver : p'.server = p.server) (hhandled : p'.listening.handled = p.listening.handled)
    (hsent : p'.listening.sent = p.listening.sent) : Realizes srv (es ++ [e]) fs p' where
  run := hserver ▸ h.run
  causes := by
    rw [List.filter_append, List.filter_cons_of_neg (by simp [he]), List.filter_nil,
      List.append_nil]
    exact h.causes
  handled := hhandled.trans h.handled
  sent := hsent.trans h.sent

theorem shown {f : ServerEvent} (h : Realizes srv es fs p) (he : e.reachesServer = true)
    (hcauses : e.Causes f) (hstep : p.server.Step f p'.server)
    (hhandled : p'.listening.handled = p.listening.handled ++ f.handled.toList)
    (hsent : p'.listening.sent = p.listening.sent ++ f.sent.toList) :
    Realizes srv (es ++ [e]) (fs ++ [f]) p' where
  run := h.run.append (.cons hstep (.nil _))
  causes := by
    rw [List.filter_append, List.filter_cons_of_pos he, List.filter_nil]
    exact List.rel_append h.causes (.cons hcauses .nil)
  handled := by
    rw [hhandled, h.handled, List.filterMap_append]
    rcases hf : f.handled with _ | c <;> simp [hf]
  sent := by
    rw [hsent, h.sent, List.filterMap_append]
    rcases hf : f.sent with _ | c <;> simp [hf]

theorem step (h : Realizes srv es fs p) (hmoves : p.Moves ws e p') :
    ∃ fs', Realizes srv (es ++ [e]) fs' p' := by
  cases hmoves with
  | serves stack select l hat hround =>
    cases select with
    | error | timeout | recvError =>
      cases hround
      exact ⟨fs, h.hidden rfl rfl rfl rfl⟩
    | ready d =>
      rcases iterate_ready hround with ⟨hlong, rfl⟩ | ⟨hfits, reply, srv', hreply, rfl⟩
      · exact ⟨fs, h.hidden (by simpa [ProcessEvent.reachesServer] using hlong) rfl rfl rfl⟩
      · have hstep : p.server.Step (.message stack d.payload d.sender reply) srv' :=
          ⟨hfits.trans (by decide), hreply⟩
        refine ⟨_, h.shown (by simpa [ProcessEvent.reachesServer] using hfits)
          (.message stack d reply) hstep rfl ?_⟩
        simp only [ServerEvent.sent]
        split_ifs <;> rfl
  | inputStatus c handle status _ hc hhandle =>
    have hstep : p.server.Step (.inputStatus handle status) _ := ⟨c, hc, hhandle, rfl⟩
    exact ⟨_, h.shown rfl (.inputStatus handle status) hstep (List.append_nil _).symm
      (List.append_nil _).symm⟩
  | _ => exact ⟨fs, h.hidden rfl rfl rfl rfl⟩

end Realizes

section Refinement

variable {ws : Winsock} {srv : DsuServer} {es : List ProcessEvent} {p : Process}

/-- A run of the process, whatever its threads do, is a run of the server. -/
theorem Process.run_realizes (h : ProcessRun ws (.boot srv) es p) :
    ∃ fs, Realizes srv es fs p :=
  h.history (fun es p => ∃ fs, Realizes srv es fs p) ⟨[], .nil srv, .nil, rfl, rfl⟩
    fun _ _ _ _ ⟨_, hfs⟩ hstep => hfs.step (Process.moves_of_step hstep)

/-- So the process's server is a reachable one, all along. -/
theorem ProcessRun.refines (h : ProcessRun ws (.boot srv) es p) (hboot : srv.Booted) :
    p.server.Reachable ∧ ∃ fs, Realizes srv es fs p := by
  obtain ⟨fs, hfs⟩ := Process.run_realizes h
  exact ⟨⟨srv, fs, hboot, hfs.run⟩, fs, hfs⟩

end Refinement

theorem DsuServer.oneController_booted : DsuServer.oneController.Booted :=
  ⟨rfl, connectEvents (some 5), .cons rfl <| .cons rfl <| .cons rfl <| .cons rfl <| .cons rfl <|
    .nil _⟩

/-- A version request, and a status while the listener waits for the next datagram. -/
def versionRun : List ProcessEvent :=
  [.start, .listenerChecks, .serves (.filled 0) (.ready versionDatagram), .listenerChecks,
    .inputStatus 5 .zero]

theorem exists_versionRun : ∃ p, p.listening.sent.length = 1
    ∧ ProcessRun .documented (.boot DsuServer.oneController) versionRun p := by
  have hreply : DsuServer.oneController.handleMessage (.filled 0) versionDatagram.payload ⟨7, 8⟩
      = .ok _ :=
    DsuServer.handleMessage_of_answer (by decide) rfl ⟨7, 8⟩
  have hne := DsuServer.reply_ne_nil DsuServer.oneController (.filled 0)
    (valueAt _ versionDatagram.payload 16) (ProtocolVersionResponse.serialize ⟨1001⟩)
  refine ⟨_, ?_, .cons rfl <| .cons rfl <| .cons
    (Process.step_serves rfl rfl (show versionDatagram.payload.length ≤ 512 by decide) hreply) <|
    .cons rfl <| .cons rfl <| .nil _⟩
  simp [Process.setServer, Listening.start, Process.boot, if_neg hne]

theorem ProcessRun.refines_version : ∃ p, p.listening.sent.length = 1 ∧ p.server.Reachable
    ∧ ∃ fs, Realizes DsuServer.oneController versionRun fs p := by
  obtain ⟨p, hsent, hrun⟩ := exists_versionRun
  exact ⟨p, hsent, ProcessRun.refines hrun DsuServer.oneController_booted⟩

end ProConDSU
