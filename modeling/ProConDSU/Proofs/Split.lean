import ProConDSU.Proofs.Clients
import ProConDSU.Proofs.Linear
import ProConDSU.Proofs.Shutdown

/-!
# The listener's call taken whole

While the listener is in `handleMessage`, the other threads take their steps: callbacks report,
`main` is interrupted and asks for the stop. The process that takes the call in pieces still does
nothing that the process which takes it at once could not do (`SplitRun.taken_whole`), and reaches
the same states between messages (`SplitProcess.reaches_iff`).
-/

namespace ProConDSU

namespace Listening

def withManager (l : Listening DsuServer) (m : ControllerManager) : Listening DsuServer :=
  { l with handler := { l.handler with controllerManager := m } }

theorem withManager_self {l : Listening DsuServer} {m : ControllerManager}
    (h : l.handler.controllerManager = m) : l.withManager m = l := by
  subst h
  rfl

theorem send_eq {σ : Type} (l : Listening σ) (buf : ByteBuffer) (conn : Connection) :
    l.send buf conn = { l with sent := l.sent ++ if buf = [] then [] else [(buf, conn)] } := by
  rcases buf with _ | ⟨b, bs⟩ <;> simp [send]

end Listening

section Aside

variable {ws : Winsock} {p p' : Process} {e : ProcessEvent}

/-- Out of `select`, the listener may be elsewhere and have done other things: the step is the same,
and changes at most what the controllers have reported. -/
theorem Process.step_aside (h : p.step ws e = .ok (some p')) (hat : p.listener = .selecting)
    (hmain : p.main ≠ .starting) (he : e.isRound = false) : ∃ m : ControllerManager,
      m.controllers = p.server.controllerManager.controllers
      ∧ ∀ a l, l.handler.controllerManager = p.server.controllerManager →
        Process.step ws { p with listener := a, listening := l } e
          = .ok (some { p' with listener := a, listening := l.withManager m }) := by
  by_cases hreport : ∃ handle status, e = .inputStatus handle status
  · obtain ⟨handle, status, rfl⟩ := hreport
    simp only [step, Except.ok.injEq, inputStatus] at h
    split_ifs at h with hreturned
    obtain ⟨c, hc, rfl⟩ := Option.map_eq_some_iff.1 h
    refine ⟨c.deliver status p.server.controllerManager, c.deliver_controllers _ _,
      fun a l hl => ?_⟩
    simp only [step, Except.ok.injEq, inputStatus, server]
    rw [if_neg hreturned, hl, hc]
    simp only [Option.map_some]
    rfl
  · refine ⟨p.server.controllerManager, rfl, fun a l hl => ?_⟩
    rw [Listening.withManager_self hl]
    cases moves_of_step h with
    | ignored n dwCtrlType hmain' htype => simp [step, console, hmain', htype]
    | console n dwCtrlType s hmain' htype hs => simp [step, Process.console, hmain', htype, hs]
    | shutdown t s hs | wakes t s hs => simp [step, hs]
    | start _ hstarting => exact absurd hstarting hmain
    | stop hwaiting hthrough => simp [step, hwaiting, hthrough]
    | join _ hended =>
      rw [hat] at hended
      cases hended
    | destroy hjoined => simp [step, hjoined]
    | exit hdestroying hended => simp [step, hdestroying, hended]
    | listenerStops hchecking | listenerSelects hchecking =>
      rw [hat] at hchecking
      cases hchecking
    | serves => cases he
    | updates u =>
      simp only [step, Except.ok.injEq, Process.updates] at h ⊢
      cases hu : p.updater <;> rw [hu] at h <;> cases h <;> rfl
    | inputStatus c handle status => exact absurd ⟨handle, status, rfl⟩ hreport

/-- So a process that differs from it in the listener takes the step too, and still does. -/
theorem Process.step_beside {c : Process} {l : Listening DsuServer} (hinv : c.Inv)
    (hstarted : c.listener ≠ .unstarted)
    (hl : l.handler.controllerManager = c.server.controllerManager)
    (h : Process.step ws { c with listener := .selecting, listening := l } e = .ok (some p'))
    (he : e.isRound = false) : ∃ m c', m.controllers = c.server.controllerManager.controllers
      ∧ c.step ws e = .ok (some c') ∧ c'.listener = c.listener
      ∧ c'.listening = c.listening.withManager m
      ∧ p' = { c' with listener := .selecting, listening := l.withManager m } := by
  have hmain : c.main ≠ .starting := fun hm => hstarted (hinv.unstarted.2 hm)
  obtain ⟨m, hm, hstep⟩ := Process.step_aside h rfl hmain he
  have hp := hstep .selecting l rfl
  rw [h] at hp
  refine ⟨m, { p' with listener := c.listener, listening := c.listening.withManager m },
    hm.trans (congrArg _ hl), hstep c.listener c.listening hl.symm, rfl, rfl, ?_⟩
  simpa using hp

end Aside

namespace Process

/-- `handleMessage` is handed the datagram. -/
def hands (p : Process) (d : Datagram) : Process :=
  { p with listening := { p.listening with
    handled := p.listening.handled ++ [(d.payload, d.sender)] } }

def sends (p : Process) (reply : ByteBuffer) (conn : Connection) : Process :=
  { p with listener := .checking, listening := p.listening.send reply conn }

theorem sends_handled (p : Process) (reply : ByteBuffer) (conn : Connection) :
    (p.sends reply conn).listening.handled = p.listening.handled := by
  rw [sends, Listening.send_eq]

end Process

namespace SplitProcess

variable {ws : Winsock} {q q' : SplitProcess} {e : SplitEvent}

inductive Moves (ws : Winsock) (q : SplitProcess) : SplitEvent → SplitProcess → Prop
  | whole (e : ProcessEvent) (p : Process) : q.withholds e = false →
    q.process.step ws e = .ok (some p) → Moves ws q (.whole e) { q with process := p }
  | leaves (stack : Stack) (d : Datagram) : q.handling = .idle → q.process.listener = .selecting →
    512 < d.payload.length → Moves ws q (.receives stack d) { q with process := { q.process with
      listener := .ended, listening := { q.process.listening with running := false } } }
  | receives (stack : Stack) (d : Datagram) (handling : Handling) : q.handling = .idle →
    q.process.listener = .selecting → d.payload.length ≤ 512 →
    q.process.server.receive stack d.payload = .ok handling →
    Moves ws q (.receives stack d) ⟨q.process.hands d, handling, d.sender⟩
  | checks (s : HandlerState) : q.handler.Moves .checks s → Moves ws q .checks (q.setHandler s)
  | copies (s : HandlerState) : q.handler.Moves .copies s → Moves ws q .copies (q.setHandler s)
  | sends (reply : ByteBuffer) : q.handling = .returning reply →
    Moves ws q .sends ⟨q.process.sends reply q.sender, .idle, q.sender⟩

theorem receives_at {stack : Stack} {d : Datagram} (h : q.receives ws stack d ≠ .ok none) :
    q.handling = .idle ∧ q.process.listener = .selecting := by
  unfold receives at h
  split_ifs at h with hat
  · refine ⟨?_, hat⟩
    split at h
    · assumption
    · assumption
    · exact absurd rfl h
  · exact absurd rfl h

theorem receives_oversized (hidle : q.handling = .idle) (hat : q.process.listener = .selecting)
    {d : Datagram} (hlong : 512 < d.payload.length) (stack : Stack) :
    q.receives ws stack d = .ok (some { q with process := { q.process with
      listener := .ended, listening := { q.process.listening with running := false } } }) := by
  have hrecv := ws.recv_msgsize d.payload (List.replicate 512 0)
    (by rw [List.length_replicate]; exact hlong)
  rw [receives, if_pos hat, hrecv, hidle]

theorem receives_fits (hidle : q.handling = .idle) (hat : q.process.listener = .selecting)
    {d : Datagram} (hfits : d.payload.length ≤ 512) (stack : Stack) :
    q.receives ws stack d = (q.process.server.receive stack d.payload).map
      fun handling => some ⟨q.process.hands d, handling, d.sender⟩ := by
  have hrecv := ws.recv_fits d.payload (List.replicate 512 0)
    (by rw [List.length_replicate]; exact hfits)
  have hbuf : d.payload.length ≤ maxSize := hfits.trans (by decide)
  rw [receives, if_pos hat, hrecv, hidle]
  simp only [List.take_left, handles, handler, HandlerState.step, if_pos hbuf]
  show Except.map _ (Except.map _ (q.process.server.receive stack d.payload)) = _
  rcases q.process.server.receive stack d.payload with f | handling <;> rfl

theorem step_receives (hidle : q.handling = .idle) (hat : q.process.listener = .selecting)
    {d : Datagram} (hfits : d.payload.length ≤ 512) {stack : Stack} {handling : Handling}
    (h : q.process.server.receive stack d.payload = .ok handling) :
    q.step ws (.receives stack d) = .ok (some ⟨q.process.hands d, handling, d.sender⟩) := by
  rw [step, receives_fits hidle hat hfits, h]
  rfl

theorem step_sends {reply : ByteBuffer} (h : q.handling = .returning reply) :
    q.step ws .sends = .ok (some ⟨q.process.sends reply q.sender, .idle, q.sender⟩) := by
  simp only [step, sends, h]
  rfl

theorem handles_some {f : HandlerEvent} (h : q.handles f = .ok (some q')) :
    ∃ s, q.handler.Moves f s ∧ q' = q.setHandler s := by
  unfold handles at h
  rcases hs : q.handler.step f with fault | _ | s <;> rw [hs] at h <;> cases h
  exact ⟨s, HandlerState.moves_of_step hs, rfl⟩

theorem moves_of_step (h : q.step ws e = .ok (some q')) : q.Moves ws e q' := by
  cases e with
  | whole e =>
    simp only [step] at h
    split_ifs at h with hheld
    · cases h
    · rcases hp : q.process.step ws e with f | _ | p <;> rw [hp] at h <;> cases h
      exact .whole e p (by simpa using hheld) hp
  | receives stack d =>
    change q.receives ws stack d = _ at h
    obtain ⟨hidle, hat⟩ := receives_at (by rw [h]; simp)
    rcases Nat.lt_or_ge 512 d.payload.length with hlong | hfits
    · rw [receives_oversized hidle hat hlong] at h
      cases h
      exact .leaves stack d hidle hat hlong
    · rw [receives_fits hidle hat hfits] at h
      rcases hr : q.process.server.receive stack d.payload with f | handling <;> rw [hr] at h <;>
        cases h
      exact .receives stack d handling hidle hat hfits hr
  | checks =>
    obtain ⟨s, hs, rfl⟩ := handles_some h
    exact .checks s hs
  | copies =>
    obtain ⟨s, hs, rfl⟩ := handles_some h
    exact .copies s hs
  | sends =>
    simp only [step, Except.ok.injEq] at h
    unfold SplitProcess.sends at h
    split at h
    · next reply hat =>
      cases h
      exact .sends reply hat
    · cases h

end SplitProcess

namespace SplitEvent

def received : SplitEvent → Option (Stack × Datagram)
  | receives stack d => some (stack, d)
  | whole _ | checks | copies | sends => none

def finished : SplitEvent → Option Unit
  | sends => some ()
  | whole _ | receives _ _ | checks | copies => none

def taken : SplitEvent → Option ProcessEvent
  | whole e => some e
  | receives _ _ | checks | copies | sends => none

end SplitEvent

namespace ProcessEvent

def received : ProcessEvent → Option (Stack × Datagram)
  | serves stack (.ready d) => some (stack, d)
  | _ => none

/-- Where the datagram does not fit, the listener does not come to `send`. -/
def finished : ProcessEvent → Option Unit
  | serves _ (.ready d) => if d.payload.length ≤ 512 then some () else none
  | _ => none

def taken : ProcessEvent → Option ProcessEvent
  | serves _ (.ready _) => none
  | e => some e

end ProcessEvent

/-- A datagram received is an operation of the listener's, and any other step an effect. -/
def splitInterface : Interface SplitEvent ProcessEvent (Stack × Datagram) Unit ProcessEvent where
  call := SplitEvent.received
  ret := SplitEvent.finished
  effect := SplitEvent.taken
  op := ProcessEvent.received
  res := ProcessEvent.finished
  shown := ProcessEvent.taken

/-- The process that takes each datagram at once: a connected slot's request where its status is
copied, and any other where its reply is made. -/
inductive Alongside (es : List SplitEvent) (fs : List ProcessEvent) : Process → SplitProcess → Prop
  | idle (c : Process) (conn : Connection) : splitInterface.Behind es fs [] [] →
    Alongside es fs c ⟨c, .idle, conn⟩
  | checking (c : Process) (stack : Stack) {d : Datagram} {id : ControllerIdentifier} :
    splitInterface.Behind es fs [(stack, d)] [] → c.listener = .selecting →
    d.payload.length ≤ 512 → requestOf d.payload = .data id →
    Alongside es fs c ⟨c.hands d,
      .checking stack (valueAt MessageType d.payload 16) id.slot.toNat, d.sender⟩
  | copying (c : Process) (stack : Stack) {d : Datagram} {id : ControllerIdentifier} :
    splitInterface.Behind es fs [(stack, d)] [] → c.listener = .selecting →
    d.payload.length ≤ 512 → requestOf d.payload = .data id →
    id.slot.toNat < c.server.controllerManager.controllers.length →
    Alongside es fs c ⟨(c.hands d).setServer { c.server with
        packetCounter := c.server.packetCounter + 1 },
      .copying stack (valueAt MessageType d.payload 16) id.slot.toNat
        (c.server.numberedData stack id.slot.toNat), d.sender⟩
  | returning (p : Process) (reply : ByteBuffer) (conn : Connection) :
    splitInterface.Behind es fs [] [()] → p.listener = .selecting →
    Alongside es fs (p.sends reply conn) ⟨p, .returning reply, conn⟩

section Steps

variable {ws : Winsock} {es : List SplitEvent} {fs : List ProcessEvent} {c : Process}
  {q q' : SplitProcess} {e : SplitEvent}

theorem Alongside.agrees (h : Alongside es fs c q) : splitInterface.Agrees es fs := by
  cases h with
  | idle _ _ h | checking _ _ h | copying _ _ h | returning _ _ _ h => exact h.agrees

/-- The datagram, at once. -/
theorem Process.step_sends (hinv : c.Inv) (hat : c.listener = .selecting) {stack : Stack}
    {d : Datagram} (hfits : d.payload.length ≤ 512) {reply : ByteBuffer} {srv : DsuServer}
    (hm : c.server.handleMessage stack d.payload d.sender = .ok (reply, srv)) :
    c.step ws (.serves stack (.ready d))
      = .ok (some (((c.hands d).setServer srv).sends reply d.sender)) := by
  have hrunning : c.listening.running = true := by
    rw [← Bool.not_eq_false, hinv.running, hat]
    simp
  rw [step_serves hat hrunning hfits hm, sends, Listening.send_eq, ← hrunning]
  rfl

/-- The reply is made, and with it the datagram's step. -/
theorem Alongside.answers {rest : List (Stack × Datagram)}
    (hbehind : splitInterface.Behind es fs rest []) (hinv : c.Inv) (hat : c.listener = .selecting)
    {stack : Stack} {d : Datagram} (hfits : d.payload.length ≤ 512) {reply : ByteBuffer}
    {srv : DsuServer} (hm : c.server.handleMessage stack d.payload d.sender = .ok (reply, srv))
    (hreceived : rest ++ e.received.toList = [(stack, d)]) (hfinished : e.finished = none)
    (htaken : e.taken = none) : ∃ gs c', ProcessRun ws c gs c'
      ∧ Alongside (es ++ [e]) (fs ++ gs) c'
        ⟨(c.hands d).setServer srv, .returning reply, d.sender⟩ := by
  refine ⟨[.serves stack (.ready d)], _, .cons (Process.step_sends hinv hat hfits hm) (.nil _),
    .returning _ reply d.sender (hbehind.step hreceived ?_ ?_) hat⟩
  · simp [splitInterface, ProcessEvent.finished, hfits, hfinished]
  · simp [splitInterface, ProcessEvent.taken, htaken]

theorem Alongside.receives (h : Alongside es fs c q) (hinv : c.Inv) {stack : Stack} {d : Datagram}
    {handling : Handling} (hidle : q.handling = .idle) (hat : q.process.listener = .selecting)
    (hfits : d.payload.length ≤ 512)
    (hreceive : q.process.server.receive stack d.payload = .ok handling) :
    ∃ gs c', ProcessRun ws c gs c' ∧ Alongside (es ++ [.receives stack d]) (fs ++ gs) c'
      ⟨q.process.hands d, handling, d.sender⟩ := by
  have hbuf : d.payload.length ≤ maxSize := hfits.trans (by decide)
  cases h with
  | checking | copying | returning => cases hidle
  | idle _ _ hbehind =>
    by_cases hdata : ∃ id, requestOf d.payload = .data id
    · obtain ⟨id, hreq⟩ := hdata
      rw [DsuServer.receive_data stack _ hbuf hreq] at hreceive
      cases hreceive
      have hstep : splitInterface.Behind (es ++ [.receives stack d]) (fs ++ []) [(stack, d)] [] :=
        hbehind.step rfl rfl rfl
      exact ⟨[], c, .nil c, .checking c stack hstep hat hfits hreq⟩
    · have hr : ∀ id, requestOf d.payload ≠ .data id := not_exists.1 hdata
      rw [DsuServer.receive_other stack _ hbuf hr d.sender] at hreceive
      rcases hm : c.server.handleMessage stack d.payload d.sender with f | ⟨reply, srv⟩ <;>
        rw [hm] at hreceive <;> cases hreceive
      rw [DsuServer.handleMessage_same hbuf hr hm] at hm
      exact Alongside.answers hbehind hinv hat hfits hm rfl rfl rfl

theorem SplitProcess.withholds_eq {e : ProcessEvent} (h : q.withholds e = false) :
    e.received = none ∧ e.finished = none ∧ e.taken = some e
      ∧ (q.handling ≠ .idle → e.isRound = false) := by
  cases e with
  | serves stack select =>
    cases select with
    | error | timeout | recvError =>
      exact ⟨rfl, rfl, rfl, fun hbusy => by cases hat : q.handling <;> simp_all [withholds]⟩
    | ready d => cases h
  | _ => exact ⟨rfl, rfl, rfl, fun _ => rfl⟩

theorem Alongside.whole (h : Alongside es fs c q) (hinv : c.Inv) {e : ProcessEvent} {p : Process}
    (hheld : q.withholds e = false) (hstep : q.process.step ws e = .ok (some p)) :
    ∃ gs c', ProcessRun ws c gs c'
      ∧ Alongside (es ++ [.whole e]) (fs ++ gs) c' { q with process := p } := by
  obtain ⟨hreceived, hfinished, htaken, hbusy⟩ := SplitProcess.withholds_eq hheld
  have hbehind : ∀ {rest left}, splitInterface.Behind es fs rest left →
      splitInterface.Behind (es ++ [.whole e]) (fs ++ [e]) rest left := fun h =>
    h.step (by simp [splitInterface, hreceived, SplitEvent.received])
      (by simp [splitInterface, hfinished, SplitEvent.finished])
      (by simp [splitInterface, htaken, SplitEvent.taken])
  cases h with
  | idle _ conn h => exact ⟨[e], p, .cons hstep (.nil p), .idle p conn (hbehind h)⟩
  | @checking _ stack d id h hat hfits hreq =>
    obtain ⟨m, c', -, hc, hlistener, hlistening, rfl⟩ := Process.step_beside hinv (by simp [hat])
      (l := (c.hands d).listening) rfl (by rw [← hat]; exact hstep) (hbusy (by simp))
    have hhands : { c' with
        listener := .selecting
        listening := (c.hands d).listening.withManager m } = c'.hands d := by
      show _ = { c' with listening := { c'.listening with
        handled := c'.listening.handled ++ [(d.payload, d.sender)] } }
      rw [hlistening, hlistener, hat]
      rfl
    rw [hhands]
    exact ⟨[e], c', .cons hc (.nil c'),
      .checking c' stack (hbehind h) (hlistener.trans hat) hfits hreq⟩
  | @copying _ stack d id h hat hfits hreq hlt =>
    obtain ⟨m, c', hm, hc, hlistener, hlistening, rfl⟩ := Process.step_beside hinv (by simp [hat])
      (l := ((c.hands d).setServer { c.server with
        packetCounter := c.server.packetCounter + 1 }).listening) rfl
      (by rw [← hat]; exact hstep) (hbusy (by simp))
    have hserver : c'.server = { c.server with controllerManager := m } := by
      rw [Process.server, hlistening]
      rfl
    have hhands : { c' with
        listener := .selecting
        listening := ((c.hands d).setServer { c.server with
          packetCounter := c.server.packetCounter + 1 }).listening.withManager m }
        = (c'.hands d).setServer { c'.server with
          packetCounter := c'.server.packetCounter + 1 } := by
      show _ = { c' with listening := { c'.listening with
        handled := c'.listening.handled ++ [(d.payload, d.sender)]
        handler := { c'.server with packetCounter := c'.server.packetCounter + 1 } } }
      rw [hserver, hlistening, hlistener, hat]
      rfl
    have hnumbered : c.server.numberedData stack id.slot.toNat
        = c'.server.numberedData stack id.slot.toNat := by
      rw [hserver]
      rfl
    have hlt' : id.slot.toNat < c'.server.controllerManager.controllers.length := by
      rw [hserver]
      exact hm ▸ hlt
    rw [hhands, hnumbered]
    exact ⟨[e], c', .cons hc (.nil c'),
      .copying c' stack (hbehind h) (hlistener.trans hat) hfits hreq hlt'⟩
  | returning p reply conn h hat =>
    obtain ⟨m, c', -, hc, hlistener, hlistening, rfl⟩ := Process.step_beside
      (c := p.sends reply conn) hinv (by simp [Process.sends]) (l := p.listening)
      (by rw [Process.server, Process.sends, Listening.send_eq]) (by rw [← hat]; exact hstep)
      (hbusy (by simp))
    have hsends : c' = Process.sends { c' with
        listener := .selecting, listening := p.listening.withManager m } reply conn := by
      have hsent : (p.listening.withManager m).send reply conn = c'.listening := by
        rw [hlistening, Process.sends, Listening.send_eq, Listening.send_eq]
        rfl
      have hchecking : ListenerAt.checking = c'.listener := hlistener.symm
      show c' = { c' with
        listener := .checking, listening := (p.listening.withManager m).send reply conn }
      rw [hsent, hchecking]
    refine ⟨[e], c', .cons hc (.nil c'), ?_⟩
    have hreturning := Alongside.returning { c' with
      listener := .selecting, listening := p.listening.withManager m } reply conn (hbehind h) rfl
    rwa [← hsends] at hreturning

theorem Alongside.leaves (h : Alongside es fs c q) {stack : Stack} {d : Datagram}
    (hidle : q.handling = .idle) (hat : q.process.listener = .selecting)
    (hlong : 512 < d.payload.length) :
    ∃ gs c', ProcessRun ws c gs c' ∧ Alongside (es ++ [.receives stack d]) (fs ++ gs) c'
      { q with process := { q.process with
        listener := .ended, listening := { q.process.listening with running := false } } } := by
  cases h with
  | checking | copying | returning => cases hidle
  | idle _ conn h =>
    have hround : c.step ws (.serves stack (.ready d)) = .ok (some { c with
        listener := .ended, listening := { c.listening with running := false } }) := by
      have hleft : c.listening.iterate ws (Process.msgHandler stack) (.ready d)
          = .ok { c.listening with running := false } := iterate_oversized ws c.listening hlong
      simp only [Process.step, Process.serves, hleft]
      rw [if_pos hat]
      rfl
    exact ⟨[.serves stack (.ready d)], _, .cons hround (.nil _), .idle _ conn
      (h.step rfl (by simp [splitInterface, ProcessEvent.finished, SplitEvent.finished, hlong])
        rfl)⟩

theorem Alongside.checks (h : Alongside es fs c q) (hinv : c.Inv) {s : HandlerState}
    (hmoves : q.handler.Moves .checks s) : ∃ gs c', ProcessRun ws c gs c'
      ∧ Alongside (es ++ [.checks]) (fs ++ gs) c' (q.setHandler s) := by
  cases hmoves with
  | refuses stack type i hat hge =>
    cases h with
    | idle | copying | returning => cases hat
    | @checking _ _ d id hbehind hselecting hfits hreq =>
      cases hat
      have hm := DsuServer.handleMessage_data stack c.server (hfits.trans (by decide)) hreq d.sender
      rw [DsuServer.buildControllerDataResponse_disconnected stack c.server hge] at hm
      exact Alongside.answers hbehind hinv hselecting hfits hm rfl rfl rfl
  | numbers stack type i hat hlt =>
    cases h with
    | idle | copying | returning => cases hat
    | checking _ _ hbehind hselecting hfits hreq =>
      cases hat
      exact ⟨[], c, .nil c, .copying c stack (hbehind.step rfl rfl rfl) hselecting hfits hreq hlt⟩

theorem Alongside.copies (h : Alongside es fs c q) (hinv : c.Inv) {s : HandlerState}
    (hmoves : q.handler.Moves .copies s) : ∃ gs c', ProcessRun ws c gs c'
      ∧ Alongside (es ++ [.copies]) (fs ++ gs) c' (q.setHandler s) := by
  cases hmoves with
  | copies stack type i cdrs hat =>
    cases h with
    | idle | checking | returning => cases hat
    | @copying _ _ d id hbehind hselecting hfits hreq hlt =>
      cases hat
      have hm := DsuServer.handleMessage_data stack c.server (hfits.trans (by decide)) hreq d.sender
      rw [DsuServer.buildControllerDataResponse_eq stack c.server hlt] at hm
      exact Alongside.answers hbehind hinv hselecting hfits hm rfl rfl rfl

theorem Alongside.step (h : Alongside es fs c q) (hinv : c.Inv) (hmoves : q.Moves ws e q') :
    ∃ gs c', ProcessRun ws c gs c' ∧ Alongside (es ++ [e]) (fs ++ gs) c' q' := by
  cases hmoves with
  | whole e p hheld hstep => exact h.whole hinv hheld hstep
  | leaves stack d hidle hat hlong => exact h.leaves hidle hat hlong
  | receives stack d handling hidle hat hfits hreceive =>
    exact h.receives hinv hidle hat hfits hreceive
  | checks s hs => exact h.checks hinv hs
  | copies s hs => exact h.copies hinv hs
  | sends reply hat =>
    cases h with
    | idle | checking | copying => cases hat
    | returning p _ conn hbehind =>
      cases hat
      exact ⟨[], _, .nil _, .idle _ conn (hbehind.step rfl rfl rfl)⟩

end Steps

/-- What the process that takes each datagram at once shows of the other. -/
structure Follows (ws : Winsock) (q : SplitProcess) (c : Process) : Prop where
  eq : c = { q.process with listener := c.listener, listening := c.listening }
  handled : c.listening.handled <+: q.process.listening.handled
  sent : q.process.listening.sent <+: c.listening.sent
  between : q.handling = .idle → c = q.process
  throws : ∀ e f, q.step ws e = .error f → ∃ e', c.step ws e' = .error f

section Runs

variable {ws : Winsock} {srv : DsuServer} {es : List SplitEvent} {fs : List ProcessEvent}
  {c : Process} {q : SplitProcess}

/-- Only the receipt of a datagram can throw. -/
theorem SplitProcess.throws_inv {e : SplitEvent} {f : Fault} (h : q.step ws e = .error f) :
    ∃ (stack : Stack) (d : Datagram), q.handling = .idle ∧ q.process.listener = .selecting
      ∧ d.payload.length ≤ 512 ∧ q.process.server.receive stack d.payload = .error f := by
  cases e with
  | whole e =>
    simp only [step] at h
    split_ifs at h with hheld
    cases e with
    | serves stack select =>
      cases select with
      | error | timeout | recvError =>
        by_cases hat : q.process.listener = .selecting <;>
          simp [Process.step, Process.serves, hat, Listening.iterate, Except.map] at h
      | ready d => exact absurd rfl hheld
    | _ => cases h
  | receives stack d =>
    change q.receives ws stack d = _ at h
    obtain ⟨hidle, hat⟩ := receives_at (by rw [h]; simp)
    rcases Nat.lt_or_ge 512 d.payload.length with hlong | hfits
    · rw [receives_oversized hidle hat hlong] at h
      cases h
    · rw [receives_fits hidle hat hfits] at h
      refine ⟨stack, d, hidle, hat, hfits, ?_⟩
      rcases hr : q.process.server.receive stack d.payload with f' | handling <;> rw [hr] at h <;>
        cases h
      rfl
  | checks =>
    simp only [step, handles, HandlerState.step] at h
    split at h
    · split at h <;> cases h
    · cases h
  | copies =>
    simp only [step, handles, HandlerState.step] at h
    split at h <;> cases h
  | sends => cases h

theorem Alongside.throws (h : Alongside es fs c q) {e : SplitEvent} {f : Fault}
    (hthrow : q.step ws e = .error f) : ∃ e', c.step ws e' = .error f := by
  obtain ⟨stack, d, hidle, hat, hfits, hreceive⟩ := SplitProcess.throws_inv hthrow
  have hbuf : d.payload.length ≤ maxSize := hfits.trans (by decide)
  cases h with
  | checking | copying | returning => cases hidle
  | idle =>
    by_cases hdata : ∃ id, requestOf d.payload = .data id
    · obtain ⟨id, hreq⟩ := hdata
      rw [DsuServer.receive_data stack _ hbuf hreq] at hreceive
      cases hreceive
    · rw [DsuServer.receive_other stack _ hbuf (not_exists.1 hdata) d.sender] at hreceive
      have hm : c.server.handleMessage stack d.payload d.sender = .error f := by
        rcases hm : c.server.handleMessage stack d.payload d.sender with f' | r <;>
          rw [hm] at hreceive <;> cases hreceive
        rfl
      have hround : c.listening.iterate ws (Process.msgHandler stack) (.ready d) = .error f :=
        iterate_throws hfits hm
      refine ⟨.serves stack (.ready d), ?_⟩
      rw [Process.step, Process.serves, if_pos hat, hround]

theorem Alongside.follows (h : Alongside es fs c q) : Follows ws q c := by
  have hthrows : ∀ e f, q.step ws e = .error f → ∃ e', c.step ws e' = .error f :=
    fun _ _ hthrow => h.throws hthrow
  cases h with
  | idle => exact ⟨rfl, List.prefix_rfl, List.prefix_rfl, fun _ => rfl, hthrows⟩
  | checking => exact ⟨rfl, List.prefix_append .., List.prefix_rfl, nofun, hthrows⟩
  | copying => exact ⟨rfl, List.prefix_append .., List.prefix_rfl, nofun, hthrows⟩
  | returning p reply conn =>
    refine ⟨rfl, ?_, ?_, nofun, hthrows⟩
    · rw [Process.sends_handled]
    · rw [Process.sends, Listening.send_eq]
      exact List.prefix_append ..

theorem SplitRun.alongside (h : SplitRun ws (.boot srv) es q) : ∃ fs c,
    ProcessRun ws (.boot srv) fs c ∧ splitInterface.Linearizes es fs ∧ Alongside es fs c q := by
  obtain ⟨fs, c, hrun, hlinear, -, halong⟩ := Run.linearized
    (fun es fs q c => c.Inv ∧ Alongside es fs c q) (fun _ _ _ _ h => h.2.agrees)
    (fun es fs q c e q' ⟨hinv, h⟩ hstep => by
      obtain ⟨gs, c', hrun, h'⟩ := h.step hinv (SplitProcess.moves_of_step hstep)
      have hinv' : c'.Inv := hrun.invariant Process.Inv hinv
        fun _ _ _ hp hs => (Process.moves_of_step hs).inv hp
      exact ⟨gs, c', hrun, hinv', h'⟩)
    h ⟨Process.boot_inv srv, .idle _ _ .nil⟩
  exact ⟨fs, c, hrun, hlinear, halong⟩

theorem SplitProcess.handles_eq {s s' : HandlerState} {f : HandlerEvent}
    (h : s.step f = .ok (some s')) :
    (q.setHandler s).handles f = .ok (some (q.setHandler s')) := by
  show Except.map _ (s.step f) = _
  rw [h]
  rfl

/-- The pieces that are left of a call, one after another. -/
theorem SplitProcess.handles_run {s s' : HandlerState} {pieces : List HandlerEvent}
    (h : s.Runs pieces s') (hpieces : ∀ e ∈ pieces, e = .checks ∨ e = .copies) :
    ∃ es, SplitRun ws (q.setHandler s) es (q.setHandler s') := by
  induction h with
  | nil s => exact ⟨[], .nil _⟩
  | @cons s t u f pieces hstep _ ih =>
    obtain ⟨es, hes⟩ := ih fun e he => hpieces e (List.mem_cons_of_mem _ he)
    have hnext := SplitProcess.handles_eq (q := q) hstep
    rcases hpieces f (List.mem_cons_self ..) with rfl | rfl
    · exact ⟨.checks :: es, .cons hnext hes⟩
    · exact ⟨.copies :: es, .cons hnext hes⟩

/-- The datagram, a piece at a time. -/
theorem Process.splits_ready {p : Process} {d : Datagram} {stack : Stack}
    (hat : p.listener = .selecting) (hfits : d.payload.length ≤ 512) {reply : ByteBuffer}
    {srv : DsuServer} (hm : p.server.handleMessage stack d.payload d.sender = .ok (reply, srv))
    (conn : Connection) : ∃ es, SplitRun ws ⟨p, .idle, conn⟩ es
      ⟨((p.hands d).setServer srv).sends reply d.sender, .idle, d.sender⟩ := by
  obtain ⟨pieces, hrun, hpieces⟩ := HandlerState.handleMessage_runs (hfits.trans (by decide)) hm
  obtain ⟨s, hreceives, hrest⟩ := Run.cons_iff.1 hrun
  obtain ⟨s', hmiddle, hend⟩ := Run.append_iff.1 hrest
  obtain ⟨t, hreturns, ht⟩ := Run.cons_iff.1 hend
  cases Run.nil_iff.1 ht
  cases HandlerState.moves_of_step hreceives with
  | receives _ _ _ handling _ _ hreceive =>
    let q : SplitProcess := ⟨p.hands d, .idle, d.sender⟩
    obtain ⟨es, hes⟩ : ∃ es, SplitRun ws (q.setHandler { HandlerState.start p.server with
        handling := handling }) es (q.setHandler s') := SplitProcess.handles_run hmiddle hpieces
    have hstep : SplitProcess.step ws ⟨p, .idle, conn⟩ (.receives stack d)
        = .ok (some ⟨p.hands d, handling, d.sender⟩) :=
      SplitProcess.step_receives rfl hat hfits hreceive
    generalize hafter : HandlerState.start srv = after at hreturns
    cases HandlerState.moves_of_step hreturns with
    | returns _ hreturning =>
      obtain ⟨server, _⟩ := s'
      cases hafter
      cases hreturning
      refine ⟨_, .cons hstep (hes.append (.cons (SplitProcess.step_sends rfl) (.nil _)))⟩

theorem Process.splits {p p' : Process} {e : ProcessEvent} (hinv : p.Inv)
    (h : p.step ws e = .ok (some p')) (conn : Connection) :
    ∃ es conn', SplitRun ws ⟨p, .idle, conn⟩ es ⟨p', .idle, conn'⟩ := by
  by_cases hready : ∃ stack d, e = .serves stack (.ready d)
  · obtain ⟨stack, d, rfl⟩ := hready
    cases Process.moves_of_step h with
    | serves _ _ l hat hround =>
      rcases iterate_ready hround with ⟨hlong, rfl⟩ | ⟨hfits, reply, srv, hm, -⟩
      · exact ⟨[.receives stack d], conn,
          .cons (SplitProcess.receives_oversized rfl hat hlong stack) (.nil _)⟩
      · have hsends : p.step ws (.serves stack (.ready d))
            = .ok (some (((p.hands d).setServer srv).sends reply d.sender)) :=
          Process.step_sends hinv hat hfits hm
        rw [h] at hsends
        simp only [Except.ok.injEq, Option.some.injEq] at hsends
        rw [hsends]
        obtain ⟨es, hes⟩ := Process.splits_ready hat hfits hm conn
        exact ⟨es, d.sender, hes⟩
  · have hheld : (⟨p, .idle, conn⟩ : SplitProcess).withholds e = false := by
      cases e with
      | serves stack select =>
        cases select with
        | error | timeout | recvError => rfl
        | ready d => exact absurd ⟨stack, d, rfl⟩ hready
      | _ => rfl
    have hstep : SplitProcess.step ws ⟨p, .idle, conn⟩ (.whole e)
        = .ok (some ⟨p', .idle, conn⟩) := by
      simp [SplitProcess.step, hheld, h, Except.map]
    exact ⟨[.whole e], conn, .cons hstep (.nil _)⟩

/-- Between messages, the two are in the same states. -/
theorem SplitProcess.reaches_iff {p : Process} :
    (∃ es conn, SplitRun ws (.boot srv) es ⟨p, .idle, conn⟩)
      ↔ ∃ fs, ProcessRun ws (.boot srv) fs p := by
  refine ⟨?_, ?_⟩
  · rintro ⟨es, conn, h⟩
    obtain ⟨fs, c, hrun, -, halong⟩ := SplitRun.alongside h
    cases halong with
    | idle => exact ⟨fs, hrun⟩
  · rintro ⟨fs, h⟩
    have hkept : p.Inv ∧ ∃ es conn, SplitRun ws (.boot srv) es ⟨p, .idle, conn⟩ := by
      refine h.invariant (fun p => p.Inv ∧ ∃ es conn, SplitRun ws (.boot srv) es ⟨p, .idle, conn⟩)
        ⟨Process.boot_inv srv, [], _, .nil _⟩ ?_
      rintro p e p' ⟨hinv, es, conn, hes⟩ hstep
      obtain ⟨gs, conn', hgs⟩ := Process.splits hinv hstep conn
      exact ⟨(Process.moves_of_step hstep).inv hinv, es ++ gs, conn', hes.append hgs⟩
    exact hkept.2

end Runs

end ProConDSU
