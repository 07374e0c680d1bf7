import ProConDSU.Lib.Linear
import ProConDSU.Proofs.Slots

/-!
# Messages taken whole

Callbacks run on threads of their own, between any two steps of `handleMessage`. Whatever they do,
there is an order in which each message is handled at once, somewhere between its receipt and its
return, and in which the replies and the server come out the same (`HandlerRun.linearizable`). So
what holds over the server's runs holds over these.
-/

namespace ProConDSU

namespace DsuServer

variable {stack : Stack} {srv srv' : DsuServer} {buf reply : ByteBuffer} {i : ℕ}

theorem answer_same {r : Request} {body : Option ByteBuffer} (hr : ∀ id, r ≠ .data id)
    (h : srv.answer stack r = .ok (body, srv')) : srv' = srv := by
  cases r with simp only [answer, reduceCtorEq, Except.ok.injEq, Prod.mk.injEq] at h
  | data id => exact absurd rfl (hr id)
  | dropped | version | info | motors | rumble => exact h.2.symm

theorem handleMessage_same (hbuf : buf.length ≤ maxSize) (hr : ∀ id, requestOf buf ≠ .data id)
    {conn : Connection} (h : srv.handleMessage stack buf conn = .ok (reply, srv')) :
    srv' = srv := by
  rcases handleMessage_cases hbuf h with ⟨-, -, hsame⟩ | ⟨body, ha, -⟩
  · exact hsame
  · exact answer_same hr ha

section Receive

variable (stack) (srv) (hbuf : buf.length ≤ maxSize)
include hbuf

theorem receive_data {id : ControllerIdentifier} (hreq : requestOf buf = .data id) :
    srv.receive stack buf
      = .ok (.checking stack (valueAt MessageType buf 16) id.slot.toNat) := by
  have henv : Enveloped buf := enveloped_of_request (by rw [hreq]; simp)
  rw [requestOf, if_pos henv] at hreq
  rw [receive, readRequest_eq stack hbuf, if_pos henv]
  simp only
  rw [switch_eq, hreq]
  rfl

theorem receive_other (hr : ∀ id, requestOf buf ≠ .data id) (conn : Connection) :
    srv.receive stack buf
      = (srv.handleMessage stack buf conn).map fun r => .returning r.1 := by
  rw [receive, handleMessage, readRequest_eq stack hbuf]
  split_ifs with henv
  · have hreq : requestOf buf = (packetOf buf).request := if_pos henv
    simp only
    rw [switch_eq]
    rcases hcase : srv.caseOf stack (packetOf buf).request with f | _ | body | i
    · rfl
    · rfl
    · rfl
    · rcases hkind : (packetOf buf).request <;> rw [hkind] at hcase <;> cases hcase
      exact absurd (hreq.trans hkind) (hr _)
  · rfl

end Receive

end DsuServer

namespace HandlerState

variable {s s' : HandlerState}

inductive Moves (s : HandlerState) : HandlerEvent → HandlerState → Prop
  | receives (stack : Stack) (buf : ByteBuffer) (conn : Connection) (handling : Handling) :
    s.handling = .idle → buf.length ≤ maxSize → s.server.receive stack buf = .ok handling →
    Moves s (.receives stack buf conn) { s with handling := handling }
  | refuses (stack : Stack) (type : MessageType) (i : ℕ) : s.handling = .checking stack type i →
    s.server.controllerManager.controllers.length ≤ i →
    Moves s .checks { s with handling := .returning (s.server.reply stack type
      (DsuServer.disconnectedData stack).serialize) }
  | numbers (stack : Stack) (type : MessageType) (i : ℕ) : s.handling = .checking stack type i →
    i < s.server.controllerManager.controllers.length →
    Moves s .checks ⟨{ s.server with packetCounter := s.server.packetCounter + 1 },
      .copying stack type i (s.server.numberedData stack i)⟩
  | copies (stack : Stack) (type : MessageType) (i : ℕ) (cdrs : ControllersDataResponse) :
    s.handling = .copying stack type i cdrs →
    Moves s .copies { s with handling := .returning (s.server.reply stack type
      (s.server.copyStatus stack i cdrs).serialize) }
  | returns (reply : ByteBuffer) : s.handling = .returning reply →
    Moves s (.returns reply) { s with handling := .idle }
  | inputStatus (c : ProController) (handle : ℕ) (status : InputStatus) :
    c ∈ s.server.controllerManager.controllers → c.handle = handle →
    Moves s (.inputStatus handle status) { s with server := { s.server with
      controllerManager := c.deliver status s.server.controllerManager } }

theorem moves_of_step {e : HandlerEvent} (h : s.step e = .ok (some s')) : s.Moves e s' := by
  cases e with
  | receives stack buf conn =>
    cases hat : s.handling <;> simp only [step, hat, Except.ok.injEq, reduceCtorEq] at h
    split_ifs at h with hbuf
    · rcases hr : s.server.receive stack buf with f | handling <;> rw [hr] at h <;> cases h
      exact .receives stack buf conn handling hat hbuf hr
    · cases h
  | checks =>
    cases hat : s.handling <;> simp only [step, hat, Except.ok.injEq, reduceCtorEq] at h
    case checking stack type i =>
      rcases Nat.lt_or_ge i s.server.controllerManager.controllers.length with hlt | hge
      · rw [DsuServer.beginData_connected stack s.server hlt] at h
        cases h
        exact .numbers stack type i hat hlt
      · rw [DsuServer.beginData_disconnected stack s.server hge] at h
        cases h
        exact .refuses stack type i hat hge
  | copies =>
    cases hat : s.handling <;> simp only [step, hat, Except.ok.injEq, reduceCtorEq] at h
    cases h
    exact .copies _ _ _ _ hat
  | returns reply =>
    cases hat : s.handling <;> simp only [step, hat, Except.ok.injEq, reduceCtorEq] at h
    split_ifs at h with hsame
    cases h
    exact .returns reply (by rw [hat, hsame])
  | inputStatus handle status =>
    simp only [step, Except.ok.injEq] at h
    obtain ⟨c, hc, rfl⟩ := Option.map_eq_some_iff.1 h
    exact .inputStatus c handle status (List.mem_of_find?_eq_some hc)
      (by simpa using List.find?_some hc)

end HandlerState

namespace HandlerState

variable {stack : Stack} {srv srv' : DsuServer} {buf reply : ByteBuffer} {conn : Connection}
  {s : HandlerState}

theorem step_receives {handling : Handling} (hidle : s.handling = .idle)
    (hbuf : buf.length ≤ maxSize) (h : s.server.receive stack buf = .ok handling) :
    s.step (.receives stack buf conn) = .ok (some { s with handling := handling }) := by
  simp only [step, hidle, if_pos hbuf, h]
  rfl

theorem step_refuses {type : MessageType} {i : ℕ} (hat : s.handling = .checking stack type i)
    (hge : s.server.controllerManager.controllers.length ≤ i) :
    s.step .checks = .ok (some { s with handling := .returning (s.server.reply stack type
      (DsuServer.disconnectedData stack).serialize) }) := by
  simp only [step, hat]
  rw [DsuServer.beginData_disconnected stack s.server hge]

theorem step_numbers {type : MessageType} {i : ℕ} (hat : s.handling = .checking stack type i)
    (hlt : i < s.server.controllerManager.controllers.length) :
    s.step .checks = .ok (some ⟨{ s.server with packetCounter := s.server.packetCounter + 1 },
      .copying stack type i (s.server.numberedData stack i)⟩) := by
  simp only [step, hat]
  rw [DsuServer.beginData_connected stack s.server hlt]

theorem step_returns (h : s.handling = .returning reply) :
    s.step (.returns reply) = .ok (some { s with handling := .idle }) := by
  simp [step, h]

/-- `handleMessage` is what its pieces come to. -/
theorem handleMessage_runs (hbuf : buf.length ≤ maxSize)
    (h : srv.handleMessage stack buf conn = .ok (reply, srv')) : ∃ pieces,
      HandlerRun srv (.receives stack buf conn :: pieces ++ [.returns reply]) (.start srv')
        ∧ ∀ e ∈ pieces, e = .checks ∨ e = .copies := by
  by_cases hdata : ∃ id, requestOf buf = .data id
  · obtain ⟨id, hreq⟩ := hdata
    have hreceive := DsuServer.receive_data stack srv hbuf hreq
    have hm := DsuServer.handleMessage_data stack srv hbuf hreq conn
    rcases Nat.lt_or_ge id.slot.toNat srv.controllerManager.controllers.length with hlt | hge
    · rw [DsuServer.buildControllerDataResponse_eq stack srv hlt] at hm
      obtain ⟨rfl, rfl⟩ := Exec.unique hm h
      exact ⟨[.checks, .copies], .cons (step_receives rfl hbuf hreceive) <|
        .cons (step_numbers rfl hlt) <| .cons rfl <| .cons (step_returns rfl) <| .nil _, by simp⟩
    · rw [DsuServer.buildControllerDataResponse_disconnected stack srv hge] at hm
      obtain ⟨rfl, rfl⟩ := Exec.unique hm h
      exact ⟨[.checks], .cons (step_receives rfl hbuf hreceive) <|
        .cons (step_refuses rfl hge) <| .cons (step_returns rfl) <| .nil _, by simp⟩
  · have hr : ∀ id, requestOf buf ≠ .data id := not_exists.1 hdata
    have hreceive : srv.receive stack buf = .ok (.returning reply) := by
      rw [DsuServer.receive_other stack srv hbuf hr conn, h]
      rfl
    rw [DsuServer.handleMessage_same hbuf hr h]
    exact ⟨[], .cons (step_receives rfl hbuf hreceive) <| .cons (step_returns rfl) <| .nil _,
      by simp⟩

end HandlerState

namespace HandlerEvent

def called : HandlerEvent → Option (Stack × ByteBuffer × Connection)
  | receives stack buf conn => some (stack, buf, conn)
  | checks | copies | returns _ | inputStatus _ _ => none

def returned : HandlerEvent → Option ByteBuffer
  | returns reply => some reply
  | receives _ _ _ | checks | copies | inputStatus _ _ => none

def reported : HandlerEvent → Option (ℕ × InputStatus)
  | inputStatus handle status => some (handle, status)
  | receives _ _ _ | checks | copies | returns _ => none

end HandlerEvent

namespace ServerEvent

def called : ServerEvent → Option (Stack × ByteBuffer × Connection)
  | message stack buf conn _ => some (stack, buf, conn)
  | inputStatus _ _ => none

def returned : ServerEvent → Option ByteBuffer
  | message _ _ _ reply => some reply
  | inputStatus _ _ => none

def reported : ServerEvent → Option (ℕ × InputStatus)
  | message _ _ _ _ => none
  | inputStatus handle status => some (handle, status)

end ServerEvent

/-- A message is an operation of the handler's, and a status an effect. -/
def handlerInterface : Interface HandlerEvent ServerEvent (Stack × ByteBuffer × Connection)
    ByteBuffer (ℕ × InputStatus) where
  call := HandlerEvent.called
  ret := HandlerEvent.returned
  effect := HandlerEvent.reported
  op := ServerEvent.called
  res := ServerEvent.returned
  shown := ServerEvent.reported

/-- A handler beside a server that takes each message whole: a connected slot's request where its
status is copied, and any other where its reply is made. -/
inductive Beside (es : List HandlerEvent) (fs : List ServerEvent) (t : DsuServer) :
    HandlerState → Prop
  | idle : handlerInterface.Behind es fs [] [] → Beside es fs t ⟨t, .idle⟩
  | checking (stack : Stack) {buf : ByteBuffer} {conn : Connection} {id : ControllerIdentifier} :
    handlerInterface.Behind es fs [(stack, buf, conn)] [] → buf.length ≤ maxSize →
    requestOf buf = .data id →
    Beside es fs t ⟨t, .checking stack (valueAt MessageType buf 16) id.slot.toNat⟩
  | copying (stack : Stack) {buf : ByteBuffer} {conn : Connection} {id : ControllerIdentifier} :
    handlerInterface.Behind es fs [(stack, buf, conn)] [] → buf.length ≤ maxSize →
    requestOf buf = .data id →
    id.slot.toNat < t.controllerManager.controllers.length →
    Beside es fs t ⟨{ t with packetCounter := t.packetCounter + 1 },
      .copying stack (valueAt MessageType buf 16) id.slot.toNat
        (t.numberedData stack id.slot.toNat)⟩
  | returning (reply : ByteBuffer) : handlerInterface.Behind es fs [] [reply] →
    Beside es fs t ⟨t, .returning reply⟩

section Steps

variable {srv t : DsuServer} {es : List HandlerEvent} {fs : List ServerEvent} {s s' : HandlerState}
  {e : HandlerEvent}

theorem Beside.agrees (h : Beside es fs t s) : handlerInterface.Agrees es fs := by
  cases h with
  | idle h | checking _ h | copying _ h | returning _ h => exact h.agrees

theorem Beside.controllers (h : Beside es fs t s) :
    t.controllerManager = s.server.controllerManager := by
  cases h <;> rfl

theorem Beside.receives (h : Beside es fs t s) {stack : Stack} {buf : ByteBuffer}
    {conn : Connection} {handling : Handling} (hidle : s.handling = .idle)
    (hbuf : buf.length ≤ maxSize) (hreceive : s.server.receive stack buf = .ok handling) :
    ∃ gs t', ServerRun t gs t'
      ∧ Beside (es ++ [.receives stack buf conn]) (fs ++ gs) t'
        { s with handling := handling } := by
  cases h with
  | checking | copying | returning => cases hidle
  | idle hbehind =>
    by_cases hdata : ∃ id, requestOf buf = .data id
    · obtain ⟨id, hreq⟩ := hdata
      rw [DsuServer.receive_data stack t hbuf hreq] at hreceive
      cases hreceive
      have hstep : handlerInterface.Behind (es ++ [.receives stack buf conn]) (fs ++ [])
          [(stack, buf, conn)] [] := hbehind.step rfl rfl rfl
      exact ⟨[], t, .nil t, .checking stack hstep hbuf hreq⟩
    · have hr : ∀ id, requestOf buf ≠ .data id := not_exists.1 hdata
      rw [DsuServer.receive_other stack t hbuf hr conn] at hreceive
      rcases hm : t.handleMessage stack buf conn with f | ⟨reply, t'⟩ <;> rw [hm] at hreceive <;>
        cases hreceive
      rw [DsuServer.handleMessage_same hbuf hr hm] at hm
      exact ⟨[.message stack buf conn reply], t, .cons ⟨hbuf, hm⟩ (.nil t),
        .returning reply (hbehind.step rfl rfl rfl)⟩

theorem Beside.inputStatus (h : Beside es fs t s) {c : ProController} {handle : ℕ}
    (status : InputStatus) (hc : c ∈ s.server.controllerManager.controllers)
    (hhandle : c.handle = handle) : ∃ gs t', ServerRun t gs t'
      ∧ Beside (es ++ [.inputStatus handle status]) (fs ++ gs) t' { s with server := { s.server with
        controllerManager := c.deliver status s.server.controllerManager } } := by
  have hc' : c ∈ t.controllerManager.controllers := by
    rw [h.controllers]
    exact hc
  refine ⟨[.inputStatus handle status], _, .cons ⟨c, hc', hhandle, rfl⟩ (.nil _), ?_⟩
  cases h with
  | idle h => exact .idle (h.step rfl rfl rfl)
  | checking stack h hbuf hreq => exact .checking stack (h.step rfl rfl rfl) hbuf hreq
  | copying stack h hbuf hreq hlt =>
    refine .copying stack (h.step rfl rfl rfl) hbuf hreq ?_
    show _ < (c.deliver status t.controllerManager).controllers.length
    rw [ProController.deliver_controllers]
    exact hlt
  | returning reply h => exact .returning reply (h.step rfl rfl rfl)

theorem Beside.step (h : Beside es fs t s) (hmoves : s.Moves e s') :
    ∃ gs t', ServerRun t gs t' ∧ Beside (es ++ [e]) (fs ++ gs) t' s' := by
  cases hmoves with
  | receives stack buf conn handling hidle hbuf hreceive => exact h.receives hidle hbuf hreceive
  | inputStatus c handle status hc hhandle => exact h.inputStatus status hc hhandle
  | refuses stack type i hat hge =>
    cases h with
    | idle | copying | returning => cases hat
    | @checking _ buf conn id hbehind hbuf hreq =>
      cases hat
      have hm := DsuServer.handleMessage_data stack t hbuf hreq conn
      rw [DsuServer.buildControllerDataResponse_disconnected stack t hge] at hm
      exact ⟨[.message stack buf conn _], t, .cons ⟨hbuf, hm⟩ (.nil t),
        .returning _ (hbehind.step rfl rfl rfl)⟩
  | numbers stack type i hat hlt =>
    cases h with
    | idle | copying | returning => cases hat
    | @checking _ buf conn id hbehind hbuf hreq =>
      cases hat
      exact ⟨[], t, .nil t, .copying stack (hbehind.step rfl rfl rfl) hbuf hreq hlt⟩
  | copies stack type i cdrs hat =>
    cases h with
    | idle | checking | returning => cases hat
    | @copying _ buf conn id hbehind hbuf hreq hlt =>
      cases hat
      have hm := DsuServer.handleMessage_data stack t hbuf hreq conn
      rw [DsuServer.buildControllerDataResponse_eq stack t hlt] at hm
      exact ⟨[.message stack buf conn _], _, .cons ⟨hbuf, hm⟩ (.nil _),
        .returning _ (hbehind.step rfl rfl rfl)⟩
  | returns reply hat =>
    cases h with
    | idle | checking | copying => cases hat
    | returning _ hbehind =>
      cases hat
      exact ⟨[], t, .nil t, .idle (hbehind.step rfl rfl rfl)⟩

end Steps

/-- Whatever comes between its pieces, the handler's messages have an order they could have been
handled whole in. -/
theorem HandlerRun.linearizable {srv : DsuServer} {es : List HandlerEvent} {s : HandlerState}
    (h : HandlerRun srv es s) : ∃ fs t, ServerRun srv fs t ∧ handlerInterface.Linearizes es fs
      ∧ (s.handling = .idle → t = s.server ∧ handlerInterface.Behind es fs [] []) := by
  obtain ⟨fs, t, hrun, hlinear, hbeside⟩ := Run.linearized (fun es fs s t => Beside es fs t s)
    (fun _ _ _ _ hbeside => hbeside.agrees)
    (fun _ _ _ _ _ _ hbeside hstep => hbeside.step (HandlerState.moves_of_step hstep))
    h (.idle .nil)
  refine ⟨fs, t, hrun, hlinear, fun hidle => ?_⟩
  cases hbeside with
  | idle hbehind => exact ⟨rfl, hbehind⟩
  | checking | copying | returning => cases hidle

/-- A status before the check, one before the copy and one before the return. -/
theorem HandlerRun.linearizable_between : ∃ es s, HandlerRun DsuServer.oneController es s
    ∧ es.filterMap HandlerEvent.reported
      = [(5, .zero), (5, { InputStatus.zero with timestamp := 9 }), (5, .zero)]
    ∧ ∃ fs t, ServerRun DsuServer.oneController fs t ∧ handlerInterface.Linearizes es fs
      ∧ (s.handling = .idle → t = s.server ∧ handlerInterface.Behind es fs [] []) := by
  have hreq : requestOf DsuServer.dataRequest0 = .data (identifierOf (List.replicate 8 0)) := rfl
  have hreceive := DsuServer.receive_data (.filled 0) DsuServer.oneController (by decide) hreq
  have hrun : HandlerRun DsuServer.oneController
      [.receives (.filled 0) DsuServer.dataRequest0 ⟨1, 1⟩, .inputStatus 5 .zero, .checks,
        .inputStatus 5 { InputStatus.zero with timestamp := 9 }, .copies, .inputStatus 5 .zero,
        .returns _] _ :=
    .cons (HandlerState.step_receives rfl (by decide) hreceive) <| .cons rfl <| .cons rfl <|
      .cons rfl <| .cons rfl <| .cons rfl <| .cons (HandlerState.step_returns rfl) <| .nil _
  exact ⟨_, _, hrun, rfl, HandlerRun.linearizable hrun⟩

end ProConDSU
