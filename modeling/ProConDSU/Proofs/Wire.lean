import ProConDSU.Proofs.Frame
import ProConDSU.Proofs.Process

/-!
# What goes over the wire

Over any run of the process, what it has sent is one reply for each answerable datagram it handled,
in order and to its sender (`ProcessRun.exchanges`), and not much more than it was sent
(`ProcessRun.amplification`). A datagram that wraps `ports` ends the process, and nothing else does
(`Process.terminates_iff`); one that does not fit leaves it deaf (`ProcessRun.deaf`).
-/

namespace ProConDSU

instance : (r : Request) → Decidable r.Answered
  | .dropped | .faults => isFalse id
  | .version | .info _ | .data _ | .motors _ | .rumble => isTrue trivial

instance (buf : ByteBuffer) : Decidable (Answerable buf) := decidable_of_iff _ requestOf_answered

namespace Request

/-- The least size of a datagram with this request. -/
def minSize : Request → ℕ
  | dropped | faults => 0
  | version => 20
  | info _ => 24
  | data _ | motors _ => 28
  | rumble => 30

/-- The size of the answer's body, from a server with `n` controllers. -/
def bodySize (n : ℕ) : Request → ℕ
  | dropped | faults | rumble => 0
  | version => 2
  | info _ => 15 * n
  | data _ => 80
  | motors _ => 12

theorem minSize_le (buf : ByteBuffer) : (requestOf buf).minSize ≤ buf.length := by
  unfold requestOf
  split_ifs with henv
  · have h20 := henv.1
    have hbody : (packetOf buf).body.length = buf.length - 20 := List.length_drop
    unfold Packet.request infoRequest
    split_ifs <;> simp only [minSize] <;> omega
  · exact Nat.zero_le _

theorem size_le (n : ℕ) {r : Request} (h : r.Answered) :
    24 * (20 + r.bodySize n) ≤ max 86 (20 + 15 * n) * r.minSize := by
  cases r with simp only [bodySize, minSize]
  | dropped | faults => cases h
  | version | info | data | motors | rumble => omega

end Request

namespace DsuServer

variable {stack : Stack} {srv srv' : DsuServer} {buf reply : ByteBuffer} {conn : Connection}

theorem answer_bodySize {r : Request} {body : ByteBuffer}
    (h : srv.answer stack r = .ok (some body, srv')) :
    body.length = r.bodySize srv.controllerManager.controllers.length := by
  cases r with simp only [answer, reduceCtorEq, Except.ok.injEq, Prod.mk.injEq, Option.some.injEq,
    false_and] at h
  | version => simp [← h.1, Request.bodySize]
  | info slots =>
    rw [← h.1, ControllersInfoResponse.length_serialize, buildControllersInfoResponse,
      List.length_map, List.length_range, ControllerManager.getConnectedControllerCount]
    rfl
  | data id => simp [← h.1, Request.bodySize]
  | motors id => simp [← h.1, Request.bodySize]
  | rumble => simp [← h.1, Request.bodySize]

/-- A datagram is answerable, and gets a reply of its size, or it is not, and gets none. -/
theorem handleMessage_reply (hbuf : buf.length ≤ maxSize)
    (h : srv.handleMessage stack buf conn = .ok (reply, srv')) :
    (Answerable buf ∧ reply ≠ []
        ∧ reply.length = 20 + (requestOf buf).bodySize srv.controllerManager.controllers.length)
      ∨ (¬ Answerable buf ∧ reply = []) := by
  rw [← requestOf_answered]
  rcases handleMessage_cases hbuf h with ⟨hdropped, hreply, -⟩ | ⟨body, ha, hreply⟩
  · exact .inr ⟨by rw [hdropped]; exact id, hreply⟩
  · left
    refine ⟨?_, by rw [hreply]; exact reply_ne_nil _ _ _ _, ?_⟩
    · rcases srv.answer_cases stack (requestOf buf) with ⟨-, hnone⟩ | ⟨-, herr⟩ | ⟨hr, -⟩
      · rw [hnone] at ha
        cases ha
      · rw [herr] at ha
        cases ha
      · exact hr
    · rw [hreply, length_reply, answer_bodySize ha]

theorem handleMessage_exchange (hbuf : buf.length ≤ maxSize)
    (hn : srv.controllerManager.controllers.length ≤ 256)
    (h : srv.handleMessage stack buf conn = .ok (reply, srv')) :
    (Answerable buf ∧ reply ≠ [] ∧ ReplyTo srv.serverId buf reply)
      ∨ (¬ Answerable buf ∧ reply = []) := by
  rcases handleMessage_reply hbuf h with ⟨hans, hne, -⟩ | hdropped
  · refine .inl ⟨hans, hne, ?_⟩
    rcases handleMessage_cases hbuf h with ⟨-, hnil, -⟩ | ⟨body, ha, rfl⟩
    · exact absurd hnil hne
    · have hlen := answer_length hn ha
      obtain ⟨n, rfl⟩ := answer_srv ha
      exact reply_replyTo stack _ (by omega) ⟨hans.1, hans.2.1⟩
  · exact .inr hdropped

theorem handleMessage_bounded (hbuf : buf.length ≤ maxSize)
    (h : srv.handleMessage stack buf conn = .ok (reply, srv')) : 24 * reply.length
      ≤ max 86 (20 + 15 * srv.controllerManager.controllers.length) * buf.length := by
  rcases handleMessage_reply hbuf h with ⟨hans, -, hlen⟩ | ⟨-, hnil⟩
  · rw [hlen]
    exact (Request.size_le _ (requestOf_answered.2 hans)).trans
      (Nat.mul_le_mul_left _ (Request.minSize_le buf))
  · simp [hnil]

end DsuServer

section Runs

variable {ws : Winsock} {srv srv' : DsuServer} {fs : List ServerEvent} {es : List ProcessEvent}
  {p : Process}

theorem DsuServer.Step.serverId {e : ServerEvent} (h : srv.Step e srv') :
    srv'.serverId = srv.serverId := by
  rcases e with ⟨stack, buf, conn, reply⟩ | ⟨handle, status⟩
  · obtain ⟨n, rfl⟩ := DsuServer.handleMessage_srv h.1 h.2
    rfl
  · obtain ⟨c, -, -, rfl⟩ := h
    rfl

/-- What every message to a server with the same controllers and id makes true of its reply. -/
theorem ServerRun.forall_messages (h : ServerRun srv fs srv') {P : ByteBuffer → ByteBuffer → Prop}
    (hstep : ∀ (s t : DsuServer) (stack : Stack) (buf : ByteBuffer) (conn : Connection)
      (reply : ByteBuffer), s.serverId = srv.serverId →
      s.controllerManager.controllers = srv.controllerManager.controllers →
      s.Step (.message stack buf conn reply) t → P buf reply) :
    ∀ stack buf conn reply, .message stack buf conn reply ∈ fs → P buf reply := by
  have hrun := h.history (fun fs s => s.serverId = srv.serverId
    ∧ s.controllerManager.controllers = srv.controllerManager.controllers
    ∧ ∀ stack buf conn reply, .message stack buf conn reply ∈ fs → P buf reply)
    ⟨rfl, rfl, fun _ _ _ _ hmem => by cases hmem⟩ ?_
  · exact hrun.2.2
  · rintro fs s e t ⟨hid, hctl, hall⟩ hs
    refine ⟨hs.serverId.trans hid, hs.controllers.trans hctl, fun stack buf conn reply hmem => ?_⟩
    rcases List.mem_append.1 hmem with hold | hnew
    · exact hall stack buf conn reply hold
    · rw [← List.mem_singleton.1 hnew] at hs
      exact hstep s t stack buf conn reply hid hctl hs

/-- A packet sent is the reply to a datagram, and goes to its sender. -/
structure Exchange (serverId : UInt32) (sent handled : ByteBuffer × Connection) : Prop where
  reply : ReplyTo serverId handled.1 sent.1
  conn : sent.2 = handled.2

theorem exchange_of_events (serverId : UInt32) : ∀ fs : List ServerEvent,
    (∀ stack buf conn reply, .message stack buf conn reply ∈ fs →
      (Answerable buf ∧ reply ≠ [] ∧ ReplyTo serverId buf reply)
        ∨ (¬ Answerable buf ∧ reply = [])) →
    List.Forall₂ (Exchange serverId) (fs.filterMap ServerEvent.sent)
      ((fs.filterMap ServerEvent.handled).filter fun d => Answerable d.1)
  | [], _ => .nil
  | .inputStatus handle status :: fs, h => by
    rw [List.filterMap_cons_none rfl, List.filterMap_cons_none rfl]
    exact exchange_of_events serverId fs
      fun stack buf conn reply hmem => h stack buf conn reply (List.mem_cons_of_mem _ hmem)
  | .message stack buf conn reply :: fs, h => by
    have ih := exchange_of_events serverId fs
      fun stack buf conn reply hmem => h stack buf conn reply (List.mem_cons_of_mem _ hmem)
    rw [List.filterMap_cons_some (f := ServerEvent.handled) rfl]
    rcases h stack buf conn reply (List.mem_cons_self ..) with ⟨hans, hne, hreply⟩ | ⟨hans, hnil⟩
    · rw [List.filterMap_cons_some (ServerEvent.sent_message hne),
        List.filter_cons_of_pos (by simpa using hans)]
      exact .cons ⟨hreply, rfl⟩ ih
    · rw [List.filterMap_cons_none (ServerEvent.sent_message_nil hnil),
        List.filter_cons_of_neg (by simpa using hans)]
      exact ih

/-- What has been sent is a reply to each answerable datagram handled, in order. -/
theorem ProcessRun.exchanges (h : ProcessRun ws (.boot srv) es p)
    (hn : srv.controllerManager.controllers.length ≤ 256) :
    List.Forall₂ (Exchange srv.serverId) p.listening.sent
      (p.listening.handled.filter fun d => Answerable d.1) := by
  obtain ⟨fs, hfs⟩ := Process.run_realizes h
  rw [hfs.sent, hfs.handled]
  refine exchange_of_events srv.serverId fs (hfs.run.forall_messages ?_)
  intro s t stack buf conn reply hid hctl hstep
  rw [← hid]
  exact DsuServer.handleMessage_exchange hstep.1 (by rw [hctl]; exact hn) hstep.2

section Amplification

def bytes (packets : List (ByteBuffer × Connection)) : ℕ := (packets.map (·.1.length)).sum

theorem bytes_of_events (c : ℕ) : ∀ fs : List ServerEvent,
    (∀ stack buf conn reply, .message stack buf conn reply ∈ fs →
      24 * reply.length ≤ c * buf.length) →
    24 * bytes (fs.filterMap ServerEvent.sent) ≤ c * bytes (fs.filterMap ServerEvent.handled)
  | [], _ => by simp [bytes]
  | .inputStatus handle status :: fs, h => by
    rw [List.filterMap_cons_none rfl, List.filterMap_cons_none rfl]
    exact bytes_of_events c fs
      fun stack buf conn reply hmem => h stack buf conn reply (List.mem_cons_of_mem _ hmem)
  | .message stack buf conn reply :: fs, h => by
    have ih := bytes_of_events c fs
      fun stack buf conn reply hmem => h stack buf conn reply (List.mem_cons_of_mem _ hmem)
    have hone := h stack buf conn reply (List.mem_cons_self ..)
    rw [List.filterMap_cons_some (f := ServerEvent.handled) rfl]
    have hsent : bytes ((ServerEvent.message stack buf conn reply :: fs).filterMap
        ServerEvent.sent) = reply.length + bytes (fs.filterMap ServerEvent.sent) := by
      by_cases hnil : reply = []
      · rw [List.filterMap_cons_none (ServerEvent.sent_message_nil hnil), hnil]
        simp
      · rw [List.filterMap_cons_some (ServerEvent.sent_message hnil)]
        simp [bytes]
    rw [hsent]
    simp only [bytes, List.map_cons, List.sum_cons, Nat.mul_add] at ih ⊢
    omega

/-- A server with `n` controllers sends no more than `max 86 (20 + 15 * n)` bytes for each `24` it
has been sent, and less than four times as much if `n` is at most `4`. -/
theorem ProcessRun.amplification (h : ProcessRun ws (.boot srv) es p) :
    24 * bytes p.listening.sent ≤ max 86 (20 + 15 * srv.controllerManager.controllers.length)
      * bytes p.listening.handled := by
  obtain ⟨fs, hfs⟩ := Process.run_realizes h
  rw [hfs.sent, hfs.handled]
  refine bytes_of_events _ fs (hfs.run.forall_messages ?_)
  intro s t stack buf conn reply _ hctl hstep
  rw [← hctl]
  exact DsuServer.handleMessage_bounded hstep.1 hstep.2

theorem ProcessRun.exchanges_version : ∃ p : Process, p.listening.sent.length = 1
    ∧ List.Forall₂ (Exchange 7) p.listening.sent
      (p.listening.handled.filter fun d => Answerable d.1) := by
  obtain ⟨p, hsent, hrun⟩ := exists_versionRun
  exact ⟨p, hsent, ProcessRun.exchanges hrun (by decide)⟩

theorem ProcessRun.amplification_version : ∃ p : Process, p.listening.sent.length = 1
    ∧ 24 * bytes p.listening.sent ≤ max 86 (20 + 15 * 1) * bytes p.listening.handled := by
  obtain ⟨p, hsent, hrun⟩ := exists_versionRun
  exact ⟨p, hsent, ProcessRun.amplification hrun⟩

end Amplification

theorem WrapsPorts.length_le {buf : ByteBuffer} (h : WrapsPorts buf) : buf.length ≤ 28 := by
  have hbody := h.2.2.2.1
  rw [List.length_drop] at hbody
  omega

/-- The process is terminated just where a datagram that wraps `ports` is handled. -/
theorem Process.terminates_iff (p : Process) (e : ProcessEvent) (f : Fault) :
    p.step ws e = .error f ↔ f = .lengthError ∧ p.listener = .selecting
      ∧ ∃ stack d, e = .serves stack (.ready d) ∧ WrapsPorts d.payload := by
  refine ⟨fun h => ?_, ?_⟩
  · cases e <;> simp only [step, reduceCtorEq] at h
    case serves stack select =>
      unfold Process.serves at h
      split_ifs at h with hat
      split at h
      · next f' hround =>
        cases h
        cases select with
        | error | timeout | recvError => cases hround
        | ready d =>
          rcases Nat.lt_or_ge 512 d.payload.length with hlong | hfits
          · rw [iterate_oversized ws _ hlong] at hround
            cases hround
          · have hbuf : d.payload.length ≤ maxSize := hfits.trans (by decide)
            rcases hreply : p.server.handleMessage stack d.payload d.sender with f' | ⟨reply, srv'⟩
            · have hthrow : p.listening.iterate ws (msgHandler stack) (.ready d) = .error f' :=
                iterate_throws hfits hreply
              rw [hthrow] at hround
              cases hround
              obtain ⟨hf, hwraps⟩ := (DsuServer.handleMessage_throws hbuf).1 hreply
              exact ⟨hf, hat, stack, d, rfl, hwraps⟩
            · rw [iterate_fits ws _ hfits hreply] at hround
              cases hround
      · cases h
  · rintro ⟨rfl, hat, stack, d, rfl, hwraps⟩
    have hfits : d.payload.length ≤ 512 := hwraps.length_le.trans (by omega)
    have hthrow : p.server.handleMessage stack d.payload d.sender = .error .lengthError :=
      (DsuServer.handleMessage_throws (hfits.trans (by decide))).2 ⟨rfl, hwraps⟩
    have hround : p.listening.iterate ws (msgHandler stack) (.ready d) = .error .lengthError :=
      iterate_throws hfits hthrow
    simp [step, serves, hat, hround]

/-- A round that the listener's loop does not come back from. -/
def ProcessEvent.EndsLoop : ProcessEvent → Prop
  | .serves _ .error | .serves _ .recvError => True
  | .serves _ (.ready d) => 512 < d.payload.length
  | _ => False

/-- The listener has ended, having done what it had at `q`. -/
structure Deaf (q p : Process) : Prop where
  inv : p.Inv
  listener : p.listener = .ended
  handled : p.listening.handled = q.listening.handled
  sent : p.listening.sent = q.listening.sent
  packetCounter : p.server.packetCounter = q.server.packetCounter

theorem Deaf.step {q p' : Process} {e : ProcessEvent} (h : Deaf q p) (hmoves : p.Moves ws e p') :
    Deaf q p' := by
  have hinv := hmoves.inv h.inv
  obtain ⟨hold, hended, hhandled, hsent, hcounter⟩ := h
  cases hmoves with
  | start _ hmain =>
    rw [← hold.unstarted, hended] at hmain
    cases hmain
  | listenerStops hat | listenerSelects hat | serves _ _ _ hat =>
    rw [hended] at hat
    cases hat
  | _ => exact ⟨hinv, hended, hhandled, hsent, hcounter⟩

/-- After one such round nothing more is handled or sent, however long the process goes on. -/
theorem ProcessRun.deaf {pre post : List ProcessEvent} {e : ProcessEvent}
    (h : ProcessRun ws (.boot srv) (pre ++ e :: post) p) (he : e.EndsLoop) :
    ∃ q, ProcessRun ws (.boot srv) pre q ∧ Deaf q p := by
  obtain ⟨q, hpre, hrest⟩ := Run.append_iff.1 h
  obtain ⟨q', hstep, hpost⟩ := Run.cons_iff.1 hrest
  have hinv := (Process.moves_of_step hstep).inv (Process.run_inv hpre)
  refine ⟨q, hpre, hpost.invariant (Deaf q) ?_ fun _ _ _ hq hs =>
    hq.step (Process.moves_of_step hs)⟩
  cases Process.moves_of_step hstep with
  | serves stack select l hat hround =>
    cases select with
    | error | recvError =>
      cases hround
      exact ⟨hinv, rfl, rfl, rfl, rfl⟩
    | timeout => cases he
    | ready d =>
      rw [iterate_oversized ws _ he] at hround
      cases hround
      exact ⟨hinv, rfl, rfl, rfl, rfl⟩
  | _ => cases he

theorem ProcessRun.deaf_selectError : ∃ p q : Process, p.main = .waiting ∧ Deaf q p := by
  have h : ∃ p, p.main = .waiting ∧ ProcessRun .documented (.boot ⟨.empty, 7, 0⟩)
      ([.start, .listenerChecks] ++ .serves (.filled 0) .error
        :: [.shutdown .main, .updates]) p :=
    ⟨_, rfl, .cons rfl <| .cons rfl <| .cons rfl <| .cons rfl <| .cons rfl <| .nil _⟩
  obtain ⟨p, hmain, hrun⟩ := h
  obtain ⟨q, -, hdeaf⟩ := ProcessRun.deaf hrun trivial
  exact ⟨p, q, hmain, hdeaf⟩

end Runs

end ProConDSU
