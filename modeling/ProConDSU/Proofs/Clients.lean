import ProConDSU.Proofs.Frame
import ProConDSU.Proofs.Process

/-!
# Clients that share the server

The clients have one server, and all that passes between them is its packet counter. What any of
them are sent is what they would be sent without the others, but for the numbers of the data replies
and the checksums over them (`ProcessRun.alone`): unless another's datagram ends the loop, or the
process.
-/

namespace ProConDSU

/-- A data reply under another number, its checksum made anew. -/
def renumbered (num : UInt32) (reply : ByteBuffer) : ByteBuffer :=
  let bare := patchCrc (reply.take 32 ++ Pod.toBytes num ++ reply.drop 36) 0
  patchCrc bare (computeCrc32 bare)

theorem Packet.renumbered_serialize (num : UInt32) (p : Packet) (r : ControllersDataResponse)
    (hbody : p.body = r.serialize) : renumbered num p.serialize
      = ({ p with body := ({ r with packetNum := num } : ControllersDataResponse).serialize } :
        Packet).serialize := by
  let r' : ControllersDataResponse := { r with packetNum := num }
  let p' : Packet := { p with body := r'.serialize }
  let crc := computeCrc32 p.zeroed
  let front : ByteBuffer := ({ p.header with crc32 := crc } : PacketHeader).serialize
    ++ (Pod.toBytes p.type ++ (r.info.serialize ++ [boolByte r.connected]))
  let back : ByteBuffer := [r.buttons.buttons1, r.buttons.buttons2, boolByte r.home] ++ r.rest
  have hfront : front.length = 32 := by simp [front]
  have hsplit : p.serialize = front ++ (Pod.toBytes r.packetNum ++ back) := by
    rw [serialize_eq, hbody, ControllersDataResponse.serialize_eq]
    simp only [front, back, crc, List.append_assoc]
  have hnumber : p.serialize.take 32 ++ Pod.toBytes num ++ p.serialize.drop 36
      = ({ p.header with crc32 := crc } : PacketHeader).serialize
        ++ (Pod.toBytes p.type ++ r'.serialize) := by
    have hdrop : p.serialize.drop 36 = back := by
      rw [hsplit, ← List.append_assoc]
      exact List.drop_left' (by simp [hfront])
    rw [hdrop, hsplit, List.take_left' hfront, ControllersDataResponse.serialize_eq]
    simp only [front, back, r', List.append_assoc]
    rfl
  have hbare : patchCrc (p.serialize.take 32 ++ Pod.toBytes num ++ p.serialize.drop 36) 0
      = p'.zeroed := by
    rw [hnumber, PacketHeader.patchCrc_append, zeroed_eq]
  rw [renumbered, hbare, serialize]

namespace DsuServer

variable (stack : Stack) (srv : DsuServer)

theorem renumbered_reply (num : UInt32) (type : MessageType) (r : ControllersDataResponse) :
    renumbered num (srv.reply stack type r.serialize)
      = srv.reply stack type ({ r with packetNum := num } : ControllersDataResponse).serialize := by
  unfold reply
  simp only [ControllersDataResponse.length_serialize]
  exact Packet.renumbered_serialize num _ r rfl

theorem copyStatus_counter (k : UInt32) (i : ℕ) :
    copyStatus stack { srv with packetCounter := k } i
        (numberedData stack { srv with packetCounter := k } i)
      = { srv.copyStatus stack i (srv.numberedData stack i) with packetNum := k } := by
  show srv.copyStatus stack i { srv.numberedData stack i with packetNum := k } = _
  unfold copyStatus
  split
  · rfl
  · split <;> rfl

/-- The record differs in its number alone. -/
theorem buildControllerDataResponse_counter (k : UInt32) {i : ℕ}
    (h : i < srv.controllerManager.controllers.length) :
    (buildControllerDataResponse stack { srv with packetCounter := k } i).1
      = { (buildControllerDataResponse stack srv i).1 with packetNum := k } := by
  rw [buildControllerDataResponse_eq stack srv h, ← copyStatus_counter]
  exact congrArg Prod.fst (buildControllerDataResponse_eq stack { srv with packetCounter := k } h)

variable {stack : Stack} {srv srv' : DsuServer} {buf reply : ByteBuffer} {conn : Connection}

theorem handleMessage_renumbered (hbuf : buf.length ≤ maxSize)
    (h : srv.handleMessage stack buf conn = .ok (reply, srv'))
    (hasks : AsksConnected srv.controllerManager.controllers.length buf) (k : UInt32) :
    handleMessage stack { srv with packetCounter := k } buf conn
      = .ok (renumbered k reply, { srv with packetCounter := k + 1 }) := by
  obtain ⟨id, hid, hlt⟩ := hasks
  obtain ⟨rfl, -⟩ := Exec.unique (handleMessage_data stack srv hbuf hid conn) h
  have hnext := (buildControllerDataResponse_connected stack { srv with packetCounter := k } hlt).2
  rw [handleMessage_data stack { srv with packetCounter := k } hbuf hid conn, hnext,
    buildControllerDataResponse_counter stack srv k hlt, renumbered_reply,
    (buildControllerDataResponse_connected stack srv hlt).2]
  rfl

theorem buildControllersInfoResponse_counter (stack : Stack) (srv : DsuServer) (k : UInt32) :
    buildControllersInfoResponse stack { srv with packetCounter := k }
      = buildControllersInfoResponse stack srv := rfl

theorem answer_counter {r : Request} {body : ByteBuffer}
    (h : srv.answer stack r = .ok (some body, srv'))
    (hr : ∀ id, r = .data id → srv.controllerManager.controllers.length ≤ id.slot.toNat)
    (k : UInt32) : answer stack { srv with packetCounter := k } r
      = .ok (some body, { srv with packetCounter := k }) := by
  cases r with simp only [answer, reduceCtorEq, Except.ok.injEq, Prod.mk.injEq, Option.some.injEq,
    false_and] at h ⊢
  | data id =>
    have hge := hr id rfl
    rw [buildControllerDataResponse_disconnected stack srv hge] at h
    rw [buildControllerDataResponse_disconnected stack { srv with packetCounter := k } hge]
    exact ⟨h.1, rfl⟩
  | info slots =>
    rw [buildControllersInfoResponse_counter]
    exact ⟨h.1, trivial⟩
  | version | motors | rumble => exact ⟨h.1, trivial⟩

theorem handleMessage_counter (hbuf : buf.length ≤ maxSize)
    (h : srv.handleMessage stack buf conn = .ok (reply, srv'))
    (hasks : ¬ AsksConnected srv.controllerManager.controllers.length buf) (k : UInt32) :
    handleMessage stack { srv with packetCounter := k } buf conn
      = .ok (reply, { srv with packetCounter := k }) := by
  rcases handleMessage_cases hbuf h with ⟨hdropped, rfl, rfl⟩ | ⟨body, ha, rfl⟩
  · rw [handleMessage_eq stack _ hbuf, hdropped]
    rfl
  · have hr : ∀ id, requestOf buf = .data id →
        srv.controllerManager.controllers.length ≤ id.slot.toNat := by
      intro id hid
      by_contra hlt
      exact hasks ⟨id, hid, not_le.1 hlt⟩
    rw [handleMessage_of_answer hbuf (answer_counter ha hr k) conn]
    obtain ⟨n, rfl⟩ := answer_srv ha
    rfl

end DsuServer

theorem type_of_data {buf : ByteBuffer} {id : ControllerIdentifier}
    (h : requestOf buf = .data id) : valueAt MessageType buf 16 = .controllersDataMessage := by
  have henv : Enveloped buf := enveloped_of_request (by rw [h]; simp)
  rw [requestOf, if_pos henv] at h
  exact (Packet.request_eq_data.1 h).1

theorem DsuServer.valueAt_type (stack : Stack) (srv : DsuServer) (type : MessageType)
    (body : ByteBuffer) : valueAt MessageType (srv.reply stack type body) 16 = type := by
  rw [valueAt, MessageType.size_eq, reply, Packet.bytesAt_type, Pod.ofBytes_toBytes]

/-- What two servers in the same state can differ in is their counters. -/
def DsuServer.SameBut (s t : DsuServer) : Prop := ∃ k, t = { s with packetCounter := k }

/-- A reply under another number, if it has one. -/
inductive Alike : ByteBuffer → ByteBuffer → Prop
  | same (reply : ByteBuffer) : Alike reply reply
  | renumbered (reply : ByteBuffer) (num : UInt32) :
    valueAt MessageType reply 16 = .controllersDataMessage → Alike reply (renumbered num reply)

theorem patchCrc_ne_nil (result : ByteBuffer) (crc : UInt32) : patchCrc result crc ≠ [] := by
  rw [← List.length_pos_iff, patchCrc, List.length_append, List.length_append, Pod.length_toBytes,
    Pod.size_uint32]
  omega

theorem Alike.nil_iff {reply reply' : ByteBuffer} (h : Alike reply reply') :
    reply = [] ↔ reply' = [] := by
  cases h with
  | same => rfl
  | renumbered num htype =>
    refine iff_of_false ?_ (patchCrc_ne_nil _ _)
    rintro rfl
    exact absurd htype (by decide)

namespace DsuServer.SameBut

variable {stack : Stack} {srv srv' t : DsuServer} {buf reply : ByteBuffer} {conn : Connection}

theorem handleMessage (h : srv.SameBut t) (hbuf : buf.length ≤ maxSize)
    (hm : srv.handleMessage stack buf conn = .ok (reply, srv')) :
    ∃ reply' t', t.handleMessage stack buf conn = .ok (reply', t') ∧ Alike reply reply'
      ∧ srv'.SameBut t' := by
  obtain ⟨k, rfl⟩ := h
  by_cases hasks : AsksConnected srv.controllerManager.controllers.length buf
  · refine ⟨_, _, handleMessage_renumbered hbuf hm hasks k, .renumbered reply k ?_, k + 1, ?_⟩
    · obtain ⟨id, hid, -⟩ := hasks
      obtain ⟨rfl, -⟩ := Exec.unique (handleMessage_data stack srv hbuf hid conn) hm
      rw [valueAt_type, type_of_data hid]
    · rw [(handleMessage_frame hbuf hm).1 hasks]
  · refine ⟨_, _, handleMessage_counter hbuf hm hasks k, .same reply, k, ?_⟩
    rw [(handleMessage_frame hbuf hm).2 hasks]

theorem skips (h : srv.SameBut t) (hbuf : buf.length ≤ maxSize)
    (hm : srv.handleMessage stack buf conn = .ok (reply, srv')) : srv'.SameBut t := by
  obtain ⟨k, rfl⟩ := h
  obtain ⟨n, rfl⟩ := handleMessage_srv hbuf hm
  exact ⟨k, rfl⟩

end DsuServer.SameBut

/-- Where another client's datagram is ready, the select times out. -/
def ProcessEvent.without (among : Connection → Bool) : ProcessEvent → ProcessEvent
  | .serves stack (.ready d) =>
    if among d.sender then .serves stack (.ready d) else .serves stack .timeout
  | e => e

/-- Another client's datagram, if it is one, fits the listener's buffer. -/
def ProcessEvent.OthersFit (among : Connection → Bool) : ProcessEvent → Prop
  | .serves _ (.ready d) => among d.sender = false → d.payload.length ≤ 512
  | _ => True

/-- What the listener has done for the clients of `among` is what it would have done without the
others. -/
structure Listening.Without (among : Connection → Bool) (l m : Listening DsuServer) : Prop where
  running : m.running = l.running
  handler : l.handler.SameBut m.handler
  handled : m.handled = l.handled.filter fun c => among c.2
  sent : List.Forall₂ (fun a b => Alike a.1 b.1 ∧ b.2 = a.2)
    (l.sent.filter fun c => among c.2) m.sent

section Listening

/-- The client's, if it is one of `among`. -/
theorem filter_single (among : Connection → Bool) (c : ByteBuffer × Connection) :
    [c].filter (fun c => among c.2) = if among c.2 then [c] else [] := by
  rw [List.filter_cons, List.filter_nil]

variable {ws : Winsock} {among : Connection → Bool} {l l' m : Listening DsuServer} {stack : Stack}

theorem Listening.Without.start (srv : DsuServer) :
    Listening.Without among (.start srv) (.start srv) :=
  ⟨rfl, ⟨srv.packetCounter, rfl⟩, rfl, .nil⟩

theorem Listening.Without.ends (h : l.Without among m) :
    Listening.Without among { l with running := false } { m with running := false } :=
  ⟨rfl, h.handler, h.handled, h.sent⟩

theorem Listening.Without.ready (h : l.Without among m) {d : Datagram}
    (hround : l.iterate ws (Process.msgHandler stack) (.ready d) = .ok l')
    (hd : among d.sender = true) :
    ∃ m', m.iterate ws (Process.msgHandler stack) (.ready d) = .ok m' ∧ l'.Without among m' := by
  rcases iterate_ready hround with ⟨hlong, rfl⟩ | ⟨hfits, reply, s, hreply, rfl⟩
  · exact ⟨_, iterate_oversized ws m hlong, h.ends⟩
  · obtain ⟨reply', t, hreply', halike, hsame⟩ :=
      h.handler.handleMessage (hfits.trans (by decide)) hreply
    refine ⟨_, iterate_fits ws m hfits hreply', h.running, hsame, ?_, ?_⟩
    · show m.handled ++ [(d.payload, d.sender)] = (l.handled ++ [(d.payload, d.sender)]).filter _
      rw [List.filter_append, filter_single, if_pos hd, h.handled]
    · show List.Forall₂ _ ((l.sent ++ if reply = [] then [] else [(reply, d.sender)]).filter _)
        (m.sent ++ if reply' = [] then [] else [(reply', d.sender)])
      rw [List.filter_append]
      refine List.rel_append h.sent ?_
      by_cases hnil : reply = []
      · rw [if_pos hnil, if_pos (halike.nil_iff.1 hnil)]
        exact .nil
      · rw [if_neg hnil, if_neg (mt halike.nil_iff.2 hnil), filter_single, if_pos hd]
        exact .cons ⟨halike, rfl⟩ .nil

theorem Listening.Without.passes (h : l.Without among m) {d : Datagram}
    (hround : l.iterate ws (Process.msgHandler stack) (.ready d) = .ok l')
    (hd : among d.sender = false) (hfits : d.payload.length ≤ 512) : l'.Without among m := by
  rcases iterate_ready hround with ⟨hlong, -⟩ | ⟨-, reply, s, hreply, rfl⟩
  · omega
  · have hother : ¬ among d.sender = true := by simp [hd]
    refine ⟨h.running, h.handler.skips (hfits.trans (by decide)) hreply, ?_, ?_⟩
    · show m.handled = (l.handled ++ [(d.payload, d.sender)]).filter _
      rw [List.filter_append, filter_single, if_neg hother, List.append_nil, h.handled]
    · show List.Forall₂ _ ((l.sent ++ if reply = [] then [] else [(reply, d.sender)]).filter _)
        m.sent
      have hnone : (if reply = [] then [] else [(reply, d.sender)]).filter (fun c => among c.2)
          = [] := by
        split_ifs
        · rfl
        · rw [filter_single, if_neg hother]
      rw [List.filter_append, hnone, List.append_nil]
      exact h.sent

end Listening

/-- `q` is `p`, had the others sent nothing. -/
structure Process.Without (among : Connection → Bool) (p q : Process) : Prop where
  listening : p.listening.Without among q.listening
  eq : q = { p with listening := q.listening }

section Process

variable {ws : Winsock} {among : Connection → Bool} {p p' q : Process} {e : ProcessEvent}

/-- Whether a step leaves the listener's dealings alone, whatever they are. -/
def ProcessEvent.quiet : ProcessEvent → Bool
  | .listenerChecks | .serves _ _ | .inputStatus _ _ => false
  | .console _ _ | .shutdown _ | .wakes _ | .start | .stop | .join | .destroy | .exit
  | .updates => true

theorem Process.step_quiet (h : p.step ws e = .ok (some p')) (he : e.quiet = true)
    (m : Listening DsuServer) : p'.listening = p.listening
      ∧ Process.step ws { p with listening := m } e = .ok (some { p' with listening := m }) := by
  cases moves_of_step h with
  | ignored n dwCtrlType hmain htype => exact ⟨rfl, by simp [step, console, hmain, htype]⟩
  | console n dwCtrlType l hmain htype hl =>
    exact ⟨rfl, by simp [step, Process.console, hmain, htype, hl]⟩
  | shutdown t l hl | wakes t l hl => exact ⟨rfl, by simp [step, hl]⟩
  | start l hmain hl => exact ⟨rfl, by simp [step, Process.start, hmain, hl]⟩
  | stop hmain hthrough => exact ⟨rfl, by simp [step, hmain, hthrough]⟩
  | join hmain hended => exact ⟨rfl, by simp [step, hmain, hended]⟩
  | destroy hmain => exact ⟨rfl, by simp [step, hmain]⟩
  | exit hmain hended => exact ⟨rfl, by simp [step, hmain, hended]⟩
  | updates u =>
    refine ⟨rfl, ?_⟩
    simp only [step, Except.ok.injEq, Process.updates] at h ⊢
    cases hat : p.updater <;> rw [hat] at h <;> cases h <;> rfl
  | listenerStops | listenerSelects | serves | inputStatus => cases he

theorem Process.Without.checks (h : p.Without among q)
    (hstep : p.step ws .listenerChecks = .ok (some p')) :
    ∃ q', q.step ws .listenerChecks = .ok (some q') ∧ p'.Without among q' := by
  obtain ⟨hl, hq⟩ := h
  rw [hq]
  cases moves_of_step hstep with
  | listenerStops hat hstop =>
    refine ⟨{ p with
      listener := .ended, listening := { q.listening with running := false } }, ?_, hl.ends, rfl⟩
    simp [step, listenerChecks, hat, hstop]
  | listenerSelects hat hgo =>
    refine ⟨{ p with listener := .selecting, listening := q.listening }, ?_, hl, rfl⟩
    simp [step, listenerChecks, hat, hgo]

theorem Process.Without.reports (h : p.Without among q) {handle : ℕ} {status : InputStatus}
    (hstep : p.step ws (.inputStatus handle status) = .ok (some p')) :
    ∃ q', q.step ws (.inputStatus handle status) = .ok (some q') ∧ p'.Without among q' := by
  obtain ⟨hl, hq⟩ := h
  obtain ⟨k, hk⟩ := hl.handler
  simp only [step, Except.ok.injEq, inputStatus] at hstep
  split_ifs at hstep with hmain
  obtain ⟨c, hc, rfl⟩ := Option.map_eq_some_iff.1 hstep
  have hmanager : q.server.controllerManager = p.server.controllerManager := by
    rw [server, hk]
    rfl
  have hmainq : q.main ≠ .returned := by
    rw [hq]
    exact hmain
  refine ⟨q.setServer { q.server with
    controllerManager := c.deliver status p.server.controllerManager }, ?_,
    ⟨hl.running, ⟨k, ?_⟩, hl.handled, hl.sent⟩, ?_⟩
  · simp only [step, Except.ok.injEq, inputStatus]
    rw [if_neg hmainq, hmanager, hc]
    rfl
  · show ({ q.listening.handler with
      controllerManager := c.deliver status p.server.controllerManager } : DsuServer) = _
    rw [hk]
    rfl
  · rw [hq]
    rfl

theorem Process.Without.round (h : p.Without among q) {stack : Stack} {select : SelectResult}
    (hstep : p.step ws (.serves stack select) = .ok (some p'))
    (he : ProcessEvent.OthersFit among (.serves stack select)) :
    ∃ q', q.step ws (ProcessEvent.without among (.serves stack select)) = .ok (some q')
      ∧ p'.Without among q' := by
  obtain ⟨hl, hq⟩ := h
  cases moves_of_step hstep with
  | serves _ _ l hat hround =>
    -- what the listener does without the others, and where it goes then
    suffices H : ∃ select' m, ProcessEvent.without among (.serves stack select)
        = .serves stack select' ∧ q.listening.iterate ws (msgHandler stack) select' = .ok m
        ∧ l.Without among m by
      obtain ⟨select', m, he', hm, hwithout⟩ := H
      refine ⟨{ p with
        listening := m, listener := if l.running then .checking else .ended }, ?_, hwithout, rfl⟩
      rw [he', hq]
      simp [step, Process.serves, hat, hm, hwithout.running]
    cases select with
    | error | recvError =>
      cases hround
      exact ⟨_, _, rfl, rfl, hl.ends⟩
    | timeout =>
      cases hround
      exact ⟨.timeout, _, rfl, rfl, hl⟩
    | ready d =>
      rcases hd : among d.sender with _ | _
      · exact ⟨.timeout, _, by simp [ProcessEvent.without, hd], rfl, hl.passes hround hd (he hd)⟩
      · obtain ⟨m, hm, hwithout⟩ := hl.ready hround hd
        exact ⟨.ready d, m, by simp [ProcessEvent.without, hd], hm, hwithout⟩

theorem Process.Without.step (h : p.Without among q) (hstep : p.step ws e = .ok (some p'))
    (he : e.OthersFit among) :
    ∃ q', q.step ws (e.without among) = .ok (some q') ∧ p'.Without among q' := by
  cases e with
  | listenerChecks => exact h.checks hstep
  | serves stack select => exact h.round hstep he
  | inputStatus handle status => exact h.reports hstep
  | _ =>
    obtain ⟨hsame, hstep'⟩ := step_quiet hstep rfl q.listening
    rw [← h.eq] at hstep'
    refine ⟨_, hstep', ?_, rfl⟩
    rw [hsame]
    exact h.listening

end Process

def dataDatagram (conn : Connection) : Datagram := ⟨DsuServer.dataRequest0, conn, by decide⟩

end ProConDSU
