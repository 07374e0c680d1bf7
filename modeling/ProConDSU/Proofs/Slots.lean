import Mathlib.Data.List.TFAE
import ProConDSU.Proofs.LastStatus

/-!
# The slots that replies report

A reachable server answers about a connected slot the same in its three kinds of reply, and about
no other: there the motors reply still says it is connected (`repliesAgree_iff`). The info reply
lists every connected slot whatever slots were asked about (`reportsRequested_iff`).
-/

namespace ProConDSU

namespace DsuServer

variable {srv srv' : DsuServer}

theorem Reachable.sizes (h : srv.Reachable) : srv.controllerManager.controllers.length
    = srv.controllerManager.lastInputStates.length := by
  obtain ⟨srv₀, es, ⟨-, mes, hboot⟩, hrun⟩ := h
  refine hrun.invariant (fun srv => srv.controllerManager.controllers.length
    = srv.controllerManager.lastInputStates.length) (hboot.serves.sizes rfl) ?_
  rintro srv (⟨stack, buf, conn, reply⟩ | ⟨handle, status⟩) srv' hsizes hstep
  · obtain ⟨n, rfl⟩ := handleMessage_srv hstep.1 hstep.2
    exact hsizes
  · obtain ⟨c, -, -, rfl⟩ := hstep
    simpa using hsizes

/-- An info reply has an entry for slot `s`, and it is connected. -/
def ListsConnected (reply : ByteBuffer) (s : UInt8) : Prop :=
  ∃ r : ControllersInfoResponse, reply.drop 20 = r.serialize
    ∧ ∃ e ∈ r.info, e.info.slot = s ∧ e.info.state = .controllerConnected

def DataConnected (reply : ByteBuffer) : Prop :=
  bytesAt reply 21 1 = [ControllerState.controllerConnected.val] ∧ bytesAt reply 31 1 = [1]

def MotorsConnected (reply : ByteBuffer) : Prop :=
  bytesAt reply 21 1 = [ControllerState.controllerConnected.val]

def Disconnected (reply : ByteBuffer) (s : UInt8) : Prop :=
  bytesAt reply 20 2 = [s, ControllerState.controllerDisconnected.val]

/-- The three replies about slot `s` agree with the server and with each other. -/
def RepliesAgree (srv : DsuServer) (s : UInt8) (infoReply dataReply motorsReply : ByteBuffer) :
    Prop :=
  [s.toNat < srv.controllerManager.getConnectedControllerCount, ListsConnected infoReply s,
      DataConnected dataReply, MotorsConnected motorsReply].TFAE
    ∧ (srv.controllerManager.getConnectedControllerCount ≤ s.toNat →
      Disconnected dataReply s ∧ Disconnected motorsReply s)

/-- The info reply reports each requested slot, in order, and no other. -/
def ReportsRequested (srv : DsuServer) (slots reply : ByteBuffer) : Prop :=
  ∃ r : ControllersInfoResponse, reply.drop 20 = r.serialize
    ∧ r.info.map (fun e => (e.info.slot, e.info.state)) = slots.map fun s =>
      (s, if s.toNat < srv.controllerManager.getConnectedControllerCount then .controllerConnected
        else .controllerDisconnected)

section Replies

variable (stack : Stack) (srv : DsuServer) {buf : ByteBuffer} (conn : Connection)

theorem handleMessage_info (hbuf : buf.length ≤ maxSize) {slots : ByteBuffer}
    (hreq : requestOf buf = .info slots) : srv.handleMessage stack buf conn
      = .ok (srv.reply stack (valueAt _ buf 16) (buildControllersInfoResponse stack srv).serialize,
        srv) :=
  handleMessage_of_answer hbuf (by rw [hreq]; rfl) conn

theorem handleMessage_motors (hbuf : buf.length ≤ maxSize) {id : ControllerIdentifier}
    (hreq : requestOf buf = .motors id) : srv.handleMessage stack buf conn
      = .ok (srv.reply stack (valueAt _ buf 16) (motorsResponse stack id.slot).serialize, srv) :=
  handleMessage_of_answer hbuf (by rw [hreq]; rfl) conn

variable (type : MessageType)

theorem info_of_drop_reply {r : ControllersInfoResponse}
    (h : (srv.reply stack type (buildControllersInfoResponse stack srv).serialize).drop 20
      = r.serialize) : r.info.map ControllerInfoResponse.info
        = (List.range srv.controllerManager.getConnectedControllerCount).map
          fun i => (controllerInfo stack i).info := by
  rw [drop_reply] at h
  rw [← ControllersInfoResponse.serialize_inj h, buildControllersInfoResponse, List.map_map]
  rfl

theorem slots_of_drop_reply {r : ControllersInfoResponse}
    (h : (srv.reply stack type (buildControllersInfoResponse stack srv).serialize).drop 20
      = r.serialize) : r.info.map (fun e => e.info.slot)
        = (List.range srv.controllerManager.getConnectedControllerCount).map UInt8.ofNat := by
  have hslots := congrArg (List.map ControllerInfoShared.slot) (info_of_drop_reply stack srv type h)
  rw [List.map_map, List.map_map] at hslots
  exact hslots

theorem listsConnected_iff (s : UInt8) :
    ListsConnected (srv.reply stack type (buildControllersInfoResponse stack srv).serialize) s
      ↔ ∃ i < srv.controllerManager.getConnectedControllerCount, UInt8.ofNat i = s := by
  refine ⟨?_, ?_⟩
  · rintro ⟨r, hr, e, he, hslot, -⟩
    have hmem := List.mem_map_of_mem (f := ControllerInfoResponse.info) he
    rw [info_of_drop_reply stack srv type hr, List.mem_map] at hmem
    obtain ⟨i, hi, hinfo⟩ := hmem
    refine ⟨i, List.mem_range.1 hi, ?_⟩
    rw [← hslot, ← hinfo]
    rfl
  · rintro ⟨i, hi, rfl⟩
    exact ⟨_, drop_reply .., controllerInfo stack i,
      List.mem_map_of_mem (List.mem_range.2 hi), rfl, rfl⟩

theorem motorsReply_info (slot : UInt8) :
    bytesAt (srv.reply stack type (motorsResponse stack slot).serialize) 20 2
      = [slot, ControllerState.controllerConnected.val] := by
  rw [show (20 : ℕ) = 20 + 0 from rfl, bytesAt_reply, ControllersMotorsResponse.serialize]
  exact ControllerInfoShared.bytesAt_slot _ _

theorem motorsReply_connected (slot : UInt8) :
    MotorsConnected (srv.reply stack type (motorsResponse stack slot).serialize) := by
  rw [MotorsConnected, bytesAt_succ, motorsReply_info]
  rfl

theorem dataReply_connected {i : ℕ} {status : InputStatus}
    (hi : i < srv.controllerManager.controllers.length)
    (hstatus : srv.controllerManager.lastInputStates[i]? = some status) (srv' : DsuServer) :
    DataConnected
      (srv'.reply stack type (buildControllerDataResponse stack srv i).1.serialize) := by
  have hdata := buildControllerDataResponse_data stack srv hi hstatus
  refine ⟨?_, ?_⟩
  · rw [show (21 : ℕ) = 20 + 1 from rfl, bytesAt_reply, bytesAt_succ,
      ControllersDataResponse.serialize_eq, ControllerInfoShared.bytesAt_slot, hdata.state]
    rfl
  · rw [show (31 : ℕ) = 20 + 11 from rfl, bytesAt_reply, ControllersDataResponse.bytesAt_connected,
      hdata.connected]
    rfl

end Replies

section Agreement

variable {stack₁ stack₂ stack₃ : Stack} {infoBuf dataBuf motorsBuf : ByteBuffer}
  {conn₁ conn₂ conn₃ : Connection} {infoReply dataReply motorsReply : ByteBuffer}
  {srv₁ srv₂ srv₃ : DsuServer} {slots : ByteBuffer} {dataId motorsId : ControllerIdentifier}

/-- The replies about a slot agree just when it is connected. The motors reply is out of step at
any other, whichever slot it was asked about. -/
theorem repliesAgree_iff (hsrv : srv.Reachable)
    (hinfoBuf : infoBuf.length ≤ maxSize) (hinfo : requestOf infoBuf = .info slots)
    (hdataBuf : dataBuf.length ≤ maxSize) (hdata : requestOf dataBuf = .data dataId)
    (hmotorsBuf : motorsBuf.length ≤ maxSize) (hmotors : requestOf motorsBuf = .motors motorsId)
    (hinfoReply : srv.handleMessage stack₁ infoBuf conn₁ = .ok (infoReply, srv₁))
    (hdataReply : srv.handleMessage stack₂ dataBuf conn₂ = .ok (dataReply, srv₂))
    (hmotorsReply : srv.handleMessage stack₃ motorsBuf conn₃ = .ok (motorsReply, srv₃)) :
    srv.RepliesAgree dataId.slot infoReply dataReply motorsReply
      ↔ dataId.slot.toNat < srv.controllerManager.getConnectedControllerCount := by
  have hinfoEq := Exec.unique (handleMessage_info stack₁ srv conn₁ hinfoBuf hinfo) hinfoReply
  have hdataEq := Exec.unique (handleMessage_data stack₂ srv hdataBuf hdata conn₂) hdataReply
  have hmotorsEq :=
    Exec.unique (handleMessage_motors stack₃ srv conn₃ hmotorsBuf hmotors) hmotorsReply
  have hmot : MotorsConnected motorsReply := by
    rw [← hmotorsEq.1]
    exact motorsReply_connected ..
  refine ⟨?_, ?_⟩
  · -- the motors reply alone settles it: it always says connected
    exact fun h => (h.1.out 0 3).2 hmot
  · intro hlt
    have hdat : DataConnected dataReply := by
      rw [← hdataEq.1]
      exact dataReply_connected stack₂ srv _ hlt
        (List.getElem?_eq_getElem (by rw [← hsrv.sizes]; exact hlt)) _
    have hinf : ListsConnected infoReply dataId.slot := by
      rw [← hinfoEq.1, listsConnected_iff]
      exact ⟨_, hlt, UInt8.ofNat_toNat⟩
    refine ⟨?_, fun hge => absurd hlt (by omega)⟩
    tfae_have 1 ↔ 2 := ⟨fun _ => hinf, fun _ => hlt⟩
    tfae_have 1 ↔ 3 := ⟨fun _ => hdat, fun _ => hlt⟩
    tfae_have 1 ↔ 4 := ⟨fun _ => hmot, fun _ => hlt⟩
    tfae_finish

def oneController : DsuServer := ⟨⟨[⟨5, some ⟨0⟩⟩], [.zero]⟩, 7, 0⟩

theorem oneController_reachable : oneController.Reachable :=
  ⟨_, [], ⟨rfl, connectEvents (some 5), .cons rfl <| .cons rfl <| .cons rfl <| .cons rfl <|
    .cons rfl <| .nil _⟩, .nil _⟩

theorem empty_reachable : Reachable ⟨.empty, 7, 0⟩ := ⟨_, [], ⟨rfl, [], .nil _⟩, .nil _⟩

def infoRequest0 : ByteBuffer := clientPacket .controllersInfoMessage [1, 0, 0, 0, 0]
def dataRequest0 : ByteBuffer := clientPacket .controllersDataMessage (List.replicate 8 0)
def motorsRequest0 : ByteBuffer := clientPacket .controllersMotorsInfoMessage (List.replicate 8 0)

theorem repliesAgree_iff_one : ∃ infoReply dataReply motorsReply srv₂,
    oneController.handleMessage (.filled 0) infoRequest0 ⟨0, 0⟩ = .ok (infoReply, oneController)
      ∧ oneController.handleMessage (.filled 0) dataRequest0 ⟨0, 0⟩ = .ok (dataReply, srv₂)
      ∧ oneController.handleMessage (.filled 0) motorsRequest0 ⟨0, 0⟩
        = .ok (motorsReply, oneController)
      ∧ oneController.RepliesAgree 0 infoReply dataReply motorsReply := by
  have hinfo := handleMessage_info (.filled 0) oneController ⟨0, 0⟩
    (show infoRequest0.length ≤ maxSize by decide) rfl
  have hdata := handleMessage_data (.filled 0) oneController
    (show dataRequest0.length ≤ maxSize by decide) rfl ⟨0, 0⟩
  have hmotors := handleMessage_motors (.filled 0) oneController ⟨0, 0⟩
    (show motorsRequest0.length ≤ maxSize by decide) rfl
  exact ⟨_, _, _, _, hinfo, hdata, hmotors,
    (repliesAgree_iff oneController_reachable (by decide) rfl (by decide) rfl (by decide) rfl hinfo
      hdata hmotors).2 (by decide)⟩

/-- With no controller, the motors reply says that slot `0` is connected. -/
theorem not_repliesAgree_empty : ∃ (srv srv₂ : DsuServer) (infoReply dataReply motorsReply : _),
    srv.Reachable
      ∧ srv.handleMessage (.filled 0) infoRequest0 ⟨0, 0⟩ = .ok (infoReply, srv)
      ∧ srv.handleMessage (.filled 0) dataRequest0 ⟨0, 0⟩ = .ok (dataReply, srv₂)
      ∧ srv.handleMessage (.filled 0) motorsRequest0 ⟨0, 0⟩ = .ok (motorsReply, srv)
      ∧ ¬ srv.RepliesAgree 0 infoReply dataReply motorsReply := by
  refine ⟨⟨.empty, 7, 0⟩, _, _, _, _, empty_reachable,
    handleMessage_info (.filled 0) _ ⟨0, 0⟩ (by decide) rfl,
    handleMessage_data (.filled 0) _ (by decide) rfl ⟨0, 0⟩,
    handleMessage_motors (.filled 0) _ ⟨0, 0⟩ (by decide) rfl, fun h => ?_⟩
  exact absurd ((h.1.out 0 3).2 (motorsReply_connected ..)) (by decide)

theorem length_slots (hinfo : requestOf infoBuf = .info slots) : slots.length ≤ 4 := by
  have henv : Enveloped infoBuf := enveloped_of_request (by simp [hinfo])
  rw [requestOf, if_pos henv, Packet.request] at hinfo
  split_ifs at hinfo
  rw [infoRequest] at hinfo
  split_ifs at hinfo with hbody
  simp only [Request.info.injEq] at hinfo
  rw [← hinfo, bytesAt, List.length_take, List.length_drop]
  omega

/-- The info reply reports the requested slots just when they are the connected ones, in order. -/
theorem reportsRequested_iff (hbuf : infoBuf.length ≤ maxSize)
    (hinfo : requestOf infoBuf = .info slots)
    (hreply : srv.handleMessage stack₁ infoBuf conn₁ = .ok (infoReply, srv₁)) :
    srv.ReportsRequested slots infoReply
      ↔ slots = (List.range srv.controllerManager.getConnectedControllerCount).map UInt8.ofNat := by
  obtain ⟨rfl, -⟩ := Exec.unique (handleMessage_info stack₁ srv conn₁ hbuf hinfo) hreply
  refine ⟨?_, ?_⟩
  · rintro ⟨r, hr, hentries⟩
    have hslots := congrArg (List.map Prod.fst) hentries
    rw [List.map_map, List.map_map] at hslots
    calc slots = slots.map id := (List.map_id _).symm
      _ = r.info.map (fun e => e.info.slot) := hslots.symm
      _ = _ := slots_of_drop_reply stack₁ srv _ hr
  · intro hslots
    refine ⟨_, drop_reply .., ?_⟩
    have hlen := length_slots hinfo
    rw [hslots, List.length_map, List.length_range] at hlen
    rw [hslots, buildControllersInfoResponse, List.map_map, List.map_map]
    refine List.map_congr_left fun i hi => ?_
    have hlt := List.mem_range.1 hi
    have hnat : (UInt8.ofNat i).toNat = i := by
      rw [UInt8.toNat_ofNat']
      omega
    simp only [Function.comp_apply, hnat, if_pos hlt]
    rfl

theorem reportsRequested_iff_one : ∃ reply srv',
    oneController.handleMessage (.filled 0) infoRequest0 ⟨0, 0⟩ = .ok (reply, srv')
      ∧ (oneController.ReportsRequested [0] reply
        ↔ [0] = (List.range oneController.controllerManager.getConnectedControllerCount).map
          UInt8.ofNat) := by
  have hinfo := handleMessage_info (.filled 0) oneController ⟨0, 0⟩
    (show infoRequest0.length ≤ maxSize by decide) rfl
  exact ⟨_, _, hinfo, reportsRequested_iff (by decide) rfl hinfo⟩

/-- Asked about slot `1`, the server reports slot `0`. -/
theorem not_reportsRequested_one : ∃ buf reply, requestOf buf = .info [1]
    ∧ oneController.handleMessage (.filled 0) buf ⟨0, 0⟩ = .ok (reply, oneController)
    ∧ ¬ oneController.ReportsRequested [1] reply := by
  refine ⟨clientPacket .controllersInfoMessage [1, 0, 0, 0, 1], _, rfl,
    handleMessage_info (.filled 0) oneController ⟨0, 0⟩ (by decide) rfl, ?_⟩
  rintro ⟨r, hr, hentries⟩
  have hslots : r.info.map (fun e => e.info.slot) = [1] := by
    simpa using congrArg (List.map Prod.fst) hentries
  rw [slots_of_drop_reply (.filled 0) oneController _ hr] at hslots
  exact absurd hslots (by decide)

end Agreement

end DsuServer

end ProConDSU
