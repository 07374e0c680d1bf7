import ProConDSU.Lib.Numbering
import ProConDSU.Proofs.Slots

/-!
# Packet numbers

The server has one counter for all its clients: the data replies of a run, for connected slots, are
numbered one after another whoever they go to (`numberedReplies_eq`).
-/

namespace ProConDSU

/-- The client that an event answers with a connected slot's data, the first `n` being connected. -/
def ServerEvent.asker (n : ℕ) : ServerEvent → Option Connection
  | .message _ buf conn _ =>
    match requestOf buf with
    | .data id => if id.slot.toNat < n then some conn else none
    | .dropped | .faults | .version | .info _ | .motors _ | .rumble => none
  | .inputStatus _ _ => none

/-- A datagram that asks for a connected slot's data, the first `n` slots being connected. -/
def AsksConnected (n : ℕ) (buf : ByteBuffer) : Prop :=
  ∃ id, requestOf buf = .data id ∧ id.slot.toNat < n

/-- The messages that `askers` counts. -/
theorem ServerEvent.asker_message {n : ℕ} {stack : Stack} {buf reply : ByteBuffer}
    {conn : Connection} : (message stack buf conn reply).asker n ≠ none ↔ AsksConnected n buf := by
  unfold AsksConnected
  rcases h : requestOf buf with _ | _ | _ | slots | id | id | _ <;> simp [asker, h]

def ServerEvent.packetNum : ServerEvent → UInt32
  | .message _ _ _ reply => valueAt UInt32 reply 32
  | .inputStatus _ _ => 0

def askers (n : ℕ) (es : List ServerEvent) : List Connection := es.filterMap (ServerEvent.asker n)

def numberedReplies (n : ℕ) (es : List ServerEvent) : List (Connection × UInt32) :=
  es.filterMap fun e => (e.asker n).map fun conn => (conn, e.packetNum)

/-- Each client's numbers are consecutive, modulo `2 ^ 32`. -/
def NumbersPerClient (n : ℕ) (es : List ServerEvent) : Prop :=
  Numbering.PerKey (· + 1) (numberedReplies n es)

/-- Between two successive data requests of a client, the number of the others' is a multiple of
`2 ^ 32`. -/
def OthersWrap (n : ℕ) (es : List ServerEvent) : Prop :=
  ∀ (conn : Connection) (pre mid post : List Connection),
    askers n es = pre ++ conn :: (mid ++ conn :: post) → conn ∉ mid → 2 ^ 32 ∣ mid.length

namespace DsuServer

variable {srv srv' : DsuServer}

theorem handleMessage_other {stack : Stack} {buf reply : ByteBuffer} {conn : Connection}
    (hbuf : buf.length ≤ maxSize) (h : srv.handleMessage stack buf conn = .ok (reply, srv'))
    (hreq : ∀ id, requestOf buf ≠ .data id) : srv' = srv := by
  rcases handleMessage_cases hbuf h with ⟨-, -, rfl⟩ | ⟨body, ha, -⟩
  · rfl
  · rcases hr : requestOf buf with _ | _ | _ | slots | id | id | _ <;> rw [hr] at ha <;>
      simp only [answer, reduceCtorEq, Except.ok.injEq, Prod.mk.injEq, false_and] at ha
    case data => exact absurd hr (hreq id)
    all_goals exact ha.2.symm

theorem handleMessage_frame {stack : Stack} {buf reply : ByteBuffer} {conn : Connection}
    (hbuf : buf.length ≤ maxSize) (h : srv.handleMessage stack buf conn = .ok (reply, srv')) :
    (AsksConnected srv.controllerManager.controllers.length buf →
        srv' = { srv with packetCounter := srv.packetCounter + 1 })
      ∧ (¬ AsksConnected srv.controllerManager.controllers.length buf → srv' = srv) := by
  by_cases hreq : ∃ id, requestOf buf = .data id
  · obtain ⟨id, hid⟩ := hreq
    obtain ⟨-, rfl⟩ := Exec.unique (handleMessage_data stack srv hbuf hid conn) h
    refine ⟨?_, ?_⟩
    · rintro ⟨id', hid', hlt⟩
      rw [hid] at hid'
      cases hid'
      exact (buildControllerDataResponse_connected stack srv hlt).2
    · intro hnone
      have hge : srv.controllerManager.controllers.length ≤ id.slot.toNat :=
        not_lt.1 fun hlt => hnone ⟨id, hid, hlt⟩
      rw [buildControllerDataResponse_disconnected stack srv hge]
  · have hother : ∀ id, requestOf buf ≠ .data id := fun id hid => hreq ⟨id, hid⟩
    exact ⟨fun ⟨id, hid, _⟩ => absurd hid (hother id), fun _ => handleMessage_other hbuf h hother⟩

/-- An event that answers with a connected slot's data takes the counter's number, and no other
event touches the counter. -/
theorem Step.packetNum {e : ServerEvent} (h : srv.Step e srv') :
    (∃ conn, e.asker srv.controllerManager.controllers.length = some conn
        ∧ e.packetNum = srv.packetCounter ∧ srv'.packetCounter = srv.packetCounter + 1)
      ∨ (e.asker srv.controllerManager.controllers.length = none
        ∧ srv'.packetCounter = srv.packetCounter) := by
  rcases e with ⟨stack, buf, conn, reply⟩ | ⟨handle, status⟩
  · obtain ⟨hbuf, hm⟩ := h
    by_cases hasks : AsksConnected srv.controllerManager.controllers.length buf
    · have hsrv := (handleMessage_frame hbuf hm).1 hasks
      obtain ⟨id, hid, hlt⟩ := hasks
      obtain ⟨hreply, -⟩ := Exec.unique (handleMessage_data stack srv hbuf hid conn) hm
      refine .inl ⟨conn, ?_, ?_, by rw [hsrv]⟩
      · simp only [ServerEvent.asker, hid, if_pos hlt]
      · rw [ServerEvent.packetNum, ← hreply, show (32 : ℕ) = 20 + 12 from rfl, valueAt_reply,
          ControllersDataResponse.valueAt_packetNum,
          (buildControllerDataResponse_connected stack srv hlt).1]
    · rw [(handleMessage_frame hbuf hm).2 hasks]
      exact .inr ⟨not_not.1 (mt ServerEvent.asker_message.1 hasks), rfl⟩
  · obtain ⟨c, -, -, rfl⟩ := h
    exact .inr ⟨rfl, rfl⟩

theorem Step.controllers {e : ServerEvent} (h : srv.Step e srv') :
    srv'.controllerManager.controllers = srv.controllerManager.controllers := by
  rcases e with ⟨stack, buf, conn, reply⟩ | ⟨handle, status⟩
  · obtain ⟨n, rfl⟩ := handleMessage_srv h.1 h.2
    rfl
  · obtain ⟨c, -, -, rfl⟩ := h
    exact ProController.deliver_controllers ..

/-- A run's data replies are numbered from the counter. -/
theorem numberedReplies_eq {es : List ServerEvent} (h : ServerRun srv es srv') :
    numberedReplies srv.controllerManager.controllers.length es
      = Numbering.number (· + 1) srv.packetCounter
        (askers srv.controllerManager.controllers.length es) := by
  induction h with
  | nil => rfl
  | cons hstep _ ih =>
    rw [Step.controllers hstep] at ih
    rcases Step.packetNum hstep with ⟨conn, hconn, hnum, hnext⟩ | ⟨hnone, hsame⟩
    · rw [numberedReplies, List.filterMap_cons, askers, List.filterMap_cons]
      simp only [hconn, Option.map_some, Numbering.number]
      rw [← numberedReplies, ih, hnum, hnext, askers]
    · rw [numberedReplies, List.filterMap_cons, askers, List.filterMap_cons]
      simp only [hnone, Option.map_none]
      rw [← numberedReplies, ih, hsame, askers]

end DsuServer

theorem iterate_add_one : ∀ (n : ℕ) (k : UInt32), (· + 1)^[n] k = k + UInt32.ofNat n
  | 0, k => by simp
  | n + 1, k => by
    rw [Function.iterate_succ_apply, iterate_add_one n, UInt32.ofNat_add, UInt32.add_assoc,
      UInt32.add_comm (UInt32.ofNat n)]
    rfl

theorem iterate_add_one_eq_self {n : ℕ} {k : UInt32} : (· + 1)^[n] k = k ↔ 2 ^ 32 ∣ n := by
  have hk : k.toNat < 2 ^ 32 := k.toNat_lt
  rw [iterate_add_one, ← UInt32.toNat_inj, UInt32.toNat_add, UInt32.toNat_ofNat']
  omega

/-- The packet numbers are per client just when between two of a client's requests the others' make
the counter wrap to where it was. -/
theorem numbersPerClient_iff {srv srv' : DsuServer} {es : List ServerEvent}
    (h : ServerRun srv es srv') :
    NumbersPerClient srv.controllerManager.controllers.length es
      ↔ OthersWrap srv.controllerManager.controllers.length es := by
  rw [NumbersPerClient, DsuServer.numberedReplies_eq h, Numbering.perKey_number_iff]
  simp only [iterate_add_one_eq_self]
  rfl

section Requests

/-- A server with a controller answers clients in whatever order they ask. -/
theorem exists_run_askers : ∀ (conns : List Connection) (srv : DsuServer),
    0 < srv.controllerManager.controllers.length →
    ∃ es srv', ServerRun srv es srv' ∧ askers srv.controllerManager.controllers.length es = conns
  | [], srv, _ => ⟨[], srv, .nil srv, rfl⟩
  | conn :: conns, srv, hn => by
    have hreq : requestOf DsuServer.dataRequest0 = .data (identifierOf (List.replicate 8 0)) := rfl
    have hstep : srv.Step (.message (.filled 0) DsuServer.dataRequest0 conn _) _ :=
      ⟨by decide, srv.handleMessage_data (.filled 0) (by decide) hreq conn⟩
    have hctl := hstep.controllers
    obtain ⟨es, srv', hrun, hask⟩ := exists_run_askers conns _ (by rw [hctl]; exact hn)
    refine ⟨_, srv', .cons hstep hrun, ?_⟩
    rw [hctl] at hask
    have hconn : ∀ reply, ServerEvent.asker srv.controllerManager.controllers.length
        (.message (.filled 0) DsuServer.dataRequest0 conn reply) = some conn := fun _ => if_pos hn
    rw [askers, List.filterMap_cons, hconn, ← askers, hask]

theorem numbersPerClient_iff_twice : ∃ es srv', ServerRun DsuServer.oneController es srv'
    ∧ askers 1 es = [⟨1, 1⟩, ⟨1, 1⟩] ∧ NumbersPerClient 1 es := by
  obtain ⟨es, srv', hrun, hask⟩ := exists_run_askers [⟨1, 1⟩, ⟨1, 1⟩] DsuServer.oneController
    (by decide)
  refine ⟨es, srv', hrun, hask, (numbersPerClient_iff hrun).2 fun conn pre mid post hsplit _ => ?_⟩
  have hlen := congrArg List.length (hask.symm.trans hsplit)
  simp only [List.length_cons, List.length_nil, List.length_append] at hlen
  rw [show mid.length = 0 by omega]
  exact dvd_zero _

theorem not_numbersPerClient_two : ∃ es srv', ServerRun DsuServer.oneController es srv'
    ∧ askers 1 es = [⟨1, 1⟩, ⟨2, 2⟩, ⟨1, 1⟩] ∧ ¬ NumbersPerClient 1 es := by
  obtain ⟨es, srv', hrun, hask⟩ := exists_run_askers [⟨1, 1⟩, ⟨2, 2⟩, ⟨1, 1⟩]
    DsuServer.oneController (by decide)
  refine ⟨es, srv', hrun, hask, fun h => ?_⟩
  have hnum : numberedReplies 1 es = [(⟨1, 1⟩, 0), (⟨2, 2⟩, 1), (⟨1, 1⟩, 2)] := by
    rw [show 1 = DsuServer.oneController.controllerManager.controllers.length from rfl,
      DsuServer.numberedReplies_eq hrun]
    rw [show askers DsuServer.oneController.controllerManager.controllers.length es = _ from hask]
    rfl
  have hbad := h ⟨1, 1⟩ 0 2 [] [(⟨2, 2⟩, 1)] [] hnum (by simp)
  exact absurd hbad (by decide)

end Requests

end ProConDSU
