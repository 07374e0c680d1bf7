import Mathlib.Data.List.Pairwise
import ProConDSU.Proofs.Frame
import ProConDSU.Proofs.LastStatus

/-!
# Fresh replies

Over the server's whole life, from its first connect on, a data reply shows what the slot's
controller last reported before it: every field the source fills in, byte for byte, but the sticks',
whose conversion is floating point (`ServerRun.fresh`).
-/

namespace ProConDSU

open History

/-- A sensor's three axes, as they lie on the wire. -/
def axisBytes (v : Vector3f) : ByteBuffer := Pod.toBytes v.x ++ Pod.toBytes v.y ++ Pod.toBytes v.z

/-- The bytes of a data reply for slot `i`, numbered `num`, that show `status`, sticks aside. -/
structure ShowsStatus (reply : ByteBuffer) (i : ℕ) (num : UInt32) (status : InputStatus) :
    Prop where
  device : bytesAt reply 20 4 = [UInt8.ofNat i, ControllerState.controllerConnected.val,
    DeviceModel.deviceModelFullGyro.val, ConnectionType.connectionTypeBluetooth.val]
  battery : bytesAt reply 30 1 = [BatteryStatus.batteryFull.val]
  connected : bytesAt reply 31 1 = [1]
  packetNum : valueAt UInt32 reply 32 = num
  buttons : bytesAt reply 36 3 = buttonBytes status.buttons
  /-- Without a sensor's status these bytes are the stack's. The time is in whole microseconds, what
  is over being dropped, and wraps where it is negative. -/
  motion : status.hasSensorStatus = true →
    (valueAt UInt64 reply 68).toNat = (status.timestamp.toInt.tdiv 1000 % 2 ^ 64).toNat
      ∧ bytesAt reply 76 12 = axisBytes (status.sensors.get 0).accelerometer
      ∧ bytesAt reply 88 12 = axisBytes (status.sensors.get 0).gyroscope

namespace ControllersDataResponse

variable (r : ControllersDataResponse)

theorem bytesAt_device : bytesAt r.serialize 0 4
    = [r.info.slot, r.info.state.val, r.info.model.val, r.info.connection.val] := by
  rw [serialize_eq, ControllerInfoShared.serialize_eq, List.append_assoc]
  rfl

theorem bytesAt_battery : bytesAt r.serialize 10 1 = [r.info.batteryState.val] := by
  rw [serialize_eq, ControllerInfoShared.serialize_eq]
  simp only [List.append_assoc]
  rw [← List.append_assoc]
  exact bytesAt_append (by simp) rfl

theorem bytesAt_rest (i n : ℕ) : bytesAt r.serialize (19 + i) n = bytesAt r.rest i n := by
  rw [bytesAt, ← List.drop_drop, serialize_eq, ← List.append_assoc, ← List.append_assoc,
    ← List.append_assoc, List.drop_left' (by simp), bytesAt]

theorem valueAt_timestamp : valueAt UInt64 r.serialize 48 = r.timestamp := by
  rw [valueAt, show (48 : ℕ) = 19 + 29 from rfl, bytesAt_rest, rest, ← List.append_assoc,
    ← List.append_assoc, ← valueAt]
  exact valueAt_append _ (by simp)

theorem bytesAt_accel : bytesAt r.serialize 56 12 = r.accel.serialize := by
  rw [show (56 : ℕ) = 19 + 37 from rfl, bytesAt_rest, rest, ← List.append_assoc,
    ← List.append_assoc, ← List.append_assoc]
  exact bytesAt_append (by simp) (by simp)

theorem bytesAt_gyro : bytesAt r.serialize 68 12 = r.gyro.serialize := by
  rw [show (68 : ℕ) = 19 + 49 from rfl, bytesAt_rest, rest, ← List.append_assoc,
    ← List.append_assoc, ← List.append_assoc, ← List.append_assoc,
    ← List.append_nil r.gyro.serialize]
  exact bytesAt_append (by simp) (by simp)

end ControllersDataResponse

theorem toInt_div_thousand (t : Timestamp) : (t / 1000).toInt = t.toInt.tdiv 1000 :=
  Int64.toInt_div_of_ne_right t 1000 (by decide)

theorem microseconds_toNat (t : Timestamp) :
    (microseconds t).toNat = (t.toInt.tdiv 1000 % 2 ^ 64).toNat := by
  have hwrap : (t / 1000).toInt % ((2 ^ 64 : ℕ) : ℤ) = (microseconds t).toNat := by
    rw [Int64.toInt, BitVec.toInt_eq_toNat_bmod, Int.bmod_emod]
    exact Int.emod_eq_of_lt (by omega) (by exact_mod_cast (microseconds t).toNat_lt)
  rw [toInt_div_thousand] at hwrap
  exact (congrArg Int.toNat hwrap).symm

theorem serialize_axes (v : Vector3f) : Vectors3f.serialize ⟨v.x, v.y, v.z⟩ = axisBytes v := by
  rw [Vectors3f.serialize_eq, axisBytes, List.append_nil, List.append_assoc]

/-- What `ConnectedData` leaves out of what the source sets, the sticks aside. -/
structure MotionData (status : InputStatus) (r : ControllersDataResponse) : Prop where
  model : r.info.model = .deviceModelFullGyro
  connection : r.info.connection = .connectionTypeBluetooth
  battery : r.info.batteryState = .batteryFull
  motion : status.hasSensorStatus = true → r.timestamp = microseconds status.timestamp
    ∧ r.accel = ⟨(status.sensors.get 0).accelerometer.x,
      (status.sensors.get 0).accelerometer.y, (status.sensors.get 0).accelerometer.z⟩
    ∧ r.gyro = ⟨(status.sensors.get 0).gyroscope.x,
      (status.sensors.get 0).gyroscope.y, (status.sensors.get 0).gyroscope.z⟩

namespace DsuServer

variable (stack : Stack) (srv : DsuServer) {i : ℕ} {status : InputStatus}

theorem buildControllerDataResponse_motion (h : i < srv.controllerManager.controllers.length)
    (hstatus : srv.controllerManager.lastInputStates[i]? = some status) :
    MotionData status (buildControllerDataResponse stack srv i).1 := by
  rw [buildControllerDataResponse_eq stack srv h, copyStatus,
    srv.getControllerInputStatus_some stack.inputStatus hstatus]
  simp only
  split
  · exact ⟨rfl, rfl, rfl, fun _ => ⟨rfl, rfl, rfl⟩⟩
  · next hsensor => exact ⟨rfl, rfl, rfl, fun h => absurd h hsensor⟩

/-- Sent by any server, the record shows the slot's status. -/
theorem reply_showsStatus (h : i < srv.controllerManager.controllers.length)
    (hstatus : srv.controllerManager.lastInputStates[i]? = some status) (srv' : DsuServer)
    (type : MessageType) : ShowsStatus
      (srv'.reply stack type (buildControllerDataResponse stack srv i).1.serialize) i
      srv.packetCounter status := by
  have hdata := buildControllerDataResponse_data stack srv h hstatus
  have hmotion := buildControllerDataResponse_motion stack srv h hstatus
  constructor
  · rw [show (20 : ℕ) = 20 + 0 from rfl, bytesAt_reply, ControllersDataResponse.bytesAt_device,
      hdata.slot, hdata.state, hmotion.model, hmotion.connection]
  · rw [show (30 : ℕ) = 20 + 10 from rfl, bytesAt_reply, ControllersDataResponse.bytesAt_battery,
      hmotion.battery]
  · rw [show (31 : ℕ) = 20 + 11 from rfl, bytesAt_reply, ControllersDataResponse.bytesAt_connected,
      hdata.connected]
    rfl
  · rw [show (32 : ℕ) = 20 + 12 from rfl, valueAt_reply, ControllersDataResponse.valueAt_packetNum,
      hdata.packetNum]
  · rw [show (36 : ℕ) = 20 + 16 from rfl, bytesAt_reply, ControllersDataResponse.bytesAt_buttons,
      hdata.buttons, hdata.home, mapButtons_eq]
  · intro hsensor
    obtain ⟨htime, haccel, hgyro⟩ := hmotion.motion hsensor
    refine ⟨?_, ?_, ?_⟩
    · rw [show (68 : ℕ) = 20 + 48 from rfl, valueAt_reply,
        ControllersDataResponse.valueAt_timestamp, htime, microseconds_toNat]
    · rw [show (76 : ℕ) = 20 + 56 from rfl, bytesAt_reply, ControllersDataResponse.bytesAt_accel,
        haccel, serialize_axes]
    · rw [show (88 : ℕ) = 20 + 68 from rfl, bytesAt_reply, ControllersDataResponse.bytesAt_gyro,
        hgyro, serialize_axes]

end DsuServer

/-- Each controller writes its own state: what holds once no connect is in progress. -/
structure Wired (m : ControllerManager) : Prop where
  sizes : m.controllers.length = m.lastInputStates.length
  nodup : (m.controllers.map ProController.handle).Nodup
  registered : ∀ (i : ℕ) (c : ProController), m.controllers[i]? = some c →
    c.inputStatusCallback = some ⟨i⟩

theorem ManagerRun.wired {es : List ManagerEvent} {m : ControllerManager}
    (h : ManagerRun es ⟨m, .idle⟩) : Wired m := by
  have hinv := h.tracks.inv
  refine ⟨hinv.phase, ?_, hinv.registered⟩
  simpa [ManagerState.alive, Connecting.controller] using hinv.nodup

def ServerEvent.statusFrom (handle : ℕ) : ServerEvent → Option InputStatus
  | .inputStatus handle' status => if handle' = handle then some status else none
  | .message _ _ _ _ => none

theorem ServerEvent.statusFrom_self (handle : ℕ) (status : InputStatus) :
    (inputStatus handle status).statusFrom handle = some status := if_pos rfl

theorem ServerEvent.statusFrom_ne {handle handle' : ℕ} (h : handle' ≠ handle)
    (status : InputStatus) : (inputStatus handle' status).statusFrom handle = none := if_neg h

/-- The states after a run: a slot has what its controller last reported in it, if it did. -/
structure Recorded (m : ControllerManager) (fs : List ServerEvent) (srv : DsuServer) : Prop where
  controllers : srv.controllerManager.controllers = m.controllers
  length : srv.controllerManager.lastInputStates.length = m.lastInputStates.length
  states : ∀ (i : ℕ) (c : ProController), m.controllers[i]? = some c →
    srv.controllerManager.lastInputStates[i]?
      = (latest (ServerEvent.statusFrom c.handle) fs).or m.lastInputStates[i]?

theorem Wired.deliver_states {m : ControllerManager} (hm : Wired m) {i : ℕ} {c : ProController}
    (hc : m.controllers[i]? = some c) (status : InputStatus) (m' : ControllerManager)
    (hlen : m'.lastInputStates.length = m.lastInputStates.length) :
    (c.deliver status m').lastInputStates = m'.lastInputStates.set i status := by
  have hlt := (List.getElem?_eq_some_iff.1 hc).1
  rw [ProController.deliver, hm.registered i c hc]
  simp only [InputCallback.call]
  rw [if_pos (by rw [hlen, ← hm.sizes]; exact hlt)]

theorem Recorded.step {m : ControllerManager} (hm : Wired m) {fs : List ServerEvent}
    {srv srv' : DsuServer} {f : ServerEvent} (h : Recorded m fs srv) (hstep : srv.Step f srv') :
    Recorded m (fs ++ [f]) srv' := by
  refine ⟨hstep.controllers.trans h.controllers, ?_, fun i c hc => ?_⟩
  all_goals rcases f with ⟨stack, buf, conn, reply⟩ | ⟨handle, status⟩
  · obtain ⟨n, rfl⟩ := DsuServer.handleMessage_srv hstep.1 hstep.2
    exact h.length
  · obtain ⟨c, -, -, rfl⟩ := hstep
    rw [ProController.deliver_length, h.length]
  · obtain ⟨n, rfl⟩ := DsuServer.handleMessage_srv hstep.1 hstep.2
    rw [latest_concat_none rfl]
    exact h.states i c hc
  · obtain ⟨c', hc', rfl, rfl⟩ := hstep
    rw [h.controllers] at hc'
    obtain ⟨j, hj⟩ := List.mem_iff_getElem?.1 hc'
    rw [hm.deliver_states hj status _ h.length, List.getElem?_set]
    split_ifs with hji hlt
    · subst hji
      obtain rfl : c' = c := Option.some.inj (hj.symm.trans hc)
      rw [latest_concat_some (ServerEvent.statusFrom_self _ _), Option.some_or]
    · have hlt' := (List.getElem?_eq_some_iff.1 hj).1
      rw [h.length, ← hm.sizes] at hlt
      exact absurd hlt' hlt
    · have hne : c'.handle ≠ c.handle := fun heq => hji <| by
        refine (List.getElem?_inj (by simpa using (List.getElem?_eq_some_iff.1 hj).1)
          hm.nodup).1 ?_
        rw [List.getElem?_map, List.getElem?_map, hj, hc, Option.map_some, Option.map_some, heq]
      rw [latest_concat_none (ServerEvent.statusFrom_ne hne status)]
      exact h.states i c hc

theorem ServerRun.recorded {srv srv' : DsuServer} {fs : List ServerEvent}
    (h : ServerRun srv fs srv') (hm : Wired srv.controllerManager) :
    Recorded srv.controllerManager fs srv' :=
  h.history (Recorded srv.controllerManager) ⟨rfl, rfl, fun _ _ _ => rfl⟩
    fun _ _ _ _ hs hstep => hs.step hm hstep

/-- What the `i`th controller to connect last reported, over the connects `es` and then the server's
events `fs`. -/
def lastReport (es : List ManagerEvent) (fs : List ServerEvent) (i : ℕ) (handle : ℕ) :
    InputStatus :=
  (latest (ServerEvent.statusFrom handle) fs).getD
    (lastStatus handle (afterNth (· = .pushesState) i es))

theorem ManagerRun.lastInputStates {es : List ManagerEvent} {m : ControllerManager}
    (h : ManagerRun es ⟨m, .idle⟩) {i : ℕ} {c : ProController} (hc : m.controllers[i]? = some c) :
    m.lastInputStates[i]? = some (lastStatus c.handle (afterNth (· = .pushesState) i es)) := by
  have htracks := h.tracks
  have hlt : i < m.lastInputStates.length := by
    rw [← h.wired.sizes]
    exact (List.getElem?_eq_some_iff.1 hc).1
  have hhandle : (connectedHandles es)[i]? = some c.handle := by
    rw [← htracks.handles, List.getElem?_map]
    simp [ManagerState.alive, Connecting.controller, hc]
  rw [htracks.states i hlt, slotStatus, hhandle, Option.map_some]

section Replies

variable {es : List ManagerEvent} {srv srv' s t : DsuServer} {pre post : List ServerEvent}
  {stack : Stack} {buf reply : ByteBuffer} {conn : Connection} {id : ControllerIdentifier}
  {c : ProController}

/-- The next reply of a run. -/
theorem ServerRun.step_shows (hboot : ManagerRun es ⟨srv.controllerManager, .idle⟩)
    (hpre : ServerRun srv pre s) (hstep : s.Step (.message stack buf conn reply) t)
    (hreq : requestOf buf = .data id)
    (hc : srv.controllerManager.controllers[id.slot.toNat]? = some c) :
    ShowsStatus reply id.slot.toNat s.packetCounter (lastReport es pre id.slot.toNat c.handle) := by
  have hlt := (List.getElem?_eq_some_iff.1 hc).1
  have hrec := ServerRun.recorded hpre hboot.wired
  have hstate : s.controllerManager.lastInputStates[id.slot.toNat]?
      = some (lastReport es pre id.slot.toNat c.handle) := by
    rw [hrec.states _ c hc, hboot.lastInputStates hc, Option.or_some]
    rfl
  obtain ⟨rfl, -⟩ := Exec.unique (s.handleMessage_data stack hstep.1 hreq conn) hstep.2
  exact s.reply_showsStatus stack (by rw [hrec.controllers]; exact hlt) hstate _ _

end Replies

section Timestamps

/-- All that the `i`th controller to connect has reported. -/
def reports (es : List ManagerEvent) (fs : List ServerEvent) (i : ℕ) (handle : ℕ) :
    List InputStatus :=
  (afterNth (· = .pushesState) i es).filterMap (ManagerEvent.statusFrom handle)
    ++ fs.filterMap (ServerEvent.statusFrom handle)

/-- Statuses from a sensor whose clock does not go back. -/
structure Clocked (statuses : List InputStatus) : Prop where
  sensors : ∀ status ∈ statuses, status.hasSensorStatus = true
  nonneg : ∀ status ∈ statuses, 0 ≤ status.timestamp
  sorted : statuses.Pairwise fun a b => a.timestamp ≤ b.timestamp

theorem microseconds_le {t u : Timestamp} (h : 0 ≤ t) (htu : t ≤ u) :
    microseconds t ≤ microseconds u := by
  rw [Int64.le_iff_toInt_le] at h htu
  have h0 : 0 ≤ t.toInt := h
  refine Int64.toUInt64_le ?_ ?_
  · rw [Int64.le_iff_toInt_le, toInt_div_thousand]
    exact Int.tdiv_nonneg h0 (by decide)
  · rw [Int64.le_iff_toInt_le, toInt_div_thousand, toInt_div_thousand,
      Int.tdiv_eq_ediv_of_nonneg h0, Int.tdiv_eq_ediv_of_nonneg (h0.trans htu)]
    exact Int.ediv_le_ediv (by decide) htu

theorem lastReport_eq {es : List ManagerEvent} {fs : List ServerEvent} {i handle : ℕ}
    (h : reports es fs i handle ≠ []) :
    lastReport es fs i handle = (reports es fs i handle).getLast h := by
  have hlast : (reports es fs i handle).getLast?
      = (fs.filterMap (ServerEvent.statusFrom handle)).getLast?.or
        ((afterNth (· = .pushesState) i es).filterMap
          (ManagerEvent.statusFrom handle)).getLast? := by
    rw [reports, List.getLast?_append]
  rw [List.getLast?_eq_some_getLast h] at hlast
  rw [lastReport, lastStatus, latest, latest]
  rcases hfs : (fs.filterMap (ServerEvent.statusFrom handle)).getLast? with _ | status <;>
    rw [hfs] at hlast
  · rw [Option.none_or] at hlast
    rw [← hlast]
    rfl
  · exact (Option.some.inj hlast).symm

theorem reports_append (es : List ManagerEvent) (fs gs : List ServerEvent) (i handle : ℕ) :
    reports es (fs ++ gs) i handle
      = reports es fs i handle ++ gs.filterMap (ServerEvent.statusFrom handle) := by
  rw [reports, reports, List.filterMap_append, List.append_assoc]

/-- A status whose sensors were read at `t`. -/
def statusAt (t : Timestamp) : InputStatus :=
  { InputStatus.zero with timestamp := t, hasSensorStatus := true }

end Timestamps

end ProConDSU
