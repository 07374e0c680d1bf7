import ProConDSU.ControllerManager
import ProConDSU.UdpServer

/-!
# The DSU server

`dsu_server.hpp` and `dsu_server.cpp`. The locals a function declares without initialising start
with whatever the stack holds (`Stack`), so a result that depends on it is one that reads
uninitialised memory.
-/

namespace ProConDSU

structure DsuServer where
  controllerManager : ControllerManager
  serverId : UInt32
  packetCounter : UInt32
  deriving DecidableEq

/-- The indeterminate initial contents of the locals of `handleMessage` and of the functions it
calls, under the locals' names; `ports` is `cirq`'s, and `cir i` that of the loop's `i`th round.
Also what the program makes of a cast that is undefined. -/
structure Stack where
  reqHeader : PacketHeader
  reqType : MessageType
  pvrs : ProtocolVersionResponse
  ports : Int32
  cir : ℕ → ControllerInfoResponse
  cdrq : ControllersDataRequest
  cdrs : ControllersDataResponse
  inputStatus : InputStatus
  cmim : ControllersMotorsRequest
  cmirs : ControllersMotorsResponse
  cmrq : ControllersMotorsRumbleRequest
  header : PacketHeader
  resp : Packet
  undefinedCast : FloatBits → UInt8

def buttonDPadLeft : UInt8 := (1 : UInt8) <<< 7
def buttonDPadDown : UInt8 := (1 : UInt8) <<< 6
def buttonDPadRight : UInt8 := (1 : UInt8) <<< 5
def buttonDPadUp : UInt8 := (1 : UInt8) <<< 4
def buttonOptions : UInt8 := (1 : UInt8) <<< 3
def buttonR3 : UInt8 := (1 : UInt8) <<< 2
def buttonL3 : UInt8 := (1 : UInt8) <<< 1
def buttonShare : UInt8 := (1 : UInt8) <<< 0

def buttonY : UInt8 := (1 : UInt8) <<< 7
def buttonB : UInt8 := (1 : UInt8) <<< 6
def buttonA : UInt8 := (1 : UInt8) <<< 5
def buttonX : UInt8 := (1 : UInt8) <<< 4
def buttonR1 : UInt8 := (1 : UInt8) <<< 3
def buttonL1 : UInt8 := (1 : UInt8) <<< 2
def buttonR2 : UInt8 := (1 : UInt8) <<< 1
def buttonL2 : UInt8 := (1 : UInt8) <<< 0

/-- `if (pressed) buttons |= mask;` -/
def orIf (pressed : Bool) (mask buttons : UInt8) : UInt8 :=
  if pressed then buttons ||| mask else buttons

def mapButtons1 (b : ButtonStatus) : UInt8 :=
  0
    |> orIf b.leftButton buttonDPadLeft
    |> orIf b.downButton buttonDPadDown
    |> orIf b.rightButton buttonDPadRight
    |> orIf b.upButton buttonDPadUp
    |> orIf b.minusButton buttonOptions
    |> orIf b.rStick buttonR3
    |> orIf b.lStick buttonL3
    |> orIf b.shareButton buttonShare

def mapButtons2 (b : ButtonStatus) : UInt8 :=
  0
    |> orIf b.yButton buttonY
    |> orIf b.bButton buttonB
    |> orIf b.aButton buttonA
    |> orIf b.xButton buttonX
    |> orIf b.rButton buttonR1
    |> orIf b.lButton buttonL1
    |> orIf b.rzButton buttonR2
    |> orIf b.lzButton buttonL2

/-- `static_cast<uint8_t>((x + 1.0f) * 127.5f)`. The cast is undefined where the value is out of
range. -/
def stickByte (stack : Stack) (x : FloatBits) : UInt8 :=
  let y := (Float32.ofBits x + 1.0) * 127.5
  if -1.0 < y ∧ y < 256.0 then y.toUInt8 else stack.undefinedCast x

/-- `duration_cast<microseconds>(t.time_since_epoch()).count()`, stored in a `uint64_t`. -/
def microseconds (t : Timestamp) : UInt64 := (t / 1000).toUInt64

namespace DsuServer

/-- The record of a slot that is not connected: the other fields stay as the stack has them. -/
def disconnectedData (stack : Stack) : ControllersDataResponse :=
  { stack.cdrs with connected := false }

/-- `cdrs`, up to the call of `getControllerInputStatus`. -/
def numberedData (stack : Stack) (srv : DsuServer) (controllerIndex : ℕ) :
    ControllersDataResponse :=
  { stack.cdrs with
    connected := true
    info := { stack.cdrs.info with
      slot := UInt8.ofNat controllerIndex
      state := .controllerConnected
      model := .deviceModelFullGyro
      connection := .connectionTypeBluetooth
      batteryState := .batteryFull }
    packetNum := srv.packetCounter }

/-- Up to that call, if it is made. -/
def beginData (stack : Stack) (srv : DsuServer) (controllerIndex : ℕ) :
    Option (ControllersDataResponse × DsuServer) :=
  if controllerIndex ≥ srv.controllerManager.getConnectedControllerCount then none
  else
    some (srv.numberedData stack controllerIndex,
      { srv with packetCounter := srv.packetCounter + 1 })

/-- `cdrs`, from that call on. -/
def copyStatus (stack : Stack) (srv : DsuServer) (controllerIndex : ℕ)
    (cdrs : ControllersDataResponse) : ControllersDataResponse :=
  match srv.controllerManager.getControllerInputStatus controllerIndex stack.inputStatus with
  | (false, _) => { cdrs with connected := false }
  | (true, inputStatus) =>
    let cdrs := { cdrs with
      buttons := ⟨mapButtons1 inputStatus.buttons, mapButtons2 inputStatus.buttons⟩
      home := inputStatus.buttons.homeButton
      lStickX := stickByte stack inputStatus.leftStick.x
      lStickY := stickByte stack inputStatus.leftStick.y
      rStickX := stickByte stack inputStatus.rightStick.x
      rStickY := stickByte stack inputStatus.rightStick.y }
    if inputStatus.hasSensorStatus then
      let sensor := inputStatus.sensors.get 0
      { cdrs with
        accel := ⟨sensor.accelerometer.x, sensor.accelerometer.y, sensor.accelerometer.z⟩
        gyro := ⟨sensor.gyroscope.x, sensor.gyroscope.y, sensor.gyroscope.z⟩
        timestamp := microseconds inputStatus.timestamp }
    else cdrs

def buildControllerDataResponse (stack : Stack) (srv : DsuServer) (controllerIndex : ℕ) :
    ControllersDataResponse × DsuServer :=
  match srv.beginData stack controllerIndex with
  | none => (disconnectedData stack, srv)
  | some (cdrs, srv) => (srv.copyStatus stack controllerIndex cdrs, srv)

def controllerInfo (stack : Stack) (i : ℕ) : ControllerInfoResponse :=
  { stack.cir i with
    info := { (stack.cir i).info with
      slot := UInt8.ofNat i
      state := .controllerConnected
      model := .deviceModelFullGyro
      connection := .connectionTypeBluetooth
      batteryState := .batteryFull } }

def buildControllersInfoResponse (stack : Stack) (srv : DsuServer) : ControllersInfoResponse :=
  ⟨(List.range srv.controllerManager.getConnectedControllerCount).map (controllerInfo stack)⟩

def motorsResponse (stack : Stack) (slot : UInt8) : ControllersMotorsResponse :=
  { info := { stack.cmirs.info with
      slot := slot
      state := .controllerConnected
      model := .deviceModelFullGyro
      connection := .connectionTypeBluetooth
      batteryState := .batteryFull }
    motorCount := 2 }

/-- Up to the `switch`: the request, or none where the function returns. -/
def readRequest (stack : Stack) (buf : ByteBuffer) : Exec (Option Packet) :=
  if buf.length < 20 then .ok none
  else if strncmp buf dsuc 4 ≠ 0 then .ok none
  else
    match Packet.deserialize buf ⟨stack.reqHeader, stack.reqType, []⟩ with
    | .error f => .error f
    | .ok (.none, req) => .ok (some req)
    | .ok _ => .ok none

/-- What a case of the `switch` comes to. -/
inductive Case
  | returns
  | replies (body : ByteBuffer)
  /-- It calls `buildControllerDataResponse`, and replies with the record. -/
  | data (controllerIndex : ℕ)

/-- A case that deserializes its request: it returns on an error, and else goes on. -/
def afterDecode {α : Type} (d : Exec (DeserializeError × α)) (rest : α → Case) : Exec Case :=
  match d with
  | .ok (.none, q) => .ok (rest q)
  | .ok _ => .ok .returns
  | .error f => .error f

def switch (stack : Stack) (srv : DsuServer) (req : Packet) : Exec Case :=
  if req.type = .protocolVersionMessage then
    .ok (.replies ({ stack.pvrs with version := 1001 } : ProtocolVersionResponse).serialize)
  else if req.type = .controllersInfoMessage then
    afterDecode (ControllersInfoRequest.deserialize req.body ⟨stack.ports, []⟩) fun _ =>
      .replies (buildControllersInfoResponse stack srv).serialize
  else if req.type = .controllersDataMessage then
    afterDecode (ControllersDataRequest.deserialize req.body stack.cdrq) fun cdrq =>
      .data cdrq.controllerId.slot.toNat
  else if req.type = .controllersMotorsInfoMessage then
    afterDecode (ControllersMotorsRequest.deserialize req.body stack.cmim) fun cmim =>
      .replies (motorsResponse stack cmim.controllerId.slot).serialize
  else if req.type = .controllersMotorsRumbleMessage then
    afterDecode (ControllersMotorsRumbleRequest.deserialize req.body stack.cmrq) fun _ =>
      .replies []
  else .ok .returns

/-- The reply's body, or none where a case returns. -/
def replyBody (stack : Stack) (srv : DsuServer) : Case → Option ByteBuffer × DsuServer
  | .returns => (none, srv)
  | .replies body => (some body, srv)
  | .data controllerIndex =>
    let (cdrs, srv) := buildControllerDataResponse stack srv controllerIndex
    (some cdrs.serialize, srv)

/-- The reply `handleMessage` serializes, after the `switch`. -/
def reply (stack : Stack) (srv : DsuServer) (type : MessageType) (body : ByteBuffer) : ByteBuffer :=
  let header := { stack.header with
    magic := #v[0x44, 0x53, 0x55, 0x53]
    protocol := 1001
    length := UInt16.ofNat (4 + body.length)
    crc32 := 0
    clientServerID := srv.serverId }
  ({ stack.resp with header := header, type := type, body := body } : Packet).serialize

def handleMessage (stack : Stack) (srv : DsuServer) (buf : ByteBuffer) (_conn : Connection) :
    Exec (ByteBuffer × DsuServer) :=
  match readRequest stack buf with
  | .error f => .error f
  | .ok none => .ok ([], srv)
  | .ok (some req) =>
    match srv.switch stack req with
    | .error f => .error f
    | .ok case =>
      match srv.replyBody stack case with
      | (none, srv) => .ok ([], srv)
      | (some body, srv) => .ok (srv.reply stack req.type body, srv)

end DsuServer

/-! ## The server's runs -/

/-- What happens to a server: a message handled and its reply returned, or a controller reporting
its status. -/
inductive ServerEvent
  | message (stack : Stack) (buf : ByteBuffer) (conn : Connection) (reply : ByteBuffer)
  | inputStatus (handle : ℕ) (status : InputStatus)

def DsuServer.Step (srv : DsuServer) : ServerEvent → DsuServer → Prop
  | .message stack buf conn reply, srv' =>
    buf.length ≤ maxSize ∧ srv.handleMessage stack buf conn = .ok (reply, srv')
  | .inputStatus handle status, srv' =>
    ∃ c ∈ srv.controllerManager.controllers, c.handle = handle ∧
      srv' = { srv with controllerManager := c.deliver status srv.controllerManager }

abbrev ServerRun (srv : DsuServer) (es : List ServerEvent) (srv' : DsuServer) : Prop :=
  Run DsuServer.Step srv es srv'

/-- A server just constructed: no connect is in progress, and nothing has been sent. -/
def DsuServer.Booted (srv : DsuServer) : Prop :=
  srv.packetCounter = 0 ∧ ∃ es, ManagerRun es ⟨srv.controllerManager, .idle⟩

def DsuServer.Reachable (srv : DsuServer) : Prop :=
  ∃ srv₀ es, DsuServer.Booted srv₀ ∧ ServerRun srv₀ es srv

/-! ## A message, with callbacks in between -/

/-- How far a running `handleMessage` has come, and the locals it goes on with. -/
inductive Handling
  | idle
  /-- At `buildControllerDataResponse`'s check of the count. -/
  | checking (stack : Stack) (type : MessageType) (controllerIndex : ℕ)
  /-- At its call of `getControllerInputStatus`. -/
  | copying (stack : Stack) (type : MessageType) (controllerIndex : ℕ)
    (cdrs : ControllersDataResponse)
  | returning (reply : ByteBuffer)

/-- `handleMessage` up to the call of `buildControllerDataResponse`, and to its end where it does
not call that. -/
def DsuServer.receive (stack : Stack) (srv : DsuServer) (buf : ByteBuffer) : Exec Handling :=
  match readRequest stack buf with
  | .error f => .error f
  | .ok none => .ok (.returning [])
  | .ok (some req) =>
    match srv.switch stack req with
    | .error f => .error f
    | .ok .returns => .ok (.returning [])
    | .ok (.replies body) => .ok (.returning (srv.reply stack req.type body))
    | .ok (.data controllerIndex) => .ok (.checking stack req.type controllerIndex)

structure HandlerState where
  server : DsuServer
  handling : Handling

inductive HandlerEvent
  | receives (stack : Stack) (buf : ByteBuffer) (conn : Connection)
  | checks
  | copies
  | returns (reply : ByteBuffer)
  | inputStatus (handle : ℕ) (status : InputStatus)

namespace HandlerState

def start (srv : DsuServer) : HandlerState := ⟨srv, .idle⟩

/-- A step, where it can be taken: `handleMessage` in pieces, and a callback of any controller
between any two. The copy of the cached status, which holds no lock, is one step here: no callback
comes in its midst. -/
def step (s : HandlerState) : HandlerEvent → Exec (Option HandlerState)
  | .receives stack buf _ =>
    match s.handling with
    | .idle =>
      if buf.length ≤ maxSize then
        (s.server.receive stack buf).map fun handling => some { s with handling := handling }
      else .ok none
    | _ => .ok none
  | .checks =>
    match s.handling with
    | .checking stack type i =>
      match s.server.beginData stack i with
      | none =>
        let cdrs := DsuServer.disconnectedData stack
        .ok (some { s with handling := .returning (s.server.reply stack type cdrs.serialize) })
      | some (cdrs, srv) => .ok (some { server := srv, handling := .copying stack type i cdrs })
    | _ => .ok none
  | .copies =>
    match s.handling with
    | .copying stack type i cdrs =>
      let cdrs := s.server.copyStatus stack i cdrs
      .ok (some { s with handling := .returning (s.server.reply stack type cdrs.serialize) })
    | _ => .ok none
  | .returns reply =>
    match s.handling with
    | .returning reply' => .ok (if reply' = reply then some { s with handling := .idle } else none)
    | _ => .ok none
  | .inputStatus handle status =>
    .ok ((s.server.controllerManager.controllers.find? (·.handle = handle)).map fun c =>
      { s with server := { s.server with
        controllerManager := c.deliver status s.server.controllerManager } })

end HandlerState

abbrev HandlerState.Runs (s : HandlerState) (es : List HandlerEvent) (t : HandlerState) : Prop :=
  Run (fun s e t => HandlerState.step s e = .ok (some t)) s es t

abbrev HandlerRun (srv : DsuServer) (es : List HandlerEvent) (s : HandlerState) : Prop :=
  (HandlerState.start srv).Runs es s

end ProConDSU
