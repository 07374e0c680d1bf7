import ProConDSU.Utils

/-!
# Packets

`packet/packet.hpp` and `packet/packet.cpp`: the records of the protocol, with their encoders and
decoders. A value of an `enum class` is any value of its underlying type, named or not, so each is a
structure over that type. A `float` is its 32-bit pattern.
-/

namespace ProConDSU

open Decode

structure PacketHeader where
  magic : Vector UInt8 4
  protocol : UInt16
  length : UInt16
  crc32 : UInt32
  clientServerID : UInt32
  deriving DecidableEq

structure MessageType where
  val : UInt32
  deriving DecidableEq

namespace MessageType

def protocolVersionMessage : MessageType := ⟨0x100000⟩
def controllersInfoMessage : MessageType := ⟨0x100001⟩
def controllersDataMessage : MessageType := ⟨0x100002⟩
def controllersMotorsInfoMessage : MessageType := ⟨0x110001⟩
def controllersMotorsRumbleMessage : MessageType := ⟨0x110002⟩

instance : Pod MessageType := Pod.ofEquiv MessageType.val .mk (fun _ => rfl) fun _ => rfl

@[simp] theorem size_eq : Pod.size MessageType = 4 := rfl

end MessageType

structure Packet where
  header : PacketHeader
  type : MessageType
  body : ByteBuffer
  deriving DecidableEq

def Packet.mapHeader (f : PacketHeader → PacketHeader) (p : Packet) : Packet :=
  { p with header := f p.header }

def Packet.deserialize (buf : ByteBuffer) : Packet → Exec (DeserializeError × Packet) :=
  run buf do
    let err := isValidMessage buf
    if err ≠ .none then fail err
    let magic : Vector UInt8 4 ← read
    assign (mapHeader ({ · with magic := magic }))
    let protocol : UInt16 ← read
    assign (mapHeader ({ · with protocol := protocol }))
    let length : UInt16 ← read
    assign (mapHeader ({ · with length := length }))
    let crc32 : UInt32 ← read
    assign (mapHeader ({ · with crc32 := crc32 }))
    let clientServerID : UInt32 ← read
    assign (mapHeader ({ · with clientServerID := clientServerID }))
    let type : MessageType ← read
    assign ({ · with type := type })
    let bodySize ← remaining
    resize bodySize fun body self => { self with body := body }
    if 0 < bodySize then do
      let body ← readBytes .storage bodySize
      assign ({ · with body := body })

/-- `std::memcpy(result.data() + 8, &crc, sizeof(uint32_t));` -/
def patchCrc (result : ByteBuffer) (crc : UInt32) : ByteBuffer :=
  result.take 8 ++ Pod.toBytes crc ++ result.drop 12

/-- The packet's bytes, the checksum's four zero. -/
def Packet.zeroed (p : Packet) : ByteBuffer :=
  BinaryWriter.new
    |>.writeBytes p.header.magic.toList 4
    |>.write p.header.protocol
    |>.write p.header.length
    |>.write (0 : UInt32)
    |>.write p.header.clientServerID
    |>.write p.type
    |>.writeBytes p.body p.body.length
    |>.getBuffer

def Packet.serialize (p : Packet) : ByteBuffer := patchCrc p.zeroed (computeCrc32 p.zeroed)

def PacketHeader.deserialize (buf : ByteBuffer) :
    PacketHeader → Exec (DeserializeError × PacketHeader) :=
  run buf do
    if buf.length < 20 then fail .errInvalidLength
    let magic ← readBytes .storage 4
    assign ({ · with magic := Pod.ofBytes magic })
    let protocol : UInt16 ← read
    assign ({ · with protocol := protocol })
    let length : UInt16 ← read
    assign ({ · with length := length })
    let crc32 : UInt32 ← read
    assign ({ · with crc32 := crc32 })
    let clientServerID : UInt32 ← read
    assign ({ · with clientServerID := clientServerID })

def PacketHeader.serialize (h : PacketHeader) : ByteBuffer :=
  BinaryWriter.new
    |>.writeBytes h.magic.toList 4
    |>.write h.protocol
    |>.write h.length
    |>.write h.crc32
    |>.write h.clientServerID
    |>.getBuffer

structure ProtocolVersionRequest where
  deriving DecidableEq

def ProtocolVersionRequest.deserialize (_buf : ByteBuffer) (self : ProtocolVersionRequest) :
    Exec (DeserializeError × ProtocolVersionRequest) :=
  .ok (.none, self)

def ProtocolVersionRequest.serialize (_q : ProtocolVersionRequest) : ByteBuffer := []

structure ProtocolVersionResponse where
  version : UInt16
  deriving DecidableEq

def ProtocolVersionResponse.deserialize (buf : ByteBuffer) :
    ProtocolVersionResponse → Exec (DeserializeError × ProtocolVersionResponse) :=
  run buf do
    if buf.length ≠ 2 then fail .errParseError
    let version : UInt16 ← read
    assign ({ · with version := version })

def ProtocolVersionResponse.serialize (v : ProtocolVersionResponse) : ByteBuffer :=
  BinaryWriter.new |>.write v.version |>.getBuffer

structure BatteryStatus where
  val : UInt8
  deriving DecidableEq

def BatteryStatus.batteryFull : BatteryStatus := ⟨0x05⟩

structure ControllerState where
  val : UInt8
  deriving DecidableEq

def ControllerState.controllerDisconnected : ControllerState := ⟨0x00⟩
def ControllerState.controllerConnected : ControllerState := ⟨0x02⟩

structure DeviceModel where
  val : UInt8
  deriving DecidableEq

def DeviceModel.deviceModelFullGyro : DeviceModel := ⟨0x02⟩

structure ConnectionType where
  val : UInt8
  deriving DecidableEq

def ConnectionType.connectionTypeBluetooth : ConnectionType := ⟨0x02⟩

structure ControllerInfoShared where
  slot : UInt8
  state : ControllerState
  model : DeviceModel
  connection : ConnectionType
  macAddress : Vector UInt8 6
  batteryState : BatteryStatus
  deriving DecidableEq

def ControllerInfoShared.deserialize (buf : ByteBuffer) :
    ControllerInfoShared → Exec (DeserializeError × ControllerInfoShared) :=
  run buf do
    if buf.length ≠ 11 then fail .errInvalidLength
    let slot : UInt8 ← read
    assign ({ · with slot := slot })
    let stateVal : UInt8 ← read
    assign ({ · with state := ⟨stateVal⟩ })
    let modelVal : UInt8 ← read
    assign ({ · with model := ⟨modelVal⟩ })
    let connVal : UInt8 ← read
    assign ({ · with connection := ⟨connVal⟩ })
    let macAddress ← readBytes .storage 6
    assign ({ · with macAddress := Pod.ofBytes macAddress })
    let batteryVal : UInt8 ← read
    assign ({ · with batteryState := ⟨batteryVal⟩ })

def ControllerInfoShared.serialize (i : ControllerInfoShared) : ByteBuffer :=
  BinaryWriter.new
    |>.write i.slot
    |>.write i.state.val
    |>.write i.model.val
    |>.write i.connection.val
    |>.writeBytes i.macAddress.toList 6
    |>.write i.batteryState.val
    |>.getBuffer

structure ControllersInfoRequest where
  ports : Int32
  slots : ByteBuffer
  deriving DecidableEq

def ControllersInfoRequest.deserialize (buf : ByteBuffer) :
    ControllersInfoRequest → Exec (DeserializeError × ControllersInfoRequest) :=
  run buf do
    if buf.length < 4 ∨ 8 < buf.length then fail .errInvalidLength
    let ports : Int32 ← read
    assign ({ · with ports := ports })
    if buf.length < sizeT (4 + sizeT ports.toInt) then fail .errParseError
    resize (sizeT ports.toInt) fun slots self => { self with slots := slots }
    let slots ← readBytes .storage (sizeT ports.toInt)
    assign ({ · with slots := slots })

def ControllersInfoRequest.serialize (q : ControllersInfoRequest) : ByteBuffer :=
  BinaryWriter.new |>.write q.ports |>.writeBytes q.slots q.slots.length |>.getBuffer

/-- `pad` is the member `_`. -/
structure ControllerInfoResponse where
  info : ControllerInfoShared
  pad : UInt8
  deriving DecidableEq

def ControllerInfoResponse.deserialize (buf : ByteBuffer) :
    ControllerInfoResponse → Exec (DeserializeError × ControllerInfoResponse) :=
  run buf do
    if buf.length ≠ 12 then fail .errInvalidLength
    member ControllerInfoResponse.info (fun i self => { self with info := i })
      (ControllerInfoShared.deserialize (bytesAt buf 0 11))

def ControllerInfoResponse.serialize (c : ControllerInfoResponse) : ByteBuffer :=
  c.info.serialize ++ [c.pad]

structure ControllersInfoResponse where
  info : List ControllerInfoResponse
  deriving DecidableEq

/-- The loop of `ControllersInfoResponse::deserialize` from entry `i`, with `k` entries to go;
`cir i` is the content its local starts with. -/
def ControllersInfoResponse.deserializeFrom (cir : ℕ → ControllerInfoResponse) (buf : ByteBuffer) :
    ℕ → ℕ → ControllersInfoResponse → Exec (DeserializeError × ControllersInfoResponse)
  | 0, _, self => .ok (.none, self)
  | k + 1, i, self =>
    match ControllerInfoShared.deserialize (bytesAt buf (i * 12) 12) (cir i).info with
    | .ok (.none, info) =>
      deserializeFrom cir buf k (i + 1) ⟨self.info ++ [{ cir i with info := info }]⟩
    | .ok (err, _) => .ok (err, self)
    | .error f => .error f

def ControllersInfoResponse.deserialize (cir : ℕ → ControllerInfoResponse) (buf : ByteBuffer)
    (self : ControllersInfoResponse) : Exec (DeserializeError × ControllersInfoResponse) :=
  if buf.length % 12 ≠ 0 then .ok (.errInvalidLength, self)
  else deserializeFrom cir buf (buf.length / 12) 0 ⟨[]⟩

/-- The loop body of `ControllersInfoResponse::serialize`: `write(0)` writes an `int`. -/
def ControllersInfoResponse.writeEntry (writer : BinaryWriter) (cir : ControllerInfoResponse) :
    BinaryWriter :=
  writer.writeBytes cir.serialize 11 |>.write (0 : Int32)

def ControllersInfoResponse.serialize (r : ControllersInfoResponse) : ByteBuffer :=
  (r.info.foldl writeEntry .new).getBuffer

structure ControllerIdType where
  value : UInt8
  deriving DecidableEq

def controllerIdTypeSlot : ControllerIdType := ⟨1⟩
def controllerIdTypeMAC : ControllerIdType := ⟨2⟩

structure ControllerIdentifier where
  type : ControllerIdType
  slot : UInt8
  mac : Vector UInt8 6
  deriving DecidableEq

def ControllerIdentifier.deserialize (buf : ByteBuffer) :
    ControllerIdentifier → Exec (DeserializeError × ControllerIdentifier) :=
  run buf do
    if buf.length < 8 then fail .errInvalidLength
    let typeVal : UInt8 ← read
    assign ({ · with type := ⟨typeVal⟩ })
    let slot : UInt8 ← read
    assign ({ · with slot := slot })
    let mac ← readBytes .storage 6
    assign ({ · with mac := Pod.ofBytes mac })

def ControllerIdentifier.serialize (c : ControllerIdentifier) : ByteBuffer :=
  BinaryWriter.new |>.write c.type.value |>.write c.slot |>.writeBytes c.mac.toList 6 |>.getBuffer

structure ControllersDataRequest where
  controllerId : ControllerIdentifier
  deriving DecidableEq

def ControllersDataRequest.deserialize (buf : ByteBuffer) :
    ControllersDataRequest → Exec (DeserializeError × ControllersDataRequest) :=
  run buf do
    if buf.length ≠ 8 then fail .errInvalidLength
    member ControllersDataRequest.controllerId (fun c _ => ⟨c⟩)
      (ControllerIdentifier.deserialize buf)

def ControllersDataRequest.serialize (q : ControllersDataRequest) : ByteBuffer :=
  q.controllerId.serialize

structure GamePadButtons where
  buttons1 : UInt8
  buttons2 : UInt8
  deriving DecidableEq

def GamePadButtons.deserialize (buf : ByteBuffer) :
    GamePadButtons → Exec (DeserializeError × GamePadButtons) :=
  run buf do
    if buf.length < 2 then fail .errInvalidLength
    let buttons1 : UInt8 ← read
    assign ({ · with buttons1 := buttons1 })
    let buttons2 : UInt8 ← read
    assign ({ · with buttons2 := buttons2 })

def GamePadButtons.serialize (b : GamePadButtons) : ByteBuffer :=
  BinaryWriter.new |>.write b.buttons1 |>.write b.buttons2 |>.getBuffer

structure Touch where
  active : Bool
  id : UInt8
  x : UInt16
  y : UInt16
  deriving DecidableEq

def Touch.deserialize (buf : ByteBuffer) : Touch → Exec (DeserializeError × Touch) :=
  run buf do
    if buf.length < 4 then fail .errInvalidLength
    let activeVal : UInt8 ← read
    assign ({ · with active := activeVal != 0 })
    let id : UInt8 ← read
    assign ({ · with id := id })
    let x : UInt16 ← read
    assign ({ · with x := x })
    let y : UInt16 ← read
    assign ({ · with y := y })

def boolByte (b : Bool) : UInt8 := if b then 1 else 0

def Touch.serialize (t : Touch) : ByteBuffer :=
  BinaryWriter.new |>.write (boolByte t.active) |>.write t.id |>.write t.x |>.write t.y |>.getBuffer

abbrev FloatBits := UInt32

structure Vectors3f where
  x : FloatBits
  y : FloatBits
  z : FloatBits
  deriving DecidableEq

def Vectors3f.deserialize (buf : ByteBuffer) : Vectors3f → Exec (DeserializeError × Vectors3f) :=
  run buf do
    if buf.length < 12 then fail .errInvalidLength
    let x : FloatBits ← read
    assign ({ · with x := x })
    let y : FloatBits ← read
    assign ({ · with y := y })
    let z : FloatBits ← read
    assign ({ · with z := z })

def Vectors3f.serialize (v : Vectors3f) : ByteBuffer :=
  BinaryWriter.new |>.write v.x |>.write v.y |>.write v.z |>.getBuffer

structure ControllersDataResponse where
  info : ControllerInfoShared
  connected : Bool
  packetNum : UInt32
  buttons : GamePadButtons
  home : Bool
  touchButton : Bool
  lStickX : UInt8
  lStickY : UInt8
  rStickX : UInt8
  rStickY : UInt8
  aDPadL : UInt8
  aDPadD : UInt8
  aDPadR : UInt8
  aDPadU : UInt8
  aY : UInt8
  aB : UInt8
  aA : UInt8
  aX : UInt8
  aR1 : UInt8
  aL1 : UInt8
  aR2 : UInt8
  aL2 : UInt8
  touch1 : Touch
  touch2 : Touch
  timestamp : UInt64
  accel : Vectors3f
  gyro : Vectors3f
  deriving DecidableEq

namespace ControllersDataResponse

variable (buf : ByteBuffer)

def readButtons : Decode buf ControllersDataResponse Unit := do
  let connectedVal : UInt8 ← read
  assign ({ · with connected := connectedVal != 0 })
  let packetNum : UInt32 ← read
  assign ({ · with packetNum := packetNum })
  let buttons1 : UInt8 ← read
  assign fun self => { self with buttons := { self.buttons with buttons1 := buttons1 } }
  let buttons2 : UInt8 ← read
  assign fun self => { self with buttons := { self.buttons with buttons2 := buttons2 } }
  let homeVal : UInt8 ← read
  assign ({ · with home := homeVal != 0 })
  let touchButtonVal : UInt8 ← read
  assign ({ · with touchButton := touchButtonVal != 0 })

def readAnalog : Decode buf ControllersDataResponse Unit := do
  let lStickX : UInt8 ← read
  assign ({ · with lStickX := lStickX })
  let lStickY : UInt8 ← read
  assign ({ · with lStickY := lStickY })
  let rStickX : UInt8 ← read
  assign ({ · with rStickX := rStickX })
  let rStickY : UInt8 ← read
  assign ({ · with rStickY := rStickY })
  let aDPadL : UInt8 ← read
  assign ({ · with aDPadL := aDPadL })
  let aDPadD : UInt8 ← read
  assign ({ · with aDPadD := aDPadD })
  let aDPadR : UInt8 ← read
  assign ({ · with aDPadR := aDPadR })
  let aDPadU : UInt8 ← read
  assign ({ · with aDPadU := aDPadU })
  let aY : UInt8 ← read
  assign ({ · with aY := aY })
  let aB : UInt8 ← read
  assign ({ · with aB := aB })
  let aA : UInt8 ← read
  assign ({ · with aA := aA })
  let aX : UInt8 ← read
  assign ({ · with aX := aX })
  let aR1 : UInt8 ← read
  assign ({ · with aR1 := aR1 })
  let aL1 : UInt8 ← read
  assign ({ · with aL1 := aL1 })
  let aR2 : UInt8 ← read
  assign ({ · with aR2 := aR2 })
  let aL2 : UInt8 ← read
  assign ({ · with aL2 := aL2 })

/-- The touches, each in a buffer of its own. -/
def readTouches : Decode buf ControllersDataResponse Unit := do
  let touch1At ← position
  member touch1 (fun t self => { self with touch1 := t })
    (Touch.deserialize (bytesAt buf touch1At 4))
  skip 4
  let touch2At ← position
  member touch2 (fun t self => { self with touch2 := t })
    (Touch.deserialize (bytesAt buf touch2At 4))
  skip 4

def readMotion : Decode buf ControllersDataResponse Unit := do
  let timestamp : UInt64 ← read
  assign ({ · with timestamp := timestamp })
  let accelAt ← position
  member accel (fun v self => { self with accel := v })
    (Vectors3f.deserialize (bytesAt buf accelAt 12))
  skip 12
  let gyroAt ← position
  member gyro (fun v self => { self with gyro := v })
    (Vectors3f.deserialize (bytesAt buf gyroAt 12))

def deserialize : ControllersDataResponse → Exec (DeserializeError × ControllersDataResponse) :=
  run buf do
    if buf.length ≠ 80 then fail .errInvalidLength
    member info (fun i self => { self with info := i })
      (ControllerInfoShared.deserialize (bytesAt buf 0 11))
    skip 11
    readButtons buf
    readAnalog buf
    readTouches buf
    readMotion buf

end ControllersDataResponse

def ControllersDataResponse.serialize (r : ControllersDataResponse) : ByteBuffer :=
  BinaryWriter.new
    |>.writeBytes r.info.serialize r.info.serialize.length
    |>.write (boolByte r.connected)
    |>.write r.packetNum
    |>.write r.buttons.buttons1
    |>.write r.buttons.buttons2
    |>.write (boolByte r.home)
    |>.write (boolByte r.touchButton)
    |>.write r.lStickX
    |>.write r.lStickY
    |>.write r.rStickX
    |>.write r.rStickY
    |>.write r.aDPadL
    |>.write r.aDPadD
    |>.write r.aDPadR
    |>.write r.aDPadU
    |>.write r.aY
    |>.write r.aB
    |>.write r.aA
    |>.write r.aX
    |>.write r.aR1
    |>.write r.aL1
    |>.write r.aR2
    |>.write r.aL2
    |>.writeBytes r.touch1.serialize r.touch1.serialize.length
    |>.writeBytes r.touch2.serialize r.touch2.serialize.length
    |>.write r.timestamp
    |>.writeBytes r.accel.serialize r.accel.serialize.length
    |>.writeBytes r.gyro.serialize r.gyro.serialize.length
    |>.getBuffer

structure ControllersMotorsRequest where
  controllerId : ControllerIdentifier
  deriving DecidableEq

def ControllersMotorsRequest.deserialize (buf : ByteBuffer) :
    ControllersMotorsRequest → Exec (DeserializeError × ControllersMotorsRequest) :=
  run buf <|
    member ControllersMotorsRequest.controllerId (fun c _ => ⟨c⟩)
      (ControllerIdentifier.deserialize buf)

def ControllersMotorsRequest.serialize (q : ControllersMotorsRequest) : ByteBuffer :=
  q.controllerId.serialize

structure ControllersMotorsResponse where
  info : ControllerInfoShared
  motorCount : UInt8
  deriving DecidableEq

def ControllersMotorsResponse.deserialize (buf : ByteBuffer) :
    ControllersMotorsResponse → Exec (DeserializeError × ControllersMotorsResponse) :=
  run buf do
    if buf.length ≠ 12 then fail .errInvalidLength
    member ControllersMotorsResponse.info (fun i self => { self with info := i })
      (ControllerInfoShared.deserialize (bytesAt buf 0 11))
    assign ({ · with motorCount := buf.getD 11 0 })

def ControllersMotorsResponse.serialize (r : ControllersMotorsResponse) : ByteBuffer :=
  r.info.serialize ++ [r.motorCount]

structure ControllersMotorsRumbleRequest where
  controllerId : ControllerIdentifier
  motorID : UInt8
  intensity : UInt8
  deriving DecidableEq

def ControllersMotorsRumbleRequest.deserialize (buf : ByteBuffer) :
    ControllersMotorsRumbleRequest → Exec (DeserializeError × ControllersMotorsRumbleRequest) :=
  run buf do
    if buf.length ≠ 10 then fail .errInvalidLength
    member ControllersMotorsRumbleRequest.controllerId
      (fun c self => { self with controllerId := c }) (ControllerIdentifier.deserialize buf)
    assign ({ · with motorID := buf.getD 8 0 })
    assign ({ · with intensity := buf.getD 9 0 })

def ControllersMotorsRumbleRequest.serialize (q : ControllersMotorsRumbleRequest) : ByteBuffer :=
  q.controllerId.serialize ++ [q.motorID] ++ [q.intensity]

end ProConDSU
