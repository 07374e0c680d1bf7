import ProConDSU.Lib.Run
import ProConDSU.Packet

/-!
# The controller manager

`controller_manager.hpp` and `controller_manager.cpp`, over the vendor's interface
(`ProControllerHid/ProController.h`). A vendor controller is its handle and the callback registered
on it; the callback `connectController` registers is the index it captured.

`ManagerState.step` takes `connectController` a statement at a time, so that a controller's callback
may run between any two of them.
-/

namespace ProConDSU

/-! ## The vendor's interface -/

/-- Nanoseconds since the clock's epoch. -/
abbrev Timestamp := Int64

structure Vector2f where
  x : FloatBits
  y : FloatBits
  deriving DecidableEq

structure Vector3f where
  x : FloatBits
  y : FloatBits
  z : FloatBits
  deriving DecidableEq

structure ButtonStatus where
  yButton : Bool
  xButton : Bool
  bButton : Bool
  aButton : Bool
  rsrButton : Bool
  rslButton : Bool
  rButton : Bool
  rzButton : Bool
  minusButton : Bool
  plusButton : Bool
  rStick : Bool
  lStick : Bool
  homeButton : Bool
  shareButton : Bool
  unknown3 : Bool
  chargingGrip : Bool
  downButton : Bool
  upButton : Bool
  rightButton : Bool
  leftButton : Bool
  lsrButton : Bool
  lslButton : Bool
  lButton : Bool
  lzButton : Bool
  padding : UInt8
  deriving DecidableEq

structure ImuSensorStatus where
  accelerometer : Vector3f
  gyroscope : Vector3f
  deriving DecidableEq

structure InputStatus where
  timestamp : Timestamp
  leftStick : Vector2f
  rightStick : Vector2f
  buttons : ButtonStatus
  hasSensorStatus : Bool
  sensors : Vector ImuSensorStatus 3
  deriving DecidableEq

def InputStatus.zero : InputStatus where
  timestamp := 0
  leftStick := ⟨0, 0⟩
  rightStick := ⟨0, 0⟩
  buttons := ⟨false, false, false, false, false, false, false, false, false, false, false, false,
    false, false, false, false, false, false, false, false, false, false, false, false, 0⟩
  hasSensorStatus := false
  sensors := Vector.replicate 3 ⟨⟨0, 0, 0⟩, ⟨0, 0, 0⟩⟩

structure InputCallback where
  controllerIndex : ℕ
  deriving DecidableEq

structure ProController where
  handle : ℕ
  inputStatusCallback : Option InputCallback
  deriving DecidableEq

def ProController.setInputStatusCallback (c : ProController) (callback : InputCallback) :
    ProController :=
  { c with inputStatusCallback := some callback }

/-! ## The manager -/

structure ControllerManager where
  controllers : List ProController
  lastInputStates : List InputStatus
  deriving DecidableEq

def InputCallback.call (callback : InputCallback) (status : InputStatus) (m : ControllerManager) :
    ControllerManager :=
  if callback.controllerIndex < m.lastInputStates.length then
    { m with lastInputStates := m.lastInputStates.set callback.controllerIndex status }
  else m

/-- The controller has a status to report, and runs the callback registered on it. -/
def ProController.deliver (c : ProController) (status : InputStatus) (m : ControllerManager) :
    ControllerManager :=
  match c.inputStatusCallback with
  | none => m
  | some callback => callback.call status m

namespace ControllerManager

def empty : ControllerManager := ⟨[], []⟩

def getConnectedControllerCount (m : ControllerManager) : ℕ := m.controllers.length

def getControllerInputStatus (m : ControllerManager) (index : ℕ) (status : InputStatus) :
    Bool × InputStatus :=
  if h : index < m.lastInputStates.length then (true, m.lastInputStates[index])
  else (false, status)

/-- `connectController`, run without a callback in between; `handle` is the controller
`ProController::Connect` returns, or null. -/
def connectController (handle : Option ℕ) (m : ControllerManager) : Bool × ControllerManager :=
  match handle with
  | none => (false, m)
  | some handle =>
    let controller : ProController := ⟨handle, none⟩
    let controllerIndex := m.controllers.length
    let controller := controller.setInputStatusCallback ⟨controllerIndex⟩
    (true, ⟨m.controllers ++ [controller], m.lastInputStates ++ [.zero]⟩)

/-- `initialize`, `handles` being what `ProController::Connect` returns for each device path. -/
def initializeFrom (handles : List (Option ℕ)) (m : ControllerManager) : ControllerManager :=
  handles.foldl (fun m handle => (connectController handle m).2) m

end ControllerManager

structure RumbleBand where
  freq : UInt8
  amp : UInt8
  deriving DecidableEq

structure BasicRumble where
  leftHigh : RumbleBand
  leftLow : RumbleBand
  rightHigh : RumbleBand
  rightLow : RumbleBand
  deriving DecidableEq

/-- A call of a vendor controller that the manager makes. -/
inductive VendorCall
  | setPlayerLed (playerLedBits : UInt8)
  | setRumble (rumble : BasicRumble)
  deriving DecidableEq

namespace ControllerManager

/-- The call made on `controllers[index]`, if there is one, with that controller's handle. -/
def callAt (m : ControllerManager) (index : ℕ) (call : VendorCall) : Option (ℕ × VendorCall) :=
  if h : index < m.controllers.length then some (m.controllers[index].handle, call) else none

def setPlayerLed (m : ControllerManager) (index : ℕ) (playerLedBits : UInt8) :
    Option (ℕ × VendorCall) :=
  m.callAt index (.setPlayerLed playerLedBits)

def setRumble (m : ControllerManager) (index : ℕ) (rumble : BasicRumble) :
    Option (ℕ × VendorCall) :=
  m.callAt index (.setRumble rumble)

end ControllerManager

/-- How far a running `connectController` has come, and its locals. -/
inductive Connecting
  | idle
  | connected (controller : ProController)
  | indexed (controller : ProController) (controllerIndex : ℕ)
  | registered (controller : ProController)
  | pushed
  deriving DecidableEq

def Connecting.controller : Connecting → Option ProController
  | .idle | .pushed => none
  | .connected c | .indexed c _ | .registered c => some c

structure ManagerState where
  manager : ControllerManager
  connecting : Connecting
  deriving DecidableEq

inductive ManagerEvent
  /-- `ProController::Connect` returns null. -/
  | connectFails
  | connects (handle : ℕ)
  | capturesIndex
  | registers
  | pushesController
  | pushesState
  | inputStatus (handle : ℕ) (status : InputStatus)
  deriving DecidableEq

namespace ManagerState

def boot : ManagerState := ⟨.empty, .idle⟩

def alive (s : ManagerState) : List ProController :=
  s.manager.controllers ++ s.connecting.controller.toList

def find (s : ManagerState) (handle : ℕ) : Option ProController :=
  s.alive.find? (·.handle = handle)

/-- A step, where it can be taken: the statements of `connectController` in their order, and a
callback of any controller alive at any time. -/
def step (s : ManagerState) : ManagerEvent → Option ManagerState
  | .connectFails => if s.connecting = .idle then some s else none
  | .connects handle =>
    if s.connecting = .idle ∧ s.find handle = none then
      some { s with connecting := .connected ⟨handle, none⟩ }
    else none
  | .capturesIndex =>
    match s.connecting with
    | .connected c => some { s with connecting := .indexed c s.manager.controllers.length }
    | _ => none
  | .registers =>
    match s.connecting with
    | .indexed c i => some { s with connecting := .registered (c.setInputStatusCallback ⟨i⟩) }
    | _ => none
  | .pushesController =>
    match s.connecting with
    | .registered c =>
      some ⟨{ s.manager with controllers := s.manager.controllers ++ [c] }, .pushed⟩
    | _ => none
  | .pushesState =>
    match s.connecting with
    | .pushed =>
      some ⟨{ s.manager with lastInputStates := s.manager.lastInputStates ++ [.zero] }, .idle⟩
    | _ => none
  | .inputStatus handle status =>
    (s.find handle).map fun c => { s with manager := c.deliver status s.manager }

end ManagerState

abbrev ManagerState.Runs (s : ManagerState) (es : List ManagerEvent) (t : ManagerState) : Prop :=
  Run (fun s e t => ManagerState.step s e = some t) s es t

/-- A run of the manager from its construction. -/
abbrev ManagerRun (es : List ManagerEvent) (s : ManagerState) : Prop := ManagerState.boot.Runs es s

/-- A manager, and the calls it has made, by handle. -/
structure Commanded where
  state : ManagerState
  calls : List (ℕ × VendorCall)

inductive CommandEvent
  | manager (e : ManagerEvent)
  | setPlayerLed (index : ℕ) (playerLedBits : UInt8)
  | setRumble (index : ℕ) (rumble : BasicRumble)

namespace Commanded

def boot : Commanded := ⟨.boot, []⟩

def make (s : Commanded) (call : Option (ℕ × VendorCall)) : Commanded :=
  { s with calls := s.calls ++ call.toList }

def step (s : Commanded) : CommandEvent → Option Commanded
  | .manager e => (s.state.step e).map fun state => { s with state := state }
  | .setPlayerLed index bits => some (s.make (s.state.manager.setPlayerLed index bits))
  | .setRumble index rumble => some (s.make (s.state.manager.setRumble index rumble))

end Commanded

abbrev CommandRun (es : List CommandEvent) (s : Commanded) : Prop :=
  Run (fun s e t => Commanded.step s e = some t) Commanded.boot es s

end ProConDSU
