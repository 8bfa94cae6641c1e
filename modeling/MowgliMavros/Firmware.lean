import Mathlib.Tactic.Common

/-!
# Firmware providers (`firmware_provider.cpp`, `rover_manual_control.hpp`)

The two provider classes and their conversions of a twist into the FCU's traction setpoints, in exact
arithmetic. A component of a twist is `none` when it is not finite.
-/

namespace MowgliMavros

inductive FirmwareProvider
  | ardupilot | px4
deriving DecidableEq, Repr

structure Twist where
  linearX : Option Rat
  angularZ : Option Rat
deriving DecidableEq

/-- `ManualControl`: steering and throttle. -/
structure ManualControl where
  y : Int := 0
  z : Int := 0
deriving DecidableEq

structure PositionTarget where
  coordinateFrame : Nat := 8
  typeMask : Nat := 0x05E7
  velocityX : Rat
  yawRate : Rat
deriving DecidableEq

/-- `static_cast<int16_t>(std::clamp(value, -1000.0, 1000.0))`. -/
def clampCast (value : Rat) : Int :=
  let v := if value < -1000 then -1000 else if 1000 < value then 1000 else value
  v.num.tdiv v.den

def roverManualControlFromTwist (linearX angularZ linearScale yawScale : Rat) : ManualControl :=
  { y := clampCast (angularZ * yawScale), z := clampCast (linearX * linearScale) }

namespace FirmwareProvider
variable (p : FirmwareProvider)

def name : String :=
  match p with
  | ardupilot => "ardupilot"
  | px4 => "px4"

def guidedVelocityImplemented : Bool :=
  match p with
  | ardupilot => true
  | px4 => false

/-- Rover steering is positive clockwise, ROS yaw counterclockwise. -/
def manualControlFromTwist (linearX angularZ linearScale yawScale : Rat) : ManualControl :=
  let command := roverManualControlFromTwist linearX angularZ linearScale yawScale
  match p with
  | ardupilot => { command with y := -command.y }
  | px4 => command

def guidedVelocityFromTwist (linearX angularZ : Rat) : Except String PositionTarget :=
  if ¬ p.guidedVelocityImplemented then .error "GUIDED velocity unsupported"
  else .ok { velocityX := linearX, yawRate := angularZ }

end FirmwareProvider

def makeFirmwareProvider (firmware : String) : Except String FirmwareProvider :=
  if firmware = "ardupilot" then .ok .ardupilot
  else if firmware = "px4" then .ok .px4
  else if firmware = "betaflight" ∨ firmware = "inav" ∨ firmware = "mowgli" then
    .error ("MAVROS_FIRMWARE=" ++ firmware ++ ": not implemented")
  else .error "C++ provider requires a resolved ardupilot or px4 firmware"

end MowgliMavros
