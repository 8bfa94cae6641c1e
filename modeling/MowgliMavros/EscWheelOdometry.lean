import MowgliMavros.ObservationRun
import MowgliMavros.WheelTickProjection

/-!
# The wheel odometry plugin (`esc_wheel_odometry_plugin.cpp`)

`EscWheelOdometryPlugin` hands every message to the engine, replaces the engine when parameters change,
and publishes wheel ticks after ESC_STATUS and RPM. `publish_esc`, `publish_wheel` and `publish_diagnostics`
write messages and change nothing, so they are left out with the frames and the covariance.
-/

namespace MowgliMavros
namespace Odometry
open ObservationEngine WheelTickProjection

/-- `legacy_enabled` of the RPM instances and the ESC telemetry offset. -/
def legacyEnabled (leftRpm rightRpm offset : Int) : Bool :=
  offset = 0 && (leftRpm = 1 || leftRpm = 2) && (rightRpm = 1 || rightRpm = 2) && leftRpm ≠ rightRpm

/-- Parameters that the validation accepts. -/
structure Pending where
  config : ValidConfig
  leftRpm : Int := 2
  rightRpm : Int := 1
  offset : Int := 0
  legacy : config.1.legacyEnabled = legacyEnabled leftRpm rightRpm offset

/-- The message; the front wheels are not used. -/
structure WheelTick where
  stampNs : Int
  wheelTickFactor : Rat
  validWheels : UInt8
  direction : Side → UInt8
  ticks : Side → UInt32

def WheelTick.wheelValid : Side → UInt8
  | .left => 4
  | .right => 8

structure EscWheelOdometryPlugin where
  config : ValidConfig
  leftRpmInstance : Int
  rightRpmInstance : Int
  expectedOffset : Int
  engine : ObservationEngine
  wheelTickProjector : WheelTickProjector := {}
  wheelTickSource : WheelSource := .none

/-- The callbacks; `handle_status` and `handle_rpm` read the clock again to publish. -/
inductive Callback
  | handleStatus (packet : CommonStatusPacket) (publishNs : Int)
  | handleInfo (packet : CommonInfoPacket)
  | handleDistance (packet : DistancePacket)
  | handleRpm (rpm1 rpm2 : Option Rat) (publishNs : Int)
  | legacyPacket (packet : LegacyEscPacket)
  | connectionCb (connected : Bool)
  | parameterApply (pending : Pending)
  | timer

namespace EscWheelOdometryPlugin
variable (p : EscWheelOdometryPlugin)

def new (pending : Pending) (connected : Bool) : EscWheelOdometryPlugin where
  config := pending.config
  leftRpmInstance := pending.leftRpm
  rightRpmInstance := pending.rightRpm
  expectedOffset := pending.offset
  engine := (ofConfig pending.config).connection connected

/-- The source that `source` and the valid ticks give, with its ticks. -/
def tickSource (now : Int) : WheelSource × MotorTickState :=
  let live (ticks : MotorTickState) : Bool := (ticks.wheels .left).valid || (ticks.wheels .right).valid
  let common := p.engine.motorTicks .escStatus now
  if (p.config.1.source = .auto ∨ p.config.1.source = .escStatus) ∧ live common then (.escStatus, common)
  else if p.config.1.source = .auto ∨ p.config.1.source = .ardupilotLegacy then
    let legacy := p.engine.motorTicks .ardupilotLegacy now
    (if live legacy then .ardupilotLegacy else .none, legacy)
  else (.none, common)

def wheelTick (ticks : MotorTickState) (projected : WheelTickProjection) : WheelTick where
  stampNs := max 0 (max (ticks.wheels .left).receiptNs (ticks.wheels .right).receiptNs)
  wheelTickFactor := factor p.config.1.geometry.ticksPerMeter
  validWheels :=
    (if projected.valid .left then WheelTick.wheelValid .left else 0) |||
      if projected.valid .right then WheelTick.wheelValid .right else 0
  direction := projected.direction
  ticks := projected.count

def publishWheelTicks (now : Int) : EscWheelOdometryPlugin × List WheelTick :=
  let (source, ticks) := p.tickSource now
  let (projector, projected) := p.wheelTickProjector.project source ticks
  ({ p with wheelTickSource := source, wheelTickProjector := projector },
    (projected.map (p.wheelTick ticks)).toList)

def SameLegacyMapping (pending : Pending) : Prop :=
  p.leftRpmInstance = pending.leftRpm ∧ p.rightRpmInstance = pending.rightRpm ∧ p.expectedOffset = pending.offset

instance (pending : Pending) : Decidable (p.SameLegacyMapping pending) := inferInstanceAs (Decidable (_ ∧ _))

/-- What a callback does with the engine. -/
def call : Callback → Call
  | .handleStatus packet _ => .commonStatus packet
  | .handleInfo packet => .commonInfo packet
  | .handleDistance packet => .wheelDistance packet
  | .handleRpm rpm1 rpm2 _ => .legacyRpm (if p.leftRpmInstance = 1 then rpm1 else rpm2)
      (if p.rightRpmInstance = 1 then rpm1 else rpm2)
  | .legacyPacket packet => .legacyEsc packet
  | .connectionCb connected => .connection connected
  | .parameterApply pending => .replace pending.config (p.SameLegacyMapping pending)
  | .timer => .poll

/-- The plugin after the engine has taken the callback at `now`. -/
def engaged (c : Callback × Int) : EscWheelOdometryPlugin :=
  { p with engine := (p.engine.step (p.call c.1, c.2)).1 }

def connectionCb (connected : Bool) (now : Int) : EscWheelOdometryPlugin :=
  let p := p.engaged (.connectionCb connected, now)
  if connected then p
  else { p with wheelTickProjector := (p.wheelTickProjector.project .none {}).1, wheelTickSource := .none }

def parameterApply (pending : Pending) (now : Int) : EscWheelOdometryPlugin :=
  { p.engaged (.parameterApply pending, now) with
    config := pending.config
    leftRpmInstance := pending.leftRpm
    rightRpmInstance := pending.rightRpm
    expectedOffset := pending.offset }

def step : Callback × Int → EscWheelOdometryPlugin × List WheelTick
  | (.handleStatus packet publishNs, now) =>
    (p.engaged (.handleStatus packet publishNs, now)).publishWheelTicks publishNs
  | (.handleRpm rpm1 rpm2 publishNs, now) =>
    (p.engaged (.handleRpm rpm1 rpm2 publishNs, now)).publishWheelTicks publishNs
  | (.connectionCb connected, now) => (p.connectionCb connected now, [])
  | (.parameterApply pending, now) => (p.parameterApply pending now, [])
  | c => (p.engaged c, [])

end EscWheelOdometryPlugin

def ticker : Machine EscWheelOdometryPlugin (Callback × Int) WheelTick := ⟨EscWheelOdometryPlugin.step⟩

end Odometry
end MowgliMavros
