import Mathlib.Algebra.Order.Field.Rat
import Mathlib.Tactic.Common

/-!
# Wheel motion (`wheel_odometry_core.cpp`, `legacy_wheel_adapter.cpp`, `motor_tick_integrator.cpp`)

The differential-drive equation, the counter gate of the legacy telemetry and the integrator of motor
revolutions. Doubles are rationals, so that sums and quotients are exact and never overflow; the checks
for finite values are made where a value comes in from the wire. An array of the two wheels is a
function of the side.
-/

namespace MowgliMavros
namespace Odometry

inductive WheelSource
  | none | wheelDistance | escStatus | ardupilotLegacy
deriving DecidableEq, Repr

inductive Side
  | left | right
deriving DecidableEq, Repr

structure WheelGeometry where
  leftEscSlot : Int := -1
  rightEscSlot : Int := -1
  trackWidthM : Rat := 0
  ticksPerMeter : Rat := 0
deriving DecidableEq

def WheelGeometry.slot (g : WheelGeometry) : Side → Int
  | .left => g.leftEscSlot
  | .right => g.rightEscSlot

structure WheelMotionObservation where
  leftMps : Rat := 0
  rightMps : Rat := 0
  sampleStampNs : Int := 0
  receiptStampNs : Int := 0
  source : WheelSource := .none
  valid : Bool := false
deriving DecidableEq

structure WheelObservation where
  sampleStampNs : Int := 0
  receiptStampNs : Int := 0
  linearXMps : Rat := 0
  angularZRps : Rat := 0
deriving DecidableEq

/-! ### `WheelOdometryCore` -/

structure WheelOdometryCore where
  geometry : WheelGeometry
  lastSampleNs : Int := 0
  lastReceiptNs : Int := 0

namespace WheelOdometryCore
variable (c : WheelOdometryCore)

def valid : Bool := c.geometry.trackWidthM > 0

def reset : WheelOdometryCore := { c with lastSampleNs := 0, lastReceiptNs := 0 }

def Accepts (motion : WheelMotionObservation) : Prop :=
  c.valid = true ∧ motion.valid = true ∧ motion.source ≠ .none ∧ c.lastSampleNs < motion.sampleStampNs ∧
    0 < motion.receiptStampNs ∧ c.lastReceiptNs ≤ motion.receiptStampNs

instance (motion : WheelMotionObservation) : Decidable (c.Accepts motion) := inferInstanceAs (Decidable (_ ∧ _))

/-- The observation of an accepted motion. -/
def drive (motion : WheelMotionObservation) : WheelObservation where
  sampleStampNs := motion.sampleStampNs
  receiptStampNs := motion.receiptStampNs
  linearXMps := (motion.leftMps + motion.rightMps) / 2
  angularZRps := (motion.rightMps - motion.leftMps) / c.geometry.trackWidthM

def receiveMotion (motion : WheelMotionObservation) : WheelOdometryCore × Option WheelObservation :=
  if c.Accepts motion then
    ({ c with lastSampleNs := motion.sampleStampNs, lastReceiptNs := motion.receiptStampNs }, some (c.drive motion))
  else (c, none)

end WheelOdometryCore

/-! ### `LegacyWheelAdapter` -/

structure MotorRpmObservation where
  rpm : Side → Rat
  sampleStampNs : Int
  receiptStampNs : Int

structure LegacyWheelAdapter where
  geometry : WheelGeometry
  timeoutNs : Int
  counts : Side → Option UInt16 := fun _ => none
  advanced : Side → Bool := fun _ => false
  stamps : Side → Int := fun _ => 0

namespace LegacyWheelAdapter
variable (a : LegacyWheelAdapter)

/-- `counter_advanced`: the 16-bit difference is not zero. -/
def counterAdvanced (previous current : UInt16) : Bool := current - previous ≠ 0

def valid : Bool :=
  0 ≤ a.geometry.leftEscSlot && a.geometry.leftEscSlot < 12 && 0 ≤ a.geometry.rightEscSlot &&
    a.geometry.rightEscSlot < 12 && a.geometry.leftEscSlot ≠ a.geometry.rightEscSlot && 0 < a.timeoutNs

def reset : LegacyWheelAdapter :=
  { a with counts := fun _ => none, advanced := fun _ => false, stamps := fun _ => 0 }

/-- A packet has four counters. -/
theorem counts_nonempty : NeZero 4 := ⟨by decide⟩

attribute [local instance] counts_nonempty

/-- The counter of one wheel, if its slot is among the four at `offset`. -/
def receiveCount (offset : Nat) (counts : Fin 4 → UInt16) (receiptNs : Int) (wheel : Side) : LegacyWheelAdapter :=
  let index := a.geometry.slot wheel - offset
  if index < 0 ∨ index ≥ 4 then a
  else
    let count := counts (Fin.ofNat 4 index.toNat)
    match a.counts wheel with
    | none => { a with counts := Function.update a.counts wheel (some count) }
    | some previous =>
      if counterAdvanced previous count ∧ receiptNs ≥ a.stamps wheel then
        { a with
          counts := Function.update a.counts wheel (some count)
          advanced := Function.update a.advanced wheel true
          stamps := Function.update a.stamps wheel receiptNs }
      else a

def receiveEscCounts (offset : Nat) (counts : Fin 4 → UInt16) (receiptNs : Int) : LegacyWheelAdapter :=
  if offset ≠ 0 ∧ offset ≠ 4 ∧ offset ≠ 8 ∨ receiptNs ≤ 0 then a
  else (a.receiveCount offset counts receiptNs .left).receiveCount offset counts receiptNs .right

/-- The counter of this wheel advanced too long ago. -/
def Expired (receiptNs : Int) (wheel : Side) : Prop :=
  a.stamps wheel ≤ 0 ∨ receiptNs < a.stamps wheel ∨ receiptNs - a.stamps wheel > a.timeoutNs

instance (receiptNs : Int) (wheel : Side) : Decidable (a.Expired receiptNs wheel) :=
  inferInstanceAs (Decidable (_ ∨ _))

def receiveRpm (rpm : Side → Rat) (receiptNs : Int) : LegacyWheelAdapter × Option MotorRpmObservation :=
  if ¬ a.valid ∨ ¬ a.advanced .left ∨ ¬ a.advanced .right ∨ receiptNs ≤ 0 then (a, none)
  else
    let a' := { a with advanced := fun _ => false }
    if a.Expired receiptNs .left ∨ a.Expired receiptNs .right then (a', none)
    else (a', some ⟨rpm, receiptNs, receiptNs⟩)

end LegacyWheelAdapter

/-! ### `MotorTickIntegrator` -/

/-- One fractional tick is one motor revolution. -/
structure MotorWheel where
  ticks : Rat := 0
  rpm : Rat := 0
  ticksPerSecond : Rat := 0
  sampleNs : Int := 0
  receiptNs : Int := 0
  valid : Bool := false
  segment : Nat := 0

structure MotorTickIntegrator where
  timeoutNs : Int
  epoch : Nat := 0
  wheels : Side → MotorWheel := fun _ => {}

/-- `MotorTickState` of one wheel. -/
structure WheelTicks where
  ticks : Rat := 0
  sampleNs : Int := 0
  receiptNs : Int := 0
  valid : Bool := false
  segment : Nat := 0

def MotorWheel.state (w : MotorWheel) : WheelTicks := ⟨w.ticks, w.sampleNs, w.receiptNs, w.valid, w.segment⟩

structure MotorTickState where
  wheels : Side → WheelTicks := fun _ => {}
  epoch : Nat := 0

namespace MotorTickIntegrator
variable (m : MotorTickIntegrator)

/-- The sample neither repeats nor precedes the last one. -/
def Admits (wheel : Side) (sample receipt : Int) : Prop :=
  0 < sample ∧ 0 < receipt ∧ 0 < m.timeoutNs ∧
    ¬ ((m.wheels wheel).valid ∧ (sample ≤ (m.wheels wheel).sampleNs ∨ receipt < (m.wheels wheel).receiptNs))

instance (wheel : Side) (sample receipt : Int) : Decidable (m.Admits wheel sample receipt) :=
  inferInstanceAs (Decidable (_ ∧ _))

def Contiguous (wheel : Side) (sample receipt : Int) : Prop :=
  (m.wheels wheel).valid = true ∧ sample - (m.wheels wheel).sampleNs ≤ m.timeoutNs ∧
    receipt - (m.wheels wheel).receiptNs ≤ m.timeoutNs

instance (wheel : Side) (sample receipt : Int) : Decidable (m.Contiguous wheel sample receipt) :=
  inferInstanceAs (Decidable (_ ∧ _))

/-- The wheel after a sample that is admitted; a gap starts a new segment and adds nothing. -/
def sampled (wheel : Side) (rpm : Rat) (sample receipt : Int) : MotorWheel :=
  let old := m.wheels wheel
  let contiguous : Bool := m.Contiguous wheel sample receipt
  { ticks := if contiguous then old.ticks + (old.rpm / 120 + rpm / 120) * ((sample - old.sampleNs : Int) / 10 ^ 9)
      else old.ticks
    rpm := rpm
    ticksPerSecond := rpm / 60
    sampleNs := sample
    receiptNs := receipt
    valid := true
    segment := if contiguous then old.segment else old.segment + 1 }

def observe (wheel : Side) (rpm : Rat) (sample receipt : Int) : MotorTickIntegrator × Bool :=
  if m.Admits wheel sample receipt then
    ({ m with wheels := Function.update m.wheels wheel (m.sampled wheel rpm sample receipt) }, true)
  else (m, false)

def reset : MotorTickIntegrator := { m with wheels := fun _ => {}, epoch := m.epoch + 1 }

def retainCounts (previous : MotorTickIntegrator) : MotorTickIntegrator :=
  { m with wheels := previous.wheels, epoch := previous.epoch }

def invalidate (wheel : Side) : MotorTickIntegrator :=
  { m with wheels := Function.update m.wheels wheel { m.wheels wheel with valid := false } }

def resetReferences : MotorTickIntegrator :=
  { m with wheels := fun wheel => { m.wheels wheel with valid := false, sampleNs := 0, receiptNs := 0 } }

def state : MotorTickState where
  wheels wheel := (m.wheels wheel).state
  epoch := m.epoch

def motion (ticksPerMeter : Rat) (source : WheelSource) : Option WheelMotionObservation :=
  if ticksPerMeter ≤ 0 ∨ ¬ (m.wheels .left).valid ∨ ¬ (m.wheels .right).valid then none
  else some {
    leftMps := (m.wheels .left).ticksPerSecond / ticksPerMeter
    rightMps := (m.wheels .right).ticksPerSecond / ticksPerMeter
    sampleStampNs := max (m.wheels .left).sampleNs (m.wheels .right).sampleNs
    receiptStampNs := max (m.wheels .left).receiptNs (m.wheels .right).receiptNs
    source := source
    valid := true }

end MotorTickIntegrator

end Odometry
end MowgliMavros
