import Mathlib.Data.Rat.Floor
import MowgliMavros.WheelMotion

/-!
# Wheel tick projection (`wheel_tick_projection.hpp`)

The projector encodes fractional motor revolutions into the magnitude and direction of a wheel tick. It
knows a counter by its source, epoch and segment. A fractional count is a `Fraction` by its type.
-/

namespace MowgliMavros
namespace Odometry

/-- A fractional count. -/
abbrev Fraction := { q : Rat // 0 ≤ q ∧ q < 1 }

namespace Fraction

def zero : Fraction := ⟨0, by norm_num⟩

/-- What is left of `q` without its whole counts. -/
def rest (q : Rat) : Fraction := ⟨Int.fract q, Int.fract_nonneg q, Int.fract_lt_one q⟩

end Fraction

structure WheelTickProjection where
  valid : Side → Bool
  count : Side → UInt32
  direction : Side → UInt8

namespace WheelTickProjection

def countsPerMotorRevolution : Rat := 1000

/-- The largest finite `float`. -/
def floatMax : Rat := (2 ^ 24 - 1) * 2 ^ 104

def factor (ticksPerMeter : Rat) : Rat :=
  let scaled := ticksPerMeter * countsPerMotorRevolution
  if 0 < scaled ∧ scaled ≤ floatMax then scaled else 0

end WheelTickProjection

open WheelTickProjection

/-- `WheelTickProjector::Wheel`. -/
structure ProjectedWheel where
  valid : Bool := false
  segment : Nat := 0
  sampleNs : Int := 0
  ticks : Rat := 0
  fractionalCount : Fraction := .zero
  count : UInt32 := 0
  direction : UInt8 := 1

namespace ProjectedWheel
variable (w : ProjectedWheel)

/-- The counts of `delta` revolutions; a reversal drops the fractional count. -/
def total (delta : Rat) : Rat :=
  (if 0 < delta ∧ w.direction = 0 ∨ delta < 0 ∧ w.direction = 1 then 0 else w.fractionalCount.1) +
    |delta| * countsPerMotorRevolution

def advance (delta : Rat) : ProjectedWheel :=
  { w with
    direction := if 0 < delta then 1 else if delta < 0 then 0 else w.direction
    count := w.count + UInt32.ofNat ⌊w.total delta⌋₊
    fractionalCount := .rest (w.total delta) }

/-- The counter is not the one of the reference. -/
def Unknown (t : WheelTicks) : Prop := w.valid = false ∨ w.segment ≠ t.segment

instance (t : WheelTicks) : Decidable (w.Unknown t) := inferInstanceAs (Decidable (_ ∨ _))

/-- The wheel with the counter as its reference. -/
def refer (t : WheelTicks) : ProjectedWheel :=
  { w with valid := true, segment := t.segment, ticks := t.ticks, sampleNs := t.sampleNs }

/-- `project_wheel`. -/
def project (t : WheelTicks) : ProjectedWheel × Bool :=
  if t.valid = false then ({ w with valid := false }, false)
  else if w.Unknown t then ({ w.refer t with fractionalCount := .zero }, true)
  else if t.sampleNs ≤ w.sampleNs then (w, false)
  else
    let delta := t.ticks - w.ticks
    if |delta| * countsPerMotorRevolution > 2 ^ 31 - 1 then ({ w.refer t with valid := false }, false)
    else ((w.refer t).advance delta, true)

end ProjectedWheel

structure WheelTickProjector where
  source : WheelSource := .none
  epoch : Nat := 0
  wheels : Side → ProjectedWheel := fun _ => {}

namespace WheelTickProjector
variable (p : WheelTickProjector)

def invalidate : WheelTickProjector := { p with wheels := fun side => { p.wheels side with valid := false } }

def resetReferences : WheelTickProjector :=
  { p with wheels := fun side => { p.wheels side with valid := false, fractionalCount := .zero } }

/-- `project` before the wheels: another source or epoch begins without references. -/
def turn (source : WheelSource) (epoch : Nat) : WheelTickProjector :=
  if p.source ≠ source ∨ p.epoch ≠ epoch then { p with source := source, epoch := epoch }.resetReferences else p

/-- The source has no motor ticks, or none of them are valid. -/
def Idle (source : WheelSource) (ticks : MotorTickState) : Prop :=
  source ≠ .escStatus ∧ source ≠ .ardupilotLegacy ∨
    (ticks.wheels .left).valid = false ∧ (ticks.wheels .right).valid = false

instance (source : WheelSource) (ticks : MotorTickState) : Decidable (Idle source ticks) :=
  inferInstanceAs (Decidable (_ ∨ _))

def project (source : WheelSource) (ticks : MotorTickState) : WheelTickProjector × Option WheelTickProjection :=
  if Idle source ticks then (p.invalidate, none)
  else
    let p := p.turn source ticks.epoch
    let projected := fun side => (p.wheels side).project (ticks.wheels side)
    let wheels := fun side => (projected side).1
    ({ p with wheels := wheels },
      if (projected .left).2 = false ∧ (projected .right).2 = false then none
      else some
        { valid := fun side => (wheels side).valid
          count := fun side => (wheels side).count
          direction := fun side => (wheels side).direction })

end WheelTickProjector
end Odometry
end MowgliMavros
