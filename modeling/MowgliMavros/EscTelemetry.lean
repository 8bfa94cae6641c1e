import Mathlib.Tactic.Common

/-!
# The ESC telemetry tracker (`esc_telemetry_tracker.hpp`)

The last observation of each of the 64 ESC slots and its projection at a receipt time, in
nanoseconds. A floating-point field is `none` when it is not finite.
-/

namespace MowgliMavros

structure Stamp where
  sec : Int
  nanosec : Nat
deriving DecidableEq

/-- Nanoseconds of a well-formed stamp, else 0. -/
def Stamp.ns (stamp : Stamp) : Int :=
  if stamp.sec ≥ 0 ∧ stamp.nanosec < 1000000000 then stamp.sec * 1000000000 + stamp.nanosec else 0

structure EscSample where
  rpm : Int := 0
  voltage : Option Rat := some 0
  current : Option Rat := some 0
  totalcurrent : Option Rat := some 0
  temperature : Option Rat := some 0
  count : UInt16 := 0
  failureFlags : UInt16 := 0
  errorCount : UInt32 := 0
  source : UInt8 := 0
  rpmValid : Bool := false
  voltageValid : Bool := false
  currentValid : Bool := false
  temperatureValid : Bool := false
  totalcurrentValid : Bool := false
  countValid : Bool := false
  failureFlagsValid : Bool := false
  errorCountValid : Bool := false
deriving DecidableEq

structure EscState where
  sample : EscSample := {}
  observed : Bool := false
  valid : Bool := false
  online : Bool := false
  stale : Bool := false
  ageMs : Int := -1
  lastUpdateNs : Int := 0
  metadataNs : Int := 0
deriving DecidableEq

/-- `EscObservation`: the message's fields that the tracker reads. -/
structure EscObservation extends EscSample where
  escIndex : UInt8
  stamp : Stamp
  metadataStamp : Stamp
  valid : Bool
deriving DecidableEq

structure EscTelemetryTracker where
  timeoutNs : Int := 3000000000
  states : Nat → EscState := fun _ => {}

namespace EscTelemetryTracker
variable (t : EscTelemetryTracker)

def reset : EscTelemetryTracker := { t with states := fun _ => {} }

def record (state : EscState) (o : EscObservation) : EscState :=
  { state with
    observed := state.observed || o.valid || o.temperatureValid || o.failureFlagsValid || o.errorCountValid
    valid := o.valid && o.stamp.ns > 0
    lastUpdateNs := o.stamp.ns
    metadataNs := o.metadataStamp.ns
    sample := { o.toEscSample with
      voltageValid := o.voltageValid && o.voltage.isSome
      currentValid := o.currentValid && o.current.isSome
      temperatureValid := o.temperatureValid && o.temperature.isSome
      totalcurrentValid := o.totalcurrentValid && o.totalcurrent.isSome } }

def observe (o : EscObservation) (nowNs : Int) : EscTelemetryTracker :=
  if o.escIndex ≥ 64 ∨ nowNs ≤ 0 ∨ t.timeoutNs ≤ 0 ∨ o.source ≠ 1 ∧ o.source ≠ 2 then t
  else
    let state := t.states o.escIndex.toNat
    if o.stamp.ns > nowNs ∨
        state.sample.source = o.source ∧ o.stamp.ns > 0 ∧ o.stamp.ns < state.lastUpdateNs then t
    else { t with states := fun i => if i = o.escIndex.toNat then record state o else t.states i }

def fresh (stamp now : Int) : Bool := stamp > 0 && now ≥ stamp && now - stamp ≤ t.timeoutNs

def project (index : Nat) (nowNs : Int) : EscState :=
  if index ≥ 64 then {}
  else
    let out := t.states index
    let online := out.valid && t.fresh out.lastUpdateNs nowNs
    let metadataFresh := t.fresh out.metadataNs nowNs
    { out with
      ageMs := if out.lastUpdateNs > 0 ∧ nowNs ≥ out.lastUpdateNs then
          (nowNs - out.lastUpdateNs) / 1000000 else -1
      online := online
      stale := out.observed && !online
      sample := { out.sample with
        rpmValid := out.sample.rpmValid && online
        voltageValid := out.sample.voltageValid && online
        currentValid := out.sample.currentValid && online
        totalcurrentValid := out.sample.totalcurrentValid && online
        countValid := out.sample.countValid && online
        temperatureValid := out.sample.temperatureValid && metadataFresh
        failureFlagsValid := out.sample.failureFlagsValid && metadataFresh
        errorCountValid := out.sample.errorCountValid && metadataFresh } }

end EscTelemetryTracker
end MowgliMavros
