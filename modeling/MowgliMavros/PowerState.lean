import Mathlib.Algebra.Order.Field.Rat
import Mathlib.Tactic.Common
import MowgliMavros.Lib.Machine

/-!
# The battery observer (`power_state.hpp`, `battery_observer_plugin.cpp`)

The dock and the traction battery, what the observer projects of them and what the plugin publishes for
each BATTERY_STATUS. Doubles are rationals, `none` where they are not finite; a reading may also be
absent. `project` changes the mutable `charger_present_`, so it returns the state with its result.
-/

namespace MowgliMavros

structure BatterySample where
  voltage : Option (Option Rat) := none
  current : Option (Option Rat) := none
  receiptNs : Int := 0
deriving DecidableEq

structure PowerProjection where
  vCharge : Option Rat := none
  vBattery : Option Rat := none
  chargeCurrent : Option Rat := none
  batteryCurrent : Option Rat := none
  chargerEnabled : Bool := false
  dockFresh : Bool := false
  batteryFresh : Bool := false
deriving DecidableEq

structure PowerState where
  staleAfterNs : Int
  chargerOnVoltage : Rat
  chargerOffVoltage : Rat
  chargerPresent : Bool := false
  dock : Option BatterySample := none
  battery : Option BatterySample := none
deriving DecidableEq

namespace PowerState
variable (s : PowerState)

/-- `valid`; a threshold that is not finite is refused with the others. -/
def valid : Bool := 0 < s.staleAfterNs && 0 ≤ s.chargerOffVoltage && s.chargerOffVoltage < s.chargerOnVoltage

def observeDock (sample : BatterySample) : PowerState := { s with dock := some sample }

def observeBattery (sample : BatterySample) : PowerState := { s with battery := some sample }

def fresh (sample : Option BatterySample) (nowNs : Int) : Bool :=
  sample.any fun sample => sample.receiptNs ≤ nowNs && nowNs - sample.receiptNs ≤ s.staleAfterNs

/-- The hysteresis: a present charger stays until the voltage falls below one threshold, an absent one has
to exceed the other. -/
def holds (v : Rat) : Bool := if s.chargerPresent then ¬ v < s.chargerOffVoltage else v > s.chargerOnVoltage

/-- `charger_present_` after a projection. -/
def present (nowNs : Int) : Bool :=
  s.fresh s.dock nowNs && (s.dock.bind (·.voltage)).join.any s.holds

def project (nowNs : Int) : PowerState × PowerProjection :=
  let dock := if s.fresh s.dock nowNs then s.dock else none
  let battery := if s.fresh s.battery nowNs then s.battery else none
  ({ s with chargerPresent := s.present nowNs },
   { vCharge := (dock.bind (·.voltage)).join
     vBattery := (battery.bind (·.voltage)).join
     batteryCurrent := (battery.bind (·.current)).join.map fun current => -current
     chargeCurrent := do return (← (← (← dock).current)) - (← (← (← battery).current))
     chargerEnabled := s.present nowNs
     dockFresh := s.fresh s.dock nowNs
     batteryFresh := s.fresh s.battery nowNs })

end PowerState

/-! ### The plugin -/

structure BatteryStatus where
  id : UInt8 := 0
  voltages : List UInt16 := []
  voltagesExt : List UInt16 := []
  currentBattery : Int16 := -1

namespace BatteryStatus

/-- The cells up to the first that `stop` names; 65534 is a cell that is not known. -/
def cells (stop : UInt16 → Bool) (cells : List UInt16) : List Rat :=
  ((cells.takeWhile fun cell => !stop cell).filter (· ≠ 65534)).map fun cell => (cell.toNat : Rat) / 1000

/-- `battery_voltage`. -/
def voltage (battery : BatteryStatus) : Option (Option Rat) :=
  match cells (· = 65535) battery.voltages ++ cells (fun cell => cell = 0 || cell = 65535) battery.voltagesExt with
  | [] => none
  | volts => some (some volts.sum)

/-- `battery_current`. -/
def current (battery : BatteryStatus) : Option (Option Rat) :=
  if battery.currentBattery = -1 then none else some (some ((battery.currentBattery.toInt : Rat) / 100))

end BatteryStatus

/-- `mowgli_interfaces/Power` and `sensor_msgs/BatteryState`, as far as they are filled in. -/
inductive BatteryOutput
  | power (stamp : Int) (vCharge vBattery chargeCurrent : Option Rat) (chargerEnabled : Bool) (chargerStatus : String)
  | batteryState (stamp : Int) (voltage current : Option Rat) (present : Bool)
deriving DecidableEq

structure BatteryObserver where
  dockBatteryInstance : Int := 0
  tractionBatteryInstance : Int := 1
  state : PowerState

namespace BatteryObserver
variable (b : BatteryObserver)

/-- `enabled_`: what the constructor checks. -/
def enabled : Bool :=
  0 ≤ b.dockBatteryInstance && b.dockBatteryInstance ≤ 255 && 0 ≤ b.tractionBatteryInstance &&
    b.tractionBatteryInstance ≤ 255 && b.dockBatteryInstance ≠ b.tractionBatteryInstance && b.state.valid

def ofParameters (dockBatteryInstance tractionBatteryInstance : Int)
    (observationTimeoutS chargerOnVoltage chargerOffVoltage : Rat) : BatteryObserver where
  dockBatteryInstance := dockBatteryInstance
  tractionBatteryInstance := tractionBatteryInstance
  state := {
    -- the conversion to nanoseconds truncates
    staleAfterNs := (observationTimeoutS * 1000000000).num.tdiv (observationTimeoutS * 1000000000).den
    chargerOnVoltage := chargerOnVoltage
    chargerOffVoltage := chargerOffVoltage }

def publishPower (stamp : Int) : BatteryObserver × BatteryOutput :=
  let (state, projection) := b.state.project stamp
  ({ b with state := state },
   .power stamp projection.vCharge projection.vBattery projection.chargeCurrent projection.chargerEnabled
    (if ¬ projection.dockFresh then "unavailable" else if projection.chargerEnabled then "charging" else "unknown"))

def publishBatteryState (stamp : Int) : BatteryObserver × BatteryOutput :=
  let (state, projection) := b.state.project stamp
  ({ b with state := state },
   .batteryState stamp projection.vBattery projection.batteryCurrent
    (projection.batteryFresh && projection.vBattery.isSome))

def handleBatteryStatus (battery : BatteryStatus) (stamp : Int) : BatteryObserver × List BatteryOutput :=
  let sample : BatterySample := ⟨battery.voltage, battery.current, stamp⟩
  if ¬ b.enabled then (b, [])
  else if battery.id.toNat = b.dockBatteryInstance then
    let (b, power) := { b with state := b.state.observeDock sample }.publishPower stamp
    (b, [power])
  else if battery.id.toNat = b.tractionBatteryInstance then
    let (b, power) := { b with state := b.state.observeBattery sample }.publishPower stamp
    let (b, battery) := b.publishBatteryState stamp
    (b, [power, battery])
  else (b, [])

/-- A BATTERY_STATUS comes with the clock at its reception. -/
def machine : Machine BatteryObserver (BatteryStatus × Int) BatteryOutput :=
  ⟨fun b m => b.handleBatteryStatus m.1 m.2⟩

end BatteryObserver
end MowgliMavros
