import MowgliMavros.Lib.Machine
import MowgliMavros.ObservationMessages

/-!
# Runs of the observation engine

A call comes with its clock reading: the receipt of a message, the time of a poll, the time of an
accepted configuration. `replace` is what the plugin does with an accepted configuration: a new engine
that retains from the old one.
-/

namespace MowgliMavros
namespace Odometry

inductive Call
  | commonStatus (packet : CommonStatusPacket)
  | commonInfo (packet : CommonInfoPacket)
  | legacyEsc (packet : LegacyEscPacket)
  | legacyRpm (left right : Option Rat)
  | wheelDistance (packet : DistancePacket)
  | poll
  | connection (connected : Bool)
  | replace (config : ValidConfig) (retainLegacyTicks : Bool)

/-- The clock readings do not go back. -/
def Clocked (run : List (Call × Int)) : Prop := run.Pairwise fun a b => a.2 ≤ b.2

namespace ObservationEngine
variable (e : ObservationEngine)

def replace (config : ValidConfig) (configurationNs : Int) (retainLegacyTicks : Bool) : ObservationEngine :=
  (ofConfig config).retainEscObservations e configurationNs retainLegacyTicks

def step : Call × Int → ObservationEngine × Option WheelObservation
  | (.commonStatus packet, receipt) => e.commonStatus packet receipt
  | (.commonInfo packet, receipt) => (e.commonInfo packet receipt, none)
  | (.legacyEsc packet, receipt) => (e.legacyEscTelemetry packet receipt, none)
  | (.legacyRpm left right, receipt) => e.legacyRpm left right receipt
  | (.wheelDistance packet, receipt) => e.wheelDistance packet receipt
  | (.poll, now) => (e.poll now, none)
  | (.connection connected, _) => (e.connection connected, none)
  | (.replace config retainLegacyTicks, configurationNs) => (e.replace config configurationNs retainLegacyTicks, none)

end ObservationEngine

open ObservationEngine

/-- A call with the result it returns. -/
abbrev Answer := (Call × Int) × Option WheelObservation

def machine : Machine ObservationEngine (Call × Int) Answer := ⟨fun e c => ((e.step c).1, [(c, (e.step c).2)])⟩

def reach (config : ValidConfig) (run : List (Call × Int)) : ObservationEngine := machine.final (ofConfig config) run

def trace (config : ValidConfig) (run : List (Call × Int)) : List Answer := machine.log (ofConfig config) run

/-- The left motor on slot 0, the right one on slot 1, with encoders beside them. -/
def bothWheels : ValidConfig :=
  ⟨{ geometry := { leftEscSlot := 0, rightEscSlot := 1, trackWidthM := 1, ticksPerMeter := 1 }
     leftWheelIndex := 0, rightWheelIndex := 1 }, by decide +kernel⟩

namespace ObservationEngine
variable {e : ObservationEngine} {receipt now : Int}

/-! ### The clock -/

theorem receiveClock_eq (h : e.lastReceiptNs ≤ receipt) :
    e.receiveClock receipt = { e with lastReceiptNs := receipt } := by
  unfold receiveClock
  rw [if_neg (Int.not_lt.2 h)]

@[simp] theorem receiveClock_last : (e.receiveClock receipt).lastReceiptNs = receipt := rfl

end ObservationEngine
end Odometry
end MowgliMavros
