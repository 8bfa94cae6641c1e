import MowgliMavros.Lib.Monitor
import MowgliMavros.ObservationRun

/-!
# The law of COMMON wheel pairing

What a run shows of the pairing, as a log of events, and the law about it: an observation is computed
from two samples that are newer than the last pair of the epoch, close to each other, fresh, and received
after the last configuration and after the last end of another source.
-/

namespace MowgliMavros
namespace Odometry

/-- A measurement of one motor. -/
structure Sample where
  timeUs : Nat
  receiptNs : Int
  rpm : Int
deriving DecidableEq

def Status.sample (s : Status) : Sample := ⟨s.timeUs, s.data.stampNs, s.data.rpm⟩

inductive PairEvent
  /-- The COMMON data start anew. -/
  | epoch
  /-- WHEEL_DISTANCE or the legacy source is no longer the active source. -/
  | ended
  | configured
  /-- The new samples of one ESC_STATUS packet, by slot. -/
  | received (samples : Nat → Option Sample)
  | paired (config : ValidConfig) (receipt : Int) (sample : Side → Sample) (o : WheelObservation)

/-- What the law remembers: the measurement times of the last pair of the epoch, the last sample of each
slot, and whether it came after the last configuration and after the last end of another source. -/
structure PairMemory where
  previous : Option (Side → Nat) := none
  sample : Nat → Option Sample := fun _ => none
  configured : Nat → Bool := fun _ => false
  settled : Nat → Bool := fun _ => false

def PairMemory.observe (x : PairMemory) : PairEvent → PairMemory
  | .epoch => { x with previous := none }
  | .ended => { x with settled := fun _ => false }
  | .configured => { x with configured := fun _ => false }
  | .received samples =>
    { x with
      sample := fun slot => (samples slot).or (x.sample slot)
      configured := fun slot => (samples slot).isSome || x.configured slot
      settled := fun slot => (samples slot).isSome || x.settled slot }
  | .paired _ _ sample _ => { x with previous := some fun side => (sample side).timeUs }

instance forallSide (P : Side → Prop) [DecidablePred P] : Decidable (∀ side, P side) :=
  decidable_of_iff (P .left ∧ P .right) ⟨fun h side => by cases side; exacts [h.1, h.2], fun h => ⟨h .left, h .right⟩⟩

/-- The observation of two samples. -/
def pairObservation (config : ValidConfig) (sample : Side → Sample) : WheelObservation where
  sampleStampNs := max ((sample .left).timeUs * 1000) ((sample .right).timeUs * 1000)
  receiptStampNs := max (sample .left).receiptNs (sample .right).receiptNs
  linearXMps := ((sample .left).rpm / 60 / config.1.geometry.ticksPerMeter +
    (sample .right).rpm / 60 / config.1.geometry.ticksPerMeter) / 2
  angularZRps := ((sample .right).rpm / 60 / config.1.geometry.ticksPerMeter -
    (sample .left).rpm / 60 / config.1.geometry.ticksPerMeter) / config.1.geometry.trackWidthM

/-- The two samples are close to each other in measurement time. -/
def Close (config : ValidConfig) (sample : Side → Sample) : Prop :=
  ((max (sample .left).timeUs (sample .right).timeUs - min (sample .left).timeUs (sample .right).timeUs : Nat) : Rat) /
    10 ^ 6 ≤ config.1.commonPairMaxSkewS

instance (config : ValidConfig) (sample : Side → Sample) : Decidable (Close config sample) :=
  inferInstanceAs (Decidable (_ ≤ _))

/-- The sample is the last one of its slot, is fresh and has nothing in between. -/
def PairMemory.Usable (x : PairMemory) (config : ValidConfig) (receipt : Int) (slot : Nat) (s : Sample) : Prop :=
  x.sample slot = some s ∧ x.configured slot = true ∧ x.settled slot = true ∧
    0 < s.receiptNs ∧ s.receiptNs ≤ receipt ∧ receipt - s.receiptNs ≤ config.1.timeoutNs

instance (x : PairMemory) (config : ValidConfig) (receipt : Int) (slot : Nat) (s : Sample) :
    Decidable (x.Usable config receipt slot s) := inferInstanceAs (Decidable (_ ∧ _))

def PairMemory.Allows (x : PairMemory) : PairEvent → Prop
  | .paired config receipt sample o =>
    (∀ times ∈ x.previous, ∀ side, times side < (sample side).timeUs) ∧ Close config sample ∧
      (∀ side, x.Usable config receipt (config.1.geometry.slot side).toNat (sample side)) ∧
      o = pairObservation config sample
  | _ => True

instance (x : PairMemory) : ∀ event, Decidable (x.Allows event)
  | .paired _ _ _ _ => inferInstanceAs (Decidable (_ ∧ _))
  | .epoch | .ended | .configured | .received _ => inferInstanceAs (Decidable True)

def pairLaw : Monitor PairMemory PairEvent := ⟨PairMemory.observe, PairMemory.Allows⟩

instance (x : PairMemory) (event : PairEvent) : Decidable (pairLaw.Allows x event) :=
  inferInstanceAs (Decidable (x.Allows event))

/-! ### The events of a call -/

namespace ObservationEngine
variable (e : ObservationEngine)

/-- The new samples of the packet's lanes. -/
def newSamples (packet : CommonStatusPacket) (receipt : Int) (slot : Nat) : Option Sample :=
  if h : packet.index ≤ slot ∧ slot - packet.index < 4 then
    if e.Renews packet ⟨slot - packet.index, h.2⟩ then
      some ⟨packet.timeUs, receipt, packet.rpm ⟨slot - packet.index, h.2⟩⟩
    else none
  else none

/-- The packet's samples, if it is accepted. -/
def receives (packet : CommonStatusPacket) (receipt : Int) : List PairEvent :=
  if e.RefusesStatus packet receipt then []
  else
    match (e.receiveClock receipt).acceptCommonStatus packet.componentId receipt with
    | none => []
    | some a => [.received ((a.restartCommon packet).newSamples packet receipt)]

/-- The call starts a COMMON epoch, or maps the wheels to other motors. -/
def Restarts (c : Call × Int) : Prop :=
  match c.1 with
  | .replace config _ => ¬ (config.1.geometry.leftEscSlot = e.geometry.leftEscSlot ∧
      config.1.geometry.rightEscSlot = e.geometry.rightEscSlot ∧ (e.step c).1.commonComponent = e.commonComponent)
  | _ => (e.step c).1.commonMotorTicks.epoch ≠ e.commonMotorTicks.epoch

instance (c : Call × Int) : Decidable (e.Restarts c) := by
  unfold Restarts
  split <;> infer_instance

/-- The call ends WHEEL_DISTANCE or the legacy source. -/
def Ends (c : Call × Int) : Prop :=
  (e.active = .wheelDistance ∨ e.active = .ardupilotLegacy) ∧ (e.step c).1.active ≠ e.active

instance (c : Call × Int) : Decidable (e.Ends c) := inferInstanceAs (Decidable (_ ∧ _))

def notices (c : Call × Int) : List PairEvent :=
  (if e.Restarts c then [.epoch] else []) ++ if e.Ends c then [.ended] else []

/-- The observation that `common_status` returns, with the samples of the wheels. -/
def pairs (packet : CommonStatusPacket) (receipt : Int) : List PairEvent :=
  ((e.commonStatus packet receipt).2.map fun o =>
    .paired e.config receipt (fun side => ((e.commonStatus packet receipt).1.wheelStatus side).sample) o).toList

def pairEvents (c : Call × Int) : List PairEvent :=
  e.notices c ++
    match c with
    | (.replace _ _, _) => [.configured]
    | (.commonStatus packet, receipt) => e.receives packet receipt ++ e.pairs packet receipt
    | _ => []

end ObservationEngine

def pairing : Machine ObservationEngine (Call × Int) PairEvent := ⟨fun e c => ((e.step c).1, e.pairEvents c)⟩

end Odometry
end MowgliMavros
