import Mathlib.Data.List.FinRange
import MowgliMavros.WheelMotion

/-!
# The observation engine (`observation_engine.cpp`)

`ObservationEngine` normalizes the ESC and encoder messages and selects the one source of wheel
odometry. A float of a packet is a rational, or `none` when it is not finite; the 64 slots are naturals,
and none from 64 on is ever seen. The members of the two wheels are functions of the side.
-/

namespace MowgliMavros
namespace Odometry

inductive EscSource
  | common | ardupilotLegacy
deriving DecidableEq, Repr

structure EscObservationData where
  index : Nat := 0
  source : EscSource := .common
  stampNs : Int := 0
  metadataStampNs : Int := 0
  valid : Bool := false
  rpm : Int := 0
  rpmValid : Bool := false
  rpmDirectionValid : Bool := false
  voltage : Rat := 0
  current : Rat := 0
  temperature : Rat := 0
  voltageValid : Bool := false
  currentValid : Bool := false
  temperatureValid : Bool := false
  failureFlags : UInt16 := 0
  errorCount : UInt32 := 0
  failureFlagsValid : Bool := false
  errorCountValid : Bool := false
  totalcurrent : Rat := 0
  count : UInt16 := 0
  totalcurrentValid : Bool := false
  countValid : Bool := false
deriving DecidableEq

structure CommonStatusPacket where
  index : Nat := 0
  timeUs : Nat := 0
  rpm : Fin 4 → Int := fun _ => 0
  voltage : Fin 4 → Option Rat := fun _ => some 0
  current : Fin 4 → Option Rat := fun _ => some 0
  componentId : UInt8 := 1

structure CommonInfoPacket where
  index : Nat := 0
  count : Nat := 0
  timeUs : Nat := 0
  temperature : Fin 4 → Int16 := fun _ => 0
  failureFlags : Fin 4 → UInt16 := fun _ => 0
  errorCount : Fin 4 → UInt32 := fun _ => 0
  componentId : UInt8 := 1

structure LegacyEscPacket where
  index : Nat := 0
  counts : Fin 4 → UInt16 := fun _ => 0
  rpm : Fin 4 → UInt16 := fun _ => 0
  voltage : Fin 4 → Option Rat := fun _ => some 0
  current : Fin 4 → Option Rat := fun _ => some 0
  temperature : Fin 4 → Option Rat := fun _ => some 0
  totalcurrent : Fin 4 → Option Rat := fun _ => some 0

structure DistancePacket where
  timeUs : Nat := 0
  count : Nat := 0
  distance : Fin 16 → Option Rat := fun _ => some 0
  componentId : UInt8 := 0

/-- The `source` parameter. -/
inductive ConfiguredSource
  | auto | wheelDistance | escStatus | ardupilotLegacy
deriving DecidableEq, Repr

structure ObservationConfig where
  geometry : WheelGeometry := {}
  source : ConfiguredSource := .auto
  leftWheelIndex : Int := -1
  rightWheelIndex : Int := -1
  timeoutNs : Int := 3000000000
  legacyEnabled : Bool := false
  wheelDistanceComponentId : Int := -1
  escComponentId : Int := -1
  commonPairMaxSkewS : Rat := 1 / 4
  maxDistanceSpeedMps : Rat := 10
deriving DecidableEq

/-- What the constructor throws, apart from a `source` of another name. -/
def ObservationConfig.refusal (c : ObservationConfig) : Option String :=
  let g := c.geometry
  if g.leftEscSlot < -1 ∨ g.leftEscSlot ≥ 64 ∨ g.rightEscSlot < -1 ∨ g.rightEscSlot ≥ 64 ∨
      g.leftEscSlot ≥ 0 ∧ g.leftEscSlot = g.rightEscSlot ∨ g.ticksPerMeter < 0 ∨ g.trackWidthM < 0 ∨
      c.leftWheelIndex < -1 ∨ c.leftWheelIndex ≥ 16 ∨ c.rightWheelIndex < -1 ∨ c.rightWheelIndex ≥ 16 ∨
      c.leftWheelIndex ≥ 0 ∧ c.leftWheelIndex = c.rightWheelIndex then
    some "invalid wheel mapping or geometry"
  else if c.wheelDistanceComponentId < -1 ∨ c.wheelDistanceComponentId > 255 then
    some "wheel_distance_component_id must be -1 or a MAVLink component id"
  else if c.escComponentId < -1 ∨ c.escComponentId > 255 then
    some "esc_component_id must be -1 or a MAVLink component id"
  else if c.commonPairMaxSkewS ≤ 0 ∨ c.commonPairMaxSkewS > c.timeoutNs / 10 ^ 9 then
    some "COMMON pair skew must be finite, positive and <= freshness timeout"
  else if c.timeoutNs ≤ 0 ∨ c.maxDistanceSpeedMps ≤ 0 then
    some "source timeout and distance speed limit must be finite and positive"
  else none

abbrev ValidConfig := { c : ObservationConfig // c.refusal = none }

theorem refusal_none {p : Prop} [Decidable p] {message : String} {rest : Option String}
    (h : (if p then some message else rest) = none) : ¬ p ∧ rest = none := by
  split at h
  · cases h
  · exact ⟨‹_›, h⟩

theorem ValidConfig.timeout_pos (config : ValidConfig) : 0 < config.1.timeoutNs := by
  obtain ⟨_, hcomponent⟩ := refusal_none config.2
  obtain ⟨_, hesc⟩ := refusal_none hcomponent
  obtain ⟨_, hskew⟩ := refusal_none hesc
  obtain ⟨_, htimeout⟩ := refusal_none hskew
  exact Int.not_le.1 fun hle => (refusal_none htimeout).1 (.inl hle)

structure Status where
  data : EscObservationData := {}
  timeUs : Nat := 0
  seen : Bool := false

structure Info where
  timeUs : Nat := 0
  stampNs : Int := 0
  temperature : Int16 := 0
  failureFlags : UInt16 := 0
  errorCount : UInt32 := 0
  seen : Bool := false
  valid : Bool := false

structure Legacy where
  data : EscObservationData := {}
  count : Option UInt16 := none

structure Distance where
  wheel : Side → Rat := fun _ => 0
  timeUs : Nat := 0
  receiptNs : Int := 0
  valid : Bool := false

structure ObservationEngine where
  config : ValidConfig
  core : WheelOdometryCore
  legacy : LegacyWheelAdapter
  commonMotorTicks : MotorTickIntegrator
  legacyMotorTicks : MotorTickIntegrator
  connected : Bool := false
  status : Nat → Status := fun _ => {}
  info : Nat → Info := fun _ => {}
  legacyEsc : Nat → Legacy := fun _ => {}
  commonCount : Option Nat := none
  commonComponent : Option UInt8 := none
  commonStatusOwner : Bool := false
  commonOwnerStampNs : Int := 0
  lastReceiptNs : Int := 0
  distance : Distance := {}
  distanceComponent : Option UInt8 := none
  distanceBaseline : Option Distance := none
  legacyMotion : Option WheelMotionObservation := none
  active : WheelSource := .none
  published : Side → Nat := fun _ => 0
  commonEpochBaselineNeeded : Bool := false
  commonConfigurationNs : Int := 0

namespace ObservationEngine

def sampleTimeValid (us : Nat) : Bool := 0 < us && us ≤ (2 ^ 63 - 1) / 1000

def ofConfig (config : ValidConfig) : ObservationEngine where
  config := config
  core := { geometry := config.1.geometry }
  legacy := { geometry := config.1.geometry, timeoutNs := config.1.timeoutNs }
  commonMotorTicks := { timeoutNs := config.1.timeoutNs }
  legacyMotorTicks := { timeoutNs := config.1.timeoutNs }

def new (config : ObservationConfig) : Except String ObservationEngine :=
  match h : config.refusal with
  | some message => .error message
  | none => .ok (ofConfig ⟨config, h⟩)

variable (e : ObservationEngine)

def geometry : WheelGeometry := e.config.1.geometry

/-- The slot of a wheel, where the COMMON mapping is valid. -/
def slot (side : Side) : Nat := (e.geometry.slot side).toNat

def wheelStatus (side : Side) : Status := e.status (e.slot side)

def Fresh (stamp now : Int) : Prop := 0 < stamp ∧ stamp ≤ now ∧ now - stamp ≤ e.config.1.timeoutNs

instance (stamp now : Int) : Decidable (e.Fresh stamp now) := inferInstanceAs (Decidable (_ ∧ _))

def CommonMapping : Prop :=
  0 ≤ e.geometry.leftEscSlot ∧ e.geometry.leftEscSlot < 64 ∧ 0 ≤ e.geometry.rightEscSlot ∧
    e.geometry.rightEscSlot < 64 ∧ e.geometry.leftEscSlot ≠ e.geometry.rightEscSlot

instance : Decidable e.CommonMapping := inferInstanceAs (Decidable (_ ∧ _))

def DistanceMapping (count : Nat) : Prop :=
  2 ≤ count ∧ count ≤ 16 ∧ 0 ≤ e.config.1.leftWheelIndex ∧ 0 ≤ e.config.1.rightWheelIndex ∧
    e.config.1.leftWheelIndex ≠ e.config.1.rightWheelIndex ∧ e.config.1.leftWheelIndex < count ∧
    e.config.1.rightWheelIndex < count

instance (count : Nat) : Decidable (e.DistanceMapping count) := inferInstanceAs (Decidable (_ ∧ _))

/-- The `source` parameter allows this one. -/
def Configured (source : ConfiguredSource) : Prop := e.config.1.source = .auto ∨ e.config.1.source = source

instance (source : ConfiguredSource) : Decidable (e.Configured source) := inferInstanceAs (Decidable (_ ∨ _))

def WheelConfigured : Prop :=
  e.core.valid = true ∧ (e.Configured .wheelDistance ∧ e.DistanceMapping 16 ∨
    e.Configured .escStatus ∧ e.CommonMapping ∧ 0 < e.geometry.ticksPerMeter ∨
    e.Configured .ardupilotLegacy ∧ e.config.1.legacyEnabled ∧ e.legacy.valid ∧ 0 < e.geometry.ticksPerMeter)

instance : Decidable e.WheelConfigured := inferInstanceAs (Decidable (_ ∧ _))

/-! ### Resets and ownership -/

def resetCommon : ObservationEngine :=
  { e with
    status := fun _ => {}
    info := fun _ => {}
    commonCount := none
    commonComponent := none
    commonMotorTicks := e.commonMotorTicks.reset
    commonOwnerStampNs := 0
    commonStatusOwner := false
    published := fun _ => 0
    commonEpochBaselineNeeded := false
    commonConfigurationNs := 0
    core := if e.active = .escStatus then e.core.reset else e.core
    active := if e.active = .escStatus then .none else e.active }

def resetDistance : ObservationEngine :=
  { e with
    distance := {}
    distanceComponent := none
    distanceBaseline := none
    core := if e.active = .wheelDistance then e.core.reset else e.core
    active := if e.active = .wheelDistance then .none else e.active }

def reset : ObservationEngine :=
  let e := e.resetCommon.resetDistance
  { e with
    core := e.core.reset
    legacy := e.legacy.reset
    legacyEsc := fun _ => {}
    legacyMotion := none
    legacyMotorTicks := e.legacyMotorTicks.reset
    active := .none
    lastReceiptNs := 0 }

def receiveClock (receipt : Int) : ObservationEngine :=
  { (if receipt < e.lastReceiptNs then e.reset else e) with lastReceiptNs := receipt }

/-- `esc_component_id` restricts the sender. -/
def Excludes (component : UInt8) : Prop :=
  0 ≤ e.config.1.escComponentId ∧ (component.toNat : Int) ≠ e.config.1.escComponentId

instance (component : UInt8) : Decidable (e.Excludes component) := inferInstanceAs (Decidable (_ ∧ _))

/-- Another component is stored than this one. -/
def Foreign (component : UInt8) : Prop := e.commonComponent.any (· ≠ component) = true

instance (component : UInt8) : Decidable (e.Foreign component) := inferInstanceAs (Decidable (_ = _))

def acceptCommonStatus (component : UInt8) (receipt : Int) : Option ObservationEngine :=
  if e.Excludes component then none
  else if e.Foreign component ∧ e.commonStatusOwner ∧ e.Fresh e.commonOwnerStampNs receipt then none
  else some { (if e.Foreign component then e.resetCommon else e) with
    commonComponent := some component, commonStatusOwner := true }

/-- INFO can neither acquire nor take over a STATUS lease, even after expiry. -/
def acceptCommonInfo (component : UInt8) : Option ObservationEngine :=
  if e.Excludes component then none
  else if e.Foreign component ∧ e.commonStatusOwner then none
  else some { (if e.Foreign component then e.resetCommon else e) with commonComponent := some component }

def connection (connected : Bool) : ObservationEngine := { e.reset with connected := connected }

/-- `retain_esc_observations`: `e` is the new engine. -/
def retainEscObservations (previous : ObservationEngine) (configurationNs : Int) (retainLegacyTicks : Bool) :
    ObservationEngine :=
  let keeps := e.config.1.escComponentId < 0 ∨
    previous.commonComponent.any fun component => (component.toNat : Int) = e.config.1.escComponentId
  let sameSlots := e.geometry.leftEscSlot = previous.geometry.leftEscSlot ∧
    e.geometry.rightEscSlot = previous.geometry.rightEscSlot
  let component := if keeps then previous.commonComponent else e.commonComponent
  { e with
    connected := previous.connected
    status := if keeps then previous.status else fun _ => {}
    info := if keeps then previous.info else fun _ => {}
    legacyEsc := previous.legacyEsc
    lastReceiptNs := previous.lastReceiptNs
    commonCount := if keeps then previous.commonCount else e.commonCount
    commonComponent := component
    commonOwnerStampNs := if keeps then previous.commonOwnerStampNs else e.commonOwnerStampNs
    commonStatusOwner := if keeps then previous.commonStatusOwner else e.commonStatusOwner
    commonMotorTicks := if sameSlots ∧ component = previous.commonComponent then
        e.commonMotorTicks.retainCounts previous.commonMotorTicks else e.commonMotorTicks
    legacyMotorTicks := if sameSlots ∧ retainLegacyTicks then
        e.legacyMotorTicks.retainCounts previous.legacyMotorTicks else e.legacyMotorTicks
    commonConfigurationNs := configurationNs }

/-! ### Selection -/

/-- The wheel's slot is inside the count that INFO reported. -/
def Counted (slot : Nat) : Prop := e.commonCount.all (slot < ·) = true

instance (slot : Nat) : Decidable (e.Counted slot) := inferInstanceAs (Decidable (_ = _))

def wheelTime (side : Side) : Nat := (e.wheelStatus side).timeUs

/-- The wheels' measurement times differ by at most `common_pair_max_skew_s`. -/
def Paired : Prop :=
  ((max (e.wheelTime .left) (e.wheelTime .right) - min (e.wheelTime .left) (e.wheelTime .right) : Nat) : Rat) /
    10 ^ 6 ≤ e.config.1.commonPairMaxSkewS

instance : Decidable e.Paired := inferInstanceAs (Decidable (_ ≤ _))

def WheelAvailable (now : Int) (side : Side) : Prop :=
  (e.wheelStatus side).seen = true ∧ (e.wheelStatus side).data.valid = true ∧
    e.Fresh (e.wheelStatus side).data.stampNs now ∧ e.Counted (e.slot side)

instance (now : Int) (side : Side) : Decidable (e.WheelAvailable now side) := inferInstanceAs (Decidable (_ ∧ _))

def CommonAvailable (now : Int) : Prop :=
  e.CommonMapping ∧ e.WheelAvailable now .left ∧ e.WheelAvailable now .right ∧ e.Paired

instance (now : Int) : Decidable (e.CommonAvailable now) := inferInstanceAs (Decidable (_ ∧ _))

/-- `next` of `select`. -/
def selected (now : Int) : WheelSource :=
  if ¬ e.connected ∨ ¬ e.WheelConfigured then .none
  else if e.Configured .wheelDistance ∧ e.distance.valid ∧ e.Fresh e.distance.receiptNs now then .wheelDistance
  else if e.Configured .escStatus ∧ e.CommonAvailable now then .escStatus
  else if e.Configured .ardupilotLegacy ∧ e.config.1.legacyEnabled ∧
      e.legacyMotion.any fun motion => e.Fresh motion.receiptStampNs now then .ardupilotLegacy
  else .none

/-- The floors that a change to `next` leaves. They fence cached data when returning from another source;
a temporary COMMON skew gap keeps its pending wheel. -/
def floors (next : WheelSource) (commonUpdate : Bool) (previous : Side → Nat) : Side → Nat :=
  if ¬ e.CommonMapping then e.published
  else if next ≠ .escStatus ∧ (next ≠ .none ∨ e.active ≠ .escStatus) ∨ next = .escStatus ∧ ¬ commonUpdate then
    e.wheelTime
  else if next = .escStatus ∧ e.active ≠ .none then previous
  else e.published

def selectAs (next : WheelSource) (commonUpdate : Bool) (previous : Side → Nat) : ObservationEngine :=
  if next = e.active then e
  else { e with
    core := e.core.reset
    published := e.floors next commonUpdate previous
    distanceBaseline := if next = .wheelDistance then some e.distance else none
    active := next }

def select (now : Int) (commonUpdate : Bool) (previous : Side → Nat) : ObservationEngine :=
  e.selectAs (e.selected now) commonUpdate previous

/-- `select(now)`. -/
def reselect (now : Int) : ObservationEngine := e.select now false fun _ => 0

def poll (now : Int) : ObservationEngine := (e.receiveClock now).reselect now

end ObservationEngine
end Odometry
end MowgliMavros
