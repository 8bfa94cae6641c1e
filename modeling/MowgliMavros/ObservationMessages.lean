import MowgliMavros.ObservationEngine

/-!
# The messages of the observation engine (`observation_engine.cpp`)

One function for each message, with the engine and the wheel observation it returns, and the three
queries. The loops over the four lanes of a packet are folds; a loop over lanes that only tests is a
quantifier.
-/

namespace MowgliMavros
namespace Odometry

/-! ### ESC_STATUS -/

/-- A repeated measurement time with other values. -/
def CommonStatusPacket.Contradicts (packet : CommonStatusPacket) (i : Fin 4) (d : EscObservationData) : Prop :=
  d.rpm ≠ packet.rpm i ∨ d.voltageValid ≠ (packet.voltage i).isSome ∨ d.currentValid ≠ (packet.current i).isSome ∨
    (packet.voltage i).any (d.voltage ≠ ·) ∨ (packet.current i).any (d.current ≠ ·)

instance (packet : CommonStatusPacket) (i : Fin 4) (d : EscObservationData) : Decidable (packet.Contradicts i d) :=
  inferInstanceAs (Decidable (_ ∨ _))

def CommonStatusPacket.data (packet : CommonStatusPacket) (i : Fin 4) (receipt : Int) (d : EscObservationData) :
    EscObservationData :=
  { d with
    index := packet.index + i
    source := .common
    stampNs := receipt
    valid := true
    rpm := packet.rpm i
    rpmValid := true
    rpmDirectionValid := true
    voltageValid := (packet.voltage i).isSome
    currentValid := (packet.current i).isSome
    voltage := (packet.voltage i).getD 0
    current := (packet.current i).getD 0 }

/-- The counter of a lane moved, or is not zero at first. -/
def Legacy.advances (state : Legacy) (count : UInt16) : Bool :=
  match state.count with
  | none => count ≠ 0
  | some previous => LegacyWheelAdapter.counterAdvanced previous count

def LegacyEscPacket.data (packet : LegacyEscPacket) (i : Fin 4) (stampNs : Int) (valid : Bool)
    (d : EscObservationData) : EscObservationData :=
  { d with
    stampNs := stampNs
    valid := valid
    index := packet.index + i
    source := .ardupilotLegacy
    rpm := (packet.rpm i).toNat
    rpmValid := true
    rpmDirectionValid := false
    voltageValid := (packet.voltage i).isSome
    currentValid := (packet.current i).isSome
    temperatureValid := (packet.temperature i).isSome
    voltage := (packet.voltage i).getD 0
    current := (packet.current i).getD 0
    temperature := (packet.temperature i).getD 0
    metadataStampNs := stampNs
    totalcurrentValid := (packet.totalcurrent i).isSome
    totalcurrent := (packet.totalcurrent i).getD 0
    count := packet.counts i
    countValid := true }

namespace ObservationEngine
variable (e : ObservationEngine)

/-- What a slot does to the integrator of its wheel, if it has one. -/
def onWheels (slot : Nat) (f : Side → MotorTickIntegrator → MotorTickIntegrator) : MotorTickIntegrator :=
  let m := e.commonMotorTicks
  let m := if (slot : Int) = e.geometry.leftEscSlot then f .left m else m
  if (slot : Int) = e.geometry.rightEscSlot then f .right m else m

/-- The lane brings a new measurement time to a slot inside the count. -/
def Renews (packet : CommonStatusPacket) (i : Fin 4) : Prop :=
  e.Counted (packet.index + i) ∧
    ¬ ((e.status (packet.index + i)).seen ∧ packet.timeUs = (e.status (packet.index + i)).timeUs)

instance (packet : CommonStatusPacket) (i : Fin 4) : Decidable (e.Renews packet i) :=
  inferInstanceAs (Decidable (_ ∧ _))

def recordSlot (packet : CommonStatusPacket) (receipt : Int) (i : Fin 4) : ObservationEngine :=
  let slot := packet.index + i
  let state := e.status slot
  if e.Renews packet i then
    { e with
      status := Function.update e.status slot
        { data := packet.data i receipt state.data, timeUs := packet.timeUs, seen := true }
      commonOwnerStampNs := receipt
      commonMotorTicks := e.onWheels slot
        fun side m => (m.observe side (packet.rpm i) (packet.timeUs * 1000) receipt).1 }
  else if e.Counted slot ∧ packet.Contradicts i state.data then
    { e with
      status := Function.update e.status slot { state with data := { state.data with valid := false } }
      commonMotorTicks := e.onWheels slot fun side m => m.invalidate side }
  else e

def recordStatus (packet : CommonStatusPacket) (receipt : Int) : ObservationEngine :=
  (List.finRange 4).foldl (fun e i => e.recordSlot packet receipt i) e

/-- The measurement clock of a recorded slot went back. -/
def Regresses (packet : CommonStatusPacket) : Prop :=
  ∃ i : Fin 4, (e.status (packet.index + i)).seen = true ∧ packet.timeUs < (e.status (packet.index + i)).timeUs

instance (packet : CommonStatusPacket) : Decidable (e.Regresses packet) := inferInstanceAs (Decidable (∃ _, _))

/-- Only this COMMON producer's epoch changed; independent wheel and legacy data survives. -/
def restartCommon (packet : CommonStatusPacket) : ObservationEngine :=
  if e.Regresses packet then
    { e.resetCommon with
      commonComponent := some packet.componentId, commonStatusOwner := true, commonEpochBaselineNeeded := true }
  else e

/-- The times of the wheels' cached samples, or 0 without a mapping. -/
def mappedTime (side : Side) : Nat := if e.CommonMapping then e.wheelTime side else 0

/-- The end of `common_status`, after the selection. -/
def pairCommon (receipt : Int) : ObservationEngine × Option WheelObservation :=
  if e.active ≠ .escStatus ∨ ¬ e.CommonAvailable receipt then (e, none)
  else if (e.wheelStatus .left).data.stampNs ≤ e.commonConfigurationNs ∨
      (e.wheelStatus .right).data.stampNs ≤ e.commonConfigurationNs then (e, none)
  else if e.commonEpochBaselineNeeded then
    ({ e with commonEpochBaselineNeeded := false, published := e.wheelTime }, none)
  else if e.wheelTime .left ≤ e.published .left ∨ e.wheelTime .right ≤ e.published .right then (e, none)
  else
    match e.commonMotorTicks.motion e.geometry.ticksPerMeter .escStatus with
    | none => (e, none)
    | some motion =>
      match e.core.receiveMotion motion with
      | (core, none) => ({ e with core := core }, none)
      | (core, some o) => ({ e with core := core, published := e.wheelTime }, some o)

def RefusesStatus (packet : CommonStatusPacket) (receipt : Int) : Prop :=
  ¬ e.connected ∨ receipt ≤ 0 ∨ ¬ sampleTimeValid packet.timeUs ∨ packet.index > 60 ∨ packet.index % 4 ≠ 0

instance (packet : CommonStatusPacket) (receipt : Int) : Decidable (e.RefusesStatus packet receipt) :=
  inferInstanceAs (Decidable (_ ∨ _))

def commonStatus (packet : CommonStatusPacket) (receipt : Int) : ObservationEngine × Option WheelObservation :=
  if e.RefusesStatus packet receipt then (e, none)
  else
    let e := e.receiveClock receipt
    match e.acceptCommonStatus packet.componentId receipt with
    | none => (e, none)
    | some e =>
      (((e.restartCommon packet).recordStatus packet receipt).select receipt true e.mappedTime).pairCommon receipt

/-! ### ESC_INFO -/

def RefusesInfo (packet : CommonInfoPacket) (receipt : Int) : Prop :=
  ¬ e.connected ∨ receipt ≤ 0 ∨ ¬ sampleTimeValid packet.timeUs ∨ packet.index > 60 ∨ packet.index % 4 ≠ 0 ∨
    packet.count > 64 ∨ if packet.count = 0 then packet.index ≠ 0 else packet.index ≥ packet.count

instance (packet : CommonInfoPacket) (receipt : Int) : Decidable (e.RefusesInfo packet receipt) := by
  unfold RefusesInfo; infer_instance

def InfoRegresses (packet : CommonInfoPacket) : Prop :=
  ∃ i : Fin 4, packet.index + i < packet.count ∧ (e.info (packet.index + i)).seen = true ∧
    packet.timeUs < (e.info (packet.index + i)).timeUs

instance (packet : CommonInfoPacket) : Decidable (e.InfoRegresses packet) := inferInstanceAs (Decidable (∃ _, _))

def setInfo (packet : CommonInfoPacket) (stampNs : Int) (valid : Bool) (i : Fin 4) : ObservationEngine :=
  let entry : Info := {
    timeUs := packet.timeUs, stampNs := stampNs, temperature := packet.temperature i
    failureFlags := packet.failureFlags i, errorCount := packet.errorCount i, seen := true, valid := valid }
  { e with info := Function.update e.info (packet.index + i) entry }

/-- Rejects the reset sample's metadata; a subsequent measure establishes freshness. -/
def restartInfo (packet : CommonInfoPacket) : ObservationEngine :=
  (List.finRange 4).foldl
    (fun e (i : Fin 4) => if packet.index + i < packet.count then e.setInfo packet 0 false i else e) e

def trimCount (count : Nat) : ObservationEngine :=
  { e with
    commonCount := some count
    status := fun slot => if count ≤ slot ∧ slot < 64 then
      { e.status slot with data := { (e.status slot).data with valid := false } } else e.status slot
    info := fun slot => if count ≤ slot ∧ slot < 64 then { e.info slot with seen := false } else e.info slot }

def recordInfoSlot (packet : CommonInfoPacket) (receipt : Int) (i : Fin 4) : ObservationEngine :=
  let state := e.info (packet.index + i)
  if packet.index + i ≥ packet.count then e
  else if state.seen ∧ packet.timeUs = state.timeUs then
    if state.temperature ≠ packet.temperature i ∨ state.failureFlags ≠ packet.failureFlags i ∨
        state.errorCount ≠ packet.errorCount i then
      { e with info := Function.update e.info (packet.index + i) { state with valid := false } }
    else e
  else e.setInfo packet receipt true i

def recordInfo (packet : CommonInfoPacket) (receipt : Int) : ObservationEngine :=
  (List.finRange 4).foldl (fun e i => e.recordInfoSlot packet receipt i) (e.trimCount packet.count)

def commonInfo (packet : CommonInfoPacket) (receipt : Int) : ObservationEngine :=
  if e.RefusesInfo packet receipt then e
  else
    let e := e.receiveClock receipt
    match e.acceptCommonInfo packet.componentId with
    | none => e
    | some e =>
      if e.InfoRegresses packet then (e.restartInfo packet).reselect receipt
      else (e.recordInfo packet receipt).reselect receipt

/-! ### The legacy telemetry -/

def recordLegacy (packet : LegacyEscPacket) (receipt : Int) (i : Fin 4) : ObservationEngine :=
  let state := e.legacyEsc (packet.index + i)
  let advances := state.advances (packet.counts i)
  let stampNs := if advances then receipt else state.data.stampNs
  if receipt < state.data.stampNs then e
  else
    let entry : Legacy := {
      data := packet.data i stampNs (advances || state.data.valid) state.data, count := some (packet.counts i) }
    { e with legacyEsc := Function.update e.legacyEsc (packet.index + i) entry }

/-- `legacy_esc`. -/
def legacyEscTelemetry (packet : LegacyEscPacket) (receipt : Int) : ObservationEngine :=
  if ¬ e.connected ∨ receipt ≤ 0 ∨ packet.index ≠ 0 ∧ packet.index ≠ 4 ∧ packet.index ≠ 8 then e
  else
    let e := e.receiveClock receipt
    let e := { e with legacy := e.legacy.receiveEscCounts packet.index packet.counts receipt }
    (List.finRange 4).foldl (fun e i => e.recordLegacy packet receipt i) e

/-- The two legacy integrators, and their motion if both take the sample. -/
def observeLegacy (raw : MotorRpmObservation) : ObservationEngine × Option WheelMotionObservation :=
  let left := e.legacyMotorTicks.observe .left (raw.rpm .left) raw.sampleStampNs raw.receiptStampNs
  let right := left.1.observe .right (raw.rpm .right) raw.sampleStampNs raw.receiptStampNs
  ({ e with legacyMotorTicks := right.1 },
    if left.2 ∧ right.2 then right.1.motion e.geometry.ticksPerMeter .ardupilotLegacy else none)

/-- The raw observation of the adapter, counted if the legacy source is enabled. -/
def receiveLegacy (rpm : Side → Rat) (receipt : Int) : ObservationEngine × Option WheelMotionObservation :=
  let raw := e.legacy.receiveRpm rpm receipt
  let e := { e with legacy := raw.1 }
  match raw.2 with
  | none => (e, none)
  | some raw => if e.config.1.legacyEnabled then e.observeLegacy raw else (e, none)

def driveLegacy (motion : Option WheelMotionObservation) : ObservationEngine × Option WheelObservation :=
  match motion with
  | none => (e, none)
  | some motion =>
    if e.active = .ardupilotLegacy then
      ({ e with core := (e.core.receiveMotion motion).1 }, (e.core.receiveMotion motion).2)
    else (e, none)

def legacyRpm (left right : Option Rat) (receipt : Int) : ObservationEngine × Option WheelObservation :=
  if ¬ e.connected ∨ receipt ≤ 0 then (e, none)
  else
    let e := e.receiveClock receipt
    match left, right with
    | some left, some right =>
      let (e, motion) := e.receiveLegacy (fun | .left => left | .right => right) receipt
      ({ e with legacyMotion := motion.or e.legacyMotion }.reselect receipt).driveLegacy motion
    | _, _ =>
      ({ e with legacyMotion := none, legacyMotorTicks := e.legacyMotorTicks.resetReferences }.reselect receipt, none)

/-! ### WHEEL_DISTANCE -/

/-- One encoder component owns a live source; another may take over after stale. -/
def acceptDistance (component : UInt8) (receipt : Int) : Option ObservationEngine :=
  if 0 ≤ e.config.1.wheelDistanceComponentId ∧ (component.toNat : Int) ≠ e.config.1.wheelDistanceComponentId then none
  else if e.distanceComponent.any (· ≠ component) then
    if e.distance.valid ∧ e.Fresh e.distance.receiptNs receipt then none else some e.resetDistance
  else some e

def wheelIndex : Side → Int
  | .left => e.config.1.leftWheelIndex
  | .right => e.config.1.rightWheelIndex

/-- The distances of a good packet. -/
def readDistance (packet : DistancePacket) (receipt : Int) : Option Distance :=
  if sampleTimeValid packet.timeUs ∧ e.DistanceMapping packet.count ∧
      ∀ i : Fin 16, i < packet.count → (packet.distance i).isSome then
    some { wheel := fun side => (packet.distance (Fin.ofNat 16 (e.wheelIndex side).toNat)).getD 0
           timeUs := packet.timeUs, receiptNs := receipt, valid := true }
  else none

def dropDistance : ObservationEngine :=
  { e with distance := { e.distance with valid := false }, distanceBaseline := none }

def speed (baseline next : Distance) (side : Side) : Rat :=
  (next.wheel side - baseline.wheel side) / (((next.timeUs - baseline.timeUs : Nat) : Rat) / 10 ^ 6)

/-- The motion from the baseline to `next`, unless it is implausible. -/
def driveDistance (baseline next : Distance) (receipt : Int) : ObservationEngine × Option WheelObservation :=
  if |speed baseline next .left| > e.config.1.maxDistanceSpeedMps ∨
      |speed baseline next .right| > e.config.1.maxDistanceSpeedMps then
    (e.dropDistance.reselect receipt, none)
  else
    let motion : WheelMotionObservation := {
      leftMps := speed baseline next .left, rightMps := speed baseline next .right
      sampleStampNs := next.timeUs * 1000, receiptStampNs := receipt, source := .wheelDistance, valid := true }
    ({ e with core := (e.core.receiveMotion motion).1 }, (e.core.receiveMotion motion).2)

/-- The end of `wheel_distance`, after the selection. -/
def fromBaseline (next : Distance) (receipt : Int) : ObservationEngine × Option WheelObservation :=
  if e.active ≠ .wheelDistance then (e, none)
  else
    match e.distanceBaseline with
    | none => ({ e with distanceBaseline := some next }, none)
    | some baseline =>
      let e := { e with distanceBaseline := some next }
      if next.timeUs ≤ baseline.timeUs ∨ next.receiptNs < baseline.receiptNs ∨
          next.timeUs - baseline.timeUs > (e.config.1.timeoutNs / 1000).toNat then (e, none)
      else e.driveDistance baseline next receipt

/-- A distance with a new measurement time. -/
def renewDistance (next : Distance) (component : UInt8) (receipt : Int) : ObservationEngine :=
  let e := if e.distance.valid ∧ next.timeUs < e.distance.timeUs then e.resetDistance else e
  let e := if ¬ e.Fresh e.distance.receiptNs receipt then { e with distanceBaseline := none } else e
  { e with distance := next, distanceComponent := some component }

def receiveDistance (next : Distance) (component : UInt8) (receipt : Int) :
    ObservationEngine × Option WheelObservation :=
  if e.distance.valid ∧ next.timeUs = e.distance.timeUs then
    if next.wheel .left ≠ e.distance.wheel .left ∨ next.wheel .right ≠ e.distance.wheel .right then
      (e.dropDistance.reselect receipt, none)
    else (e, none)
  else ((e.renewDistance next component receipt).reselect receipt).fromBaseline next receipt

def wheelDistance (packet : DistancePacket) (receipt : Int) : ObservationEngine × Option WheelObservation :=
  if ¬ e.connected ∨ receipt ≤ 0 then (e, none)
  else
    let e := e.receiveClock receipt
    match e.acceptDistance packet.componentId receipt with
    | none => (e, none)
    | some e =>
      match e.readDistance packet receipt with
      | none => (e.dropDistance.reselect receipt, none)
      | some next => e.receiveDistance next packet.componentId receipt

/-! ### Queries -/

end ObservationEngine

def WheelTicks.restrict (w : WheelTicks) (valid : Bool) : WheelTicks := { w with valid := w.valid && valid }

def Info.annotate (information : Info) (d : EscObservationData) : EscObservationData :=
  { d with
    metadataStampNs := information.stampNs
    temperatureValid := information.temperature ≠ Int16.maxValue
    temperature :=
      if information.temperature ≠ Int16.maxValue then information.temperature.toInt / 100 else d.temperature
    failureFlags := information.failureFlags
    errorCount := information.errorCount
    failureFlagsValid := true
    errorCountValid := true }

/-- An observation that is not valid has no valid field. -/
def EscObservationData.settle (d : EscObservationData) : EscObservationData :=
  if d.valid then d
  else { d with rpmValid := false, voltageValid := false, currentValid := false, temperatureValid := false,
                failureFlagsValid := false, errorCountValid := false, totalcurrentValid := false,
                countValid := false }

namespace ObservationEngine
variable (e : ObservationEngine)

def motorTicks (source : WheelSource) (now : Int) : MotorTickState :=
  let out : MotorTickState := match source with
    | .escStatus =>
      let state := e.commonMotorTicks.state
      let counted (side : Side) : Bool :=
        e.CommonMapping ∧ (e.wheelStatus side).data.valid ∧ e.Counted (e.slot side)
      { state with wheels := fun side => (state.wheels side).restrict (counted side) }
    | .ardupilotLegacy => e.legacyMotorTicks.state
    | _ => {}
  let live (side : Side) : Bool := e.connected ∧ e.Fresh (out.wheels side).receiptNs now
  { out with wheels := fun side => (out.wheels side).restrict (live side) }

def touched (index : Nat) : Bool :=
  index < 64 && ((e.status index).seen || (e.info index).seen || (index < 12 && (e.legacyEsc index).count.isSome))

def InfoFresh (index : Nat) (now : Int) : Prop :=
  (e.info index).seen = true ∧ (e.info index).valid = true ∧ e.Fresh (e.info index).stampNs now

instance (index : Nat) (now : Int) : Decidable (e.InfoFresh index now) := inferInstanceAs (Decidable (_ ∧ _))

def HasLegacy (index : Nat) : Prop := index < 12 ∧ (e.legacyEsc index).count.isSome

instance (index : Nat) : Decidable (e.HasLegacy index) := inferInstanceAs (Decidable (_ ∧ _))

def esc (index : Nat) (now : Int) : EscObservationData :=
  let out : EscObservationData := { index := index }
  if ¬ e.connected ∨ index ≥ 64 then out
  else
    let common := e.status index
    let information := e.info index
    let sampleDelta := max common.timeUs information.timeUs - min common.timeUs information.timeUs
    if common.seen ∧ common.data.valid ∧ e.Counted index ∧ e.Fresh common.data.stampNs now then
      if e.InfoFresh index now ∧ sampleDelta ≤ (e.config.1.timeoutNs / 1000).toNat then
        information.annotate common.data
      else common.data
    else
      let legacy := (e.legacyEsc index).data
      let out :=
        if e.HasLegacy index then { legacy with valid := legacy.valid && e.Fresh legacy.stampNs now }
        else if common.seen then { common.data with valid := false }
        else out
      if ¬ common.seen ∧ e.InfoFresh index now ∧ e.Counted index ∧ ¬ e.HasLegacy index then
        information.annotate { out with source := .common }
      else out.settle

end ObservationEngine
end Odometry
end MowgliMavros
