import MowgliMavros.EscTelemetry

/-!
# GNSS status mapping (`status_mapping.hpp`)

What Universal GNSS reports and the canonical status made of it. The numbers that Universal GNSS gives its
enumerations and bits are its own; here they have their names, and `other` is any number without one.
-/

namespace MowgliMavros

/-! ### What Universal GNSS reports -/

inductive UniversalFixType
  | noFix | fix | rtkFloat | rtkFixed | deadReckoning | fix2d | fix3d | dgps | other
deriving DecidableEq

inductive UniversalRtkMode
  | unknown | none | float | fixed | other
deriving DecidableEq

inductive UniversalBaselineStatus
  | unknown | computed | notSolved | insufficientObservations | noConvergence | outOfTolerance
  | covarianceTraceExceeded | notConfigured | other
deriving DecidableEq

inductive Capability
  | rtkMode | horizontalAccuracy | verticalAccuracy | hdop | vdop | satellitesUsed | satellitesVisible
  | satellitesTracked | meanCn0 | maxCn0 | correctionAge | heading | dualAntennaHeading | interferenceState
  | jammingState | headingAccuracy | differentialCorrections | correctionsActive | dualAntennaBaseline
  | baselineAzimuth | baselinePitch | baselineLength | baselineSolutionStatus
deriving DecidableEq

/-- The fields that are copied as they are; `none` is not a number. -/
structure GnssReadings where
  horizontalAccuracyM : Option Rat := some 0
  verticalAccuracyM : Option Rat := some 0
  hdop : Option Rat := some 0
  vdop : Option Rat := some 0
  satellitesUsed : UInt16 := 0
  satellitesVisible : UInt16 := 0
  satellitesTracked : UInt16 := 0
  meanCn0DbHz : Option Rat := some 0
  maxCn0DbHz : Option Rat := some 0
  correctionAgeS : Option Rat := some 0
  headingDeg : Option Rat := some 0
  headingAccuracyDeg : Option Rat := some 0
  dualAntennaHeading : Bool := false
  interferenceDetected : Bool := false
  jammingDetected : Bool := false
  dualAntennaBaseline : Bool := false
  baselineAzimuthDeg : Option Rat := some 0
  baselinePitchDeg : Option Rat := some 0
  baselineLengthM : Option Rat := some 0

structure UniversalStatus where
  stamp : Stamp
  sourceId : String
  sourceIncarnation : String
  positionObservationSequence : UInt64
  fixType : UniversalFixType := .noFix
  fixValid : Bool := false
  rtkMode : UniversalRtkMode := .unknown
  baselineSolutionStatus : UniversalBaselineStatus := .unknown
  capabilityFlags : Capability → Bool := fun _ => false
  valueFlags : Capability → Bool := fun _ => false
  differentialCorrections : Bool := false
  correctionsActive : Bool := false
  readings : GnssReadings := {}

/-! ### The canonical status -/

inductive FixType
  | noFix | gpsFix | rtkFloat | rtkFixed | deadReckoning | fix2d | fix3d | dgps
deriving DecidableEq

inductive RtkMode
  | unknown | none | float | fixed
deriving DecidableEq

inductive BaselineStatus
  | unknown | computed | notSolved | insufficientObservations | noConvergence | outOfTolerance
  | covarianceTraceExceeded | notConfigured
deriving DecidableEq

structure GnssStatus where
  stamp : Stamp := ⟨0, 0⟩
  frameId : String := ""
  backend : String := ""
  fixType : FixType := .noFix
  fixValid : Bool := false
  rtkMode : RtkMode := .unknown
  baselineSolutionStatus : BaselineStatus := .unknown
  deadReckoning : Bool := false
  capabilityFlags : UInt32 := 0
  valueFlags : UInt32 := 0
  qualityPercent : Option Rat := some 0
  msmSummaryAgeS : Option Rat := some 0
  positionObservationSequence : UInt64 := 0
  sourceId : String := ""
  sourceIncarnation : String := ""
  differentialCorrections : Bool := false
  correctionsActive : Bool := false
  readings : GnssReadings := {}

/-- The canonical bit of a capability. -/
def Capability.bit : Capability → UInt32
  | .rtkMode => 1
  | .hdop => 2
  | .vdop => 4
  | .horizontalAccuracy => 8
  | .verticalAccuracy => 16
  | .heading => 32
  | .headingAccuracy => 64
  | .satellitesUsed => 128
  | .satellitesVisible => 256
  | .satellitesTracked => 512
  | .differentialCorrections => 1024
  | .correctionsActive => 2048
  | .correctionAge => 4096
  | .meanCn0 => 8192
  | .maxCn0 => 16384
  | .dualAntennaHeading => 32768
  | .interferenceState => 65536
  | .jammingState => 131072
  | .dualAntennaBaseline => 262144
  | .baselineAzimuth => 524288
  | .baselinePitch => 1048576
  | .baselineLength => 2097152
  | .baselineSolutionStatus => 4194304

/-- `map_flags`, in its order. -/
def mapFlags (flags : Capability → Bool) : UInt32 :=
  ([.rtkMode, .horizontalAccuracy, .verticalAccuracy, .hdop, .vdop, .satellitesUsed, .satellitesVisible,
    .satellitesTracked, .meanCn0, .maxCn0, .correctionAge, .heading, .dualAntennaHeading, .interferenceState,
    .jammingState, .headingAccuracy, .differentialCorrections, .correctionsActive, .dualAntennaBaseline,
    .baselineAzimuth, .baselinePitch, .baselineLength, .baselineSolutionStatus].filter flags).foldl
    (fun result (capability : Capability) => result ||| capability.bit) 0

def mapFix : UniversalFixType → FixType
  | .noFix => .noFix
  | .fix => .gpsFix
  | .rtkFloat => .rtkFloat
  | .rtkFixed => .rtkFixed
  | .deadReckoning => .deadReckoning
  | .fix2d => .fix2d
  | .fix3d => .fix3d
  | .dgps => .dgps
  | .other => .noFix

def mapRtk : UniversalRtkMode → RtkMode
  | .unknown => .unknown
  | .none => .none
  | .float => .float
  | .fixed => .fixed
  | .other => .unknown

def mapBaseline : UniversalBaselineStatus → BaselineStatus
  | .unknown => .unknown
  | .computed => .computed
  | .notSolved => .notSolved
  | .insufficientObservations => .insufficientObservations
  | .noConvergence => .noConvergence
  | .outOfTolerance => .outOfTolerance
  | .covarianceTraceExceeded => .covarianceTraceExceeded
  | .notConfigured => .notConfigured
  | .other => .unknown

def mapStatus (input : UniversalStatus) (source : String) : GnssStatus where
  stamp := input.stamp
  frameId := "gps_link"
  backend := "mavros_" ++ source
  fixType := mapFix input.fixType
  fixValid := input.fixValid && mapFix input.fixType ≠ .noFix
  rtkMode := mapRtk input.rtkMode
  baselineSolutionStatus := mapBaseline input.baselineSolutionStatus
  deadReckoning := mapFix input.fixType = .deadReckoning
  capabilityFlags := mapFlags input.capabilityFlags
  valueFlags := mapFlags fun capability => input.valueFlags capability && input.capabilityFlags capability
  qualityPercent := none
  msmSummaryAgeS := none
  positionObservationSequence := input.positionObservationSequence
  sourceId := input.sourceId
  sourceIncarnation := input.sourceIncarnation
  differentialCorrections := input.differentialCorrections
  correctionsActive := input.correctionsActive
  readings := input.readings

end MowgliMavros
