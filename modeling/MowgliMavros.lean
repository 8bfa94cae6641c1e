import MowgliMavros.BladeDeadline
import MowgliMavros.BladeFailsafe
import MowgliMavros.BladeIntent
import MowgliMavros.BladeInterlock
import MowgliMavros.BladeLabels
import MowgliMavros.BladeRep
import MowgliMavros.BladeRun
import MowgliMavros.BladeTelemetry
import MowgliMavros.BladeWire
import MowgliMavros.Bridge
import MowgliMavros.BridgeAside
import MowgliMavros.BridgeAuthority
import MowgliMavros.BridgeBlade
import MowgliMavros.BridgeCallers
import MowgliMavros.BridgeDeadline
import MowgliMavros.BridgeInputs
import MowgliMavros.BridgeLedger
import MowgliMavros.BridgeOwner
import MowgliMavros.BridgePolicy
import MowgliMavros.BridgeRefine
import MowgliMavros.BridgeReplies
import MowgliMavros.BridgeRpcs
import MowgliMavros.BridgeRun
import MowgliMavros.BridgeStorm
import MowgliMavros.BridgeTraction
import MowgliMavros.BridgeWalk
import MowgliMavros.ChargerPresence
import MowgliMavros.DistanceTravel
import MowgliMavros.DoubleLift
import MowgliMavros.EmergencyPress
import MowgliMavros.Encoder
import MowgliMavros.EscCoherence
import MowgliMavros.EscTelemetry
import MowgliMavros.EscWheelOdometry
import MowgliMavros.ExpiryLaw
import MowgliMavros.Firmware
import MowgliMavros.FirmwareSelection
import MowgliMavros.FixDelivery
import MowgliMavros.FixesKept
import MowgliMavros.GnssAdapter
import MowgliMavros.GnssRelay
import MowgliMavros.GnssStatus
import MowgliMavros.LegacyGating
import MowgliMavros.MotorCounter
import MowgliMavros.MotorIntegral
import MowgliMavros.NtripConnection
import MowgliMavros.NtripFirstRead
import MowgliMavros.NtripHandlers
import MowgliMavros.NtripReconnect
import MowgliMavros.NtripRecovery
import MowgliMavros.NtripRequest
import MowgliMavros.NtripRequestRead
import MowgliMavros.NtripSegmentation
import MowgliMavros.NtripShutdown
import MowgliMavros.NtripWatchdog
import MowgliMavros.ObservationEngine
import MowgliMavros.ObservationIsolation
import MowgliMavros.ObservationMessages
import MowgliMavros.ObservationOwner
import MowgliMavros.ObservationPairing
import MowgliMavros.ObservationRun
import MowgliMavros.ObservationSpec
import MowgliMavros.ObservedHistory
import MowgliMavros.PairingLaw
import MowgliMavros.PairingStatus
import MowgliMavros.PowerRelay
import MowgliMavros.PowerState
import MowgliMavros.ProjectedCounts
import MowgliMavros.ReadinessHistory
import MowgliMavros.ReadinessState
import MowgliMavros.ReplayedInfo
import MowgliMavros.ReplayedMotor
import MowgliMavros.ReplayedPair
import MowgliMavros.ReplayedStatus
import MowgliMavros.SafetyHistory
import MowgliMavros.SafetyState
import MowgliMavros.SessionAttribution
import MowgliMavros.SessionBudget
import MowgliMavros.SessionConfirmed
import MowgliMavros.SessionController
import MowgliMavros.SessionLoop
import MowgliMavros.SessionNext
import MowgliMavros.SessionSpec
import MowgliMavros.SourceReplacement
import MowgliMavros.TakeFixes
import MowgliMavros.TickTravel
import MowgliMavros.TiltTest
import MowgliMavros.TrackerHistory
import MowgliMavros.WheelMotion
import MowgliMavros.WheelTickProjection
import MowgliMavros.Lib.Async
import MowgliMavros.Lib.Base64
import MowgliMavros.Lib.Behind
import MowgliMavros.Lib.Covers
import MowgliMavros.Lib.FirstInfix
import MowgliMavros.Lib.Inclination
import MowgliMavros.Lib.Machine
import MowgliMavros.Lib.Monitor
import MowgliMavros.Lib.Past
import MowgliMavros.Lib.Prog
import MowgliMavros.Lib.Topic
