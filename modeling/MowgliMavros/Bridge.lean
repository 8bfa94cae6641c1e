import MowgliMavros.BladeControl
import MowgliMavros.EscTelemetry
import MowgliMavros.Firmware
import MowgliMavros.Lib.Prog
import MowgliMavros.SafetyState
import MowgliMavros.SessionController

/-!
# The bridge node (`mavros_hardware_bridge_node.cpp`)

The fields of `MavrosHardwareBridgeNode` that its decisions read, the two drive functions and what
they call. A program emits what the node hands to its clients, publishers and service replies. Clock
readings, service availability and the outcome of a send are arguments (`EndEnv`, `BladeEnv`,
`SessionEnv`). Left out are log lines, message stamps and the readiness and power projections, which
decide nothing here.
-/

namespace MowgliMavros
namespace Bridge

structure PendingBladeStart where
  header : Nat
  direction : BladeControl.Direction
  startedMs : Int
deriving DecidableEq

structure BladeReply where
  header : Nat
  revision : Nat
  startedMs : Int
deriving DecidableEq

structure BladeWireExpectation where
  pwm : Int
  untilMs : Int
deriving DecidableEq

/-- `mavros_msgs/State`. -/
structure FcuState where
  connected : Bool := false
  armed : Bool := false
  mode : String := ""
deriving DecidableEq

structure Roles where
  right : Int := 0
  left : Int := 1
  blade : Int := 2
deriving DecidableEq

/-- `roles_valid`: distinct slots below 64, or -1 for a disabled role. -/
def Roles.Valid (r : Roles) : Prop :=
  (-1 ≤ r.right ∧ r.right < 64) ∧ (-1 ≤ r.left ∧ r.left < 64) ∧ (-1 ≤ r.blade ∧ r.blade < 64) ∧
    (r.right < 0 ∨ r.left < 0 ∨ r.right ≠ r.left) ∧ (r.right < 0 ∨ r.blade < 0 ∨ r.right ≠ r.blade) ∧
    (r.left < 0 ∨ r.blade < 0 ∨ r.left ≠ r.blade)

instance (r : Roles) : Decidable r.Valid := inferInstanceAs (Decidable (_ ∧ _))

structure Node where
  provider : FirmwareProvider
  manualControlLinearScale : Rat := 1000
  manualControlYawScale : Rat := 1000
  mowingEnabled : Bool := true
  tiltEmergencyMs : Int := 500
  tiltStartedNs : Int := 0
  tiltDisarmSent : Bool := false
  doubleLiftDisarmSent : Bool := false
  bladeControl : BladeControl
  sessionControl : FcuSessionController := {}
  bladeTestActive : Bool := false
  tractionWasReady : Bool := false
  /-- Whether the request went to the mode service, and its id. -/
  sessionRpcIds : List (Nat × Bool × Int) := []
  pendingBladeStarts : List PendingBladeStart := []
  bladeReplies : List BladeReply := []
  bladeRpcIds : List (Nat × Int) := []
  lastFcuReceiptMs : Int := -1
  lastHardwareSafetyMs : Int := -1
  lastBladeOutputStamp : Int := 0
  bladeWireExpectations : List BladeWireExpectation := []
  safetyState : SafetyState := {}
  escTracker : EscTelemetryTracker := {}
  roles : { r : Roles // r.Valid } := ⟨{}, by decide⟩
  mavrosState : FcuState := {}
  highLevelState : UInt8 := 0

inductive Client
  | setMode | arming | command
deriving DecidableEq, Repr

/-- What the node hands out, with the node at that point. -/
inductive Effect
  | setMode (mode : String) (sent : Node)
  /-- `asked` is the sequencer that `next` was called on. -/
  | arming (value : Bool) (asked : FcuSessionController) (sent : Node)
  /-- Command 183 and the clock of the drive that sends it. -/
  | servo (channel pwm : Int) (steady : Int) (sent : Node)
  | reboot
  /-- A traction setpoint and the twist it was computed from; `none` for the neutral. -/
  | manualControl (source : Option Twist) (command : ManualControl) (sent : Node)
  | guidedControl (source : Option Twist) (target : PositionTarget) (sent : Node)
  | mowerReply (header : Nat) (success : Bool) (sent : Node)
  | emergencyReply (success : Bool)
  | rebootReply (success : Bool) (message : String)
  | removePendingRequest (client : Client) (requestId : Int)
  /-- Handed to nobody: it marks the end of a `drive_session_locked`. -/
  | sessionDriven (driven : Node)

abbrev Program := Prog Node Effect

/-! ### The environment of one execution -/

structure EndEnv where
  steady : Int := 0
  nowNs : Int := 0

structure BladeEnv where
  steady : Int := 0
  nowNs : Int := 0
  commandReady : Bool := true
  throws : Bool := false
  requestId : Int := 0
  /-- The clock after a send that threw. -/
  failedSteady : Int := 0
  endedFcu : EndEnv := {}
  endedExpired : EndEnv := {}
  endedIdle : EndEnv := {}

structure SessionEnv where
  steady : Int := 0
  nowNs : Int := 0
  modeReady : Bool := true
  armReady : Bool := true
  throws : Bool := false
  requestId : Int := 0
  ended : EndEnv := {}

/-! ### Small steps -/

section Steps
open Prog (update emit when)

def node : Program Node := Prog.get

def updateBlade (f : BladeControl → BladeControl) : Program Unit :=
  update fun n => { n with bladeControl := f n.bladeControl }

def updateSession (f : FcuSessionController → FcuSessionController) : Program Unit :=
  update fun n => { n with sessionControl := f n.sessionControl }

/-- `map[key] = value`. -/
def assign {α : Type} (ids : List (Nat × α)) (key : Nat) (value : α) : List (Nat × α) :=
  ids.filter (·.1 ≠ key) ++ [(key, value)]

def erase {α : Type} (ids : List (Nat × α)) (key : Nat) : List (Nat × α) := ids.filter (·.1 ≠ key)

def highLevelMotionActive (state : UInt8) : Bool := state = 2 || state = 3 || state = 4

def Node.motionSessionActive (n : Node) : Bool := highLevelMotionActive n.highLevelState

def Node.guided (n : Node) : Bool := n.highLevelState = 2 && n.provider.guidedVelocityImplemented

def Node.emergency (n : Node) (nowNs : Int) : Bool :=
  (n.safetyState.project nowNs).activeEmergency || (n.safetyState.project nowNs).latchedEmergency

def replyBlade (header : Nat) (success : Bool) : Program Unit := do
  let n ← node
  emit (.mowerReply header success n)

def cancelPendingBladeStarts : Program Unit := do
  let n ← node
  n.pendingBladeStarts.forM fun pending => replyBlade pending.header false
  update fun n => { n with pendingBladeStarts := [] }

/-- Callers check `guided_velocity_implemented`, without which the conversion throws. -/
def publishGuided (source : Option Twist) (linearX angularZ : Rat) : Program Unit := do
  let n ← node
  match n.provider.guidedVelocityFromTwist linearX angularZ with
  | .ok target => emit (.guidedControl source target n)
  | .error _ => pure ()

def publishNeutralManualControl : Program Unit := do
  let n ← node
  emit (.manualControl none {} n)
  when n.provider.guidedVelocityImplemented (publishGuided none 0 0)

def endFailedBladeTestLocked (env : EndEnv) : Program Unit := do
  let n ← node
  if ¬ n.bladeTestActive ∨ n.motionSessionActive then pure ()
  else
    update fun n => { n with bladeTestActive := false }
    cancelPendingBladeStarts
    updateBlade (·.forceOff env.steady)
    publishNeutralManualControl
    updateSession (·.demand "HOLD" false (n.emergency env.nowNs))

/-- `blade_allowed_locked`. -/
def Node.bladeAllowed (n : Node) (steady nowNs : Int) : Bool :=
  let safety := n.safetyState.project nowNs
  n.sessionControl.ready && n.sessionControl.wantedArm && n.mowingEnabled && n.mavrosState.connected &&
    n.mavrosState.armed && n.lastFcuReceiptMs ≥ 0 && steady - n.lastFcuReceiptMs ≤ 2500 &&
    n.lastHardwareSafetyMs ≥ 0 && steady - n.lastHardwareSafetyMs ≤ 3000 &&
    n.safetyState.hardwareSafetyState == .released && !safety.activeEmergency && !safety.latchedEmergency &&
    n.roles.1.blade ≥ 0

end Steps

/-! ### `drive_blade_locked` -/

section DriveBlade
open Prog (update emit emitAll when)

def expireWireExpectations (steady : Int) : Program Unit :=
  update fun n => { n with bladeWireExpectations := n.bladeWireExpectations.dropWhile (·.untilMs < steady) }

def permitBlade (steady nowNs now : Int) : Program Unit :=
  update fun n => { n with bladeControl := n.bladeControl.permission (n.bladeAllowed steady nowNs) now }

def expireBladeStarts (env : BladeEnv) : Program Unit := do
  let n ← node
  when (n.pendingBladeStarts.any fun pending => env.steady - pending.startedMs > 20000)
    (endFailedBladeTestLocked env.endedExpired)

def answerRequest (header : Nat) (result : BladeControl.Result) (startedMs : Int) : Program Unit := do
  let n ← node
  if result = .pending ∧ n.bladeReplies.length < 32 then
    update fun n => { n with bladeReplies := n.bladeReplies ++ [⟨header, n.bladeControl.revision, startedMs⟩] }
  else replyBlade header (result = .confirmed)

def requestBlade (direction : BladeControl.Direction) (steady : Int) : Program BladeControl.Result := do
  let n ← node
  update fun n => { n with bladeControl := (n.bladeControl.request direction steady).1 }
  pure (n.bladeControl.request direction steady).2

/-- The loop over `pending_blade_starts_`; it returns the ones that keep waiting. -/
def promote (emergency : Bool) (steady : Int) : List PendingBladeStart → Program (List PendingBladeStart)
  | [] => pure []
  | pending :: rest => do
    let n ← node
    if n.sessionControl.failed ∨ ¬ n.mavrosState.connected ∨ emergency ∨ steady - pending.startedMs > 20000 then
      replyBlade pending.header false
      promote emergency steady rest
    else if n.sessionControl.ready then
      let result ← requestBlade pending.direction steady
      answerRequest pending.header result pending.startedMs
      promote emergency steady rest
    else
      let kept ← promote emergency steady rest
      pure (pending :: kept)

def promoteBladeStarts (emergency : Bool) (steady : Int) : Program Unit := do
  let n ← node
  let kept ← promote emergency steady n.pendingBladeStarts
  update fun n => { n with pendingBladeStarts := kept }

/-- A failed service deadline must not leave a delayed ON intent alive. -/
def timeOutBladeReplies (steady : Int) : Program Unit :=
  update fun n =>
    if ¬ n.bladeControl.satisfied ∧ n.bladeReplies.any fun reply =>
        reply.revision = n.bladeControl.revision ∧ steady - reply.startedMs > 20000 then
      { n with bladeControl := n.bladeControl.serviceTimeout steady }
    else n

def forgetBladeRpcs : Program Unit := do
  let n ← node
  emitAll ((n.bladeRpcIds.filter fun id => !n.bladeControl.current id.1).map fun id =>
    .removePendingRequest .command id.2)
  update fun n => { n with bladeRpcIds := n.bladeRpcIds.filter fun id => n.bladeControl.current id.1 }

def BladeReply.invalid (reply : BladeReply) (n : Node) (steady : Int) : Bool :=
  reply.revision ≠ n.bladeControl.revision || n.bladeControl.failed || steady - reply.startedMs > 20000

def answerBladeReplies (steady : Int) : Program Unit := do
  let n ← node
  emitAll ((n.bladeReplies.filter fun reply => reply.invalid n steady || n.bladeControl.satisfied).map fun reply =>
    .mowerReply reply.header (!reply.invalid n steady) n)
  update fun n => { n with bladeReplies := n.bladeReplies.filter fun reply =>
    !(reply.invalid n steady || n.bladeControl.satisfied) }

def endIdleBladeTest (env : BladeEnv) : Program Unit := do
  let n ← node
  when (n.pendingBladeStarts = [] ∧ n.bladeControl.requested = .off) (endFailedBladeTestLocked env.endedIdle)

/-- The request to the FCU; a send that throws withdraws its wire expectation. -/
def handBlade (command : BladeControl.Command) (env : BladeEnv) : Program Unit :=
  if env.throws then updateBlade (·.complete command.token false env.failedSteady)
  else do
    update fun n => { n with
      bladeWireExpectations := n.bladeWireExpectations ++ [⟨command.pwm, env.steady + 2000⟩] }
    let n ← node
    emit (.servo command.channel command.pwm env.steady n)
    update fun n => { n with bladeRpcIds := assign n.bladeRpcIds command.token env.requestId }

def sendBlade (env : BladeEnv) : Program Unit := do
  let n ← node
  if n.provider.name ≠ "ardupilot" ∨ ¬ env.commandReady then pure ()
  else
    update fun n => { n with bladeControl := (n.bladeControl.next env.steady).1 }
    match (n.bladeControl.next env.steady).2 with
    | none => pure ()
    | some command => handBlade command env

def driveBladeLocked (env : BladeEnv) : Program Unit := do
  expireWireExpectations env.steady
  let n ← node
  when (n.sessionControl.failed ∨ ¬ n.mavrosState.connected) (endFailedBladeTestLocked env.endedFcu)
  permitBlade env.steady env.nowNs env.steady
  updateBlade (·.tick env.steady)
  expireBladeStarts env
  promoteBladeStarts (n.emergency env.nowNs) env.steady
  timeOutBladeReplies env.steady
  forgetBladeRpcs
  answerBladeReplies env.steady
  endIdleBladeTest env
  sendBlade env

end DriveBlade

/-! ### `drive_session_locked` -/

section DriveSession
open Prog (update emit emitAll when)

/-- The emergency comes from the hardware switch or the service, which also request HOLD; tilt and double
lift only DISARM. -/
def Node.holdEmergency (n : Node) (nowNs : Int) : Bool :=
  (n.safetyState.project nowNs).reason == "HARDWARE_SAFETY_SWITCH" ||
    (n.safetyState.project nowNs).reason == "SERVICE_EMERGENCY_STOP"

def Node.sessionMode (n : Node) (nowNs : Int) : String :=
  if n.emergency nowNs ∧ ¬ n.holdEmergency nowNs then n.mavrosState.mode
  else if n.emergency nowNs ∨ ¬ n.motionSessionActive then "HOLD"
  else if n.guided then "GUIDED"
  else "MANUAL"

def demandSession (env : SessionEnv) : Program Unit :=
  update fun n => { n with sessionControl :=
    (n.sessionControl.demand (n.sessionMode env.nowNs)
      (!n.emergency env.nowNs && (n.motionSessionActive || n.bladeTestActive))
      (n.emergency env.nowNs)).tick env.steady }

def Node.tractionReady (n : Node) (nowNs : Int) : Bool :=
  n.motionSessionActive && !n.emergency nowNs && n.sessionControl.ready && n.sessionControl.wantedArm

def neutralizeTraction (env : SessionEnv) : Program Unit := do
  let n ← node
  when (n.tractionWasReady && !n.tractionReady env.nowNs) publishNeutralManualControl
  update fun n => { n with tractionWasReady := n.tractionReady env.nowNs }

def forgetSessionRpcs : Program Unit := do
  let n ← node
  emitAll ((n.sessionRpcIds.filter fun id => !n.sessionControl.current id.1).map fun id =>
    .removePendingRequest (if id.2.1 then .setMode else .arming) id.2.2)
  update fun n => { n with sessionRpcIds := n.sessionRpcIds.filter fun id => n.sessionControl.current id.1 }

def commandRequest (command : FcuSessionController.Command) (asked : FcuSessionController) (n : Node) : Effect :=
  match command.kind with
  | .mode => .setMode command.mode n
  | .arm => .arming command.arm asked n

def handSession (command : FcuSessionController.Command) (asked : FcuSessionController) (env : SessionEnv) :
    Program Unit := do
  when (command.kind = .arm ∧ command.arm) publishNeutralManualControl
  if env.throws then updateSession (·.complete command.serial false env.steady)
  else
    let n ← node
    emit (commandRequest command asked n)
    update fun n => { n with
      sessionRpcIds := assign n.sessionRpcIds command.serial (command.kind = .mode, env.requestId) }

/-- Only the hardware safety and the latches decide whether ARM is allowed. -/
def Node.allowArm (n : Node) (nowNs : Int) : Bool :=
  !n.emergency nowNs && n.safetyState.hardwareSafetyState == .released

def sendSession (env : SessionEnv) : Program Unit := do
  let n ← node
  update fun n => { n with sessionControl :=
    (n.sessionControl.next env.steady env.modeReady env.armReady (n.allowArm env.nowNs)).1 }
  match (n.sessionControl.next env.steady env.modeReady env.armReady (n.allowArm env.nowNs)).2 with
  | none => pure ()
  | some command => handSession command n.sessionControl env

def markDriven : Program Unit := do
  let n ← node
  emit (.sessionDriven n)

def driveSessionLocked (env : SessionEnv) : Program Unit := do
  demandSession env
  neutralizeTraction env
  let n ← node
  when n.sessionControl.failed (endFailedBladeTestLocked env.ended)
  forgetSessionRpcs
  sendSession env
  markDriven

end DriveSession

end Bridge
end MowgliMavros
