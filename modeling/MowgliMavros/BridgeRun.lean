import MowgliMavros.Bridge
import MowgliMavros.Lib.Machine

/-!
# The callbacks of the bridge node

The constructor, every callback that changes the node or hands something out, and the runs they make.
`Env` holds what one callback reads from its surroundings: its own clock readings in the order it
makes them, and the environment of its first, second, … drive of each kind. The tilt test of an IMU
message is floating-point geometry and comes as its outcome.
-/

namespace MowgliMavros
namespace Bridge
open Prog (update emit when)

structure Env where
  steady : Nat → Int := fun _ => 0
  nowNs : Int := 0
  /-- `cli_command_long_->service_is_ready()` outside the drives. -/
  commandReady : Bool := true
  ended : EndEnv := {}
  blade : Nat → BladeEnv := fun _ => {}
  session : Nat → SessionEnv := fun _ => {}

/-! ### Launch -/

structure Parameters where
  resolvedFirmware : Option String := none
  manualControlLinearScale : Rat := 1000
  manualControlYawScale : Rat := 1000
  mowingEnabled : Bool := true
  bladeServoChannel : Int := 3
  bladeNeutralPwm : Int := 1500
  bladeForwardPwm : Int := 1450
  bladeReversePwm : Int := 1550
  /-- `esc_observation_timeout_s` as the tracker stores it. -/
  escTimeoutNs : Int := 3000000000
  roles : Roles := {}
  tiltEmergencyMs : Int := 500

/-- What the constructor accepts. -/
structure Launch where
  provider : FirmwareProvider
  blade : BladeControl.ValidConfig
  roles : { r : Roles // r.Valid }
  manualControlLinearScale : Rat := 1000
  manualControlYawScale : Rat := 1000
  mowingEnabled : Bool := true
  escTimeoutNs : Int := 3000000000
  tiltEmergencyMs : Int := 500

def launch (p : Parameters) : Except String Launch := do
  let provider ← makeFirmwareProvider (p.resolvedFirmware.getD "ardupilot")
  if p.bladeServoChannel < 1 ∨ p.bladeServoChannel > 32 ∨ p.bladeNeutralPwm < 1000 ∨ p.bladeNeutralPwm > 2000 ∨
      p.bladeForwardPwm < 1000 ∨ p.bladeForwardPwm > 2000 ∨ p.bladeReversePwm < 1000 ∨ p.bladeReversePwm > 2000 then
    throw "Blade channel/PWM is out of range"
  let blade ← BladeControl.new {
    channel := p.bladeServoChannel, neutral := p.bladeNeutralPwm, forward := p.bladeForwardPwm,
    reverse := p.bladeReversePwm }
  if h : p.roles.Valid then
    return {
      provider, blade := blade.config, roles := ⟨p.roles, h⟩, mowingEnabled := p.mowingEnabled,
      manualControlLinearScale := p.manualControlLinearScale, manualControlYawScale := p.manualControlYawScale,
      escTimeoutNs := p.escTimeoutNs, tiltEmergencyMs := p.tiltEmergencyMs }
  else throw "ESC role mappings must be distinct indexes in [0,63], or -1 disabled"

def Launch.node (l : Launch) : Node := {
  provider := l.provider, bladeControl := { config := l.blade }, roles := l.roles,
  manualControlLinearScale := l.manualControlLinearScale, manualControlYawScale := l.manualControlYawScale,
  mowingEnabled := l.mowingEnabled, escTracker := { timeoutNs := l.escTimeoutNs },
  tiltEmergencyMs := l.tiltEmergencyMs }

/-! ### Parameter updates -/

inductive ParameterValue
  | int (value : Int)
  | double (value : Option Rat)
  | other
deriving DecidableEq

structure Parameter where
  name : String
  value : ParameterValue
deriving DecidableEq

def Parameter.isRole (p : Parameter) : Bool :=
  p.name = "right_esc_slot" || p.name = "left_esc_slot" || p.name = "blade_esc_slot"

def Parameter.isScale (p : Parameter) : Bool :=
  p.name = "manual_control_linear_scale" || p.name = "manual_control_yaw_scale"

def Roles.set (r : Roles) (p : Parameter) : Roles :=
  match p.value with
  | .int v => {
      right := if p.name = "right_esc_slot" then v else r.right
      left := if p.name = "left_esc_slot" then v else r.left
      blade := if p.name = "blade_esc_slot" then v else r.blade }
  | _ => r

/-- Why the validation callback refuses: a reason of its own, or the text of a conversion's exception. -/
inductive Refusal
  | reason (text : String)
  | exception
deriving DecidableEq

def Parameter.refused (p : Parameter) : Option Refusal :=
  if p.isRole then
    match p.value with
    | .int _ => none
    | _ => some .exception
  else if p.isScale then
    match p.value with
    | .double (some v) =>
      if v ≤ 0 then some (.reason "MANUAL_CONTROL scales must be finite and positive") else none
    | .double none => some (.reason "MANUAL_CONTROL scales must be finite and positive")
    | _ => some .exception
  else none

def validate (roles : Roles) (parameters : List Parameter) : Except Refusal { r : Roles // r.Valid } :=
  match parameters.findSome? Parameter.refused with
  | some refusal => .error refusal
  | none =>
    if h : (parameters.foldl Roles.set roles).Valid then .ok ⟨_, h⟩
    else .error (.reason "invalid or overlapping ESC role mapping")

def Node.setScale (n : Node) (p : Parameter) : Node :=
  match p.value with
  | .double (some v) => { n with
      manualControlLinearScale := if p.name = "manual_control_linear_scale" then v else n.manualControlLinearScale
      manualControlYawScale := if p.name = "manual_control_yaw_scale" then v else n.manualControlYawScale }
  | _ => n

/-- Parameters only write the scales. -/
theorem foldl_setScale (parameters : List Parameter) (n : Node) : ∃ linear yaw,
    parameters.foldl Node.setScale n = { n with
      manualControlLinearScale := linear, manualControlYawScale := yaw } := by
  induction parameters generalizing n with
  | nil => exact ⟨_, _, rfl⟩
  | cons p ps ih =>
    obtain ⟨linear, yaw, hps⟩ := ih (n.setScale p)
    refine ⟨linear, yaw, ?_⟩
    rw [List.foldl_cons, hps]
    unfold Node.setScale
    split <;> rfl

def onSetParameters (parameters : List Parameter) (env : Env) : Program Unit := do
  let n ← node
  match validate n.roles.1 parameters with
  | .error _ => pure ()
  | .ok roles =>
    update fun n => { parameters.foldl Node.setScale n with roles := roles }
    when (parameters.any Parameter.isRole) do
      update fun n => { n with escTracker := n.escTracker.reset }
      updateBlade (·.forceOff (env.steady 0))
      driveBladeLocked (env.blade 0)

/-! ### Subscriptions -/

structure WireCommand where
  command : Nat
  param1 : Option Rat
  param2 : Option Rat
deriving DecidableEq

/-- `/uas1/mavlink_sink`: an outgoing blade command that is not our own invalidates the cache. -/
def onBladeWire (message : Option WireCommand) (env : Env) : Program Unit := do
  let n ← node
  match message with
  | none => pure ()
  | some command =>
    if command.command ≠ 183 ∨ command.param1 ≠ some (n.bladeControl.channel : Rat) then pure ()
    else
      expireWireExpectations (env.steady 0)
      let n ← node
      match n.bladeWireExpectations.find? fun expected => some (expected.pwm : Rat) = command.param2 with
      | some own => update fun n => { n with bladeWireExpectations := n.bladeWireExpectations.erase own }
      | none =>
        updateBlade (·.forceOff (env.steady 0))
        driveBladeLocked (env.blade 0)

structure RCOut where
  stamp : Stamp
  channels : List Nat
deriving DecidableEq

def onBladeOutput (message : RCOut) (env : Env) : Program Unit := do
  let n ← node
  if message.stamp.sec < 0 ∨ message.stamp.nanosec ≥ 1000000000 then pure ()
  else
    match message.channels[(n.bladeControl.channel - 1).toNat]? with
    | none => pure ()
    | some value =>
      if n.mavrosState.connected ∧ message.stamp.ns > n.lastBladeOutputStamp then
        update fun n => { n with lastBladeOutputStamp := message.stamp.ns }
        updateBlade (·.output value (env.steady 0))
        driveBladeLocked (env.blade 0)
      else pure ()

def onCmdVel (twist : Twist) (env : Env) : Program Unit := do
  driveSessionLocked (env.session 0)
  match twist.linearX, twist.angularZ with
  | some linearX, some angularZ =>
    let n ← node
    if n.emergency env.nowNs ∨ ¬ n.motionSessionActive ∨ ¬ n.sessionControl.wantedArm ∨
        ¬ n.sessionControl.ready then
      publishNeutralManualControl
    -- a velocity received before the FCU confirmed is not kept
    else if n.guided then publishGuided (some twist) linearX angularZ
    else emit (.manualControl (some twist) (n.provider.manualControlFromTwist linearX angularZ
      n.manualControlLinearScale n.manualControlYawScale) n)
  | _, _ => pure ()

def onHighLevelStatus (state : UInt8) (env : Env) : Program Unit := do
  let n ← node
  update fun n => { n with highLevelState := state }
  when (n.motionSessionActive ∧ ¬ highLevelMotionActive state) do
    update fun n => { n with bladeTestActive := false }
    cancelPendingBladeStarts
    updateBlade (·.forceOff (env.steady 0))
    publishNeutralManualControl
    driveBladeLocked (env.blade 0)
  driveSessionLocked (env.session 0)
  driveBladeLocked (env.blade 1)

/-- What `/mavros/state` changes before the FCU state itself. -/
def Node.heard (n : Node) (message : FcuState) (env : Env) : Node :=
  let lost := n.mavrosState.connected && !message.connected
  { n with
    lastBladeOutputStamp := if n.mavrosState.connected = message.connected then n.lastBladeOutputStamp else 0
    bladeWireExpectations := if n.mavrosState.connected = message.connected then n.bladeWireExpectations else []
    bladeControl := n.bladeControl.connection message.connected (env.steady 0)
    lastFcuReceiptMs := env.steady 1
    escTracker := if lost then n.escTracker.reset else n.escTracker
    safetyState := if message.connected then n.safetyState else n.safetyState.disconnect }

def onMavrosState (message : FcuState) (env : Env) : Program Unit := do
  let n ← node
  update fun n => n.heard message env
  when (n.mavrosState.connected ∧ ¬ message.connected) cancelPendingBladeStarts
  update fun n => { n with
    mavrosState := message
    sessionControl := n.sessionControl.observe message.connected message.armed message.mode }
  driveSessionLocked (env.session 0)
  driveBladeLocked (env.blade 0)

/-- The emergencies' way to neutral and DISARM; it returns whether DISARM is under way or observed. -/
def requestSafetyDisarm (hold : Bool) (env : Env) : Program Bool := do
  update fun n => { n with bladeTestActive := false }
  cancelPendingBladeStarts
  updateBlade (·.forceOff (env.steady 1))
  publishNeutralManualControl
  update fun n => { n with
    sessionControl := n.sessionControl.demand (if hold then "HOLD" else n.mavrosState.mode) false true }
  driveBladeLocked (env.blade 0)
  driveSessionLocked (env.session 0)
  let n ← node
  pure (n.sessionControl.disarmPending || (n.mavrosState.connected && !n.mavrosState.armed))

/-- `SysStatus`: the motor-outputs bit of the present and the enabled sensors. -/
def onMavrosSysStatus (present enabled : Bool) (env : Env) : Program Unit := do
  let n ← node
  when n.mavrosState.connected do
    update fun n => { n with
      lastHardwareSafetyMs := env.steady 0
      safetyState := n.safetyState.observeMotorOutputs present enabled }
    when (n.safetyState.hardwareSafetyState ≠ .engaged ∧
        (n.safetyState.observeMotorOutputs present enabled).hardwareSafetyState = .engaged) do
      let _ ← requestSafetyDisarm true env

/-- A decoded BUTTON_CHANGE of `/uas1/mavlink_source`. -/
def onButtonChange (state : UInt8) (env : Env) : Program Unit := do
  let n ← node
  when n.mavrosState.connected do
    update fun n => { n with safetyState := n.safetyState.observeButtonChange state env.nowNs }
    update fun n => { n with doubleLiftDisarmSent := n.safetyState.doubleLift }
    when ((n.safetyState.observeButtonChange state env.nowNs).doubleLift ∧ ¬ n.doubleLiftDisarmSent) do
      let _ ← requestSafetyDisarm false env

def Node.tiltActive (n : Node) (nowNs : Int) : Bool :=
  nowNs - (if n.tiltStartedNs = 0 then nowNs else n.tiltStartedNs) ≥ n.tiltEmergencyMs * 1000000

/-- Every sample is also published again on `pub_imu_`, kept in `last_imu_` and dated in `readiness_`: no callback
here reads these. -/
def onMavrosImu (tilted : Bool) (env : Env) : Program Unit := do
  let n ← node
  if tilted then
    update fun n => { n with
      tiltStartedNs := if n.tiltStartedNs = 0 then env.nowNs else n.tiltStartedNs
      safetyState := n.safetyState.observeTilt (n.tiltActive env.nowNs)
      tiltDisarmSent := n.tiltActive env.nowNs }
    when (n.tiltActive env.nowNs ∧ ¬ n.tiltDisarmSent) do
      let _ ← requestSafetyDisarm false env
  else
    update fun n => { n with
      tiltStartedNs := 0, tiltDisarmSent := false, safetyState := n.safetyState.observeTilt false }

def bladeSample (state : EscState) : BladeControl.Sample where
  source := state.sample.source.toNat
  stamp := state.lastUpdateNs
  count := state.sample.count.toUInt32
  countValid := state.sample.countValid
  valid := state.online && state.sample.rpmValid && state.ageMs ≥ 0 && state.ageMs ≤ 1000
  rpm := state.sample.rpm

def onEscTelemetry (message : EscObservation) (env : Env) : Program Unit := do
  let n ← node
  when n.mavrosState.connected do
    update fun n => { n with escTracker := n.escTracker.observe message env.nowNs }
    when (n.roles.1.blade ≥ 0 ∧ (message.escIndex.toNat : Int) = n.roles.1.blade) do
      let n ← node
      updateBlade (·.sample (bladeSample (n.escTracker.project message.escIndex.toNat env.nowNs)) (env.steady 0))
      driveBladeLocked (env.blade 0)

/-! ### Services -/

/-- `transport_available`. -/
def Node.transportAvailable (n : Node) (env : Env) : Bool := n.provider.name = "ardupilot" && env.commandReady

def answerOff (header : Nat) (result : BladeControl.Result) (env : Env) : Program Unit := do
  let n ← node
  if result = .pending ∧ n.transportAvailable env ∧ n.bladeReplies.length < 32 then
    update fun n => { n with
      bladeReplies := n.bladeReplies ++ [⟨header, n.bladeControl.revision, env.steady 3⟩] }
  else replyBlade header (n.transportAvailable env && result = .confirmed)

def onMowerOff (header : Nat) (env : Env) : Program Unit := do
  cancelPendingBladeStarts
  update fun n => { n with bladeTestActive := false }
  let n ← node
  when (¬ n.motionSessionActive) do
    updateSession (·.demand "HOLD" false (n.emergency env.nowNs))
    -- the permission edge comes before this caller is bound to a revision
    permitBlade (env.steady 0) env.nowNs (env.steady 1)
  let result ← requestBlade .off (env.steady 2)
  answerOff header result env
  driveBladeLocked (env.blade 0)
  driveSessionLocked (env.session 0)

def startBlade (header : Nat) (direction : BladeControl.Direction) (env : Env) : Program Unit := do
  let n ← node
  if ¬ n.sessionControl.ready then
    if n.pendingBladeStarts.length ≥ 32 then replyBlade header false
    else update fun n => { n with
      pendingBladeStarts := n.pendingBladeStarts ++ [⟨header, direction, env.steady 0⟩] }
  else
    permitBlade (env.steady 0) env.nowNs (env.steady 1)
    let result ← requestBlade direction (env.steady 2)
    answerRequest header result (env.steady 3)
    driveBladeLocked (env.blade 1)

def Node.refusesOn (n : Node) (env : Env) : Bool :=
  !n.transportAvailable env || !n.mowingEnabled || !n.mavrosState.connected || n.emergency env.nowNs ||
    n.safetyState.hardwareSafetyState ≠ .released || n.bladeControl.failed

def onMowerOn (header : Nat) (direction : BladeControl.Direction) (env : Env) : Program Unit := do
  let n ← node
  when (n.pendingBladeStarts.head?.any (·.direction ≠ direction)) cancelPendingBladeStarts
  driveSessionLocked (env.session 0)
  driveBladeLocked (env.blade 0)
  let n ← node
  if n.refusesOn env then replyBlade header false
  else
    when (¬ n.motionSessionActive) do
      update fun n => { n with bladeTestActive := true }
      publishNeutralManualControl
    driveSessionLocked (env.session 1)
    let n ← node
    if n.sessionControl.failed ∨ ¬ n.motionSessionActive ∧ ¬ n.bladeTestActive then
      endFailedBladeTestLocked env.ended
      replyBlade header false
    else startBlade header direction env

def onMowerControl (header : Nat) (mowEnabled mowDirection : UInt8) (env : Env) : Program Unit :=
  if mowEnabled > 1 ∨ mowEnabled ≠ 0 ∧ mowDirection > 1 then replyBlade header false
  else if mowEnabled = 0 then onMowerOff header env
  else onMowerOn header (if mowDirection = 0 then .forward else .reverse) env

def onEmergencyStop (emergency : UInt8) (env : Env) : Program Unit := do
  update fun n => { n with safetyState := n.safetyState.setServiceEmergency (emergency ≠ 0) }
  if emergency = 0 then
    update fun n => { n with safetyState := n.safetyState.clearReleasedLatches }
    driveSessionLocked (env.session 0)
    driveBladeLocked (env.blade 0)
    emit (.emergencyReply true)
  else
    let success ← requestSafetyDisarm true env
    emit (.emergencyReply success)

def onRebootBoard (env : Env) : Program Unit :=
  if ¬ env.commandReady then emit (.rebootReply false "Service /mavros/cmd/command not available")
  else do
    emit .reboot
    emit (.rebootReply true "Pixhawk reboot request queued")

/-! ### Timer and responses -/

def onBladeTimer (env : Env) : Program Unit := do
  driveSessionLocked (env.session 0)
  driveBladeLocked (env.blade 0)

/-- The response to the SetMode request `serial`: `mode_sent`, or `none` for an exception. -/
def onModeResponse (serial : Nat) (response : Option Bool) (env : Env) : Program Unit := do
  update fun n => { n with sessionRpcIds := erase n.sessionRpcIds serial }
  updateSession (·.complete serial (response = some true) (env.steady 0))
  driveSessionLocked (env.session 0)
  driveBladeLocked (env.blade 0)

/-- The response to the arming request `serial`: `success` and `result`. -/
def onArmResponse (serial : Nat) (response : Option (Bool × Nat)) (env : Env) : Program Unit := do
  update fun n => { n with sessionRpcIds := erase n.sessionRpcIds serial }
  updateSession (·.complete serial (response = some (true, 0)) (env.steady 0))
  driveSessionLocked (env.session 0)
  driveBladeLocked (env.blade 0)

def onServoResponse (token : Nat) (response : Option (Bool × Nat)) (env : Env) : Program Unit := do
  update fun n => { n with bladeRpcIds := erase n.bladeRpcIds token }
  updateBlade (·.complete token (response = some (true, 0)) (env.steady 0))
  driveBladeLocked (env.blade 0)

/-! ### Runs -/

inductive Callback
  | setParameters (parameters : List Parameter)
  | bladeWire (message : Option WireCommand)
  | bladeOutput (message : RCOut)
  | cmdVel (twist : Twist)
  | highLevelStatus (state : UInt8)
  | mavrosState (message : FcuState)
  | mavrosSysStatus (present enabled : Bool)
  | buttonChange (state : UInt8)
  | mavrosImu (tilted : Bool)
  | escTelemetry (message : EscObservation)
  | mowerControl (header : Nat) (mowEnabled mowDirection : UInt8)
  | emergencyStop (emergency : UInt8)
  | rebootBoard
  | bladeTimer
  | modeResponse (serial : Nat) (response : Option Bool)
  | armResponse (serial : Nat) (response : Option (Bool × Nat))
  | servoResponse (token : Nat) (response : Option (Bool × Nat))
deriving DecidableEq

def Callback.program : Callback → Env → Program Unit
  | setParameters parameters => onSetParameters parameters
  | bladeWire message => onBladeWire message
  | bladeOutput message => onBladeOutput message
  | cmdVel twist => onCmdVel twist
  | highLevelStatus state => onHighLevelStatus state
  | mavrosState message => onMavrosState message
  | mavrosSysStatus present enabled => onMavrosSysStatus present enabled
  | buttonChange state => onButtonChange state
  | mavrosImu tilted => onMavrosImu tilted
  | escTelemetry message => onEscTelemetry message
  | mowerControl header mowEnabled mowDirection => onMowerControl header mowEnabled mowDirection
  | emergencyStop emergency => onEmergencyStop emergency
  | rebootBoard => onRebootBoard
  | bladeTimer => onBladeTimer
  | modeResponse serial response => onModeResponse serial response
  | armResponse serial response => onArmResponse serial response
  | servoResponse token response => onServoResponse token response

/-- A valid blade ON request. -/
def Callback.IsOn : Callback → Prop
  | mowerControl _ mowEnabled mowDirection => mowEnabled = 1 ∧ mowDirection ≤ 1
  | _ => False

instance (c : Callback) : Decidable c.IsOn := by
  cases c <;> unfold Callback.IsOn <;> infer_instance

def machine : Machine Node (Callback × Env) Effect :=
  ⟨fun n c => ((c.1.program c.2).after n, (c.1.program c.2).emitted n)⟩

def reach (l : Launch) (run : List (Callback × Env)) : Node := machine.final l.node run

/-- What the node hands out in a run. -/
def trace (l : Launch) (run : List (Callback × Env)) : List Effect := machine.log l.node run

end Bridge
end MowgliMavros
