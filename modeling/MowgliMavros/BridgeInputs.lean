import MowgliMavros.BridgeWalk

/-!
# What the node has observed

The part of the node that only messages write: the FCU state and the receipts, the safety state and the
two flags that go with it, the tilt, the ESC tracker, the roles and the high-level state. The drives and the
services read it and leave it alone, so after any run it is what a machine of its own makes of the messages
and of their receipt times (`reach_inputs`).
-/

namespace MowgliMavros
namespace Bridge
open Prog (Triple Keeps)

structure Inputs where
  tiltEmergencyMs : Int
  tiltStartedNs : Int
  tiltDisarmSent : Bool
  doubleLiftDisarmSent : Bool
  lastFcuReceiptMs : Int
  lastHardwareSafetyMs : Int
  safetyState : SafetyState
  escTracker : EscTelemetryTracker
  roles : { r : Roles // r.Valid }
  mavrosState : FcuState
  highLevelState : UInt8

def Node.inputs (n : Node) : Inputs := {
  tiltEmergencyMs := n.tiltEmergencyMs
  tiltStartedNs := n.tiltStartedNs
  tiltDisarmSent := n.tiltDisarmSent
  doubleLiftDisarmSent := n.doubleLiftDisarmSent
  lastFcuReceiptMs := n.lastFcuReceiptMs
  lastHardwareSafetyMs := n.lastHardwareSafetyMs
  safetyState := n.safetyState
  escTracker := n.escTracker
  roles := n.roles
  mavrosState := n.mavrosState
  highLevelState := n.highLevelState }

/-- A message with the clock readings that are kept of it. -/
inductive Observation
  | parameters (parameters : List Parameter)
  | highLevelStatus (state : UInt8)
  | fcuState (message : FcuState) (receiptMs : Int)
  | sysStatus (present enabled : Bool) (receiptMs : Int)
  | buttonChange (state : UInt8) (receiptNs : Int)
  | imu (tilted : Bool) (receiptNs : Int)
  | escTelemetry (message : EscObservation) (receiptNs : Int)
  | emergencyStop (emergency : UInt8)
deriving DecidableEq

/-- What a callback observes, if anything. -/
def observation? (c : Callback × Env) : Option Observation :=
  match c.1 with
  | .setParameters parameters => some (.parameters parameters)
  | .highLevelStatus state => some (.highLevelStatus state)
  | .mavrosState message => some (.fcuState message (c.2.steady 1))
  | .mavrosSysStatus present enabled => some (.sysStatus present enabled (c.2.steady 0))
  | .buttonChange state => some (.buttonChange state c.2.nowNs)
  | .mavrosImu tilted => some (.imu tilted c.2.nowNs)
  | .escTelemetry message => some (.escTelemetry message c.2.nowNs)
  | .emergencyStop emergency => some (.emergencyStop emergency)
  | .bladeWire _ | .bladeOutput _ | .cmdVel _ | .mowerControl _ _ _ | .rebootBoard | .bladeTimer | .modeResponse _ _
  | .armResponse _ _ | .servoResponse _ _ => none

namespace Inputs
variable (v : Inputs)

def tiltActive (nowNs : Int) : Bool :=
  nowNs - (if v.tiltStartedNs = 0 then nowNs else v.tiltStartedNs) ≥ v.tiltEmergencyMs * 1000000

def observeImu (tilted : Bool) (receiptNs : Int) : Inputs :=
  if tilted then { v with
    tiltStartedNs := if v.tiltStartedNs = 0 then receiptNs else v.tiltStartedNs
    safetyState := v.safetyState.observeTilt (v.tiltActive receiptNs)
    tiltDisarmSent := v.tiltActive receiptNs }
  else { v with
    tiltStartedNs := 0, tiltDisarmSent := false, safetyState := v.safetyState.observeTilt false }

def observeFcuState (message : FcuState) (receiptMs : Int) : Inputs := { v with
  lastFcuReceiptMs := receiptMs
  escTracker := if v.mavrosState.connected && !message.connected then v.escTracker.reset else v.escTracker
  safetyState := if message.connected then v.safetyState else v.safetyState.disconnect
  mavrosState := message }

def observeEmergencyStop (emergency : UInt8) : Inputs := { v with
  safetyState :=
    let set := v.safetyState.setServiceEmergency (emergency ≠ 0)
    if emergency = 0 then set.clearReleasedLatches else set }

def setParameters (parameters : List Parameter) : Inputs :=
  match validate v.roles.1 parameters with
  | .error _ => v
  | .ok roles => { v with
    roles := roles
    escTracker := if parameters.any Parameter.isRole then v.escTracker.reset else v.escTracker }

def observeSysStatus (present enabled : Bool) (receiptMs : Int) : Inputs := { v with
  lastHardwareSafetyMs := receiptMs
  safetyState := v.safetyState.observeMotorOutputs present enabled }

def observeButtonChange (state : UInt8) (receiptNs : Int) : Inputs := { v with
  safetyState := v.safetyState.observeButtonChange state receiptNs
  doubleLiftDisarmSent := (v.safetyState.observeButtonChange state receiptNs).doubleLift }

def observeEsc (message : EscObservation) (receiptNs : Int) : Inputs :=
  { v with escTracker := v.escTracker.observe message receiptNs }

/-- What is observed of the FCU counts while it is connected. -/
def whenConnected (f : Inputs → Inputs) : Inputs := if v.mavrosState.connected then f v else v

def observe : Observation → Inputs
  | .parameters parameters => v.setParameters parameters
  | .highLevelStatus state => { v with highLevelState := state }
  | .fcuState message receiptMs => v.observeFcuState message receiptMs
  | .sysStatus present enabled receiptMs => v.whenConnected (·.observeSysStatus present enabled receiptMs)
  | .buttonChange state receiptNs => v.whenConnected (·.observeButtonChange state receiptNs)
  | .imu tilted receiptNs => v.observeImu tilted receiptNs
  | .escTelemetry message receiptNs => v.whenConnected (·.observeEsc message receiptNs)
  | .emergencyStop emergency => v.observeEmergencyStop emergency

/-- What a callback leaves of the inputs. -/
def after (c : Callback × Env) : Inputs :=
  match observation? c with
  | some o => v.observe o
  | none => v

end Inputs

/-! ### The drives -/

/-- The inputs are `v`. -/
def At (v : Inputs) : Assertion := fun n _ => n.inputs = v

section Drives
variable {v : Inputs}

theorem at_side {f : Node → Node} (hf : ∀ n, (f n).inputs = n.inputs) : Keeps (At v) (Prog.update f) :=
  Keeps.update fun n _ h => (hf n).trans h

theorem at_emit (e : Effect) : Keeps (At v) (Prog.emit e) := Triple.emit fun _ _ => id

theorem at_emitAll (es : List Effect) : Keeps (At v) (Prog.emitAll es) := Triple.emitAll fun _ _ => id

theorem at_updateBlade (f : BladeControl → BladeControl) : Keeps (At v) (updateBlade f) := at_side fun _ => rfl

theorem at_updateSession (f : FcuSessionController → FcuSessionController) : Keeps (At v) (updateSession f) :=
  at_side fun _ => rfl

theorem at_replyBlade (header : Nat) (success : Bool) : Keeps (At v) (replyBlade header success) :=
  Keeps.read fun _ => at_emit _

theorem at_cancelPendingBladeStarts : Keeps (At v) cancelPendingBladeStarts :=
  Keeps.read fun _ => (Keeps.forEach fun _ _ => at_replyBlade _ _).seq fun _ => at_side fun _ => rfl

theorem at_publishGuided (source : Option Twist) (linearX angularZ : Rat) :
    Keeps (At v) (publishGuided source linearX angularZ) :=
  keeps_publishGuided (fun _ _ _ => at_emit _) source linearX angularZ

theorem at_neutral : Keeps (At v) publishNeutralManualControl :=
  keeps_publishNeutralManualControl (fun _ _ _ => at_emit _) fun _ _ _ => at_emit _

theorem at_endFailed (env : EndEnv) : Keeps (At v) (endFailedBladeTestLocked env) := by
  refine Keeps.read fun _ => Keeps.skip.ite (Keeps.seq (at_side fun _ => rfl) fun _ => ?_)
  exact at_cancelPendingBladeStarts.seq fun _ => (at_updateBlade _).seq fun _ => at_neutral.seq fun _ =>
    at_updateSession _

theorem at_driveSessionLocked (env : SessionEnv) : Keeps (At v) (driveSessionLocked env) := by
  have hneutral : Keeps (At v) (neutralizeTraction env) :=
    Keeps.read fun _ => Keeps.seq at_neutral.when fun _ => at_side fun _ => rfl
  have hforget : Keeps (At v) forgetSessionRpcs :=
    Keeps.read fun _ => (at_emitAll _).seq fun _ => at_side fun _ => rfl
  have hhand : ∀ command asked, Keeps (At v) (handSession command asked env) := fun command asked =>
    Keeps.seq at_neutral.when fun _ => Keeps.ite (at_updateSession _) <|
      Keeps.read fun _ => (at_emit _).seq fun _ => at_side fun _ => rfl
  have hsend : Keeps (At v) (sendSession env) := by
    refine Keeps.read fun _ => Keeps.seq (at_side fun _ => rfl) fun _ => ?_
    split
    · exact Keeps.skip
    · exact hhand _ _
  exact triple_driveSessionLocked (at_side fun _ => rfl) hneutral (at_endFailed _) hforget hsend
    (Keeps.read fun _ => at_emit _)

theorem at_permitBlade (steady nowNs now : Int) : Keeps (At v) (permitBlade steady nowNs now) := at_side fun _ => rfl

theorem at_answerRequest (header : Nat) (result : BladeControl.Result) (startedMs : Int) :
    Keeps (At v) (answerRequest header result startedMs) :=
  Keeps.read fun _ => Keeps.ite (at_side fun _ => rfl) (at_replyBlade _ _)

theorem at_requestBlade (direction : BladeControl.Direction) (steady : Int) :
    Keeps (At v) (requestBlade direction steady) :=
  Keeps.read fun _ => Keeps.seq (at_side fun _ => rfl) fun _ => Keeps.skip

theorem at_driveBladeLocked (env : BladeEnv) : Keeps (At v) (driveBladeLocked env) := by
  have hpromote : ∀ emergency, Keeps (At v) (promoteBladeStarts emergency env.steady) :=
    keeps_promoteBladeStarts at_replyBlade (fun _ => at_requestBlade _ _) at_answerRequest fun _ _ _ h => h
  have htimeOut : Keeps (At v) (timeOutBladeReplies env.steady) := at_side fun _ => by split <;> rfl
  have hforget : Keeps (At v) forgetBladeRpcs :=
    Keeps.read fun _ => (at_emitAll _).seq fun _ => at_side fun _ => rfl
  have hanswer : Keeps (At v) (answerBladeReplies env.steady) :=
    Keeps.read fun _ => (at_emitAll _).seq fun _ => at_side fun _ => rfl
  have hhand : ∀ command, Keeps (At v) (handBlade command env) := fun command =>
    Keeps.ite (at_updateBlade _) <| Keeps.seq (at_side fun _ => rfl) fun _ =>
      Keeps.read fun _ => (at_emit _).seq fun _ => at_side fun _ => rfl
  exact keeps_driveBladeLocked (at_side fun _ => rfl) (at_endFailed _) (at_permitBlade _ _ _) (at_updateBlade _)
    at_endFailed hpromote htimeOut hforget hanswer (keeps_sendBlade (fun _ _ h => h) hhand)

theorem at_drives (env : Env) (i j : Nat) :
    Keeps (At v) (do
      driveSessionLocked (env.session i)
      driveBladeLocked (env.blade j)) :=
  (at_driveSessionLocked _).seq fun _ => at_driveBladeLocked _

theorem at_requestSafetyDisarm (hold : Bool) (env : Env) : Keeps (At v) (requestSafetyDisarm hold env) := by
  refine Keeps.seq (at_side fun _ => rfl) fun _ => at_cancelPendingBladeStarts.seq fun _ => ?_
  refine (at_updateBlade _).seq fun _ => at_neutral.seq fun _ => Keeps.seq (at_side fun _ => rfl) fun _ => ?_
  exact (at_driveBladeLocked _).seq fun _ => (at_driveSessionLocked _).seq fun _ => Keeps.read fun _ => Keeps.skip

end Drives

/-! ### The callbacks -/

section Callbacks
variable {v w : Inputs}

theorem at_read {α : Type} {f : Node → Program α} {g : Inputs → Inputs}
    (h : ∀ n, Triple (At n.inputs) (f n) fun _ => At (g n.inputs)) :
    Triple (At v) (node >>= f) fun _ => At (g v) := by
  intro n l hv
  obtain rfl : n.inputs = v := hv
  exact h n n l rfl

theorem at_write {f : Node → Node} (hf : ∀ n, n.inputs = v → (f n).inputs = w) :
    Triple (At v) (Prog.update f) fun _ => At w :=
  Triple.update fun n _ => hf n

theorem at_onSetParameters (parameters : List Parameter) (env : Env) :
    Triple (At v) (onSetParameters parameters env) fun _ => At (v.setParameters parameters) := by
  refine at_read (g := (·.setParameters parameters)) fun n => ?_
  have hroles : n.inputs.roles = n.roles := rfl
  unfold Inputs.setParameters
  rw [hroles]
  cases validate n.roles.1 parameters with
  | error text => exact Keeps.skip
  | ok roles =>
    have hscale (n : Node) : ({ parameters.foldl Node.setScale n with roles := roles } : Node).inputs =
        { n.inputs with roles := roles } := by
      obtain ⟨linear, yaw, hfold⟩ := foldl_setScale parameters n
      rw [hfold]
      rfl
    refine Triple.seq (at_write (w := { n.inputs with roles := roles }) fun n' hn => by rw [hscale, hn]) fun _ => ?_
    cases parameters.any Parameter.isRole with
    | false => exact Keeps.skip
    | true =>
      refine Triple.seq (at_write ?_) fun _ => (at_updateBlade _).seq fun _ => at_driveBladeLocked _
      rintro n' hn
      show ({ n'.inputs with escTracker := n'.inputs.escTracker.reset } : Inputs) = _
      rw [hn]
      rfl

theorem at_onBladeWire (message : Option WireCommand) (env : Env) : Keeps (At v) (onBladeWire message env) := by
  refine Keeps.read fun n => ?_
  split
  · exact Keeps.skip
  refine Keeps.skip.ite (Keeps.seq (at_side fun _ => rfl) fun _ => Keeps.read fun n => ?_)
  split
  · exact at_side fun _ => rfl
  · exact (at_updateBlade _).seq fun _ => at_driveBladeLocked _

theorem at_onBladeOutput (message : RCOut) (env : Env) : Keeps (At v) (onBladeOutput message env) := by
  refine Keeps.read fun n => Keeps.skip.ite ?_
  split
  · exact Keeps.skip
  · refine Keeps.ite (Keeps.seq (at_side fun _ => rfl) fun _ => ?_) Keeps.skip
    exact (at_updateBlade _).seq fun _ => at_driveBladeLocked _

theorem at_onCmdVel (twist : Twist) (env : Env) : Keeps (At v) (onCmdVel twist env) := by
  refine (at_driveSessionLocked _).seq fun _ => ?_
  split
  · exact Keeps.read fun n => at_neutral.ite ((at_publishGuided _ _ _).ite (at_emit _))
  · exact Keeps.skip

theorem at_onHighLevelStatus (state : UInt8) (env : Env) :
    Triple (At v) (onHighLevelStatus state env) fun _ => At { v with highLevelState := state } := by
  refine at_read (g := fun v => { v with highLevelState := state }) fun n => ?_
  refine Triple.seq (at_write fun n' hn => by rw [← hn]; rfl) fun _ => Keeps.seq (Keeps.when ?_) fun _ =>
    at_drives env 0 1
  refine Keeps.seq (at_side fun _ => rfl) fun _ => at_cancelPendingBladeStarts.seq fun _ => ?_
  exact (at_updateBlade _).seq fun _ => at_neutral.seq fun _ => at_driveBladeLocked _

theorem at_onMavrosState (message : FcuState) (env : Env) :
    Triple (At v) (onMavrosState message env) fun _ => At (v.observeFcuState message (env.steady 1)) := by
  refine at_read (g := (·.observeFcuState message (env.steady 1))) fun n => ?_
  -- the receipt, the tracker and the safety state come before the FCU state itself
  refine Triple.seq (at_write (w := { n.inputs.observeFcuState message (env.steady 1) with
    mavrosState := n.inputs.mavrosState }) fun n' hn => by rw [← hn]; rfl) fun _ => ?_
  refine Keeps.seq at_cancelPendingBladeStarts.when fun _ => Triple.seq (at_write fun n' hn => ?_) fun _ =>
    at_drives env 0 0
  show ({ n'.inputs with mavrosState := message } : Inputs) = _
  rw [hn]
  rfl

theorem at_whenConnected {n : Node} {f : Inputs → Inputs} {x : Program Unit}
    (hx : Triple (At n.inputs) x fun _ => At (f n.inputs)) :
    Triple (At n.inputs) (Prog.when n.mavrosState.connected x) fun _ => At (n.inputs.whenConnected f) := by
  have hconn : n.inputs.mavrosState = n.mavrosState := rfl
  unfold Inputs.whenConnected
  rw [hconn]
  split
  · rename_i htrue
    rw [htrue]
    exact hx
  · rename_i hfalse
    rw [Bool.not_eq_true] at hfalse
    rw [hfalse]
    exact Keeps.skip

theorem at_onMavrosSysStatus (present enabled : Bool) (env : Env) :
    Triple (At v) (onMavrosSysStatus present enabled env) fun _ =>
      At (v.whenConnected (·.observeSysStatus present enabled (env.steady 0))) := by
  refine at_read (g := (·.whenConnected _)) fun n => at_whenConnected ?_
  refine Triple.seq (at_write fun n' hn => by rw [← hn]; rfl) fun _ => Keeps.when ?_
  exact (at_requestSafetyDisarm true env).seq fun _ => Keeps.skip

theorem at_onButtonChange (state : UInt8) (env : Env) :
    Triple (At v) (onButtonChange state env) fun _ =>
      At (v.whenConnected (·.observeButtonChange state env.nowNs)) := by
  refine at_read (g := (·.whenConnected _)) fun n => at_whenConnected ?_
  refine Triple.seq (at_write (w := { n.inputs with
    safetyState := n.inputs.safetyState.observeButtonChange state env.nowNs }) fun n' hn => by rw [← hn]; rfl)
    fun _ => Triple.seq (at_write fun n' hn => ?_) fun _ => Keeps.when ?_
  · show ({ n'.inputs with doubleLiftDisarmSent := n'.inputs.safetyState.doubleLift } : Inputs) = _
    rw [hn]
    rfl
  · exact (at_requestSafetyDisarm false env).seq fun _ => Keeps.skip

theorem at_onMavrosImu (tilted : Bool) (env : Env) :
    Triple (At v) (onMavrosImu tilted env) fun _ => At (v.observeImu tilted env.nowNs) := by
  refine at_read (g := (·.observeImu tilted env.nowNs)) fun n => ?_
  cases tilted with
  | false => exact at_write fun n' hn => by rw [← hn]; rfl
  | true =>
    refine Triple.seq (at_write fun n' hn => by rw [← hn]; rfl) fun _ => Keeps.when ?_
    exact (at_requestSafetyDisarm false env).seq fun _ => Keeps.skip

theorem at_onEscTelemetry (message : EscObservation) (env : Env) :
    Triple (At v) (onEscTelemetry message env) fun _ => At (v.whenConnected (·.observeEsc message env.nowNs)) := by
  refine at_read (g := (·.whenConnected _)) fun n => at_whenConnected ?_
  refine Triple.seq (at_write fun n' hn => by rw [← hn]; rfl) fun _ => Keeps.when (Keeps.read fun _ => ?_)
  exact (at_updateBlade _).seq fun _ => at_driveBladeLocked _

theorem at_onMowerControl (header : Nat) (mowEnabled mowDirection : UInt8) (env : Env) :
    Keeps (At v) (onMowerControl header mowEnabled mowDirection env) := by
  have hoff : Keeps (At v) (onMowerOff header env) := by
    refine at_cancelPendingBladeStarts.seq fun _ => Keeps.seq (at_side fun _ => rfl) fun _ => Keeps.read fun n => ?_
    refine Keeps.seq (Keeps.when ((at_updateSession _).seq fun _ => at_permitBlade _ _ _)) fun _ => ?_
    refine (at_requestBlade _ _).seq fun result => Keeps.seq ?_ fun _ => (at_driveBladeLocked _).seq fun _ =>
      at_driveSessionLocked _
    exact Keeps.read fun _ => Keeps.ite (at_side fun _ => rfl) (at_replyBlade _ _)
  have hstart : ∀ direction, Keeps (At v) (startBlade header direction env) := by
    refine fun direction => Keeps.read fun n => Keeps.ite (Keeps.ite (at_replyBlade _ _) (at_side fun _ => rfl)) ?_
    refine (at_permitBlade _ _ _).seq fun _ => (at_requestBlade _ _).seq fun result => ?_
    exact (at_answerRequest _ _ _).seq fun _ => at_driveBladeLocked _
  have hon : ∀ direction, Keeps (At v) (onMowerOn header direction env) := by
    refine fun direction => Keeps.read fun n => Keeps.seq at_cancelPendingBladeStarts.when fun _ => ?_
    refine (at_driveSessionLocked _).seq fun _ => (at_driveBladeLocked _).seq fun _ => Keeps.read fun n => ?_
    refine Keeps.ite (at_replyBlade _ _) (Keeps.seq (Keeps.when ?_) fun _ => ?_)
    · exact Keeps.seq (at_side fun _ => rfl) fun _ => at_neutral
    · refine (at_driveSessionLocked _).seq fun _ => Keeps.read fun n => Keeps.ite ?_ (hstart direction)
      exact (at_endFailed _).seq fun _ => at_replyBlade _ _
  exact Keeps.ite (at_replyBlade _ _) (Keeps.ite hoff (hon _))

theorem at_onEmergencyStop (emergency : UInt8) (env : Env) :
    Triple (At v) (onEmergencyStop emergency env) fun _ => At (v.observeEmergencyStop emergency) := by
  refine Triple.seq (at_write (w := { v with
    safetyState := v.safetyState.setServiceEmergency (emergency ≠ 0) }) fun n hn => by rw [← hn]; rfl) fun _ => ?_
  unfold Inputs.observeEmergencyStop
  refine Triple.ite (fun hzero => ?_) fun hset => ?_
  · rw [if_pos hzero]
    refine Triple.seq (at_write fun n hn => ?_) fun _ => (at_driveSessionLocked _).seq fun _ =>
      (at_driveBladeLocked _).seq fun _ => at_emit _
    show ({ n.inputs with safetyState := n.inputs.safetyState.clearReleasedLatches } : Inputs) = _
    rw [hn]
  · rw [if_neg hset]
    exact (at_requestSafetyDisarm true env).seq fun _ => at_emit _

theorem at_onModeResponse (serial : Nat) (response : Option Bool) (env : Env) :
    Keeps (At v) (onModeResponse serial response env) :=
  Keeps.seq (at_side fun _ => rfl) fun _ => (at_updateSession _).seq fun _ => at_drives env 0 0

theorem at_onArmResponse (serial : Nat) (response : Option (Bool × Nat)) (env : Env) :
    Keeps (At v) (onArmResponse serial response env) :=
  Keeps.seq (at_side fun _ => rfl) fun _ => (at_updateSession _).seq fun _ => at_drives env 0 0

theorem at_onServoResponse (token : Nat) (response : Option (Bool × Nat)) (env : Env) :
    Keeps (At v) (onServoResponse token response env) :=
  Keeps.seq (at_side fun _ => rfl) fun _ => (at_updateBlade _).seq fun _ => at_driveBladeLocked _

theorem at_onRebootBoard (env : Env) : Keeps (At v) (onRebootBoard env) :=
  (at_emit _).ite ((at_emit _).seq fun _ => at_emit _)

/-- A callback changes the inputs by what it observes. -/
theorem at_callback (c : Callback) (env : Env) : Triple (At v) (c.program env) fun _ => At (v.after (c, env)) := by
  cases c with
  | setParameters parameters => exact at_onSetParameters parameters env
  | bladeWire message => exact at_onBladeWire message env
  | bladeOutput message => exact at_onBladeOutput message env
  | cmdVel twist => exact at_onCmdVel twist env
  | highLevelStatus state => exact at_onHighLevelStatus state env
  | mavrosState message => exact at_onMavrosState message env
  | mavrosSysStatus present enabled => exact at_onMavrosSysStatus present enabled env
  | buttonChange state => exact at_onButtonChange state env
  | mavrosImu tilted => exact at_onMavrosImu tilted env
  | escTelemetry message => exact at_onEscTelemetry message env
  | mowerControl header mowEnabled mowDirection => exact at_onMowerControl header mowEnabled mowDirection env
  | emergencyStop emergency => exact at_onEmergencyStop emergency env
  | rebootBoard => exact at_onRebootBoard env
  | bladeTimer => exact at_drives env 0 0
  | modeResponse serial response => exact at_onModeResponse serial response env
  | armResponse serial response => exact at_onArmResponse serial response env
  | servoResponse token response => exact at_onServoResponse token response env

end Callbacks

/-! ### Runs -/

theorem step_inputs (n : Node) (c : Callback × Env) : (machine.step n c).1.inputs = n.inputs.after c :=
  at_callback c.1 c.2 n [] rfl

theorem final_inputs (n : Node) (run : List (Callback × Env)) :
    (machine.final n run).inputs = (run.filterMap observation?).foldl Inputs.observe n.inputs := by
  induction run generalizing n with
  | nil => rfl
  | cons c run ih =>
    rw [Machine.final_cons, ih, step_inputs, List.filterMap_cons]
    unfold Inputs.after
    cases observation? c <;> rfl

/-- What the node has observed is made of the messages alone. -/
theorem reach_inputs (l : Launch) (run : List (Callback × Env)) :
    (reach l run).inputs = (run.filterMap observation?).foldl Inputs.observe l.node.inputs :=
  final_inputs l.node run

end Bridge
end MowgliMavros
