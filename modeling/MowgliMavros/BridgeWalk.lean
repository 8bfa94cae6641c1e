import MowgliMavros.BladeRun
import MowgliMavros.BridgeRun

/-!
# From the pieces to the callbacks

An assertion that every piece keeps is kept by the callbacks made of these pieces. The pieces of
most callbacks are the fields of `Walk`; what only some callbacks do (a new safety or high-level
state, a velocity, a MowerControl request, the ACK of a servo command) is asked of `Walk.callback`
as a whole, and the lemmas before it take these callbacks to pieces too.
-/

namespace MowgliMavros
namespace Bridge
open Prog (Triple Keeps)

abbrev Assertion := Node → List Effect → Prop

section Programs
variable {I J M K L : Assertion}

theorem keeps_publishGuided (hguided : ∀ source target sent, Keeps I (Prog.emit (.guidedControl source target sent)))
    (source : Option Twist) (linearX angularZ : Rat) : Keeps I (publishGuided source linearX angularZ) := by
  refine Keeps.read fun n => ?_
  split
  · exact hguided _ _ _
  · exact Keeps.skip

theorem keeps_publishNeutralManualControl
    (hmanual : ∀ source command sent, Keeps I (Prog.emit (.manualControl source command sent)))
    (hguided : ∀ source target sent, Keeps I (Prog.emit (.guidedControl source target sent))) :
    Keeps I publishNeutralManualControl :=
  Keeps.read fun _ => (hmanual _ _ _).seq fun _ => (keeps_publishGuided hguided none 0 0).when

/-- What `drive_session_locked` does, with `J` after the demand and `M` up to the send. -/
theorem triple_driveSessionLocked {env : SessionEnv} (hdemand : Triple I (demandSession env) fun _ => J)
    (hneutral : Triple J (neutralizeTraction env) fun _ => M) (hended : Keeps M (endFailedBladeTestLocked env.ended))
    (hforget : Keeps M forgetSessionRpcs) (hsend : Triple M (sendSession env) fun _ => K)
    (hmark : Keeps K markDriven) : Triple I (driveSessionLocked env) fun _ => K := by
  unfold driveSessionLocked
  refine hdemand.seq fun _ => hneutral.seq fun _ => Triple.peek fun n => ?_
  exact hended.when.seq fun _ => hforget.seq fun _ => hsend.seq fun _ => hmark

/-- What `drive_blade_locked` does, with `J` after the permission, `M` after the tick and `K` before the
send. -/
theorem triple_driveBladeLocked {env : BladeEnv}
    (hwire : Keeps I (expireWireExpectations env.steady))
    (hfcu : Keeps I (endFailedBladeTestLocked env.endedFcu))
    (hpermit : Triple I (permitBlade env.steady env.nowNs env.steady) fun _ => J)
    (htick : Triple J (updateBlade (·.tick env.steady)) fun _ => M)
    (hexpire : Keeps M (expireBladeStarts env))
    (hpromote : ∀ emergency, Keeps M (promoteBladeStarts emergency env.steady))
    (htimeOut : Keeps M (timeOutBladeReplies env.steady)) (hforget : Keeps M forgetBladeRpcs)
    (hanswer : Keeps M (answerBladeReplies env.steady)) (hidle : Triple M (endIdleBladeTest env) fun _ => K)
    (hsend : Triple K (sendBlade env) fun _ => L) : Triple I (driveBladeLocked env) fun _ => L := by
  unfold driveBladeLocked
  refine hwire.seq fun _ => Triple.peek fun n => Triple.seq (Keeps.when hfcu) fun _ => ?_
  refine hpermit.seq fun _ => htick.seq fun _ => hexpire.seq fun _ => Triple.seq (hpromote _) fun _ => ?_
  exact htimeOut.seq fun _ => hforget.seq fun _ => hanswer.seq fun _ => hidle.seq fun _ => hsend

/-- What `drive_blade_locked` keeps, with `J` between the permission and the send. -/
theorem keeps_driveBladeLocked {env : BladeEnv}
    (hwire : Keeps I (expireWireExpectations env.steady))
    (hfcu : Keeps I (endFailedBladeTestLocked env.endedFcu))
    (hpermit : Triple I (permitBlade env.steady env.nowNs env.steady) fun _ => J)
    (htick : Keeps J (updateBlade (·.tick env.steady)))
    (hended : ∀ env, Keeps J (endFailedBladeTestLocked env))
    (hpromote : ∀ emergency, Keeps J (promoteBladeStarts emergency env.steady))
    (htimeOut : Keeps J (timeOutBladeReplies env.steady)) (hforget : Keeps J forgetBladeRpcs)
    (hanswer : Keeps J (answerBladeReplies env.steady)) (hsend : Triple J (sendBlade env) fun _ => I) :
    Keeps I (driveBladeLocked env) :=
  triple_driveBladeLocked hwire hfcu hpermit htick (Keeps.read fun _ => Keeps.when (hended _)) hpromote htimeOut
    hforget hanswer (Keeps.read fun _ => Keeps.when (hended _)) hsend

theorem keeps_requestBlade {direction : BladeControl.Direction} {steady : Int}
    (hrequest : ∀ n l, I n l → I { n with bladeControl := n.bladeControl.apply (.request direction steady) } l) :
    Keeps I (requestBlade direction steady) :=
  Keeps.read fun _ => Triple.seq (Triple.update fun n l => hrequest n l) fun _ => Keeps.skip

theorem keeps_promoteBladeStarts {steady : Int}
    (hreply : ∀ header success, Keeps I (replyBlade header success))
    (hrequest : ∀ direction, Keeps I (requestBlade direction steady))
    (hanswer : ∀ header result startedMs, Keeps I (answerRequest header result startedMs))
    (hstarts : ∀ n l starts, I n l → I { n with pendingBladeStarts := starts } l) (emergency : Bool) :
    Keeps I (promoteBladeStarts emergency steady) := by
  have hloop : ∀ starts, Keeps I (promote emergency steady starts) := by
    intro starts
    induction starts with
    | nil => exact Keeps.skip
    | cons pending rest ih =>
      refine Keeps.read fun n => Keeps.ite ?_ (Keeps.ite ?_ ?_)
      · exact (hreply _ _).seq fun _ => ih
      · exact (hrequest _).seq fun result => (hanswer _ _ _).seq fun _ => ih
      · exact ih.seq fun kept => Keeps.skip
  exact Keeps.read fun n => (hloop _).seq fun kept => Keeps.update fun n l => hstarts n l kept

theorem keeps_sendBlade {env : BladeEnv}
    (hnext : ∀ n l, I n l → I { n with bladeControl := n.bladeControl.apply (.next env.steady) } l)
    (hhand : ∀ command, Keeps I (handBlade command env)) : Keeps I (sendBlade env) := by
  refine Triple.read fun n => Triple.ite (fun _ => Triple.pure fun _ _ => And.right) fun _ => ?_
  refine Triple.bind (R := fun _ => I) (Triple.update ?_) fun _ => ?_
  · rintro _ l ⟨rfl, hi⟩
    exact hnext _ l hi
  · split
    · exact Keeps.skip
    · exact hhand _

end Programs

/-! ### The walk -/

/-- The operations a subscription makes on the blade controller. -/
def Outside : BladeControl.Op → Prop
  | .forceOff _ | .output _ _ | .sample _ _ => True
  | _ => False

/-- The node without its bookkeeping: request ids, receipts, scales, roles, the ESC tracker. -/
def Node.walked (n : Node) :=
  (n.provider, n.bladeControl, n.sessionControl, n.bladeTestActive, n.tractionWasReady, n.pendingBladeStarts,
    n.bladeReplies, n.tiltDisarmSent, n.safetyState, n.mavrosState, n.highLevelState)

def Effect.isAnswer : Effect → Bool
  | reboot | emergencyReply _ | rebootReply _ _ => true
  | _ => false

structure Walk (I : Assertion) : Prop where
  books : ∀ {f : Node → Node}, (∀ n, (f n).walked = n.walked) → Keeps I (Prog.update f)
  endTest : Keeps I (Prog.update fun n => { n with bladeTestActive := false })
  heard : ∀ message env, Keeps I (Prog.update fun n => n.heard message env)
  observe : ∀ message : FcuState, Keeps I (Prog.update fun n => { n with
    mavrosState := message
    sessionControl := n.sessionControl.observe message.connected message.armed message.mode })
  blade : ∀ op, Outside op → Keeps I (updateBlade (·.apply op))
  /-- The demand of the emergencies. -/
  demand : ∀ hold : Bool, Keeps I (Prog.update fun n => { n with
    sessionControl := n.sessionControl.demand (if hold then "HOLD" else n.mavrosState.mode) false true })
  complete : ∀ serial accepted now, Keeps I (updateSession (·.complete serial accepted now))
  cancel : Keeps I cancelPendingBladeStarts
  neutral : Keeps I publishNeutralManualControl
  driveSession : ∀ env, Keeps I (driveSessionLocked env)
  driveBlade : ∀ env, Keeps I (driveBladeLocked env)
  answer : ∀ e, e.isAnswer = true → Keeps I (Prog.emit e)

/-- The callbacks that `Walk` alone does not take to pieces. -/
def Callback.IsSpecial : Callback → Prop
  | .cmdVel _ | .highLevelStatus _ | .mavrosSysStatus _ _ | .buttonChange _ | .mavrosImu _ | .emergencyStop _
  | .mowerControl _ _ _ | .servoResponse _ _ => True
  | _ => False

namespace Walk
variable {I : Assertion} (h : Walk I)
include h

theorem forceOff (now : Int) : Keeps I (updateBlade (·.forceOff now)) := h.blade (.forceOff now) trivial

theorem drives (env : Env) (i j : Nat) :
    Keeps I (do
      driveSessionLocked (env.session i)
      driveBladeLocked (env.blade j)) :=
  (h.driveSession _).seq fun _ => h.driveBlade _

/-- The way to the safety DISARM, from a state that the end of the blade test brings back to `I`. -/
theorem safetyDisarm {P : Assertion} {hold : Bool} {env : Env}
    (hend : Triple P (Prog.update fun n => { n with bladeTestActive := false }) fun _ => I) :
    Triple P (Bridge.requestSafetyDisarm hold env) fun _ => I := by
  refine hend.seq fun _ => h.cancel.seq fun _ => (h.forceOff _).seq fun _ => h.neutral.seq fun _ => ?_
  refine (h.demand hold).seq fun _ => (h.driveBlade _).seq fun _ => (h.driveSession _).seq fun _ => ?_
  exact Keeps.read fun _ => Keeps.skip

theorem requestSafetyDisarm (hold : Bool) (env : Env) : Keeps I (requestSafetyDisarm hold env) :=
  h.safetyDisarm h.endTest

theorem onSetParameters (parameters : List Parameter) (env : Env) : Keeps I (onSetParameters parameters env) := by
  have hscale (n : Node) : (parameters.foldl Node.setScale n).walked = n.walked := by
    obtain ⟨linear, yaw, hscale⟩ := foldl_setScale parameters n
    rw [hscale]
    rfl
  refine Keeps.read fun n => ?_
  split
  · exact Keeps.skip
  · refine Keeps.seq (h.books hscale) fun _ => Keeps.when ?_
    exact Keeps.seq (h.books fun _ => rfl) fun _ => (h.forceOff _).seq fun _ => h.driveBlade _

theorem onBladeWire (message : Option WireCommand) (env : Env) : Keeps I (onBladeWire message env) := by
  refine Keeps.read fun n => ?_
  split
  · exact Keeps.skip
  · have hexpire : Keeps I (expireWireExpectations (env.steady 0)) := h.books fun _ => rfl
    refine Keeps.skip.ite (hexpire.seq fun _ => Keeps.read fun n => ?_)
    split
    · exact h.books fun _ => rfl
    · exact (h.forceOff _).seq fun _ => h.driveBlade _

theorem onBladeOutput (message : RCOut) (env : Env) : Keeps I (onBladeOutput message env) := by
  refine Keeps.read fun n => Keeps.skip.ite ?_
  split
  · exact Keeps.skip
  · refine Keeps.ite (Keeps.seq (h.books fun _ => rfl) fun _ => ?_) Keeps.skip
    exact (h.blade (.output _ _) trivial).seq fun _ => h.driveBlade _

theorem onMavrosState (message : FcuState) (env : Env) : Keeps I (onMavrosState message env) := by
  refine Keeps.read fun n => (h.heard message env).seq fun _ => Keeps.seq h.cancel.when fun _ => ?_
  exact (h.observe message).seq fun _ => h.drives env 0 0

theorem onEscTelemetry (message : EscObservation) (env : Env) : Keeps I (onEscTelemetry message env) := by
  refine Keeps.read fun n => Keeps.when ?_
  refine Keeps.seq (h.books fun _ => rfl) fun _ => Keeps.when (Keeps.read fun n => ?_)
  exact (h.blade (.sample (bladeSample _) _) trivial).seq fun _ => h.driveBlade _

theorem onRebootBoard (env : Env) : Keeps I (onRebootBoard env) :=
  (h.answer _ rfl).ite ((h.answer _ rfl).seq fun _ => h.answer _ rfl)

theorem onModeResponse (serial : Nat) (response : Option Bool) (env : Env) :
    Keeps I (onModeResponse serial response env) :=
  Keeps.seq (h.books fun _ => rfl) fun _ => (h.complete serial _ _).seq fun _ => h.drives env 0 0

theorem onArmResponse (serial : Nat) (response : Option (Bool × Nat)) (env : Env) :
    Keeps I (onArmResponse serial response env) :=
  Keeps.seq (h.books fun _ => rfl) fun _ => (h.complete serial _ _).seq fun _ => h.drives env 0 0

theorem callback (c : Callback) (env : Env) (hspecial : c.IsSpecial → Keeps I (c.program env)) :
    Keeps I (c.program env) := by
  cases c with
  | setParameters parameters => exact h.onSetParameters parameters env
  | bladeWire message => exact h.onBladeWire message env
  | bladeOutput message => exact h.onBladeOutput message env
  | mavrosState message => exact h.onMavrosState message env
  | escTelemetry message => exact h.onEscTelemetry message env
  | rebootBoard => exact h.onRebootBoard env
  | bladeTimer => exact h.drives env 0 0
  | modeResponse serial response => exact h.onModeResponse serial response env
  | armResponse serial response => exact h.onArmResponse serial response env
  | _ => exact hspecial trivial

/-! ### The other callbacks -/

theorem onCmdVel (hmanual : ∀ source command sent, Keeps I (Prog.emit (.manualControl source command sent)))
    (hguided : ∀ source target sent, Keeps I (Prog.emit (.guidedControl source target sent))) (twist : Twist)
    (env : Env) : Keeps I (onCmdVel twist env) := by
  refine (h.driveSession _).seq fun _ => ?_
  split
  · exact Keeps.read fun n => h.neutral.ite ((keeps_publishGuided hguided _ _ _).ite (hmanual _ _ _))
  · exact Keeps.skip

theorem onHighLevelStatus (state : UInt8)
    (hhigh : Keeps I (Prog.update fun n => { n with highLevelState := state })) (env : Env) :
    Keeps I (onHighLevelStatus state env) := by
  refine Keeps.read fun n => hhigh.seq fun _ => Keeps.seq (Keeps.when ?_) fun _ => h.drives env 0 1
  exact h.endTest.seq fun _ => h.cancel.seq fun _ => (h.forceOff _).seq fun _ => h.neutral.seq fun _ =>
    h.driveBlade _

section Safety
variable (hsafety : ∀ {f : Node → Node},
  (∀ n, ({ f n with safetyState := n.safetyState, tiltDisarmSent := n.tiltDisarmSent } : Node).walked = n.walked) →
    Keeps I (Prog.update f))
include hsafety

theorem onMavrosSysStatus (present enabled : Bool) (env : Env) :
    Keeps I (onMavrosSysStatus present enabled env) := by
  refine Keeps.read fun n => Keeps.when (Keeps.seq (hsafety fun _ => rfl) fun _ => Keeps.when ?_)
  exact (h.requestSafetyDisarm true env).seq fun _ => Keeps.skip

theorem onButtonChange (state : UInt8) (env : Env) : Keeps I (onButtonChange state env) := by
  refine Keeps.read fun n => Keeps.when (Keeps.seq (hsafety fun _ => rfl) fun _ => ?_)
  refine Keeps.seq (h.books fun _ => rfl) fun _ => Keeps.when ?_
  exact (h.requestSafetyDisarm false env).seq fun _ => Keeps.skip

theorem onMavrosImu (tilted : Bool) (env : Env) : Keeps I (onMavrosImu tilted env) := by
  refine Keeps.read fun n => Keeps.ite ?_ (hsafety fun _ => rfl)
  refine Keeps.seq (hsafety fun _ => rfl) fun _ => Keeps.when ?_
  exact (h.requestSafetyDisarm false env).seq fun _ => Keeps.skip

theorem onEmergencyStop (emergency : UInt8) (env : Env) : Keeps I (onEmergencyStop emergency env) := by
  refine Keeps.seq (hsafety fun _ => rfl) fun _ => Keeps.ite (Keeps.seq (hsafety fun _ => rfl) fun _ => ?_) ?_
  · exact (h.driveSession _).seq fun _ => (h.driveBlade _).seq fun _ => h.answer _ rfl
  · exact (h.requestSafetyDisarm true env).seq fun _ => h.answer _ rfl

end Safety

theorem onServoResponse (token : Nat) (response : Option (Bool × Nat)) (env : Env)
    (hcomplete : ∀ accepted, Keeps I (updateBlade (·.complete token accepted (env.steady 0)))) :
    Keeps I (onServoResponse token response env) :=
  Keeps.seq (h.books fun _ => rfl) fun _ => (hcomplete _).seq fun _ => h.driveBlade _

theorem onMowerOff (header : Nat) (env : Env)
    (hdemand : ∀ safety, Keeps I (updateSession (·.demand "HOLD" false safety)))
    (hpermit : ∀ steady nowNs now, Keeps I (permitBlade steady nowNs now))
    (hrequest : ∀ steady, Keeps I (requestBlade .off steady))
    (hanswer : ∀ result, Keeps I (answerOff header result env)) : Keeps I (onMowerOff header env) := by
  refine h.cancel.seq fun _ => h.endTest.seq fun _ => Keeps.read fun n => ?_
  refine Keeps.seq (Keeps.when ((hdemand _).seq fun _ => hpermit _ _ _)) fun _ => (hrequest _).seq fun result => ?_
  exact (hanswer result).seq fun _ => (h.driveBlade _).seq fun _ => h.driveSession _

theorem onMowerOn (header : Nat) (direction : BladeControl.Direction) (env : Env)
    (hreply : Keeps I (replyBlade header false)) (hended : Keeps I (endFailedBladeTestLocked env.ended))
    (hstart : ∀ n, n.refusesOn env = false → Triple (fun s l => s = n ∧ I s l)
      (Prog.update fun n => { n with bladeTestActive := true }) fun _ => I)
    (hblade : Keeps I (startBlade header direction env)) : Keeps I (onMowerOn header direction env) := by
  refine Keeps.read fun n => Keeps.seq (Keeps.when h.cancel) fun _ => ?_
  refine (h.driveSession _).seq fun _ => (h.driveBlade _).seq fun _ => Triple.read fun n => ?_
  refine Triple.ite (fun _ => hreply.pre fun _ _ => And.right) fun haccept => ?_
  refine Triple.seq (Triple.when (fun _ => ?_) fun _ s l h => h.2) fun _ => ?_
  · exact (hstart n (by simpa using haccept)).seq fun _ => h.neutral
  · exact (h.driveSession _).seq fun _ => Keeps.read fun n => Keeps.ite (hended.seq fun _ => hreply) hblade

omit h in
theorem onMowerControl (header : Nat) (mowEnabled mowDirection : UInt8) (env : Env)
    (hreply : Keeps I (replyBlade header false)) (hoff : Keeps I (Bridge.onMowerOff header env))
    (hon : mowEnabled = 1 → mowDirection ≤ 1 → ∀ direction, Keeps I (Bridge.onMowerOn header direction env)) :
    Keeps I (onMowerControl header mowEnabled mowDirection env) := by
  unfold Bridge.onMowerControl
  split
  · exact hreply
  rename_i hvalid
  rw [not_or, not_and] at hvalid
  split
  · exact hoff
  rename_i hne
  have hon1 : mowEnabled = 1 := by grind
  exact hon hon1 (UInt8.not_lt.1 (hvalid.2 hne)) _

/-- Where a velocity, the safety state and the high-level state do not matter, only the MowerControl requests
and the ACKs of servo commands are left. -/
theorem callback_plain (hmanual : ∀ source command sent, Keeps I (Prog.emit (.manualControl source command sent)))
    (hguided : ∀ source target sent, Keeps I (Prog.emit (.guidedControl source target sent)))
    (hsafety : ∀ {f : Node → Node}, (∀ n, ({ f n with
      safetyState := n.safetyState, tiltDisarmSent := n.tiltDisarmSent } : Node).walked = n.walked) →
      Keeps I (Prog.update f))
    (hhigh : ∀ state, Keeps I (Prog.update fun n => { n with highLevelState := state })) (c : Callback) (env : Env)
    (hmower : ∀ header mowEnabled mowDirection, c = .mowerControl header mowEnabled mowDirection →
      Keeps I (Bridge.onMowerControl header mowEnabled mowDirection env))
    (hservo : ∀ token response, c = .servoResponse token response →
      Keeps I (Bridge.onServoResponse token response env)) : Keeps I (c.program env) := by
  refine h.callback c env fun hspecial => ?_
  cases c with
  | cmdVel twist => exact h.onCmdVel hmanual hguided twist env
  | highLevelStatus state => exact h.onHighLevelStatus state (hhigh state) env
  | mavrosSysStatus present enabled => exact h.onMavrosSysStatus hsafety present enabled env
  | buttonChange state => exact h.onButtonChange hsafety state env
  | mavrosImu tilted => exact h.onMavrosImu hsafety tilted env
  | emergencyStop emergency => exact h.onEmergencyStop hsafety emergency env
  | mowerControl header mowEnabled mowDirection => exact hmower header mowEnabled mowDirection rfl
  | servoResponse token response => exact hservo token response rfl
  | _ => exact hspecial.elim

end Walk

end Bridge
end MowgliMavros
