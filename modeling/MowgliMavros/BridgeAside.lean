import MowgliMavros.BridgeSpec

/-!
# What the drives leave alone

`Aside I` says that `I` reads nothing of the node but the double-lift flag, the double lift itself and the
wire expectations. Only four pieces write these: the expiry and the push of a blade drive, and the
callbacks of `Callback.Writes`. Everything else keeps `I`, provided `drive_blade_locked` does
(`Aside.callback`).
-/

namespace MowgliMavros
namespace Bridge
open Prog (Triple Keeps)

def Node.aside (n : Node) := (n.doubleLiftDisarmSent, n.safetyState.doubleLift, n.bladeWireExpectations)

/-- The callbacks that write one of these fields outside the drives. -/
def Callback.Writes : Callback → Prop
  | bladeWire _ | mavrosState _ | buttonChange _ => True
  | _ => False

structure Aside (I : Assertion) : Prop where
  frame : ∀ {n n' l}, n'.aside = n.aside → I n l → I n' l
  emit : ∀ n l e, e.isServo = false → I n l → I n (l ++ [e])

namespace Aside
variable {I : Assertion} (h : Aside I)
include h

theorem side {f : Node → Node} (hf : ∀ n, (f n).aside = n.aside) : Keeps I (Prog.update f) :=
  Keeps.update fun n _ => h.frame (hf n)

theorem updateBlade (f : BladeControl → BladeControl) : Keeps I (updateBlade f) := h.side fun _ => rfl

theorem updateSession (f : FcuSessionController → FcuSessionController) : Keeps I (updateSession f) :=
  h.side fun _ => rfl

theorem emitOther {e : Effect} (he : e.isServo = false) : Keeps I (Prog.emit e) :=
  Triple.emit fun n l => h.emit n l e he

theorem emitMap {α : Type} {f : α → Effect} (hf : ∀ a, (f a).isServo = false) (as : List α) :
    Keeps I (Prog.emitAll (as.map f)) :=
  Keeps.emitMap (fun a n l => h.emit n l (f a) (hf a)) as

theorem replyBlade (header : Nat) (success : Bool) : Keeps I (replyBlade header success) :=
  Keeps.read fun _ => h.emitOther rfl

theorem cancelPendingBladeStarts : Keeps I cancelPendingBladeStarts :=
  Keeps.read fun _ => (Keeps.forEach fun pending _ => h.replyBlade pending.header false).seq fun _ =>
    h.side fun _ => rfl

theorem publishGuided (source : Option Twist) (linearX angularZ : Rat) :
    Keeps I (publishGuided source linearX angularZ) :=
  keeps_publishGuided (fun _ _ _ => h.emitOther rfl) source linearX angularZ

theorem neutral : Keeps I publishNeutralManualControl :=
  keeps_publishNeutralManualControl (fun _ _ _ => h.emitOther rfl) fun _ _ _ => h.emitOther rfl

theorem endFailed (env : EndEnv) : Keeps I (endFailedBladeTestLocked env) := by
  refine Keeps.read fun n => Keeps.skip.ite (Keeps.seq (h.side fun _ => rfl) fun _ => ?_)
  exact h.cancelPendingBladeStarts.seq fun _ => (h.updateBlade _).seq fun _ => h.neutral.seq fun _ =>
    h.updateSession _

/-! ### The drives -/

theorem handSession (command : FcuSessionController.Command) (asked : FcuSessionController) (env : SessionEnv) :
    Keeps I (handSession command asked env) := by
  refine Keeps.seq h.neutral.when fun _ => Keeps.ite (h.updateSession _) (Keeps.read fun n => ?_)
  exact (h.emitOther (by simp)).seq fun _ => h.side fun _ => rfl

theorem driveSessionLocked (env : SessionEnv) : Keeps I (driveSessionLocked env) := by
  have hneutral : Keeps I (neutralizeTraction env) :=
    Keeps.read fun _ => Keeps.seq h.neutral.when fun _ => h.side fun _ => rfl
  have hforget : Keeps I forgetSessionRpcs :=
    Keeps.read fun _ => (h.emitMap (fun _ => rfl) _).seq fun _ => h.side fun _ => rfl
  have hsend : Keeps I (sendSession env) := by
    refine Keeps.read fun n => Keeps.seq (h.side fun _ => rfl) fun _ => ?_
    split
    · exact Keeps.skip
    · exact h.handSession _ _ env
  exact triple_driveSessionLocked (h.side fun _ => rfl) hneutral (h.endFailed _) hforget hsend
    (Keeps.read fun _ => h.emitOther rfl)

theorem answerRequest (header : Nat) (result : BladeControl.Result) (startedMs : Int) :
    Keeps I (answerRequest header result startedMs) :=
  Keeps.read fun _ => Keeps.ite (h.side fun _ => rfl) (h.replyBlade _ _)

theorem requestBlade (direction : BladeControl.Direction) (steady : Int) : Keeps I (requestBlade direction steady) :=
  keeps_requestBlade fun _ _ => h.frame rfl

theorem permitBlade (steady nowNs now : Int) : Keeps I (permitBlade steady nowNs now) := h.side fun _ => rfl

theorem timeOutBladeReplies (steady : Int) : Keeps I (timeOutBladeReplies steady) :=
  h.side fun _ => by split <;> rfl

/-- The two pieces of `drive_blade_locked` that write an expectation: its expiry and the send at its end. -/
theorem driveBladeLocked {L : Assertion} {env : BladeEnv} (hlater : ∀ n l, I n l → L n l)
    (hexpire : Keeps I (expireWireExpectations env.steady))
    (hhand : ∀ command, Triple I (handBlade command env) fun _ => L) :
    Triple I (driveBladeLocked env) fun _ => L := by
  have hpromote : ∀ emergency, Keeps I (promoteBladeStarts emergency env.steady) :=
    keeps_promoteBladeStarts h.replyBlade (fun _ => h.requestBlade _ _) h.answerRequest fun _ _ _ => h.frame rfl
  have hforget : Keeps I forgetBladeRpcs :=
    Keeps.read fun _ => (h.emitMap (fun _ => rfl) _).seq fun _ => h.side fun _ => rfl
  have hanswer : Keeps I (answerBladeReplies env.steady) :=
    Keeps.read fun _ => (h.emitMap (fun _ => rfl) _).seq fun _ => h.side fun _ => rfl
  have hended : ∀ env, Keeps I (endFailedBladeTestLocked env) := h.endFailed
  have hsend : Triple I (sendBlade env) fun _ => L := by
    refine Triple.peek fun n => Triple.ite (fun _ => Triple.pure hlater) fun _ => ?_
    refine Keeps.seq (h.side fun _ => rfl) fun _ => ?_
    split
    · exact Triple.pure hlater
    · exact hhand _
  exact triple_driveBladeLocked hexpire (hended _) (h.permitBlade _ _ _) (h.updateBlade _)
    (Keeps.read fun _ => (hended _).when) hpromote (h.timeOutBladeReplies _) hforget hanswer
    (Keeps.read fun _ => (hended _).when) hsend

/-- A drive keeps what does not read the expectations and survives every emission. -/
theorem driveBladeLocked_unwired (hwires : ∀ n l wires, I n l → I { n with bladeWireExpectations := wires } l)
    (hemit : ∀ n l e, I n l → I n (l ++ [e])) (env : BladeEnv) : Keeps I (Bridge.driveBladeLocked env) := by
  refine h.driveBladeLocked (fun _ _ => id) (Keeps.update fun n l => hwires n l _) fun command => ?_
  refine Keeps.ite (h.updateBlade _)
    (Keeps.seq (Keeps.update fun n l => hwires n l _) fun _ => Keeps.read fun n => ?_)
  exact Keeps.seq (Triple.emit fun n l => hemit n l _) fun _ => h.side fun _ => rfl

theorem answerOff (header : Nat) (result : BladeControl.Result) (env : Env) : Keeps I (answerOff header result env) :=
  Keeps.read fun _ => Keeps.ite (h.side fun _ => rfl) (h.replyBlade _ _)

end Aside

/-! ### The callbacks -/

/-- `I i` holds after the first `i` blade drives of a callback. -/
structure Paced (env : Env) (I : Nat → Assertion) : Prop where
  aside : ∀ i, Aside (I i)
  later : ∀ {i n l}, I i n l → I (i + 1) n l
  drive : ∀ i, Triple (I i) (driveBladeLocked (env.blade i)) fun _ => I (i + 1)

theorem Aside.paced {I : Assertion} (h : Aside I) {env : Env}
    (hdrive : ∀ env, Keeps I (Bridge.driveBladeLocked env)) :
    Paced env fun _ => I where
  aside _ := h
  later := id
  drive i := hdrive (env.blade i)

namespace Paced
variable {I : Nat → Assertion} {env : Env} (h : Paced env I)
include h

/-- A callback that may make its first blade drive. -/
theorem sometimes {α : Type} {x : Program α} (hx : Keeps (I 0) x) : Triple (I 0) x fun _ => I 1 :=
  hx.weaken (fun _ _ => id) fun _ _ _ => h.later

theorem skip {α : Type} {a : α} : Triple (I 0) (pure a : Program α) fun _ => I 1 := h.sometimes Keeps.skip

theorem when {c : Prop} [Decidable c] {x : Program Unit} (hx : Triple (I 0) x fun _ => I 1) :
    Triple (I 0) (Prog.when c x) fun _ => I 1 :=
  Triple.when (fun _ => hx) fun _ _ _ => h.later

theorem drives (i : Nat) :
    Triple (I 0) (do
      driveSessionLocked (env.session i)
      driveBladeLocked (env.blade 0)) fun _ => I 1 :=
  ((h.aside 0).driveSessionLocked _).seq fun _ => h.drive 0

theorem requestSafetyDisarm (hold : Bool) : Triple (I 0) (requestSafetyDisarm hold env) fun _ => I 1 := by
  refine Keeps.seq ((h.aside 0).side fun _ => rfl) fun _ => (h.aside 0).cancelPendingBladeStarts.seq fun _ => ?_
  refine ((h.aside 0).updateBlade _).seq fun _ => (h.aside 0).neutral.seq fun _ => ?_
  refine Keeps.seq ((h.aside 0).side fun _ => rfl) fun _ => (h.drive 0).seq fun _ => ?_
  exact ((h.aside 1).driveSessionLocked _).seq fun _ => Keeps.read fun _ => Keeps.skip

theorem onSetParameters (parameters : List Parameter) :
    Triple (I 0) (onSetParameters parameters env) fun _ => I 1 := by
  refine Triple.peek fun n => ?_
  split
  · exact h.skip
  · refine Keeps.seq ((h.aside 0).side fun n => ?_) fun _ => h.when ?_
    · obtain ⟨linear, yaw, hscale⟩ := foldl_setScale parameters n
      rw [hscale]
      rfl
    · exact Keeps.seq ((h.aside 0).side fun _ => rfl) fun _ => ((h.aside 0).updateBlade _).seq fun _ => h.drive 0

theorem onBladeOutput (message : RCOut) : Triple (I 0) (onBladeOutput message env) fun _ => I 1 := by
  refine Triple.peek fun n => Triple.ite (fun _ => h.skip) fun _ => ?_
  split
  · exact h.skip
  · refine Triple.ite (fun _ => ?_) fun _ => h.skip
    exact Keeps.seq ((h.aside 0).side fun _ => rfl) fun _ => ((h.aside 0).updateBlade _).seq fun _ => h.drive 0

omit h in
theorem onCmdVel (h : Aside (I 0)) (twist : Twist) : Keeps (I 0) (onCmdVel twist env) := by
  refine (h.driveSessionLocked _).seq fun _ => ?_
  split
  · exact Keeps.read fun n => h.neutral.ite ((h.publishGuided _ _ _).ite (h.emitOther rfl))
  · exact Keeps.skip

/-- The blade drive at the end of a motion session comes before the one of every message. -/
theorem onHighLevelStatus (state : UInt8) : Triple (I 0) (onHighLevelStatus state env) fun _ => I 2 := by
  have h0 := h.aside 0
  refine Triple.peek fun n => Keeps.seq (h0.side fun _ => rfl) fun _ => Triple.seq (R := I 1) (h.when ?_) fun _ => ?_
  · refine Keeps.seq (h0.side fun _ => rfl) fun _ => h0.cancelPendingBladeStarts.seq fun _ => ?_
    exact (h0.updateBlade _).seq fun _ => h0.neutral.seq fun _ => h.drive 0
  · exact ((h.aside 1).driveSessionLocked _).seq fun _ => h.drive 1

theorem onMavrosSysStatus (present enabled : Bool) :
    Triple (I 0) (onMavrosSysStatus present enabled env) fun _ => I 1 := by
  refine Triple.peek fun n => h.when (Keeps.seq ((h.aside 0).side fun n => ?_) fun _ => h.when ?_)
  · unfold SafetyState.observeMotorOutputs
    split <;> rfl
  · exact (h.requestSafetyDisarm true).seq fun _ => Keeps.skip

theorem onMavrosImu (tilted : Bool) : Triple (I 0) (onMavrosImu tilted env) fun _ => I 1 := by
  refine Triple.peek fun n => Triple.ite (fun _ => ?_) fun _ => h.sometimes ((h.aside 0).side fun _ => rfl)
  refine Keeps.seq ((h.aside 0).side fun _ => rfl) fun _ => h.when ?_
  exact (h.requestSafetyDisarm false).seq fun _ => Keeps.skip

theorem onEscTelemetry (message : EscObservation) : Triple (I 0) (onEscTelemetry message env) fun _ => I 1 := by
  refine Triple.peek fun n => h.when (Keeps.seq ((h.aside 0).side fun _ => rfl) fun _ => h.when ?_)
  exact Triple.peek fun n => ((h.aside 0).updateBlade _).seq fun _ => h.drive 0

theorem onEmergencyStop (emergency : UInt8) : Triple (I 0) (onEmergencyStop emergency env) fun _ => I 1 := by
  refine Keeps.seq ((h.aside 0).side fun _ => rfl) fun _ => Triple.ite (fun _ => ?_) fun _ => ?_
  · refine Keeps.seq ((h.aside 0).side fun _ => rfl) fun _ => ((h.aside 0).driveSessionLocked _).seq fun _ => ?_
    exact (h.drive 0).seq fun _ => (h.aside 1).emitOther rfl
  · exact (h.requestSafetyDisarm true).seq fun _ => (h.aside 1).emitOther rfl

theorem onMowerOff (header : Nat) : Triple (I 0) (onMowerOff header env) fun _ => I 1 := by
  have h0 := h.aside 0
  refine h0.cancelPendingBladeStarts.seq fun _ => Keeps.seq (h0.side fun _ => rfl) fun _ => Triple.peek fun n => ?_
  refine Keeps.seq (Keeps.when ((h0.updateSession _).seq fun _ => h0.permitBlade _ _ _)) fun _ => ?_
  refine (h0.requestBlade _ _).seq fun result => (h0.answerOff header result env).seq fun _ => ?_
  exact (h.drive 0).seq fun _ => (h.aside 1).driveSessionLocked _

theorem startBlade (header : Nat) (direction : BladeControl.Direction) :
    Triple (I 1) (startBlade header direction env) fun _ => I 2 := by
  have h1 := h.aside 1
  have hlater : ∀ {x : Program Unit}, Keeps (I 1) x → Triple (I 1) x fun _ => I 2 := fun hx =>
    hx.weaken (fun _ _ => id) fun _ _ _ => h.later
  refine Triple.peek fun n => Triple.ite (fun _ => hlater (Keeps.ite (h1.replyBlade _ _) (h1.side fun _ => rfl))) ?_
  intro _
  refine (h1.permitBlade _ _ _).seq fun _ => (h1.requestBlade _ _).seq fun result => ?_
  exact (h1.answerRequest _ _ _).seq fun _ => h.drive 1

theorem onMowerOn (header : Nat) (direction : BladeControl.Direction) :
    Triple (I 0) (onMowerOn header direction env) fun _ => I 2 := by
  have h0 := h.aside 0
  have h1 := h.aside 1
  have hlater : ∀ {x : Program Unit}, Keeps (I 1) x → Triple (I 1) x fun _ => I 2 := fun hx =>
    hx.weaken (fun _ _ => id) fun _ _ _ => h.later
  refine Triple.peek fun n => Keeps.seq (Keeps.when h0.cancelPendingBladeStarts) fun _ => ?_
  refine (h0.driveSessionLocked _).seq fun _ => (h.drive 0).seq fun _ => Triple.peek fun n => ?_
  refine Triple.ite (fun _ => hlater (h1.replyBlade _ _)) fun _ => Keeps.seq (Keeps.when ?_) fun _ => ?_
  · exact Keeps.seq (h1.side fun _ => rfl) fun _ => h1.neutral
  · refine (h1.driveSessionLocked _).seq fun _ => Triple.peek fun n => Triple.ite (fun _ => ?_) fun _ => ?_
    · exact hlater ((h1.endFailed _).seq fun _ => h1.replyBlade _ _)
    · exact h.startBlade _ _

/-- Every callback makes at most two blade drives. -/
theorem callback (c : Callback) (hwrites : c.Writes → Triple (I 0) (c.program env) fun _ => I 2) :
    Triple (I 0) (c.program env) fun _ => I 2 := by
  have h0 := h.aside 0
  have hlater : ∀ {x : Program Unit}, (Triple (I 0) x fun _ => I 1) → Triple (I 0) x fun _ => I 2 := fun hx =>
    hx.weaken (fun _ _ => id) fun _ _ _ => h.later
  cases c with
  | setParameters parameters => exact hlater (h.onSetParameters parameters)
  | bladeOutput message => exact hlater (h.onBladeOutput message)
  | cmdVel twist => exact hlater (h.sometimes (onCmdVel h0 twist))
  | highLevelStatus state => exact h.onHighLevelStatus state
  | mavrosSysStatus present enabled => exact hlater (h.onMavrosSysStatus present enabled)
  | mavrosImu tilted => exact hlater (h.onMavrosImu tilted)
  | escTelemetry message => exact hlater (h.onEscTelemetry message)
  | mowerControl header mowEnabled mowDirection =>
    refine Triple.ite (fun _ => hlater (h.sometimes (h0.replyBlade _ _))) fun _ => ?_
    exact Triple.ite (fun _ => hlater (h.onMowerOff header)) fun _ => h.onMowerOn header _
  | emergencyStop emergency => exact hlater (h.onEmergencyStop emergency)
  | rebootBoard =>
    exact hlater (h.sometimes ((h0.emitOther rfl).ite ((h0.emitOther rfl).seq fun _ => h0.emitOther rfl)))
  | bladeTimer => exact hlater (h.drives 0)
  | modeResponse serial response =>
    exact hlater (Keeps.seq (h0.side fun _ => rfl) fun _ => (h0.updateSession _).seq fun _ => h.drives 0)
  | armResponse serial response =>
    exact hlater (Keeps.seq (h0.side fun _ => rfl) fun _ => (h0.updateSession _).seq fun _ => h.drives 0)
  | servoResponse token response =>
    exact hlater (Keeps.seq (h0.side fun _ => rfl) fun _ => (h0.updateBlade _).seq fun _ => h.drive 0)
  | bladeWire message => exact hwrites trivial
  | mavrosState message => exact hwrites trivial
  | buttonChange state => exact hwrites trivial

end Paced

end Bridge
end MowgliMavros
