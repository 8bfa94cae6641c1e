import MowgliMavros.BridgeRefine

/-!
# The session side of the node

`BladeFree I` says that `I` is about what the blade side does not touch: such an assertion survives
`drive_blade_locked` up to the end of a failed blade test. What `drive_session_locked` demands is
`Node.wants`, which depends on the node alone and not on the clock.
-/

namespace MowgliMavros
namespace Bridge
open Prog (Triple Keeps)

def Effect.isBlade : Effect → Bool
  | servo _ _ _ _ | mowerReply _ _ _ | removePendingRequest _ _ => true
  | _ => false

/-- What the blade side does not write, but for the end of a failed blade test. -/
def Node.sessionSide (n : Node) :=
  (n.sessionControl, n.mavrosState, n.safetyState, n.highLevelState, n.bladeTestActive, n.tractionWasReady,
    n.tiltDisarmSent, n.sessionRpcIds, n.provider)

structure BladeFree (I : Assertion) : Prop where
  frame : ∀ {n n' l}, n'.sessionSide = n.sessionSide → I n l → I n' l
  emit : ∀ n l e, e.isBlade = true → I n l → I n (l ++ [e])

namespace BladeFree
variable {I : Assertion} (h : BladeFree I)
include h

theorem side {f : Node → Node} (hf : ∀ n, (f n).sessionSide = n.sessionSide) : Keeps I (Prog.update f) :=
  Keeps.update fun n _ => h.frame (hf n)

theorem updateBlade (f : BladeControl → BladeControl) : Keeps I (updateBlade f) := h.side fun _ => rfl

theorem emitBlade {e : Effect} (he : e.isBlade = true) : Keeps I (Prog.emit e) :=
  Triple.emit fun n l => h.emit n l e he

theorem emitMap {α : Type} {f : α → Effect} (hf : ∀ a, (f a).isBlade = true) (as : List α) :
    Keeps I (Prog.emitAll (as.map f)) :=
  Keeps.emitMap (fun a n l => h.emit n l (f a) (hf a)) as

theorem replyBlade (header : Nat) (success : Bool) : Keeps I (replyBlade header success) :=
  Keeps.read fun _ => h.emitBlade rfl

theorem cancelPendingBladeStarts : Keeps I cancelPendingBladeStarts :=
  Keeps.read fun _ => (Keeps.forEach fun pending _ => h.replyBlade pending.header false).seq fun _ =>
    h.side fun _ => rfl

theorem permitBlade (steady nowNs now : Int) : Keeps I (permitBlade steady nowNs now) :=
  h.side fun _ => rfl

theorem requestBlade (direction : BladeControl.Direction) (steady : Int) :
    Keeps I (requestBlade direction steady) :=
  keeps_requestBlade fun _ _ => h.frame rfl

theorem answerRequest (header : Nat) (result : BladeControl.Result) (startedMs : Int) :
    Keeps I (answerRequest header result startedMs) :=
  Keeps.read fun _ => Keeps.ite (h.side fun _ => rfl) (h.replyBlade _ _)

theorem answerOff (header : Nat) (result : BladeControl.Result) (env : Env) :
    Keeps I (answerOff header result env) :=
  Keeps.read fun _ => Keeps.ite (h.side fun _ => rfl) (h.replyBlade _ _)

theorem timeOutBladeReplies (steady : Int) : Keeps I (timeOutBladeReplies steady) :=
  Keeps.update fun n l hi => by
    split
    · refine h.frame ?_ hi; rfl
    · exact hi

theorem sendBlade (env : BladeEnv) : Keeps I (sendBlade env) := by
  refine keeps_sendBlade (fun _ _ => h.frame rfl) fun command => Keeps.ite (h.updateBlade _) ?_
  refine Keeps.seq (h.side fun _ => rfl) fun _ => Keeps.read fun n => ?_
  exact (h.emitBlade rfl).seq fun _ => h.side fun _ => rfl

theorem driveBladeLocked (hended : ∀ env, Keeps I (endFailedBladeTestLocked env)) (env : BladeEnv) :
    Keeps I (driveBladeLocked env) := by
  have hwire : Keeps I (expireWireExpectations env.steady) := h.side fun _ => rfl
  have hpromote : ∀ emergency, Keeps I (promoteBladeStarts emergency env.steady) := fun emergency =>
    keeps_promoteBladeStarts h.replyBlade (h.requestBlade · _) h.answerRequest (fun _ _ _ => h.frame rfl) emergency
  have hforget : Keeps I forgetBladeRpcs :=
    Keeps.read fun _ => (h.emitMap (fun _ => rfl) _).seq fun _ => h.side fun _ => rfl
  have hanswer : Keeps I (answerBladeReplies env.steady) :=
    Keeps.read fun _ => (h.emitMap (fun _ => rfl) _).seq fun _ => h.side fun _ => rfl
  exact keeps_driveBladeLocked hwire (hended _) (h.permitBlade _ _ _) (h.updateBlade _) hended hpromote
    (h.timeOutBladeReplies _) hforget hanswer (h.sendBlade env)

end BladeFree

/-! ### The demand -/

/-- The session controller observed the FCU state of `n`. -/
def Sees (n : Node) (s : FcuSessionController) : Prop :=
  (s.connected, s.armed, s.mode) = (n.mavrosState.connected, n.mavrosState.armed, n.mavrosState.mode)

section Demand
variable (n : Node)

@[simp] theorem emergency_flags (nowNs : Int) :
    n.emergency nowNs = (n.safetyState.flags.activeEmergency || n.safetyState.flags.latchedEmergency) := by
  simp [Node.emergency]

@[simp] theorem holdEmergency_flags (nowNs : Int) :
    n.holdEmergency nowNs = (n.safetyState.flags.reason == "HARDWARE_SAFETY_SWITCH" ||
      n.safetyState.flags.reason == "SERVICE_EMERGENCY_STOP") := by
  simp [Node.holdEmergency]

/-- The mode, the arming and the safety flag that `drive_session_locked` demands. -/
def Node.wants : String × Bool × Bool :=
  (n.sessionMode 0, !n.emergency 0 && (n.motionSessionActive || n.bladeTestActive), n.emergency 0)

/-- The demand of `drive_session_locked` stands. -/
def Aimed (n : Node) (s : FcuSessionController) : Prop := (s.wantedMode, s.wantedArm, s.safetyDisarm) = n.wants

variable {n}

/-- Only `observe` changes what was observed. -/
theorem Sees.apply {s : FcuSessionController} (h : Sees n s) (op : FcuSessionController.Op)
    (hop : ∀ c a m, op ≠ .observe c a m) : Sees n (s.apply op) :=
  (session_apply_observed s op hop).trans h

theorem sessionMode_clock (nowNs : Int) : n.sessionMode nowNs = n.sessionMode 0 := by simp [Node.sessionMode]

theorem emergency_clock (nowNs : Int) : n.emergency nowNs = n.emergency 0 := by simp

theorem demand_stands (s : FcuSessionController) (mode : String) (arm safety : Bool) :
    ((s.demand mode arm safety).wantedMode, (s.demand mode arm safety).wantedArm,
      (s.demand mode arm safety).safetyDisarm) = (mode, arm, safety) := by
  unfold FcuSessionController.demand
  split
  · rename_i h; rw [h.1, h.2.1, h.2.2]
  · rfl

theorem aimed_of_view {s s' : FcuSessionController} (hv : s'.view = s.view) (h : Aimed n s) : Aimed n s' := by
  obtain ⟨hm, ha, hs⟩ := FcuSessionController.view_wanted hv
  unfold Aimed; rw [hm, ha, hs]; exact h

end Demand

end Bridge
end MowgliMavros
