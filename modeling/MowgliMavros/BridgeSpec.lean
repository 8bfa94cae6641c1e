import MowgliMavros.BridgeWalk

/-!
# What the callbacks keep

`Stable I` lists the updates that every program of the node is made of, apart from the ON requests and
the servo sends of the blade. A stable assertion that also survives `drive_blade_locked` survives every
callback but an ON (`Stable.callback`), and an ON too when neither the queue of starts nor the requested
direction matters to it (`Indifferent.onMowerOn`).
-/

namespace MowgliMavros
namespace Bridge
open Prog (Triple Keeps)

def Effect.isServo : Effect → Bool
  | servo _ _ _ _ => true
  | _ => false

/-- Not a request for FWD or REV. -/
def Quiet (op : BladeControl.Op) : Prop := ∀ d now, op = .request d now → d = .off

structure Stable (I : Assertion) : Prop where
  frame : ∀ {n n' l}, n'.bladeControl = n.bladeControl → n'.sessionControl = n.sessionControl →
    n'.mavrosState = n.mavrosState → n'.pendingBladeStarts = n.pendingBladeStarts → I n l → I n' l
  cancel : ∀ n l, I n l → I { n with pendingBladeStarts := [] } l
  blade : ∀ n l op, Quiet op → I n l → I { n with bladeControl := n.bladeControl.apply op } l
  session : ∀ n l op, op.Safe → (∀ c a m, op ≠ .observe c a m) → I n l →
    I { n with sessionControl := n.sessionControl.apply op } l
  observe : ∀ n l (m : FcuState), I n l → I { n with
    mavrosState := m, sessionControl := n.sessionControl.observe m.connected m.armed m.mode } l
  emit : ∀ n l e, e.isServo = false → I n l → I n (l ++ [e])

@[simp] theorem commandRequest_isServo (command : FcuSessionController.Command) (asked : FcuSessionController)
    (n : Node) : (commandRequest command asked n).isServo = false := by
  unfold commandRequest; split <;> rfl

/-! ### Stable assertions -/

theorem Stable.and {I J : Assertion} (hi : Stable I) (hj : Stable J) : Stable fun n l => I n l ∧ J n l where
  frame hb hs hm hp h := ⟨hi.frame hb hs hm hp h.1, hj.frame hb hs hm hp h.2⟩
  cancel n l h := ⟨hi.cancel n l h.1, hj.cancel n l h.2⟩
  blade n l op hop h := ⟨hi.blade n l op hop h.1, hj.blade n l op hop h.2⟩
  session n l op hop hno h := ⟨hi.session n l op hop hno h.1, hj.session n l op hop hno h.2⟩
  observe n l m h := ⟨hi.observe n l m h.1, hj.observe n l m h.2⟩
  emit n l e he h := ⟨hi.emit n l e he h.1, hj.emit n l e he h.2⟩

theorem Stable.forall_log {P : Effect → Prop} (hP : ∀ e, e.isServo = false → P e) :
    Stable fun _ l => ∀ e ∈ l, P e where
  frame _ _ _ _ h := h
  cancel _ _ h := h
  blade _ _ _ _ h := h
  session _ _ _ _ _ h := h
  observe _ _ _ h := h
  emit n l e he h e' he' := by
    rcases List.mem_append.1 he' with hl | hl
    · exact h e' hl
    · rw [List.mem_singleton.1 hl]; exact hP e he

namespace Stable
variable {I : Assertion} (h : Stable I)
include h

/-- An update of the fields a stable assertion does not read. -/
theorem side {f : Node → Node} (hf : ∀ n, ((f n).bladeControl, (f n).sessionControl, (f n).mavrosState,
      (f n).pendingBladeStarts) = (n.bladeControl, n.sessionControl, n.mavrosState, n.pendingBladeStarts)) :
    Keeps I (Prog.update f) := by
  refine Keeps.update fun n l hi => ?_
  have hn := hf n
  simp only [Prod.mk.injEq] at hn
  exact h.frame hn.1 hn.2.1 hn.2.2.1 hn.2.2.2 hi

theorem updateBlade {f : BladeControl → BladeControl} (op : BladeControl.Op) (hop : Quiet op)
    (hf : ∀ b, f b = b.apply op) : Keeps I (updateBlade f) :=
  Keeps.update fun n l hi => by
    simp only [hf]; exact h.blade n l op hop hi

theorem forceOff (now : Int) : Keeps I (Bridge.updateBlade (·.forceOff now)) :=
  h.updateBlade (.forceOff now) (by simp [Quiet]) fun _ => rfl

theorem demand (n : Node) (l : List Effect) (mode : String) (arm safety : Bool)
    (hsafe : safety = true → arm = false) (hi : I n l) :
    I { n with sessionControl := n.sessionControl.demand mode arm safety } l :=
  h.session n l (.demand mode arm safety) hsafe (by simp) hi

theorem completeSession (serial : Nat) (accepted : Bool) (now : Int) :
    Keeps I (updateSession (·.complete serial accepted now)) :=
  Keeps.update fun n l => h.session n l (.complete serial accepted now) trivial (by simp)

theorem emitOther {e : Effect} (he : e.isServo = false) : Keeps I (Prog.emit e) :=
  Triple.emit fun n l => h.emit n l e he

theorem emitMap {α : Type} {f : α → Effect} (hf : ∀ a, (f a).isServo = false) (as : List α) :
    Keeps I (Prog.emitAll (as.map f)) :=
  Keeps.emitMap (fun a n l => h.emit n l (f a) (hf a)) as

theorem replyBlade (header : Nat) (success : Bool) : Keeps I (replyBlade header success) :=
  Keeps.read fun _ => h.emitOther rfl

theorem cancelPendingBladeStarts : Keeps I cancelPendingBladeStarts :=
  Keeps.read fun _ => (Keeps.forEach fun pending _ => h.replyBlade pending.header false).seq fun _ =>
    Keeps.update fun n l => h.cancel n l

theorem publishGuided (source : Option Twist) (linearX angularZ : Rat) :
    Keeps I (publishGuided source linearX angularZ) :=
  keeps_publishGuided (fun _ _ _ => h.emitOther rfl) source linearX angularZ

theorem publishNeutralManualControl : Keeps I publishNeutralManualControl :=
  keeps_publishNeutralManualControl (fun _ _ _ => h.emitOther rfl) fun _ _ _ => h.emitOther rfl

theorem endBladeTest : Keeps I (Prog.update fun n => { n with bladeTestActive := false }) :=
  h.side fun _ => rfl

theorem endFailedBladeTestLocked (env : EndEnv) : Keeps I (endFailedBladeTestLocked env) := by
  refine Keeps.read fun n => Keeps.skip.ite ?_
  exact h.endBladeTest.seq fun _ => h.cancelPendingBladeStarts.seq fun _ => (h.forceOff env.steady).seq fun _ =>
    h.publishNeutralManualControl.seq fun _ => Keeps.update fun n l => h.demand n l "HOLD" false _ fun _ => rfl

/-! ### `drive_session_locked` -/

theorem demandSession (env : SessionEnv) : Keeps I (demandSession env) := by
  refine Keeps.update fun n l hi => ?_
  have hsafe : ∀ emergency wanted : Bool, emergency = true → (!emergency && wanted) = false := by
    rintro emergency wanted rfl; rfl
  exact h.session _ l (.tick env.steady) trivial (by simp) (h.demand n l _ _ _ (hsafe _ _) hi)

theorem neutralizeTraction (env : SessionEnv) : Keeps I (neutralizeTraction env) :=
  Keeps.read fun _ => Keeps.seq h.publishNeutralManualControl.when fun _ =>
    h.side fun _ => rfl

theorem forgetSessionRpcs : Keeps I forgetSessionRpcs :=
  Keeps.read fun _ => (h.emitMap (fun _ => rfl) _).seq fun _ => h.side fun _ => rfl

theorem handSession (command : FcuSessionController.Command) (asked : FcuSessionController) (env : SessionEnv) :
    Keeps I (handSession command asked env) := by
  refine Keeps.seq h.publishNeutralManualControl.when fun _ => Keeps.ite ?_ ?_
  · exact h.completeSession _ _ _
  · exact Keeps.read fun n => (h.emitOther (by simp)).seq fun _ => h.side fun _ => rfl

theorem sendSession (env : SessionEnv) : Keeps I (sendSession env) := by
  refine Triple.read fun n => ?_
  refine Triple.bind (R := fun _ => I) (Triple.update ?_) fun _ => ?_
  · rintro _ l ⟨rfl, hi⟩
    exact h.session _ l (.next _ _ _ _) trivial (by simp) hi
  · split
    · exact Keeps.skip
    · exact h.handSession _ _ env

theorem driveSessionLocked (env : SessionEnv) : Keeps I (driveSessionLocked env) :=
  triple_driveSessionLocked (h.demandSession env) (h.neutralizeTraction env) (h.endFailedBladeTestLocked env.ended)
    h.forgetSessionRpcs (h.sendSession env) (Keeps.read fun _ => h.emitOther rfl)

/-! ### `drive_blade_locked` -/

theorem expireWireExpectations (steady : Int) : Keeps I (expireWireExpectations steady) :=
  h.side fun _ => rfl

theorem permitBlade (steady nowNs now : Int) : Keeps I (permitBlade steady nowNs now) :=
  Keeps.update fun n l => h.blade n l (.permission _ now) (by simp [Quiet])

theorem forgetBladeRpcs : Keeps I forgetBladeRpcs :=
  Keeps.read fun _ => (h.emitMap (fun _ => rfl) _).seq fun _ => h.side fun _ => rfl

theorem answerBladeReplies (steady : Int) : Keeps I (answerBladeReplies steady) :=
  Keeps.read fun _ => (h.emitMap (fun _ => rfl) _).seq fun _ => h.side fun _ => rfl

theorem timeOutBladeReplies (steady : Int) : Keeps I (timeOutBladeReplies steady) := by
  refine Keeps.update fun n l hi => ?_
  split
  · exact h.blade n l (.serviceTimeout steady) (by simp [Quiet]) hi
  · exact hi

theorem answerRequest (header : Nat) (result : BladeControl.Result) (startedMs : Int) :
    Keeps I (answerRequest header result startedMs) :=
  Keeps.read fun _ => Keeps.ite (h.side fun _ => rfl) (h.replyBlade _ _)

theorem sendBlade (hservo : ∀ n l e, I n l → I n (l ++ [e])) (env : BladeEnv) : Keeps I (sendBlade env) := by
  refine keeps_sendBlade (fun n l => h.blade n l _ (by simp [Quiet])) fun command => Keeps.ite ?_ ?_
  · exact h.updateBlade (.complete _ false _) (by simp [Quiet]) fun _ => rfl
  · exact Keeps.seq (h.side fun _ => rfl) fun _ => Keeps.read fun n =>
      Keeps.seq (Triple.emit fun n l => hservo n l _) fun _ => h.side fun _ => rfl

theorem driveBladeLocked (env : BladeEnv)
    (hpromote : ∀ emergency, Keeps I (Bridge.promoteBladeStarts emergency env.steady))
    (hsend : Keeps I (Bridge.sendBlade env)) : Keeps I (driveBladeLocked env) :=
  keeps_driveBladeLocked (h.expireWireExpectations _) (h.endFailedBladeTestLocked _) (h.permitBlade _ _ _)
    (h.updateBlade (.tick env.steady) (by simp [Quiet]) fun _ => rfl) h.endFailedBladeTestLocked hpromote
    (h.timeOutBladeReplies _) h.forgetBladeRpcs (h.answerBladeReplies _) hsend

/-! ### The callbacks -/

section Callbacks
variable (hdrive : ∀ env, Keeps I (Bridge.driveBladeLocked env))
include hdrive

theorem walk : Walk I where
  books hf := h.side fun n => by
    have hn := hf n
    simp only [Node.walked, Prod.mk.injEq] at hn ⊢
    exact ⟨hn.2.1, hn.2.2.1, hn.2.2.2.2.2.2.2.2.2.1, hn.2.2.2.2.2.1⟩
  endTest := h.endBladeTest
  heard message env := Keeps.update fun n l hi => by
    have hblade := h.blade n l (.connection message.connected (env.steady 0)) (by simp [Quiet]) hi
    refine h.frame ?_ ?_ ?_ ?_ hblade <;> rfl
  observe message := Keeps.update fun n l => h.observe n l message
  blade op hop := h.updateBlade op (by cases op <;> simp_all [Outside, Quiet]) fun _ => rfl
  demand hold := Keeps.update fun n l => h.demand n l _ false true fun _ => rfl
  complete := h.completeSession
  cancel := h.cancelPendingBladeStarts
  neutral := h.publishNeutralManualControl
  driveSession := h.driveSessionLocked
  driveBlade := hdrive
  answer e he := h.emitOther (by cases e <;> simp_all [Effect.isAnswer, Effect.isServo])

omit hdrive in
theorem safety {f : Node → Node} (hf : ∀ n, ({ f n with
      safetyState := n.safetyState, tiltDisarmSent := n.tiltDisarmSent } : Node).walked = n.walked) :
    Keeps I (Prog.update f) :=
  h.side fun n => by
    have hn := hf n
    simp only [Node.walked, Prod.mk.injEq] at hn ⊢
    exact ⟨hn.2.1, hn.2.2.1, hn.2.2.2.2.2.2.2.2.2.1, hn.2.2.2.2.2.1⟩

omit hdrive in
theorem answerOff (header : Nat) (result : BladeControl.Result) (env : Env) :
    Keeps I (answerOff header result env) :=
  Keeps.read fun _ => Keeps.ite (h.side fun _ => rfl) (h.replyBlade _ _)

theorem onMowerOff (header : Nat) (env : Env) : Keeps I (onMowerOff header env) := by
  refine (h.walk hdrive).onMowerOff header env (fun safety => ?_) h.permitBlade (fun steady => ?_)
    fun result => h.answerOff header result env
  · exact Keeps.update fun n l => h.demand n l "HOLD" false safety fun _ => rfl
  · exact keeps_requestBlade fun n l => h.blade n l (.request .off steady) (by simp [Quiet])

theorem callback (c : Callback) (env : Env)
    (hon : c.IsOn → ∀ header direction, Keeps I (Bridge.onMowerOn header direction env)) :
    Keeps I (c.program env) := by
  have hwalk := h.walk hdrive
  refine hwalk.callback_plain (fun _ _ _ => h.emitOther rfl) (fun _ _ _ => h.emitOther rfl) h.safety
    (fun _ => h.side fun _ => rfl) c env ?_ ?_
  · rintro header mowEnabled mowDirection rfl
    exact Walk.onMowerControl header mowEnabled mowDirection env (h.replyBlade header false)
      (h.onMowerOff hdrive header env) fun he hd => hon ⟨he, hd⟩ header
  · rintro token response -
    refine hwalk.onServoResponse token response env fun accepted => ?_
    exact h.updateBlade (.complete token accepted _) (by simp [Quiet]) fun _ => rfl

end Callbacks

end Stable

/-- A stable assertion that the queue of starts and the requested direction do not matter to. -/
structure Indifferent (I : Assertion) : Prop extends Stable I where
  starts : ∀ n l starts, I n l → I { n with pendingBladeStarts := starts } l
  request : ∀ n l d now, I n l → I { n with bladeControl := n.bladeControl.apply (.request d now) } l

namespace Indifferent
variable {I : Assertion} (h : Indifferent I)
include h

theorem requestBlade (direction : BladeControl.Direction) (steady : Int) :
    Keeps I (requestBlade direction steady) :=
  keeps_requestBlade fun n l => h.request n l direction steady

theorem promoteBladeStarts (emergency : Bool) (steady : Int) : Keeps I (promoteBladeStarts emergency steady) :=
  keeps_promoteBladeStarts h.replyBlade (fun d => h.requestBlade d steady) h.answerRequest h.starts emergency

theorem onMowerOn (hdrive : ∀ env, Keeps I (Bridge.driveBladeLocked env)) (header : Nat)
    (direction : BladeControl.Direction) (env : Env) : Keeps I (onMowerOn header direction env) := by
  have hstart : Keeps I (startBlade header direction env) := by
    refine Keeps.read fun n => Keeps.ite (Keeps.ite (h.replyBlade _ _) (Keeps.update fun n l => h.starts n l _)) ?_
    exact (h.permitBlade _ _ _).seq fun _ => (h.requestBlade _ _).seq fun _ => (h.answerRequest _ _ _).seq fun _ =>
      hdrive _
  exact (h.walk hdrive).onMowerOn header direction env (h.replyBlade header false) (h.endFailedBladeTestLocked _)
    (fun _ _ => Triple.pre (h.side fun _ => rfl) fun _ _ => And.right) hstart

/-- An invariant of the node and of what it has handed out holds after every run. -/
theorem run {l : Launch} (hinit : I l.node []) (hdrive : ∀ env, Keeps I (Bridge.driveBladeLocked env))
    (run : List (Callback × Env)) : I (reach l run) (trace l run) :=
  Machine.history (m := machine) (H := fun log n => I n log)
    (fun log n c hi _ => h.callback hdrive c.1 c.2 (fun _ header direction =>
      h.onMowerOn hdrive header direction c.2) n log hi)
    hinit (Machine.along_of_forall (A := fun _ => True) fun _ _ => trivial)

end Indifferent

end Bridge
end MowgliMavros
