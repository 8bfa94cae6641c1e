import MowgliMavros.BridgeAuthority
import MowgliMavros.BridgeBlade

/-!
# Traction, ARM and MODE in every run

The callbacks keep `Guarded`, and `LiftRepeated` names the one that need not: a double lift reported
again after a link loss, which raises an emergency over an isolated blade test without the safety DISARM.
-/

namespace MowgliMavros
namespace Bridge
open Machine (Throughout)
open Prog (Triple Keeps)

/-- A BUTTON_CHANGE with both wheels lifted during an isolated blade test, after one with both lifted. -/
def LiftRepeated (n : Node) : Callback → Prop
  | .buttonChange state => n.mavrosState.connected = true ∧ n.bladeTestActive = true ∧
      n.motionSessionActive = false ∧ n.doubleLiftDisarmSent = true ∧
      (n.safetyState.observeButtonChange state 0).doubleLift = true
  | _ => False

/-- `Guarded`, up to an emergency during a blade test. -/
def Loose (p : Prop) : Assertion := fun n log =>
  Gate p n log ∧ (p ∨ (n.tiltDisarmSent = true → n.safetyState.tiltActive = true))

variable {p : Prop} {n n' : Node} {log : List Effect}

theorem emergency_safety (nowNs : Int) : n.emergency nowNs = n.safetyState.emergency := by
  rw [emergency_flags]; rfl

theorem Loose.endTest :
    Triple (Loose p) (Prog.update fun n => { n with bladeTestActive := false }) fun _ => Guarded p :=
  Triple.update fun _ _ h => ⟨h.1.congr h.1.sees rfl rfl, h.2.imp_right fun ht => ⟨by simp, ht⟩⟩

/-- A change of the safety state that raises no emergency. -/
theorem Guarded.safety (h : Guarded p n log)
    (hn : ({ n' with safetyState := n.safetyState, tiltDisarmSent := n.tiltDisarmSent } : Node).walked = n.walked)
    (htilt : n'.tiltDisarmSent = true → n'.safetyState.tiltActive = true)
    (hem : (p ∨ n.bladeTestActive = true ∧ n.motionSessionActive = false) → n'.safetyState.emergency = true →
      p ∨ n.safetyState.emergency = true) : Guarded p n' log := by
  simp only [Node.walked, Prod.mk.injEq] at hn
  obtain ⟨hp, -, hs, ht, hr, -, -, -, -, hm, hl⟩ := hn
  refine ⟨h.1.congr ?_ hp hr, ?_⟩
  · unfold Sees; rw [hs, hm]; exact h.1.sees
  · refine h.2.elim .inl fun hc => ?_
    by_cases hp : p
    · exact .inl hp
    refine .inr ⟨fun htest hmotion => ?_, htilt⟩
    have htest' : n.bladeTestActive = true := ht ▸ htest
    have hmotion' : n.motionSessionActive = false := by
      unfold Node.motionSessionActive at hmotion ⊢; rw [← hl]; exact hmotion
    have hcalm := hc.test htest' hmotion'
    rw [emergency_safety] at hcalm ⊢
    by_contra hno
    rcases hem (.inr ⟨htest', hmotion'⟩) (by simpa using hno) with h | h
    · exact hp h
    · rw [hcalm] at h; cases h

theorem guarded_walk : Walk (Guarded p) where
  books hf := Keeps.update fun n l h => by
    have hn := hf n
    simp only [Node.walked, Prod.mk.injEq] at hn
    obtain ⟨hp, -, hs, ht, hr, -, -, htilt, hsafety, hm, hl⟩ := hn
    refine h.frame (by simp [Node.policySide, hp, hm, hsafety, hl, ht, htilt, hr]) ?_
    unfold Sees; rw [hs, hm]; exact h.1.sees
  endTest := Guarded.endTest
  heard message env := Keeps.update fun n l h => by
    refine ⟨h.1.congr h.1.sees rfl rfl, h.2.imp_right fun hc => ⟨fun ht hm => ?_, fun ht => ?_⟩⟩
    · have hcalm := hc.test ht hm
      rw [emergency_safety] at hcalm ⊢
      unfold Node.heard
      dsimp only
      split
      · exact hcalm
      · by_contra hno
        have hem := n.safetyState.emergency_disconnect (by simpa using hno)
        rw [hcalm] at hem; cases hem
    · have hactive := hc.tilt ht
      unfold Node.heard
      dsimp only
      split
      · exact hactive
      · exact hactive
  observe message := Keeps.update fun n l h =>
    ⟨h.1.congr (session_observe_observed n.sessionControl message.connected message.armed message.mode) rfl rfl,
      h.2.imp_right fun hc => ⟨hc.test, hc.tilt⟩⟩
  blade _ _ := guarded_bladeFree.updateBlade _
  demand hold := Keeps.update fun n l h => h.session (.demand _ false true) (by simp)
  complete := Guarded.complete
  cancel := guarded_bladeFree.cancelPendingBladeStarts
  neutral := Guarded.publishNeutral
  driveSession := Guarded.driveSessionLocked
  driveBlade := Guarded.driveBladeLocked
  answer e he := Triple.emit fun n l h => by
    cases e <;> first | (cases he; done) | exact h.emit_inert rfl (by simp) (by simp) (by simp)

theorem Loose.safetyDisarm (hold : Bool) (env : Env) :
    Triple (Loose p) (requestSafetyDisarm hold env) fun _ => Guarded p :=
  guarded_walk.safetyDisarm Loose.endTest

namespace Guarded

theorem onHighLevelStatus (state : UInt8) (env : Env) : Keeps (Guarded p) (onHighLevelStatus state env) := by
  have hw := guarded_walk (p := p)
  refine Triple.read fun n => ?_
  by_cases hends : n.motionSessionActive ∧ ¬ highLevelMotionActive state
  · refine Triple.seq (R := Loose p) (Triple.update ?_) fun _ => ?_
    · rintro n l ⟨rfl, h⟩
      exact ⟨h.1.congr h.1.sees rfl rfl, h.2.imp_right fun hc => hc.tilt⟩
    rw [Prog.when, if_pos hends]
    refine Triple.seq (R := Guarded p) ?_ fun _ => hw.drives env 0 1
    exact Loose.endTest.seq fun _ => hw.cancel.seq fun _ => (hw.forceOff _).seq fun _ => hw.neutral.seq fun _ =>
      hw.driveBlade _
  · rw [Prog.when_neg hends]
    refine Triple.seq (R := Guarded p) (Triple.update ?_) fun _ => Keeps.seq Keeps.skip fun _ => hw.drives env 0 1
    rintro n l ⟨rfl, h⟩
    refine ⟨h.1.congr h.1.sees rfl rfl, h.2.imp_right fun hc => ⟨fun ht hm => hc.test ht ?_, hc.tilt⟩⟩
    by_contra hmotion
    exact hends ⟨by simpa using hmotion, by rw [show highLevelMotionActive state = false from hm]; simp⟩

theorem onMavrosSysStatus (present enabled : Bool) (env : Env) :
    Keeps (Guarded p) (onMavrosSysStatus present enabled env) := by
  refine Triple.read fun n => Triple.ite (fun _ => ?_) fun _ => Triple.pure fun _ _ => And.right
  by_cases hedge : n.safetyState.hardwareSafetyState ≠ .engaged ∧
      (n.safetyState.observeMotorOutputs present enabled).hardwareSafetyState = .engaged
  · refine Triple.seq (R := Loose p) (Triple.update ?_) fun _ => ?_
    · rintro n l ⟨rfl, h⟩
      refine ⟨h.1.congr h.1.sees rfl rfl, h.2.imp_right fun hc ht => ?_⟩
      have hactive := hc.tilt ht
      unfold SafetyState.observeMotorOutputs
      split <;> exact hactive
    · rw [Prog.when, if_pos hedge]
      exact (Loose.safetyDisarm true env).seq fun _ => Keeps.skip
  · rw [Prog.when_neg hedge]
    refine Triple.seq (R := Guarded p) (Triple.update ?_) fun _ => Keeps.skip
    rintro n l ⟨rfl, h⟩
    refine h.2.elim (fun hp => ⟨h.1.congr h.1.sees rfl rfl, .inl hp⟩) fun hc => ?_
    refine h.safety rfl (fun ht => ?_) fun _ hem => .inr ?_
    · have hactive := hc.tilt ht
      unfold SafetyState.observeMotorOutputs
      split <;> exact hactive
    · refine n.safetyState.emergency_observeMotorOutputs (fun hengaged => ?_) hem
      by_contra hno
      exact hedge ⟨hno, hengaged⟩

theorem onButtonChange (state : UInt8) (env : Env) :
    Triple (fun n log => Guarded p n log ∧ (p ∨ ¬ LiftRepeated n (.buttonChange state))) (onButtonChange state env)
      fun _ => Guarded p := by
  refine Triple.read fun n => Triple.ite (fun hconnected => ?_) fun _ => Triple.pure fun _ _ h => h.2.1
  have hsame : (n.safetyState.observeButtonChange state env.nowNs).doubleLift =
      (n.safetyState.observeButtonChange state 0).doubleLift := rfl
  by_cases hedge : (n.safetyState.observeButtonChange state env.nowNs).doubleLift ∧ ¬ n.doubleLiftDisarmSent
  · refine Triple.seq (R := Loose p) (Triple.update ?_) fun _ =>
      Triple.seq (R := Loose p) (Triple.update fun n l h => ⟨h.1.congr h.1.sees rfl rfl, h.2⟩) fun _ => ?_
    · rintro n l ⟨rfl, h, -⟩
      exact ⟨h.1.congr h.1.sees rfl rfl, h.2.imp_right fun hc => hc.tilt⟩
    · rw [Prog.when, if_pos hedge]
      exact (Loose.safetyDisarm false env).seq fun _ => Keeps.skip
  · rw [Prog.when_neg hedge]
    refine Triple.seq (R := Guarded p) (Triple.update ?_) fun _ =>
      Keeps.seq (guarded_walk.books fun _ => rfl) fun _ => Keeps.skip
    rintro n l ⟨rfl, h, hcond⟩
    refine hcond.elim (fun hp => ⟨h.1.congr h.1.sees rfl rfl, .inl hp⟩) fun hcond => ?_
    refine h.2.elim (fun hp => ⟨h.1.congr h.1.sees rfl rfl, .inl hp⟩) fun hc => ?_
    refine h.safety rfl (fun ht => hc.tilt ht) fun htest hem => htest.imp_right fun htest => ?_
    refine n.safetyState.emergency_observeButtonChange state env.nowNs ?_ hem
    by_contra hlift
    rw [Bool.not_eq_false] at hlift
    refine hcond ⟨hconnected, htest.1, htest.2, ?_, hsame ▸ hlift⟩
    by_contra hsent
    exact hedge ⟨hlift, hsent⟩

theorem onMavrosImu (tilted : Bool) (env : Env) : Keeps (Guarded p) (onMavrosImu tilted env) := by
  refine Triple.read fun n => Triple.ite (fun _ => ?_) fun _ => Triple.update ?_
  · by_cases hedge : n.tiltActive env.nowNs ∧ ¬ n.tiltDisarmSent
    · refine Triple.seq (R := Loose p) (Triple.update ?_) fun _ => ?_
      · rintro n l ⟨rfl, h⟩
        exact ⟨h.1.congr h.1.sees rfl rfl, .inr id⟩
      · rw [Prog.when, if_pos hedge]
        exact (Loose.safetyDisarm false env).seq fun _ => Keeps.skip
    · rw [Prog.when_neg hedge]
      refine Triple.seq (R := Guarded p) (Triple.update ?_) fun _ => Keeps.skip
      rintro n l ⟨rfl, h⟩
      refine h.2.elim (fun hp => ⟨h.1.congr h.1.sees rfl rfl, .inl hp⟩) fun hc => ?_
      refine h.safety rfl id fun _ hem => .inr ?_
      cases hactive : n.tiltActive env.nowNs with
      | true =>
        have hsent : n.tiltDisarmSent = true := by
          by_contra hno
          exact hedge ⟨hactive, hno⟩
        exact n.safetyState.emergency_of_tilt (hc.tilt hsent)
      | false =>
        rw [hactive] at hem
        exact n.safetyState.emergency_observeTilt_false hem
  · rintro n l ⟨rfl, h⟩
    refine h.safety rfl (fun ht => ?_) fun _ hem => .inr (n.safetyState.emergency_observeTilt_false hem)
    cases ht

theorem onEmergencyStop (emergency : UInt8) (env : Env) : Keeps (Guarded p) (onEmergencyStop emergency env) := by
  have hw := guarded_walk (p := p)
  refine Triple.bind (R := fun _ n log => Loose p n log ∧ (emergency = 0 →
    ∃ s, n.safetyState = s.setServiceEmergency false ∧ Guarded p { n with safetyState := s } log))
    (Triple.update fun n l h => ⟨?_, fun he => ?_⟩) fun _ => Triple.ite (fun he => ?_) fun _ => ?_
  · exact ⟨h.1.congr h.1.sees rfl rfl, h.2.imp_right fun hc => hc.tilt⟩
  · subst he
    exact ⟨n.safetyState, rfl, h⟩
  · refine Triple.seq (R := Guarded p) (Triple.update fun n l ⟨_, hsame⟩ => ?_) fun _ =>
      (hw.driveSession _).seq fun _ => (hw.driveBlade _).seq fun _ => hw.answer _ rfl
    obtain ⟨s, hs, hg⟩ := hsame he
    refine hg.2.elim (fun hp => ⟨hg.1.congr hg.1.sees rfl rfl, .inl hp⟩) fun hc => ?_
    refine hg.safety rfl (fun ht => ?_) fun _ hem => .inr (s.emergency_released ?_)
    · show (SafetyState.clearReleasedLatches n.safetyState).tiltActive = true
      rw [hs]
      exact hc.tilt ht
    · rw [← hs]; exact hem
  · refine Triple.pre ?_ fun _ _ => And.left
    exact (Loose.safetyDisarm true env).seq fun _ => hw.answer _ rfl

theorem onMowerControl (header : Nat) (mowEnabled mowDirection : UInt8) (env : Env) :
    Keeps (Guarded p) (onMowerControl header mowEnabled mowDirection env) := by
  have hw := guarded_walk (p := p)
  have hfree := guarded_bladeFree (p := p)
  refine Walk.onMowerControl header mowEnabled mowDirection env (hfree.replyBlade _ _) ?_ fun _ _ direction => ?_
  · exact hw.onMowerOff header env (fun safety => demand _ _ _) hfree.permitBlade (hfree.requestBlade _)
      fun result => hfree.answerOff header result env
  · refine hw.onMowerOn header direction env (hfree.replyBlade _ _) (endFailedBladeTestLocked _)
      (fun n haccept => ?_) ?_
    · refine Triple.update ?_
      rintro n l ⟨rfl, h⟩
      have hcalm : n.emergency env.nowNs = false := by
        simp only [Node.refusesOn, Bool.or_eq_false_iff] at haccept
        exact haccept.1.1.2
      refine ⟨h.1.congr h.1.sees rfl rfl, h.2.imp_right fun hc => ⟨fun _ _ => ?_, hc.tilt⟩⟩
      rw [emergency_clock] at hcalm; exact hcalm
    · refine Keeps.read fun n => Keeps.ite ?_ ?_
      · exact (hfree.replyBlade _ _).ite (hfree.side fun _ => rfl)
      · exact (hfree.permitBlade _ _ _).seq fun _ => (hfree.requestBlade _ _).seq fun result =>
          (hfree.answerRequest header result _).seq fun _ => hw.driveBlade _

theorem callback (c : Callback) (env : Env) :
    Triple (fun n log => Guarded p n log ∧ (p ∨ ¬ LiftRepeated n c)) (c.program env) fun _ => Guarded p := by
  have of_keeps : ∀ {x : Program Unit} {P : Node → Prop}, Keeps (Guarded p) x →
      Triple (fun n log => Guarded p n log ∧ P n) x fun _ => Guarded p := fun h => h.pre fun _ _ => And.left
  cases c with
  | buttonChange state => exact onButtonChange state env
  | cmdVel twist => exact of_keeps (onCmdVel twist env)
  | highLevelStatus state => exact of_keeps (onHighLevelStatus state env)
  | mavrosSysStatus present enabled => exact of_keeps (onMavrosSysStatus present enabled env)
  | mavrosImu tilted => exact of_keeps (onMavrosImu tilted env)
  | emergencyStop emergency => exact of_keeps (onEmergencyStop emergency env)
  | mowerControl header mowEnabled mowDirection => exact of_keeps (onMowerControl header mowEnabled mowDirection env)
  | servoResponse token response =>
    exact of_keeps (guarded_walk.onServoResponse token response env fun _ => guarded_bladeFree.updateBlade _)
  | _ => exact of_keeps (guarded_walk.callback _ env fun hspecial => hspecial.elim)

theorem run (l : Launch) {run : List (Callback × Env)}
    (hrun : machine.Along (fun n c => p ∨ ¬ LiftRepeated n c.1) l.node run) :
    Guarded p (reach l run) (trace l run) := by
  have hinit : Guarded p l.node [] := by
    refine ⟨⟨rfl, fun t m hm => ?_, Machine.throughout_nil⟩, .inr ⟨fun ht => ?_, fun ht => ?_⟩⟩
    · cases hm
    · cases ht
    · cases ht
  exact Machine.history (m := machine) (A := fun n c => p ∨ ¬ LiftRepeated n c.1)
    (H := fun log n => Guarded p n log) (fun log n c h hc => callback c.1 c.2 n log ⟨h, hc⟩) hinit hrun

theorem rules (l : Launch) (run : List (Callback × Env)) : Throughout (Rule True) (trace l run) := by
  have hall : machine.Along (fun _ _ => True) l.node run := Machine.along_of_forall fun _ _ => trivial
  exact (Guarded.run l (hall.mono fun _ _ _ => .inl trivial)).1.lawful

end Guarded

/-! ### Every run -/

/-- A velocity is published only in a movement session that the FCU confirmed, in exactly the requested
mode; after every session drive without one the last message of each transport is neutral. -/
theorem traction_gate (l : Launch) (run : List (Callback × Env)) {pre post : List Effect} {e : Effect}
    (h : trace l run = pre ++ e :: post) : TractionRule pre e :=
  (Guarded.rules l run pre e post h).1

/-- An ARM leaves only for a connected, disarmed FCU in the demanded mode, after neutrals, with nothing
outstanding, no emergency and a session or a blade test; a DISARM only in an emergency or without both. -/
theorem arm_authority (l : Launch) (run : List (Callback × Env)) {pre post : List Effect} {e : Effect}
    (h : trace l run = pre ++ e :: post) : ArmRule pre e :=
  (Guarded.rules l run pre e post h).2.1

/-- A velocity in a confirmed session, then an emergency. -/
def drivingRun : List (Callback × Env) :=
  armedRun ++ [(.cmdVel ⟨some (1 / 2), some 0⟩, .clock 20), (.emergencyStop 1, .clock 30)]

theorem traction_gate_guided : ∃ pre e post, trace defaultLaunch drivingRun = pre ++ e :: post ∧
    e.fromTwist = true ∧ TractionRule pre e := by
  have h : (trace defaultLaunch drivingRun).any Effect.fromTwist = true := by decide +kernel
  obtain ⟨e, he, htwist⟩ := List.any_eq_true.1 h
  obtain ⟨pre, post, hsplit⟩ := List.append_of_mem he
  exact ⟨pre, e, post, hsplit, htwist, traction_gate defaultLaunch drivingRun hsplit⟩

def Effect.arms : Effect → Bool
  | arming value _ _ => value
  | _ => false

theorem arm_authority_guided : ∃ pre e post, trace defaultLaunch armedRun = pre ++ e :: post ∧
    e.arms = true ∧ ArmRule pre e := by
  have h : (trace defaultLaunch armedRun).any Effect.arms = true := by decide +kernel
  obtain ⟨e, he, harms⟩ := List.any_eq_true.1 h
  obtain ⟨pre, post, hsplit⟩ := List.append_of_mem he
  exact ⟨pre, e, post, hsplit, harms, arm_authority defaultLaunch armedRun hsplit⟩

instance (n : Node) (c : Callback) : Decidable (LiftRepeated n c) :=
  match c with
  | .buttonChange _ => inferInstanceAs (Decidable (_ ∧ _))
  | .setParameters .. | .bladeWire .. | .bladeOutput .. | .cmdVel .. | .highLevelStatus .. | .mavrosState ..
  | .mavrosSysStatus .. | .mavrosImu .. | .escTelemetry .. | .mowerControl .. | .emergencyStop .. | .rebootBoard
  | .bladeTimer | .modeResponse .. | .armResponse .. | .servoResponse .. => inferInstanceAs (Decidable False)

/-- Every SetMode is the prescribed one, and there is none in a tilt or lift emergency, in a run without
a repeated double lift over an isolated blade test. -/
theorem mode_policy (l : Launch) {run : List (Callback × Env)}
    (hrun : machine.Along (fun n c => ¬ LiftRepeated n c.1) l.node run) : ∀ e ∈ trace l run, ModeRule e := by
  intro e he
  obtain ⟨pre, post, hsplit⟩ := List.append_of_mem he
  have hguarded := Guarded.run (p := False) l (hrun.mono fun _ _ => .inr)
  exact (hguarded.1.lawful pre e post hsplit).2.2.resolve_left id

def Effect.guides : Effect → Bool
  | setMode mode _ => mode == "GUIDED"
  | _ => false

theorem mode_policy_guided : ∃ e ∈ trace defaultLaunch armedRun, e.guides = true ∧ ModeRule e := by
  have h : (trace defaultLaunch armedRun).any Effect.guides = true := by decide +kernel
  obtain ⟨e, he, hguides⟩ := List.any_eq_true.1 h
  exact ⟨e, he, hguides, mode_policy defaultLaunch (by decide +kernel) e he⟩

/-- Both wheels lifted before and after a link loss, the second time over a pending blade test in MANUAL;
the velocity drives the DISARM of the emergency, which is refused. -/
def liftRun : List (Callback × Env) := [
  (.mavrosState { connected := true, mode := "MANUAL" }, .clock 1),
  (.mavrosSysStatus true true, .clock 1),
  (.buttonChange 3, .clock 2),
  (.mavrosState { connected := false, mode := "MANUAL" }, .clock 3),
  (.mavrosState { connected := true, mode := "MANUAL" }, .clock 4),
  (.mavrosSysStatus true true, .clock 5),
  (.mowerControl 1 1 0, .clock 6),
  (.buttonChange 3, .clock 7),
  (.cmdVel ⟨some 0, some 0⟩, .clock 8),
  (.armResponse 4 (some (false, 4)), .clock 9)]

def Effect.softHold : Effect → Bool
  | setMode mode sent => mode == "HOLD" && decide sent.SoftEmergency
  | _ => false

/-- The end of the blade test demands HOLD inside the session drive, which then requests it. -/
theorem lift_repeated_holds : ∃ e ∈ trace defaultLaunch liftRun, e.softHold = true ∧ ¬ ModeRule e := by
  have h : (trace defaultLaunch liftRun).any Effect.softHold = true := by decide +kernel
  obtain ⟨e, he, hsoft⟩ := List.any_eq_true.1 h
  refine ⟨e, he, hsoft, fun hrule => ?_⟩
  cases e with
  | setMode mode sent =>
    simp only [Effect.softHold, Bool.and_eq_true, decide_eq_true_eq] at hsoft
    exact hrule.2 hsoft.2
  | _ => cases hsoft

end Bridge
end MowgliMavros
