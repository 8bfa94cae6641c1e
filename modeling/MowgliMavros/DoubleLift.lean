import MowgliMavros.BridgeAside
import MowgliMavros.BridgeBlade

/-!
# The DISARM of a double lift

`on_mavlink_source` finds the edge of a double lift with a flag of the node, `SafetyState` keeps its own
validity. In every reachable state the flag is the last double lift reported (`reach_lifts`), and a
disconnection clears the validity but not the flag. So a BUTTON_CHANGE is answered as it should be, but
for the first double lift after a link loss that itself followed a double lift (`Masked`).
-/

namespace MowgliMavros
namespace Bridge
open Prog (Triple Keeps)

/-- `SafetyState` reports a valid double wheel lift. -/
def Node.reportsDoubleLift (n : Node) : Bool := n.safetyState.wheelLiftStateValid && n.safetyState.doubleLift

/-- What `on_mavlink_source` makes of a BUTTON_CHANGE before it may call `request_blade_disarm`. -/
def Node.lifted (n : Node) (state : UInt8) (nowNs : Int) : Node :=
  if n.mavrosState.connected then { n with
    safetyState := n.safetyState.observeButtonChange state nowNs
    doubleLiftDisarmSent := (n.safetyState.observeButtonChange state nowNs).doubleLift }
  else n

/-- The BUTTON_CHANGE takes `SafetyState` from not reporting a valid double lift to reporting one. -/
def Rises (n : Node) (state : UInt8) (nowNs : Int) : Prop :=
  n.reportsDoubleLift = false ∧ (n.lifted state nowNs).reportsDoubleLift = true

instance (n : Node) (state : UInt8) (nowNs : Int) : Decidable (Rises n state nowNs) :=
  inferInstanceAs (Decidable (_ ∧ _))

/-- A BUTTON_CHANGE that raises the double lift does what one `request_blade_disarm` does after the
observation; every other one does nothing after it. -/
def LiftAnswered (n : Node) (c : Callback × Env) : Prop :=
  match c.1 with
  | .buttonChange state =>
    machine.step n c =
      if Rises n state c.2.nowNs then
        ((requestSafetyDisarm false c.2).after (n.lifted state c.2.nowNs),
          (requestSafetyDisarm false c.2).emitted (n.lifted state c.2.nowNs))
      else (n.lifted state c.2.nowNs, [])
  | _ => True

/-- A double lift reported to a node whose last BUTTON_CHANGE, from before a link loss, was one too. -/
def Masked (n : Node) (c : Callback) : Prop :=
  match c with
  | .buttonChange state => n.mavrosState.connected = true ∧ n.safetyState.wheelLiftStateValid = false ∧
      n.safetyState.doubleLift = true ∧ (n.safetyState.observeButtonChange state 0).doubleLift = true
  | _ => False

instance (n : Node) (c : Callback) : Decidable (Masked n c) :=
  match c with
  | .buttonChange _ => inferInstanceAs (Decidable (_ ∧ _))
  | .setParameters .. | .bladeWire .. | .bladeOutput .. | .cmdVel .. | .highLevelStatus .. | .mavrosState ..
  | .mavrosSysStatus .. | .mavrosImu .. | .escTelemetry .. | .mowerControl .. | .emergencyStop .. | .rebootBoard
  | .bladeTimer | .modeResponse .. | .armResponse .. | .servoResponse .. => inferInstanceAs (Decidable False)

/-! ### The flag -/

/-- The flag is the last double lift reported. -/
def Lifts : Assertion := fun n _ => n.doubleLiftDisarmSent = n.safetyState.doubleLift

namespace Lifts

theorem aside : Aside Lifts where
  frame hn h := by
    simp only [Node.aside, Prod.mk.injEq] at hn
    unfold Lifts
    rw [hn.1, hn.2.1]
    exact h
  emit _ _ _ _ h := h

theorem driveBladeLocked (env : BladeEnv) : Keeps Lifts (driveBladeLocked env) :=
  aside.driveBladeLocked_unwired (fun _ _ _ h => h) (fun _ _ _ h => h) env

theorem onBladeWire (message : Option WireCommand) (env : Env) : Keeps Lifts (onBladeWire message env) := by
  refine Keeps.read fun n => ?_
  split
  · exact Keeps.skip
  refine Keeps.skip.ite (Keeps.seq (Keeps.update fun _ _ h => h) fun _ => Keeps.read fun n => ?_)
  split
  · exact Keeps.update fun _ _ h => h
  · exact (aside.updateBlade _).seq fun _ => driveBladeLocked _

theorem onMavrosState (message : FcuState) (env : Env) : Keeps Lifts (onMavrosState message env) := by
  refine Keeps.read fun n => Keeps.seq (Keeps.update fun n l h => ?_) fun _ => ?_
  · unfold Lifts Node.heard at *
    dsimp only
    split <;> exact h
  · refine Keeps.seq aside.cancelPendingBladeStarts.when fun _ => Keeps.seq (aside.side fun _ => rfl) fun _ => ?_
    exact (aside.paced driveBladeLocked).drives 0

theorem onButtonChange (state : UInt8) (env : Env) : Keeps Lifts (onButtonChange state env) := by
  refine Keeps.read fun n => Keeps.when ?_
  refine Triple.seq (R := fun _ _ => True) (Triple.update fun _ _ _ => trivial) fun _ => ?_
  refine Triple.seq (R := Lifts) (Triple.update fun _ _ _ => rfl) fun _ => Keeps.when ?_
  exact ((aside.paced driveBladeLocked).requestSafetyDisarm false).seq fun _ => Keeps.skip

theorem callback (c : Callback) (env : Env) : Keeps Lifts (c.program env) := by
  refine (aside.paced driveBladeLocked).callback c fun hwrites => ?_
  cases c with
  | bladeWire message => exact onBladeWire message env
  | mavrosState message => exact onMavrosState message env
  | buttonChange state => exact onButtonChange state env
  | _ => exact hwrites.elim

end Lifts

theorem reach_lifts (l : Launch) (run : List (Callback × Env)) :
    (reach l run).doubleLiftDisarmSent = (reach l run).safetyState.doubleLift :=
  Machine.inv_final (m := machine) (A := fun _ _ => True) (I := fun n => Lifts n [])
    (fun n c h _ => Lifts.callback c.1 c.2 n [] h) rfl (Machine.along_of_forall fun _ _ => trivial)

/-! ### The answer -/

/-- A safety DISARM shows in what the node hands out. -/
theorem requestSafetyDisarm_emits (hold : Bool) (env : Env) (n : Node) :
    (requestSafetyDisarm hold env).emitted n ≠ [] := by
  have hquiet : Aside fun _ _ => True := ⟨fun _ h => h, fun _ _ _ _ h => h⟩
  have hloud : Aside fun _ l => l ≠ [] := ⟨fun _ h => h, fun _ l e _ _ => by simp⟩
  have hdrive := hloud.driveBladeLocked_unwired (fun _ _ _ h => h) fun _ l e _ => by simp
  have hneutral : Triple (fun _ _ => True) publishNeutralManualControl fun _ _ l => l ≠ [] := by
    refine Triple.read fun n => Triple.seq (R := fun _ l => l ≠ []) (Triple.emit fun _ _ _ => by simp) fun _ => ?_
    exact (hloud.publishGuided none 0 0).when
  have hdisarm : Triple (fun _ _ => True) (requestSafetyDisarm hold env) fun _ _ l => l ≠ [] := by
    refine Keeps.seq (hquiet.side fun _ => rfl) fun _ => hquiet.cancelPendingBladeStarts.seq fun _ => ?_
    refine (hquiet.updateBlade _).seq fun _ => hneutral.seq fun _ => Keeps.seq (hloud.side fun _ => rfl) fun _ => ?_
    exact (hdrive _).seq fun _ => (hloud.driveSessionLocked _).seq fun _ => Keeps.read fun _ => Keeps.skip
  simpa using hdisarm n [] trivial

theorem step_buttonChange (n : Node) (state : UInt8) (env : Env) :
    machine.step n (.buttonChange state, env) =
      if n.mavrosState.connected = true ∧ (n.safetyState.observeButtonChange state env.nowNs).doubleLift = true ∧
          n.doubleLiftDisarmSent = false then
        ((requestSafetyDisarm false env).after (n.lifted state env.nowNs),
          (requestSafetyDisarm false env).emitted (n.lifted state env.nowNs))
      else (n.lifted state env.nowNs, []) := by
  show ((onButtonChange state env).after n, (onButtonChange state env).emitted n) = _
  cases hconn : n.mavrosState.connected
  · simp [onButtonChange, node, Prog.get, Prog.when, Prog.after, Prog.emitted, bind, pure, Node.lifted, hconn]
  · cases hdouble : (n.safetyState.observeButtonChange state env.nowNs).doubleLift
    · simp [onButtonChange, node, Prog.get, Prog.when, Prog.after, Prog.emitted, bind, pure, Prog.update,
        Node.lifted, hconn, hdouble]
    · cases hsent : n.doubleLiftDisarmSent
      · simp [onButtonChange, node, Prog.get, Prog.when, Prog.after, Prog.emitted, bind, pure, Prog.update,
          Node.lifted, hconn, hdouble, hsent]
      · simp [onButtonChange, node, Prog.get, Prog.when, Prog.after, Prog.emitted, bind, pure, Prog.update,
          Node.lifted, hconn, hdouble, hsent]

theorem rises_iff {n : Node} {state : UInt8} {nowNs : Int} : Rises n state nowNs ↔
    n.mavrosState.connected = true ∧ (n.safetyState.observeButtonChange state nowNs).doubleLift = true ∧
      (n.safetyState.wheelLiftStateValid = true → n.safetyState.doubleLift = false) := by
  unfold Rises Node.reportsDoubleLift Node.lifted
  cases n.mavrosState.connected with
  | false =>
    rw [if_neg Bool.false_ne_true]
    constructor
    · rintro ⟨hbefore, hafter⟩
      rw [hbefore] at hafter
      cases hafter
    · rintro ⟨hconn, -⟩
      cases hconn
  | true =>
    have hvalid : (n.safetyState.observeButtonChange state nowNs).wheelLiftStateValid = true := rfl
    simp [hvalid, and_comm]

/-- With the flag at the last double lift, a BUTTON_CHANGE is answered exactly when it is not masked. -/
theorem liftAnswered_iff {n : Node} {c : Callback × Env} (hflag : n.doubleLiftDisarmSent = n.safetyState.doubleLift) :
    LiftAnswered n c ↔ ¬ Masked n c.1 := by
  obtain ⟨c, env⟩ := c
  cases c with
  | buttonChange state =>
    have hloud := requestSafetyDisarm_emits false env (n.lifted state env.nowNs)
    have hafter : (n.safetyState.observeButtonChange state 0).doubleLift =
      (n.safetyState.observeButtonChange state env.nowNs).doubleLift := rfl
    unfold LiftAnswered Masked
    simp only [step_buttonChange, hflag, hafter, rises_iff]
    cases n.safetyState.doubleLift with
    | false => simp
    | true =>
      cases n.safetyState.wheelLiftStateValid with
      | true => simp
      | false =>
        simp only [true_and, reduceCtorEq, not_and]
        grind
  | _ => exact iff_of_true trivial id

/-- In every run, all BUTTON_CHANGE messages are answered as they should be exactly when none reports a
double lift to a node with an invalidated one. -/
theorem double_lift_disarms_iff (l : Launch) (run : List (Callback × Env)) :
    machine.Along LiftAnswered l.node run ↔ machine.Along (fun n c => ¬ Masked n c.1) l.node run := by
  rw [Machine.along_iff, Machine.along_iff]
  have hstep : ∀ pre c, LiftAnswered (machine.final l.node pre) c ↔ ¬ Masked (machine.final l.node pre) c.1 :=
    fun pre c => liftAnswered_iff (reach_lifts l pre)
  constructor
  · intro h pre c post hrun
    exact (hstep pre c).1 (h pre c post hrun)
  · intro h pre c post hrun
    exact (hstep pre c).2 (h pre c post hrun)

/-- Both wheels lifted, a link loss, and both wheels lifted again. -/
def relinkedRun : List (Callback × Env) := [
  (.mavrosState { connected := true, mode := "HOLD" }, .clock 1),
  (.buttonChange 3, .clock 2),
  (.mavrosState {}, .clock 3),
  (.mavrosState { connected := true, mode := "HOLD" }, .clock 4)]

/-- The double lift after the link loss is not answered. -/
theorem relinked_lift_ignored :
    ¬ machine.Along LiftAnswered defaultLaunch.node (relinkedRun ++ [(.buttonChange 3, .clock 5)]) := by
  rw [Machine.along_append]
  rintro ⟨-, hanswered, -⟩
  have hmasked : Masked (reach defaultLaunch relinkedRun) (.buttonChange 3) := by decide
  have hiff := liftAnswered_iff (c := (.buttonChange 3, .clock 5)) (reach_lifts defaultLaunch relinkedRun)
  exact hiff.1 hanswered hmasked

end Bridge
end MowgliMavros
