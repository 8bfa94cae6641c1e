import MowgliMavros.BridgeTraction

/-!
# The session drive and its authority over the FCU

`Guarded` is `Gate` together with `TestCalm`. Every piece of a callback keeps it and `driveSessionLocked`
ends `Driven`, so that the rules hold in every run: `traction_gate`, `arm_authority` and, while no
lift emergency is raised over an isolated blade test without its safety DISARM, `mode_policy`.
-/

namespace MowgliMavros
namespace Bridge
open Machine (Throughout)
open Prog (Triple Keeps)
open FcuSessionController (Command)

def Guarded (p : Prop) : Assertion := fun n log => Gate p n log ∧ (p ∨ TestCalm n)

/-- What the rules read of the node, apart from the session controller. -/
def Node.policySide (n : Node) :=
  (n.provider, n.mavrosState, n.safetyState, n.highLevelState, n.bladeTestActive, n.tiltDisarmSent,
    n.tractionWasReady)

/-- At the end of the session drive, and inside it from its readiness on. -/
def Settling (p : Prop) (steady : Int) : Assertion := fun n log =>
  Guarded p n log ∧ Driven p n ∧ n.sessionControl.tick steady = n.sessionControl

def AfterDrive (p : Prop) : Assertion := fun n log => Guarded p n log ∧ Driven p n

variable {p : Prop} {n n' : Node} {log : List Effect}

theorem Guarded.frame (h : Guarded p n log) (hn : n'.policySide = n.policySide)
    (hs : Sees n' n'.sessionControl) : Guarded p n' log := by
  simp only [Node.policySide, Prod.mk.injEq] at hn
  obtain ⟨hp, -, hf, hl, htest, htilt, hready⟩ := hn
  refine ⟨h.1.congr hs hp hready, h.2.imp_right fun hc => ⟨?_, ?_⟩⟩
  · simp only [Node.motionSessionActive, Node.emergency, hf, hl, htest]
    exact hc.test
  · rw [htilt, hf]; exact hc.tilt

theorem Guarded.session (h : Guarded p n log) (op : FcuSessionController.Op) (hop : ∀ c a m, op ≠ .observe c a m) :
    Guarded p { n with sessionControl := n.sessionControl.apply op } log :=
  h.frame rfl (h.1.sees.apply op hop)

theorem Guarded.emit_inert (h : Guarded p n log) {e : Effect} (ht : e.transport? = none)
    (ha : ∀ v a m, e ≠ .arming v a m) (hm : ∀ v m, e ≠ .setMode v m) (hd : ∀ m, e ≠ .sessionDriven m) :
    Guarded p n (log ++ [e]) :=
  ⟨h.1.emit_inert ht ha hm hd, h.2⟩

theorem guarded_bladeFree : BladeFree (Guarded p) where
  frame hside h := by
    simp only [Node.sessionSide, Prod.mk.injEq] at hside
    obtain ⟨hs, hm, hf, hl, ht, hr, htilt, -, hp⟩ := hside
    refine h.frame (by simp [Node.policySide, hm, hf, hl, ht, hr, htilt, hp]) ?_
    unfold Sees; rw [hs, hm]; exact h.1.sees
  emit _ _ e he h := by
    cases e <;> first | (cases he; done) | exact h.emit_inert rfl (by simp) (by simp) (by simp)

namespace Guarded

theorem publishNeutral : Keeps (Guarded p) publishNeutralManualControl :=
  triple_publishNeutral fun _ _ h => ⟨h.1.neutrals, h.2⟩

theorem endTest : Keeps (Guarded p) (Prog.update fun n => { n with bladeTestActive := false }) :=
  Keeps.update fun n _ h => ⟨h.1.congr h.1.sees rfl rfl, h.2.imp_right fun hc => ⟨by simp, hc.tilt⟩⟩

theorem demand (mode : String) (arm safety : Bool) :
    Keeps (Guarded p) (updateSession (·.demand mode arm safety)) :=
  Keeps.update fun _ _ h => h.session (.demand mode arm safety) (by simp)

theorem complete (serial : Nat) (accepted : Bool) (now : Int) :
    Keeps (Guarded p) (updateSession (·.complete serial accepted now)) :=
  Keeps.update fun _ _ h => h.session (.complete serial accepted now) (by simp)

theorem endFailedBladeTestLocked (env : EndEnv) : Keeps (Guarded p) (endFailedBladeTestLocked env) := by
  refine Keeps.read fun n => Keeps.skip.ite ?_
  exact endTest.seq fun _ => guarded_bladeFree.cancelPendingBladeStarts.seq fun _ =>
    (guarded_bladeFree.updateBlade _).seq fun _ => publishNeutral.seq fun _ => demand _ _ _

theorem driveBladeLocked (env : BladeEnv) : Keeps (Guarded p) (driveBladeLocked env) :=
  guarded_bladeFree.driveBladeLocked endFailedBladeTestLocked env

end Guarded

/-! ### The demand and the readiness -/

/-- The demand stands for the clock of the drive. -/
def Demanded (p : Prop) (steady : Int) : Assertion := fun n log =>
  Guarded p n log ∧ Aimed n n.sessionControl ∧ n.sessionControl.tick steady = n.sessionControl

theorem demandSession_demanded (env : SessionEnv) :
    Triple (Guarded p) (demandSession env) fun _ => Demanded p env.steady := by
  refine Triple.update fun n l h => ?_
  have hguarded := (h.session (.demand (n.sessionMode env.nowNs)
    (!n.emergency env.nowNs && (n.motionSessionActive || n.bladeTestActive)) (n.emergency env.nowNs))
    (by simp)).session (.tick env.steady) (by simp)
  refine ⟨hguarded, aimed_of_view (FcuSessionController.tick_view _) ?_, FcuSessionController.tick_tick _⟩
  rw [sessionMode_clock env.nowNs, emergency_clock env.nowNs]
  exact demand_stands _ _ _ _

theorem tractionReady_clock (nowNs : Int) : n.tractionReady nowNs = n.tractionReady 0 := by
  simp [Node.tractionReady]

/-- A node whose demand stands and that is ready for traction drives what the FCU confirmed. -/
theorem driving_of_ready (hs : Sees n n.sessionControl)
    (hm : n.motionSessionActive = true → n.sessionControl.wantedMode = n.sessionMode 0)
    (hr : n.tractionReady 0 = true) : n.Driving := by
  simp only [Node.tractionReady, Bool.and_eq_true, Bool.not_eq_true'] at hr
  obtain ⟨⟨⟨hmotion, hcalm⟩, hready⟩, harm⟩ := hr
  simp only [FcuSessionController.ready, Bool.and_eq_true, beq_iff_eq] at hready
  obtain ⟨⟨⟨hconn, -⟩, hmode⟩, harmed⟩ := hready
  simp only [Sees, Prod.mk.injEq] at hs
  obtain ⟨hsc, hsa, hsm⟩ := hs
  have htarget : n.sessionMode 0 = n.drivingMode := by
    unfold Node.sessionMode
    rw [if_neg (by rw [hcalm]; simp), if_neg (by rw [hcalm, hmotion]; simp)]
    rfl
  exact {
    movement := hmotion
    calm := fun nowNs => by rw [emergency_clock]; exact hcalm
    connected := hsc ▸ hconn
    armed := by rw [← hsa, harmed]; exact harm
    mode := by rw [← hsm, hmode, hm hmotion, htarget] }

theorem neutralizeTraction_settling (env : SessionEnv) :
    Triple (Demanded p env.steady) (neutralizeTraction env) fun _ => Settling p env.steady := by
  refine Triple.read fun n => ?_
  -- after the neutrals no transport is left with a velocity, so the readiness may fall
  refine Triple.bind (R := fun _ n' log => n' = n ∧ Demanded p env.steady n log ∧
    (n.tractionReady env.nowNs = false → ∀ t m, lastOn t log = some m → m.Neutral)) ?_ fun _ => ?_
  · refine Triple.ite (fun _ => triple_publishNeutral ?_) fun hkeep => Triple.pure ?_
    · rintro n l ⟨rfl, hg, haim⟩
      have hgate : Gate p n (l ++ neutrals n) := hg.1.neutrals
      exact ⟨rfl, ⟨⟨hgate, hg.2⟩, haim⟩, fun _ t m hm => lastOn_neutrals t (hgate.parked t m hm).1 hm⟩
    · rintro n l ⟨rfl, hg, haim⟩
      refine ⟨rfl, ⟨hg, haim⟩, fun hr t m hm => ?_⟩
      have hwas : n.tractionWasReady ≠ true := fun hwas => hkeep (by simp [hwas, hr])
      exact (hg.1.parked t m hm).2.resolve_right hwas
  · refine Triple.update ?_
    rintro n l ⟨rfl, ⟨hg, haim, htick⟩, hneutral⟩
    have hgate : Gate p { n with tractionWasReady := n.tractionReady env.nowNs } l := {
      sees := hg.1.sees
      lawful := hg.1.lawful
      parked := fun t m hm => by
        refine ⟨(hg.1.parked t m hm).1, ?_⟩
        cases hr : n.tractionReady env.nowNs with
        | true => exact .inr rfl
        | false => exact .inl (hneutral hr t m hm) }
    simp only [Aimed, Node.wants, Prod.mk.injEq] at haim
    obtain ⟨hmode, harm, hsafety⟩ := haim
    refine ⟨⟨hgate, hg.2.imp_right fun hc => ⟨hc.test, hc.tilt⟩⟩, ?_, htick⟩
    refine ⟨harm, hsafety, .inl hmode, fun hr => ?_, fun hr => ?_⟩
    · exact (tractionReady_clock env.nowNs).trans hr
    · exact driving_of_ready hg.1.sees (fun _ => hmode) ((tractionReady_clock env.nowNs).symm.trans hr)

/-! ### The end of a failed blade test -/

theorem Driven.frame (h : Driven p n) (hn : n'.policySide = n.policySide)
    (hs : n'.sessionControl = n.sessionControl) :
    Driven p n' := by
  simp only [Node.policySide, Prod.mk.injEq] at hn
  obtain ⟨hp, hm, hf, hl, htest, -, hready⟩ := hn
  have hmotion : n'.motionSessionActive = n.motionSessionActive := by simp [Node.motionSessionActive, hl]
  have hem : ∀ nowNs, n'.emergency nowNs = n.emergency nowNs := fun nowNs => by simp [hf]
  have hguided : n'.guided = n.guided := by simp [Node.guided, hl, hp]
  obtain ⟨harm, hsafety, hmode, hrdy, hdrv⟩ := h
  refine ⟨?_, ?_, ?_, ?_, ?_⟩
  · rw [hs, hem, hmotion, htest]; exact harm
  · rw [hs, hem]; exact hsafety
  · rw [hs, hmotion]
    simp only [Node.sessionMode, hem, hmotion, hguided, hm, Node.holdEmergency, hf] at hmode ⊢
    exact hmode
  · simp only [Node.tractionReady, hs, hem, hmotion, hready] at hrdy ⊢
    exact hrdy
  · intro hr
    obtain ⟨hmv, hcalm, hconn, harmed, hmd⟩ := hdrv (hready ▸ hr)
    refine ⟨hmotion.trans hmv, fun nowNs => (hem nowNs).trans (hcalm nowNs), ?_, ?_, ?_⟩
    · rw [hm]; exact hconn
    · rw [hm]; exact harmed
    · simp only [hm, Node.drivingMode, hguided]; exact hmd

theorem Settling.frame {steady : Int} (h : Settling p steady n log) (hn : n'.policySide = n.policySide)
    (hs : n'.sessionControl = n.sessionControl) : Settling p steady n' log := by
  obtain ⟨hg, hd, ht⟩ := h
  have hn' := hn
  simp only [Node.policySide, Prod.mk.injEq] at hn'
  obtain ⟨-, hm, -⟩ := hn'
  refine ⟨hg.frame hn ?_, hd.frame hn hs, by rw [hs]; exact ht⟩
  unfold Sees; rw [hs, hm]; exact hg.1.sees

/-- A blade test that ended outside a movement session, in an emergency or not. -/
def Ended (p : Prop) (steady : Int) (emergency : Bool) : Assertion := fun n log =>
  Guarded p n log ∧ n.motionSessionActive = false ∧ n.bladeTestActive = false ∧ n.tractionWasReady = false ∧
    n.emergency 0 = emergency ∧ n.sessionControl.tick steady = n.sessionControl

theorem ended_bladeFree (steady : Int) (emergency : Bool) : BladeFree (Ended p steady emergency) where
  frame hside h := by
    refine ⟨guarded_bladeFree.frame hside h.1, ?_⟩
    simp only [Node.sessionSide, Prod.mk.injEq] at hside
    obtain ⟨hs, -, hf, hl, ht, hr, -⟩ := hside
    simp only [Node.motionSessionActive, Node.emergency, hs, hf, hl, ht, hr]
    exact h.2
  emit n l e he h := ⟨guarded_bladeFree.emit n l e he h.1, h.2⟩

theorem Ended.hold {steady : Int} {emergency : Bool} (hcalm : p ∨ emergency = false) :
    Triple (Ended p steady emergency) (updateSession (·.demand "HOLD" false emergency)) fun _ =>
      Settling p steady := by
  refine Triple.update fun n l ⟨hg, hmotion, htest, hwas, hem, htick⟩ => ?_
  have hstands := demand_stands n.sessionControl "HOLD" false emergency
  simp only [Prod.mk.injEq] at hstands
  obtain ⟨hmode, harm, hsafety⟩ := hstands
  have still : ∀ s, Node.motionSessionActive { n with sessionControl := s } = false := fun _ => hmotion
  have same : ∀ s, Node.emergency { n with sessionControl := s } 0 = emergency := fun _ => hem
  refine ⟨hg.session (.demand "HOLD" false emergency) (by simp), ?_, FcuSessionController.tick_demand htick _ _ _⟩
  refine ⟨?_, hsafety.trans hem.symm, ?_, fun hready => ?_, fun hready => ?_⟩
  · rw [still, show Node.bladeTestActive _ = false from htest, Bool.or_self, Bool.and_false]; exact harm
  · refine hcalm.elim (fun hp => .inr ⟨hp, hmotion⟩) fun hcalm => .inl (hmode.trans ?_)
    obtain rfl := hcalm
    unfold Node.sessionMode
    rw [if_neg (by rw [same]; simp), if_pos (.inr (by rw [still]; simp))]
  · simp only [Node.tractionReady, still, Bool.false_and, Bool.false_eq_true] at hready
  · rw [show Node.tractionWasReady _ = false from hwas] at hready; cases hready

theorem endFailed_settling (steady : Int) (env : EndEnv) :
    Keeps (Settling p steady) (endFailedBladeTestLocked env) := by
  refine Triple.read fun n => Triple.ite (fun _ => Triple.pure fun _ _ => And.right) fun hactive => ?_
  have hactive' : n.bladeTestActive = true ∧ n.motionSessionActive = false := by simpa using hactive
  obtain ⟨htest, hmotion⟩ := hactive'
  refine Triple.assume (p := p ∨ n.emergency 0 = false) (fun hcalm => ?_) ?_
  · refine Triple.bind (R := fun _ => Ended p steady (n.emergency 0)) (Triple.update ?_) fun _ => ?_
    · rintro n l ⟨rfl, hg, hd, htick⟩
      have hwas : n.tractionWasReady = false := by
        by_contra hwas
        have hmoves := (hd.driving (by simpa using hwas)).movement
        rw [hmotion] at hmoves; cases hmoves
      exact ⟨⟨hg.1.congr hg.1.sees rfl rfl, hg.2.imp_right fun hc => ⟨by simp, hc.tilt⟩⟩, hmotion, rfl, hwas, rfl,
        htick⟩
    have hfree := ended_bladeFree (p := p) steady (n.emergency 0)
    refine hfree.cancelPendingBladeStarts.seq fun _ => (hfree.updateBlade _).seq fun _ => ?_
    refine Triple.seq (R := Ended p steady (n.emergency 0)) ?_ fun _ => ?_
    · exact triple_publishNeutral fun _ _ h => ⟨⟨h.1.1.neutrals, h.1.2⟩, h.2⟩
    · rw [emergency_clock env.nowNs]
      exact Ended.hold hcalm
  · rintro n l ⟨rfl, hg, -⟩
    exact hg.2.imp_right fun hc => hc.test htest hmotion

theorem forgetSessionRpcs_settling (steady : Int) : Keeps (Settling p steady) forgetSessionRpcs := by
  refine Keeps.read fun n => Keeps.seq (Keeps.emitMap (fun id n l h => ⟨?_, h.2⟩) _) fun _ => ?_
  · exact Keeps.update fun n l h => h.frame rfl rfl
  · exact h.1.emit_inert rfl (by simp) (by simp) (by simp)

/-! ### The send -/

theorem soft_flags (h : n.SoftEmergency) : n.emergency 0 = true ∧ n.holdEmergency 0 = false := by
  obtain ⟨hcause, hhw, -, hservice, -⟩ := h
  rw [emergency_flags, holdEmergency_flags]
  unfold SafetyState.flags
  rw [if_neg hhw, if_neg (by simp [hservice])]
  split
  · simp
  rename_i htilt
  rcases hcause with h | h | h
  · exact absurd h htilt
  · split <;> simp [h]
  · rw [h]; simp

/-- The mode of the drive is prescribed whenever it is not the mode of the FCU. -/
theorem sessionMode_prescribed (hne : n.mavrosState.mode ≠ n.sessionMode 0) :
    n.Prescribes (n.sessionMode 0) ∧ ¬ n.SoftEmergency := by
  have hcalm : n.emergency 0 = false → ∀ nowNs, n.emergency nowNs = false := fun h nowNs => by
    rw [emergency_clock]; exact h
  have hsoft : (n.emergency 0 = true → n.holdEmergency 0 = true) → ¬ n.SoftEmergency := fun h hs => by
    have hem := soft_flags hs
    rw [h hem.1] at hem
    cases hem.2
  unfold Node.sessionMode at hne ⊢
  split at hne
  · exact absurd rfl hne
  rename_i hhold
  have hhold' : n.emergency 0 = true → n.holdEmergency 0 = true := fun hem => by
    by_contra hno; exact hhold ⟨hem, hno⟩
  rw [if_neg hhold]
  refine ⟨?_, hsoft hhold'⟩
  split
  · rename_i hstop
    refine .inl ⟨rfl, ?_⟩
    cases hem : n.emergency 0 with
    | true =>
      have hreason := hhold' hem
      rw [holdEmergency_flags, Bool.or_eq_true, beq_iff_eq, beq_iff_eq] at hreason
      exact .inl hreason
    | false =>
      refine .inr ⟨hcalm hem, ?_⟩
      rcases hstop with hstop | hstop
      · rw [hem] at hstop; cases hstop
      · simpa using hstop
  rename_i hgo
  rw [not_or, Bool.not_eq_true, not_not] at hgo
  obtain ⟨hem, hmotion⟩ := hgo
  split
  · rename_i hguided
    simp only [Node.guided, Bool.and_eq_true, decide_eq_true_eq] at hguided
    exact .inr (.inl ⟨rfl, hcalm hem, hguided⟩)
  · rename_i hguided
    refine .inr (.inr ⟨rfl, hcalm hem, hmotion, ?_⟩)
    by_cases hauto : n.highLevelState = 2
    · exact .inr (by simpa [Node.guided, hauto] using hguided)
    · exact .inl hauto

theorem Driven.prescribes (hd : Driven p n) (hne : n.mavrosState.mode ≠ n.sessionControl.wantedMode) :
    p ∨ n.Prescribes n.sessionControl.wantedMode ∧ ¬ n.SoftEmergency := by
  rcases hd.mode with hmode | ⟨hp, -⟩
  · rw [hmode] at hne ⊢
    exact .inr (sessionMode_prescribed hne)
  · exact .inl hp

theorem Driven.arms (hd : Driven p n) (hcalm : n.emergency 0 = false) (hwanted : n.sessionControl.wantedArm = true) :
    n.motionSessionActive = true ∨ n.bladeTestActive = true := by
  have harm := hd.arm
  rw [hwanted, hcalm, Bool.not_false, Bool.true_and, eq_comm, Bool.or_eq_true] at harm
  exact harm

/-- A DISARM comes with an emergency or after the end of both sessions. -/
theorem Driven.disarms (hd : Driven p n)
    (hwanted : n.sessionControl.safetyDisarm = false → n.sessionControl.wantedArm = false) :
    (∀ nowNs, n.emergency nowNs = true) ∨ n.motionSessionActive = false ∧ n.bladeTestActive = false := by
  cases hem : n.emergency 0 with
  | true => exact .inl fun nowNs => (emergency_clock nowNs).trans hem
  | false =>
    have harm := hd.arm
    rw [hwanted (hd.safety.trans hem), hem, Bool.not_false, Bool.true_and, eq_comm, Bool.or_eq_false_iff] at harm
    exact .inr harm

/-- A command that leaves in the session drive keeps the rules. -/
theorem commandRequest_rule {steady : Int} {modeService armService : Bool} {c : Command}
    (hs : Sees n n.sessionControl) (hd : Driven p n) (htick : n.sessionControl.tick steady = n.sessionControl)
    (hc : (n.sessionControl.next steady modeService armService (n.allowArm 0)).2 = some c) (log : List Effect)
    (hparked : c.kind = .arm → c.arm = true → Parked n log) :
    Rule p log (commandRequest c n.sessionControl { n with
      sessionControl := (n.sessionControl.next steady modeService armService (n.allowArm 0)).1 }) := by
  simp only [Sees, Prod.mk.injEq] at hs
  obtain ⟨hsc, hsa, hsm⟩ := hs
  -- the tick of `next` repeats the one of the demand
  unfold FcuSessionController.next at hc ⊢
  rw [htick] at hc ⊢
  rcases FcuSessionController.issue_cases n.sessionControl steady modeService armService (n.allowArm 0) with
    he | ⟨-, -, kind, arm, force, hdue, he⟩
  · rw [he] at hc; cases hc
  have hcommand : c = ⟨n.sessionControl.serial + 1, kind, n.sessionControl.wantedMode, arm⟩ := by
    rw [he] at hc
    exact (Option.some.inj hc).symm
  cases kind with
  | mode =>
    have hne : n.mavrosState.mode ≠ n.sessionControl.wantedMode := by
      rw [← hsm]; exact hdue.2.1
    rw [hcommand]
    exact ⟨trivial, trivial, hd.prescribes hne⟩
  | arm =>
    cases arm with
    | true =>
      obtain ⟨hconn, hidle, hwanted, hdisarmed, hmode, hallow, he⟩ :=
        FcuSessionController.issue_arms hc (by rw [hcommand]) (by rw [hcommand])
      simp only [Node.allowArm, Bool.and_eq_true, Bool.not_eq_true', beq_iff_eq] at hallow
      have hpark := hparked (by rw [hcommand]) (by rw [hcommand])
      rw [hcommand]
      refine ⟨trivial, ?_, .inr trivial⟩
      exact {
        connected := by rw [← hsc]; exact hconn
        disarmed := by rw [← hsa]; exact hdisarmed
        mode := by
          rw [he]
          show n.mavrosState.mode = n.sessionControl.wantedMode
          rw [← hsm]; exact hmode
        idle := hidle
        emitted := ⟨steady, by rw [he]⟩
        calm := fun nowNs => (emergency_clock nowNs).trans hallow.1
        released := hallow.2
        wanted := hd.arms hallow.1 hwanted
        parked := hpark }
    | false =>
      rw [hcommand]
      refine ⟨trivial, ?_, .inr trivial⟩
      refine hd.disarms fun hsafety => ?_
      rcases hdue.2 with ⟨hu, -⟩ | ⟨-, harm, -⟩
      · rw [hu.1] at hsafety
        cases hsafety
      · exact harm.symm

theorem Driven.session (h : Driven p n) {s : FcuSessionController} (hv : s.view = n.sessionControl.view)
    (hready : Node.tractionReady { n with sessionControl := s } 0 = true → n.tractionWasReady = true) :
    Driven p { n with sessionControl := s } := by
  obtain ⟨hm, ha, hsafety⟩ := FcuSessionController.view_wanted hv
  exact {
    arm := ha.trans h.arm
    safety := hsafety.trans h.safety
    mode := h.mode.imp_left hm.trans
    ready := hready
    driving := fun hr => ⟨(h.driving hr).movement, (h.driving hr).calm, (h.driving hr).connected,
      (h.driving hr).armed,
      (h.driving hr).mode⟩ }

theorem handSession_after {c : Command} {asked : FcuSessionController} {env : SessionEnv} {n : Node}
    (hpending : n.sessionControl.pending = some c)
    (hunsettled : n.sessionControl.safetyDisarm = false →
      ¬ (n.sessionControl.mode = n.sessionControl.wantedMode ∧ n.sessionControl.armed = n.sessionControl.wantedArm))
    (hrule : ∀ log, (c.kind = .arm → c.arm = true → Parked n log) → Rule p log (commandRequest c asked n)) :
    Triple (fun n' log => n' = n ∧ AfterDrive p n log) (handSession c asked env) fun _ => AfterDrive p := by
  refine Triple.seq (R := fun n' log => n' = n ∧ AfterDrive p n log ∧
    (c.kind = .arm → c.arm = true → Parked n log)) ?_
    fun _ => Triple.ite (fun _ => ?_) fun _ => Triple.read fun sent => ?_
  · refine Triple.ite (fun _ => triple_publishNeutral ?_) fun hkind => Triple.pure ?_
    · rintro n l ⟨rfl, hg, hd⟩
      exact ⟨rfl, ⟨⟨hg.1.neutrals, hg.2⟩, hd⟩, fun _ _ => parked_neutrals n l⟩
    · rintro n l ⟨rfl, h⟩
      exact ⟨rfl, h, fun hk ha => absurd ⟨hk, ha⟩ hkind⟩
  · -- the send threw: the command is refused at once
    refine Triple.update ?_
    rintro n l ⟨rfl, ⟨hg, hd⟩, -⟩
    have hv : (n.sessionControl.complete c.serial false env.steady).view = n.sessionControl.view :=
      FcuSessionController.complete_view _ _ _
    refine ⟨hg.session (.complete c.serial false env.steady) (by simp), hd.session hv fun hready => ?_⟩
    obtain ⟨hm, ha, -⟩ := FcuSessionController.view_wanted hv
    obtain ⟨-, hoa, hom⟩ := FcuSessionController.view_observed hv
    simp only [Node.tractionReady, FcuSessionController.ready, Bool.and_eq_true, Bool.not_eq_true',
      beq_iff_eq] at hready
    obtain ⟨⟨⟨-, hcalm⟩, ⟨-, hmode⟩, harmed⟩, -⟩ := hready
    refine absurd ⟨?_, ?_⟩ (hunsettled (hd.safety.trans hcalm))
    · exact hom.symm.trans (hmode.trans hm)
    · exact hoa.symm.trans (harmed.trans ha)
  · refine Triple.bind (R := fun _ => AfterDrive p) (Triple.emit ?_) fun _ => Keeps.update fun n l h => ?_
    · rintro m l ⟨rfl, rfl, ⟨hg, hd⟩, hparked⟩
      have hnone : (commandRequest c asked m).transport? = none := by unfold commandRequest; split <;> rfl
      refine ⟨⟨hg.1.emit (fun t ht => ?_) (hrule l hparked), hg.2⟩, hd⟩
      rw [hnone] at ht; cases ht
    · exact ⟨h.1.frame rfl h.1.1.sees, h.2.frame rfl rfl⟩

theorem sendSession_after (env : SessionEnv) :
    Triple (Settling p env.steady) (sendSession env) fun _ => AfterDrive p := by
  refine Triple.read fun n => ?_
  have hview := FcuSessionController.next_view (s := n.sessionControl) env.steady env.modeReady env.armReady
    (n.allowArm env.nowNs)
  have hclock : n.allowArm env.nowNs = n.allowArm 0 := by simp [Node.allowArm]
  refine Triple.bind (R := fun _ n' log => n' = { n with
    sessionControl := (n.sessionControl.next env.steady env.modeReady env.armReady (n.allowArm env.nowNs)).1 } ∧
      Settling p env.steady n log) (Triple.update ?_) fun _ => ?_
  · rintro n l ⟨rfl, h⟩
    exact ⟨rfl, h⟩
  rw [hclock] at hview ⊢
  cases hc : (n.sessionControl.next env.steady env.modeReady env.armReady (n.allowArm 0)).2 with
  | none =>
    refine Triple.pure ?_
    rintro _ l ⟨rfl, hg, hd, htick⟩
    refine ⟨hg.session (.next env.steady env.modeReady env.armReady (n.allowArm 0)) (by simp),
      hd.session hview fun hready => ?_⟩
    have hnone : (n.sessionControl.next env.steady env.modeReady env.armReady (n.allowArm 0)).1 =
      n.sessionControl := by
      unfold FcuSessionController.next at hc ⊢
      rw [htick] at hc ⊢
      exact FcuSessionController.issue_none hc
    rw [hnone] at hready
    exact hd.ready hready
  | some c =>
    have hissued := FcuSessionController.next_issued hc
    obtain ⟨hm, ha, hs⟩ := FcuSessionController.view_wanted hview
    obtain ⟨-, hoa, hom⟩ := FcuSessionController.view_observed hview
    refine Triple.assume (p := Sees n n.sessionControl ∧ Driven p n ∧
      n.sessionControl.tick env.steady = n.sessionControl) (fun hn => ?_) ?_
    · refine (handSession_after (n := { n with
        sessionControl := (n.sessionControl.next env.steady env.modeReady env.armReady (n.allowArm 0)).1 })
        hissued.1 (fun hsafety => ?_) fun log => ?_).pre ?_
      · show ¬ ((n.sessionControl.next _ _ _ _).1.mode = _ ∧ (n.sessionControl.next _ _ _ _).1.armed = _)
        rw [hm, ha, hoa, hom]
        exact hissued.2 (hs ▸ hsafety)
      · exact commandRequest_rule hn.1 hn.2.1 hn.2.2 hc log
      · rintro _ l ⟨rfl, hg, hd, -⟩
        refine ⟨rfl, hg.session (.next env.steady env.modeReady env.armReady (n.allowArm 0)) (by simp),
          hd.session hview fun hready => ?_⟩
        simp only [Node.tractionReady, FcuSessionController.ready, hissued.1, Option.isNone_some, Bool.and_false,
          Bool.false_and, Bool.false_eq_true] at hready
    · rintro _ l ⟨-, hg, hd, htick⟩
      exact ⟨hg.1.sees, hd, htick⟩

/-- The rule of the mark: without a confirmed session no transport is left with a velocity. -/
theorem markDriven_after : Keeps (AfterDrive p) markDriven := by
  refine Triple.read fun driven => Triple.emit ?_
  rintro n l ⟨rfl, hg, hd⟩
  refine ⟨⟨hg.1.emit (by simp [Effect.transport?]) ⟨fun hno t m hm => ?_, trivial, .inr trivial⟩, hg.2⟩, hd⟩
  exact (hg.1.parked t m hm).2.resolve_right fun hwas => hno (hd.driving hwas)

theorem driveSessionLocked_after (env : SessionEnv) :
    Triple (Guarded p) (driveSessionLocked env) fun _ => AfterDrive p :=
  triple_driveSessionLocked (demandSession_demanded env) (neutralizeTraction_settling env)
    (endFailed_settling env.steady env.ended) (forgetSessionRpcs_settling env.steady) (sendSession_after env)
    markDriven_after

theorem Guarded.driveSessionLocked (env : SessionEnv) : Keeps (Guarded p) (driveSessionLocked env) :=
  (driveSessionLocked_after env).weaken (fun _ _ => id) fun _ _ _ => And.left

/-! ### Velocities -/

theorem Guarded.onCmdVel (twist : Twist) (env : Env) : Keeps (Guarded p) (onCmdVel twist env) := by
  refine Triple.bind (driveSessionLocked_after (env.session 0)) fun _ => ?_
  split
  rotate_left
  · exact Triple.pure fun _ _ => And.left
  rename_i linearX angularZ _ _
  refine Triple.read fun n => Triple.ite (fun _ => ?_) fun hgo => ?_
  · refine publishNeutral.pre ?_
    rintro _ l ⟨-, h⟩
    exact h.1
  have hgo' : n.tractionReady 0 = true := by
    rw [not_or, not_or, not_or] at hgo
    obtain ⟨hem, hmotion, harm, hready⟩ := hgo
    rw [emergency_clock, Bool.not_eq_true] at hem
    rw [not_not] at hmotion harm hready
    simp only [Node.tractionReady, hem, hmotion, harm, hready]; rfl
  have hdriving : ∀ l, AfterDrive p n l → n.tractionWasReady = true ∧ n.Driving := fun l ⟨hg, hd⟩ =>
    ⟨hd.ready hgo', hd.driving (hd.ready hgo')⟩
  refine Triple.ite (fun hguided => ?_) fun hguided => ?_
  · refine Triple.read fun n' => ?_
    split
    · rename_i target hok
      refine Triple.emit ?_
      rintro m l ⟨rfl, rfl, h⟩
      obtain ⟨hwas, hd⟩ := hdriving l h
      have himpl : m.provider.guidedVelocityImplemented = true := by
        simp only [Node.guided, Bool.and_eq_true] at hguided
        exact hguided.2
      refine ⟨h.1.1.emit (fun t ht => ?_) ⟨⟨hd, ?_⟩, trivial, .inr trivial⟩, h.1.2⟩
      · obtain rfl := Option.some.inj ht
        exact ⟨himpl, .inr hwas⟩
      · rw [hd.mode, Node.drivingMode, if_pos hguided]
    · refine Triple.pure ?_
      rintro _ l ⟨-, -, h⟩
      exact h.1
  · refine Triple.emit ?_
    rintro _ l ⟨rfl, h⟩
    obtain ⟨hwas, hd⟩ := hdriving l h
    refine ⟨h.1.1.emit (fun t ht => ?_) ⟨⟨hd, ?_⟩, trivial, .inr trivial⟩, h.1.2⟩
    · obtain rfl := Option.some.inj ht
      exact ⟨trivial, .inr hwas⟩
    · rw [hd.mode, Node.drivingMode, if_neg hguided]

end Bridge
end MowgliMavros
