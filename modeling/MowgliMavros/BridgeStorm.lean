import MowgliMavros.BridgeBlade
import MowgliMavros.BridgeLedger
import MowgliMavros.SessionBudget

/-!
# Retry storms of the node

A stretch sends at most one MODE and one ARM or DISARM, unless OFF and `drive_session_locked` demand
different modes for a DISARM that is still due (`Node.OffRearms`): then each OFF clears the latch of the
last refusal and sends the DISARM again (`no_storm_iff`).
-/

namespace MowgliMavros
namespace Bridge
open Prog (Triple Keeps)
open FcuSessionController (Kind Command Event)

/-- At most one MODE and at most one ARM or DISARM leave in any stretch. -/
def NoStorm (n : Node) : Prop :=
  ∀ cs, Stretch n cs → ∀ kind, (machine.log n cs).countP (Effect.sends kind) ≤ 1

/-- Without a movement session or a blade test, an emergency that only disarms stands over an armed FCU
in another mode than HOLD. -/
structure Node.OffRearms (n : Node) : Prop where
  motion : n.motionSessionActive = false
  bladeTest : n.bladeTestActive = false
  emergency : n.emergency 0 = true
  noHold : n.holdEmergency 0 = false
  mode : n.mavrosState.mode ≠ "HOLD"
  connected : n.mavrosState.connected = true
  armed : n.mavrosState.armed = true

variable {n₀ n : Node} {kind : Kind}

theorem elim_cost (o : Option Command) :
    o.elim 0 (cost kind) = (o.toList.map Event.emitted).countP (Event.sends kind) := by
  cases o with
  | none => rfl
  | some c => by_cases h : c.kind = kind <;> simp [cost, Event.sends, h]

theorem wants_safe (n : Node) : n.wants.2.2 = true → n.wants.2.1 = false := by
  intro h
  simp only [Node.wants] at h ⊢
  rw [h]; rfl

theorem Aimed.safe {s : FcuSessionController} (h : Aimed n s) : s.safetyDisarm = true → s.wantedArm = false := by
  have hw := wants_safe n
  rw [← h] at hw
  exact hw

/-! ### OFF repeats the demand -/

open Classical in
/-- The allowance of the standing demand; one command before it stands. -/
noncomputable def allowed (n₀ : Node) (kind : Kind) (s : FcuSessionController) : Nat :=
  if Aimed n₀ s then s.allowance kind else 1

theorem allowed_le_one (s : FcuSessionController) : allowed n₀ kind s ≤ 1 := by
  unfold allowed
  split_ifs
  · exact s.allowance_le_one kind
  · exact Nat.le_refl 1

theorem allowed_repeats {s : FcuSessionController} (op : FcuSessionController.Op) (h : op.Repeats s.view) :
    allowed n₀ kind (s.apply op) ≤ allowed n₀ kind s := by
  by_cases ha : Aimed n₀ s
  · have hpays : _ + (s.apply op).allowance kind ≤ s.allowance kind := FcuSessionController.repeats_pays ha.safe h
    rw [allowed, allowed, if_pos ha, if_pos (aimed_of_view (FcuSessionController.repeats_view h) ha)]
    omega
  · rw [allowed, allowed, if_neg ha]
    exact allowed_le_one _

theorem allowed_demand (s : FcuSessionController) :
    allowed n₀ kind (s.demand n₀.wants.1 n₀.wants.2.1 n₀.wants.2.2) ≤ allowed n₀ kind s := by
  by_cases ha : Aimed n₀ s
  · obtain ⟨hm, harm, hs⟩ : s.wantedMode = n₀.wants.1 ∧ s.wantedArm = n₀.wants.2.1 ∧ s.safetyDisarm = n₀.wants.2.2 :=
      ⟨congrArg (·.1) ha, congrArg (·.2.1) ha, congrArg (·.2.2) ha⟩
    exact Nat.le_of_eq (congrArg (allowed n₀ kind) (FcuSessionController.demand_same
      (by simp [FcuSessionController.Retargets, hm, harm, hs])))
  · rw [allowed, allowed, if_neg ha]
    exact allowed_le_one _

noncomputable def agreeing (n₀ : Node) (kind : Kind)
    (hoff : n₀.motionSessionActive = false → n₀.bladeTestActive = false →
      ("HOLD", false, n₀.emergency 0) = n₀.wants) :
    Ledger n₀ kind where
  φ := allowed n₀ kind
  tick s now _ := allowed_repeats (.tick now) trivial
  complete s serial accepted now _ := allowed_repeats (.complete serial accepted now) trivial
  observe s hs := by
    refine allowed_repeats (.observe _ _ _) ?_
    simp only [Sees, Prod.mk.injEq] at hs
    exact ⟨hs.1.symm, hs.2.1.symm, hs.2.2.symm⟩
  demand s _ := allowed_demand s
  off hm ht s _ := by
    have h : allowed n₀ kind (s.demand n₀.wants.1 n₀.wants.2.1 n₀.wants.2.2) ≤ allowed n₀ kind s := allowed_demand s
    rwa [← hoff hm ht] at h
  next s now modeService armService allowArm _ ha := by
    rw [elim_cost, allowed, allowed, if_pos ha, if_pos (aimed_of_view (FcuSessionController.next_view _ _ _ _) ha)]
    exact FcuSessionController.next_pays ha.safe now modeService armService allowArm

/-! ### No FCU, or a disarmed one -/

def silent (n₀ : Node) (kind : Kind) (hc : n₀.mavrosState.connected = false) : Ledger n₀ kind where
  φ _ := 0
  tick _ _ _ := Nat.le_refl 0
  complete _ _ _ _ _ := Nat.le_refl 0
  observe _ _ := Nat.le_refl 0
  demand _ _ := Nat.le_refl 0
  off _ _ _ _ := Nat.le_refl 0
  next s now modeService armService allowArm hs _ := by
    simp only [Sees, Prod.mk.injEq] at hs
    rcases (s.tick now).issue_cases now modeService armService allowArm with hn | ⟨hconn, -⟩
    · rw [FcuSessionController.next, hn]; exact Nat.le_refl 0
    · rw [(FcuSessionController.view_observed (FcuSessionController.tick_view now)).1, hs.1, hc] at hconn; cases hconn

/-- What `tick`, `complete` and `observe` leave of a safety demand over a disarmed FCU. -/
def forced (s : FcuSessionController) : Bool × Bool := (s.safetyDisarm, s.forceDisarm)

open FcuSessionController in
theorem tick_forced (s : FcuSessionController) (now : Int) : forced (s.tick now) = forced s := by
  rcases s.tick_cases now with he | ⟨c, hc, -, he⟩ <;> rw [he]
  rw [fail_eq hc]; rfl

open FcuSessionController in
theorem settle_forced (s : FcuSessionController) : forced s.settle = forced s := by
  rcases s.settle_cases with he | ⟨_, _, -, -, -, he⟩ <;> rw [he]
  rfl

open FcuSessionController in
theorem complete_forced (s : FcuSessionController) (serial : Nat) (accepted : Bool) (now : Int) :
    forced (s.complete serial accepted now) = forced s := by
  rcases s.complete_cases serial accepted now with he | ⟨c, hc, -, -, he⟩ | ⟨-, he⟩ <;> rw [he]
  · exact tick_forced s now
  · rw [fail_eq hc]; exact tick_forced s now
  · rw [settle_forced]; exact tick_forced s now

/-- The DISARM that a new safety demand forces, once. -/
def unforced (kind : Kind) (s : FcuSessionController) : Nat :=
  match kind with
  | .mode => 0
  | .arm => if forced s = (true, false) then 0 else 1

theorem unforced_congr {s s' : FcuSessionController} (h : forced s' = forced s) :
    unforced kind s' ≤ unforced kind s :=
  Nat.le_of_eq (by unfold unforced; rw [h])

theorem unforced_demand (s : FcuSessionController) (mode : String) :
    unforced kind (s.demand mode false true) ≤ unforced kind s := by
  cases kind with
  | mode => exact Nat.le_refl 0
  | arm =>
    by_cases hs : forced s = (true, false)
    · obtain ⟨hsafe, hforce⟩ := Prod.mk.inj hs
      have hd : forced (s.demand mode false true) = (true, false) := by
        unfold FcuSessionController.demand
        split
        · exact hs
        · simp [forced, hsafe, hforce]
      simp [unforced, hd]
    · simp only [unforced, if_neg hs]
      split_ifs
      exacts [Nat.zero_le 1, Nat.le_refl 1]

/-- Over a disarmed FCU in the demanded mode `next` returns the forced DISARM or nothing. -/
theorem next_forced {s : FcuSessionController} (hmode : s.wantedMode = s.mode) (harmed : s.armed = false)
    (hsafe : s.safetyDisarm = true) (hwanted : s.wantedArm = false) (now : Int)
    (modeService armService allowArm : Bool) :
    (s.next now modeService armService allowArm).2.elim 0 (cost kind) +
      unforced kind (s.next now modeService armService allowArm).1 ≤ unforced kind s := by
  have hview := FcuSessionController.tick_view (s := s) now
  have ht : forced (s.tick now) = forced s := tick_forced s now
  obtain ⟨-, hta, htm⟩ := FcuSessionController.view_observed hview
  obtain ⟨hwm, hwa, hws⟩ := FcuSessionController.view_wanted hview
  rw [FcuSessionController.next]
  rcases (s.tick now).issue_cases now modeService armService allowArm with hn | ⟨-, -, k, arm, force, hdue, he⟩
  · rw [hn]
    simpa using unforced_congr ht
  rw [he]
  cases k with
  | mode =>
    obtain ⟨-, hne, -⟩ := hdue
    rw [htm, hwm, hmode] at hne
    exact absurd rfl hne
  | arm =>
    obtain ⟨-, ⟨⟨-, hforce, -⟩, -, rfl⟩ | ⟨hne, -⟩⟩ := hdue
    · rw [hta, harmed] at hforce
      have hforced : forced s = (true, true) := by
        rw [← ht, forced, hws, hsafe]; simpa using hforce
      cases kind with
      | mode => exact Nat.le_refl 0
      | arm =>
        have hs₁ : unforced .arm s = 1 := by simp [unforced, hforced]
        rw [hs₁]
        simp [unforced, forced, cost, FcuSessionController.emit, hws, hsafe]
    · rw [hta, harmed, hwa, hwanted] at hne
      exact absurd rfl hne

/-- Over a disarmed FCU in the demanded mode only the forced DISARM is sent. -/
def disarmed (n₀ : Node) (kind : Kind) (hem : n₀.emergency 0 = true) (hmode : n₀.wants.1 = n₀.mavrosState.mode)
    (harmed : n₀.mavrosState.armed = false) : Ledger n₀ kind where
  φ := unforced kind
  tick s now _ := unforced_congr (tick_forced s now)
  complete s serial accepted now _ := unforced_congr (complete_forced s serial accepted now)
  observe s _ := by
    refine unforced_congr ?_
    rw [FcuSessionController.observe_eq, settle_forced, harmed]
    simp [forced, FcuSessionController.seen]
  demand s _ := by
    have hsafe : n₀.wants.2.2 = true := hem
    rw [hsafe, wants_safe n₀ hsafe]
    exact unforced_demand s _
  off _ _ s _ := by
    rw [hem]
    exact unforced_demand s "HOLD"
  next s now modeService armService allowArm hs ha := by
    simp only [Sees, Prod.mk.injEq] at hs
    have hwanted : s.wantedMode = s.mode := ((congrArg (·.1) ha).trans hmode).trans hs.2.2.symm
    have hsafe : s.safetyDisarm = true := (congrArg (·.2.2) ha).trans hem
    exact next_forced hwanted (hs.2.1.trans harmed) hsafe (ha.safe hsafe) now modeService armService allowArm

theorem unforced_le_one (s : FcuSessionController) : unforced kind s ≤ 1 := by
  unfold unforced
  split
  · exact Nat.zero_le 1
  · split_ifs
    exacts [Nat.zero_le 1, Nat.le_refl 1]

theorem wants_of_disagree (hm : n.motionSessionActive = false) (ht : n.bladeTestActive = false)
    (h : ("HOLD", false, n.emergency 0) ≠ n.wants) :
    n.emergency 0 = true ∧ n.holdEmergency 0 = false ∧ n.wants.1 = n.mavrosState.mode ∧
      n.mavrosState.mode ≠ "HOLD" := by
  by_cases hfcu : n.emergency 0 = true ∧ ¬ n.holdEmergency 0 = true
  · have hmode : n.sessionMode 0 = n.mavrosState.mode := by rw [Node.sessionMode, if_pos hfcu]
    refine ⟨hfcu.1, by simpa using hfcu.2, hmode, fun hhold => h ?_⟩
    rw [Node.wants, hmode, hhold, hfcu.1]; rfl
  · have hmode : n.sessionMode 0 = "HOLD" := by
      rw [Node.sessionMode, if_neg hfcu, if_pos (.inr (by rw [hm]; decide))]
    refine absurd ?_ h
    rw [Node.wants, hmode, hm, ht, Bool.or_self, Bool.and_false]

theorem no_storm (hsees : Sees n n.sessionControl) (h : ¬ n.OffRearms) : NoStorm n := by
  intro cs hcs kind
  by_cases hoff : n.motionSessionActive = false → n.bladeTestActive = false → ("HOLD", false, n.emergency 0) = n.wants
  · exact Nat.le_trans ((agreeing n kind hoff).stretch_pays hsees hcs) (allowed_le_one _)
  simp only [Classical.not_imp] at hoff
  obtain ⟨hm, ht, hne⟩ := hoff
  obtain ⟨hem, hhold, hmode, hnot⟩ := wants_of_disagree hm ht hne
  cases hc : n.mavrosState.connected with
  | false => exact Nat.le_trans ((silent n kind hc).stretch_pays hsees hcs) (Nat.zero_le 1)
  | true =>
    cases ha : n.mavrosState.armed with
    | false => exact Nat.le_trans ((disarmed n kind hem hmode ha).stretch_pays hsees hcs) (unforced_le_one _)
    | true => exact absurd ⟨hm, ht, hem, hhold, hnot, hc, ha⟩ h

/-! ### The storm -/

structure Fixed (n₀ n : Node) : Prop where
  safety : n.safetyState = n₀.safetyState
  highLevel : n.highLevelState = n₀.highLevelState
  fcu : n.mavrosState = n₀.mavrosState
  bladeTest : n.bladeTestActive = false
  sees : Sees n₀ n.sessionControl

/-- The controller satisfies `p` and at least `c` arming requests have left. -/
def Phase (n₀ : Node) (p : FcuSessionController → Prop) (c : Nat) : Assertion := fun n log =>
  Fixed n₀ n ∧ p n.sessionControl ∧ c ≤ log.countP (Effect.sends .arm)

namespace Phase
variable {p q r : FcuSessionController → Prop} {c d : Nat} {log : List Effect}

theorem frame (h : Phase n₀ p c n log) {n' : Node} (hn : n'.core = n.core) : Phase n₀ p c n' log := by
  simp only [Node.core, Prod.mk.injEq] at hn
  obtain ⟨hs, hm, hf, hl, ht, -⟩ := hn
  obtain ⟨⟨hsafety, hhigh, hfcu, htest, hsees⟩, hp, hc⟩ := h
  exact ⟨⟨hf.trans hsafety, hl.trans hhigh, hm.trans hfcu, ht.trans htest, hs ▸ hsees⟩, hs ▸ hp, hc⟩

theorem bladeFree : BladeFree (Phase n₀ p c) where
  frame hside h := frame h (core_of_sessionSide hside)
  emit n l e _ h := ⟨h.1, h.2.1, Nat.le_trans h.2.2 (by simp)⟩

theorem keeps_emit (e : Effect) : Keeps (Phase n₀ p c) (Prog.emit e) :=
  Triple.emit fun _ _ h => ⟨h.1, h.2.1, Nat.le_trans h.2.2 (by simp)⟩

theorem publishNeutralManualControl : Keeps (Phase n₀ p c) publishNeutralManualControl :=
  keeps_publishNeutralManualControl (fun _ _ _ => keeps_emit _) fun _ _ _ => keeps_emit _

theorem endFailedBladeTestLocked (env : EndEnv) : Keeps (Phase n₀ p c) (endFailedBladeTestLocked env) := by
  refine Triple.read fun n => Triple.assume (p := n.bladeTestActive = false) (fun ht => ?_) ?_
  · rw [if_pos (.inl (by simp [ht]))]
    exact Triple.pure fun _ _ => And.right
  · rintro _ l ⟨rfl, h⟩
    exact h.1.bladeTest

theorem driveBladeLocked (env : BladeEnv) : Keeps (Phase n₀ p c) (driveBladeLocked env) :=
  bladeFree.driveBladeLocked endFailedBladeTestLocked env

theorem driveSessionLocked {env : SessionEnv} (hm : n₀.motionSessionActive = false)
    (hdemand : ∀ s, Sees n₀ s → p s → q ((s.demand (n₀.sessionMode 0) false (n₀.emergency 0)).tick env.steady))
    (hsend : Triple (Phase n₀ q c) (sendSession env) fun _ => Phase n₀ r d) :
    Triple (Phase n₀ p c) (driveSessionLocked env) fun _ => Phase n₀ r d := by
  refine triple_driveSessionLocked (J := Phase n₀ q c) (Triple.update fun n l h => ?_) ?_
    (endFailedBladeTestLocked _) ?_ hsend (Keeps.read fun _ => keeps_emit _)
  · obtain ⟨⟨hsafety, hhigh, hfcu, htest, hsees⟩, hp, hc⟩ := h
    have hmotion : n.motionSessionActive = false := by rw [Node.motionSessionActive, hhigh]; exact hm
    have hmode : n.sessionMode env.nowNs = n₀.sessionMode 0 := by
      simp [Node.sessionMode, hsafety, hfcu, hmotion, hm]
    have hem : n.emergency env.nowNs = n₀.emergency 0 := by simp [hsafety]
    have hdemanded : n.sessionControl.demand (n.sessionMode env.nowNs)
        (!n.emergency env.nowNs && (n.motionSessionActive || n.bladeTestActive)) (n.emergency env.nowNs) =
          n.sessionControl.demand (n₀.sessionMode 0) false (n₀.emergency 0) := by
      rw [hmode, hem, hmotion, htest, Bool.or_self, Bool.and_false]
    rw [hdemanded]
    refine ⟨⟨hsafety, hhigh, hfcu, htest, ?_⟩, hdemand _ hsees hp, hc⟩
    exact (hsees.apply (.demand _ _ _) (by simp)).apply (.tick env.steady) (by simp)
  · refine Keeps.read fun n => Keeps.seq (Keeps.when publishNeutralManualControl) fun _ => ?_
    exact Keeps.update fun _ _ h => frame h rfl
  · refine Keeps.read fun n => Keeps.seq (bladeFree.emitMap (fun _ => rfl) _) fun _ => ?_
    exact Keeps.update fun _ _ h => frame h rfl

/-- A drive after the expiry of what is pending, without services, leaves nothing pending. -/
theorem sendNothing {env : SessionEnv} (hmode : env.modeReady = false) (harm : env.armReady = false) :
    Keeps (Phase n₀ (fun s => s.pending = none) c) (sendSession env) := by
  have hnext : ∀ (s : FcuSessionController) allowArm, s.pending = none →
      s.next env.steady env.modeReady env.armReady allowArm = (s, none) := fun s allowArm hp => by
    rw [hmode, harm, FcuSessionController.next, FcuSessionController.tick_of_idle hp]
    simp [FcuSessionController.issue]
  refine Triple.read fun n => Triple.assume (p := n.sessionControl.pending = none) (fun hp => ?_) ?_
  · rw [hnext _ _ hp]
    refine Triple.bind (R := fun _ => Phase n₀ (fun s => s.pending = none) c) (Triple.update ?_) fun _ => Keeps.skip
    rintro n l ⟨rfl, h⟩
    rw [hnext _ _ h.2.1]; exact h
  · rintro _ l ⟨rfl, h⟩
    exact h.2.1

/-- An arming command that is handed out is counted. -/
theorem handArm {env : SessionEnv} (hthrows : env.throws = false) {command : Command} (hkind : command.kind = .arm)
    (asked : FcuSessionController) :
    Triple (Phase n₀ p c) (handSession command asked env) fun _ => Phase n₀ (fun _ => True) (c + 1) := by
  refine Keeps.seq (Keeps.when publishNeutralManualControl) fun _ => ?_
  rw [if_neg (by simp [hthrows])]
  refine Triple.peek fun sent => ?_
  refine Triple.bind (R := fun _ => Phase n₀ (fun _ => True) (c + 1)) (Triple.emit ?_) fun _ => ?_
  · rintro n l ⟨hn, -, hcount⟩
    refine ⟨hn, trivial, ?_⟩
    simpa [List.countP_append, hkind] using hcount
  · exact Keeps.update fun _ _ h => frame h rfl

theorem sendDisarm {env : SessionEnv} (harm : env.armReady = true) (hthrows : env.throws = false)
    (hc : n₀.mavrosState.connected = true) (ha : n₀.mavrosState.armed = true) :
    Triple (Phase n₀ (fun s => s.pending = none ∧ s.safetyDisarm = true ∧ s.armFailed = false) c) (sendSession env)
      fun _ => Phase n₀ (fun _ => True) (c + 1) := by
  refine Triple.read fun n => Triple.assume (p := Fixed n₀ n ∧ n.sessionControl.pending = none ∧
    n.sessionControl.safetyDisarm = true ∧ n.sessionControl.armFailed = false) (fun h => ?_) ?_
  · obtain ⟨hfixed, hp, hs, hf⟩ := h
    have hsees := hfixed.sees
    simp only [Sees, Prod.mk.injEq] at hsees
    rw [harm, FcuSessionController.next, FcuSessionController.tick_of_idle hp, FcuSessionController.issue_urgent
      (hsees.1.trans hc) hp ⟨hs, .inr (hsees.2.1.trans ha), hf⟩]
    refine Triple.bind (R := fun _ => Phase n₀ (fun _ => True) c) (Triple.update ?_) fun _ => handArm hthrows rfl _
    rintro n l ⟨rfl, -, -, hcount⟩
    have hnext := hfixed.sees.apply (.next env.steady env.modeReady true (n.allowArm env.nowNs)) (by simp)
    exact ⟨⟨hfixed.safety, hfixed.highLevel, hfixed.fcu, hfixed.bladeTest, hnext⟩, trivial, hcount⟩
  · rintro _ l ⟨rfl, h⟩
    exact ⟨h.1, h.2.1⟩

theorem onBladeTimer (env : Env) (t : Int) (hm : n₀.motionSessionActive = false)
    (hsteady : (env.session 0).steady = t + 3000) (hmode : (env.session 0).modeReady = false)
    (harm : (env.session 0).armReady = false) :
    Triple (Phase n₀ (fun s => s.sentAt = t) c) (onBladeTimer env)
      fun _ => Phase n₀ (fun s => s.pending = none) c := by
  refine Triple.seq (driveSessionLocked hm (fun s _ ht => ?_) (sendNothing hmode harm)) fun _ => driveBladeLocked _
  rw [hsteady]
  generalize hd : s.demand (n₀.sessionMode 0) false (n₀.emergency 0) = s'
  have hsent : s'.sentAt = t := by
    rw [← hd, ← ht]; unfold FcuSessionController.demand; split <;> rfl
  cases hp : s'.pending with
  | none => rw [FcuSessionController.tick_of_idle hp]; exact hp
  | some cmd =>
    rw [FcuSessionController.tick, if_pos ⟨by simp [hp], by omega⟩, FcuSessionController.fail_eq hp]

/-- The demand that OFF makes on its own. -/
theorem demandHold (safety : Bool) :
    Triple (Phase n₀ (fun s => s.pending = none) c) (updateSession (·.demand "HOLD" false safety))
      fun _ => Phase n₀ (fun s => s.pending = none ∧ s.wantedMode = "HOLD") c := by
  refine Triple.update fun n l ⟨hfixed, hp, hcount⟩ => ?_
  have hpending : (n.sessionControl.demand "HOLD" false safety).pending = none := by
    unfold FcuSessionController.demand
    split
    · exact hp
    · simp [hp]
  have hmode : (n.sessionControl.demand "HOLD" false safety).wantedMode = "HOLD" :=
    congrArg (·.1) (demand_stands _ _ _ _)
  have hsees := hfixed.sees.apply (.demand "HOLD" false safety) (by simp)
  exact ⟨⟨hfixed.safety, hfixed.highLevel, hfixed.fcu, hfixed.bladeTest, hsees⟩, ⟨hpending, hmode⟩, hcount⟩

/-- After HOLD was demanded, the drive's own demand is another target: it clears the latched failure. -/
theorem demand_rearms (h : n₀.OffRearms) {s : FcuSessionController} (hp : s.pending = none)
    (hhold : s.wantedMode = "HOLD") (now : Int) {s' : FcuSessionController}
    (hs' : s' = (s.demand (n₀.sessionMode 0) false (n₀.emergency 0)).tick now) :
    s'.pending = none ∧ s'.safetyDisarm = true ∧ s'.armFailed = false := by
  have hmode : n₀.sessionMode 0 ≠ "HOLD" := by
    rw [Node.sessionMode, if_pos ⟨h.emergency, by rw [h.noHold]; decide⟩]
    exact h.mode
  have hdemand : s.demand (n₀.sessionMode 0) false (n₀.emergency 0) = { s with
      wantedMode := n₀.sessionMode 0, wantedArm := false, modeFailed := false, armFailed := false, error := "",
      forceDisarm := s.forceDisarm || !s.safetyDisarm, safetyDisarm := true } := by
    rw [FcuSessionController.demand, if_neg (fun hd => hmode (hd.1.symm.trans hhold)), h.emergency]
    simp [hp]
  rw [hs', hdemand]
  simp [FcuSessionController.tick, hp]

theorem onMowerOff (header : Nat) (env : Env) (h : n₀.OffRearms) (harm : (env.session 0).armReady = true)
    (hthrows : (env.session 0).throws = false) :
    Triple (Phase n₀ (fun s => s.pending = none) c) (onMowerOff header env)
      fun _ => Phase n₀ (fun _ => True) (c + 1) := by
  refine bladeFree.cancelPendingBladeStarts.seq fun _ => ?_
  refine Keeps.seq (Keeps.update fun n l hn => ?_) fun _ => Triple.read fun n => ?_
  · exact ⟨⟨hn.1.safety, hn.1.highLevel, hn.1.fcu, rfl, hn.1.sees⟩, hn.2⟩
  refine Triple.bind (R := fun _ => Phase n₀ (fun s => s.pending = none ∧ s.wantedMode = "HOLD") c)
    (Triple.when (fun _ => Triple.pre ?_ fun _ _ => And.right) fun hmotion n' l ⟨hn, hfixed, _⟩ => ?_) fun _ => ?_
  · exact (demandHold _).seq fun _ => bladeFree.permitBlade _ _ _
  · refine absurd ?_ hmotion
    rw [← hn, Node.motionSessionActive, hfixed.highLevel]
    exact Bool.not_eq_true _ ▸ h.motion
  · refine (bladeFree.requestBlade _ _).seq fun result => (bladeFree.answerOff header result env).seq fun _ => ?_
    refine (driveBladeLocked _).seq fun _ => ?_
    exact driveSessionLocked h.motion (fun s _ hs => demand_rearms h hs.1 hs.2 _ rfl)
      (sendDisarm harm hthrows h.connected h.armed)

end Phase

/-- What is pending expires at a tick without services. -/
def expiry (sentAt : Int) : Env where
  session _ := { steady := sentAt + 3000, modeReady := false, armReady := false }

def round (sentAt : Int) : List (Callback × Env) := [(.bladeTimer, expiry sentAt), (.mowerControl 0 0 0, {})]

theorem fixed_same (h : n₀.OffRearms) (hn : Fixed n₀ n) : Same n₀ n :=
  ⟨hn.highLevel, congrArg SafetyState.flags hn.safety, hn.bladeTest.trans h.bladeTest.symm, hn.fcu⟩

theorem round_disarms (h : n₀.OffRearms) (hn : Fixed n₀ n) :
    machine.Along (fun n' c => Repeats n₀ c.1 ∧ Same n₀ (machine.step n' c).1) n (round n.sessionControl.sentAt) ∧
      Fixed n₀ (machine.final n (round n.sessionControl.sentAt)) ∧
        1 ≤ (machine.log n (round n.sessionControl.sentAt)).countP (Effect.sends .arm) := by
  have htimer := Phase.onBladeTimer (c := 0) (expiry n.sessionControl.sentAt) n.sessionControl.sentAt h.motion
    rfl rfl rfl n [] ⟨hn, rfl, Nat.zero_le _⟩
  have hoff := Phase.onMowerOff (c := 0) 0 {} h rfl rfl _ [] ⟨htimer.1, htimer.2.1, Nat.zero_le _⟩
  rw [List.nil_append] at hoff
  have hstep : machine.step n (.bladeTimer, expiry n.sessionControl.sentAt) =
      ((onBladeTimer (expiry n.sessionControl.sentAt)).after n,
        (onBladeTimer (expiry n.sessionControl.sentAt)).emitted n) := rfl
  simp only [round, Machine.Along, Machine.final_cons, Machine.log_cons, hstep, step_off, Machine.final_nil,
    Machine.log_nil]
  refine ⟨⟨⟨trivial, fixed_same h htimer.1⟩, ⟨rfl, fixed_same h hoff.1⟩, trivial⟩, hoff.1, ?_⟩
  have hcount := hoff.2.2
  simp only [List.countP_append]
  omega

theorem storm (h : n.OffRearms) (hsees : Sees n n.sessionControl) : ¬ NoStorm n := by
  intro hno
  have hfixed : Fixed n n := ⟨rfl, rfl, rfl, h.bladeTest, hsees⟩
  obtain ⟨halong₁, hfixed₁, hcount₁⟩ := round_disarms h hfixed
  obtain ⟨halong₂, -, hcount₂⟩ := round_disarms h hfixed₁
  have hstretch : Stretch n (round n.sessionControl.sentAt ++
      round (machine.final n (round n.sessionControl.sentAt)).sessionControl.sentAt) :=
    (Machine.along_append _ _).2 ⟨halong₁, halong₂⟩
  have hone := hno _ hstretch .arm
  rw [Machine.log_append, List.countP_append] at hone
  omega

/-- After every run: no stretch sends a kind of request twice, exactly unless OFF rearms the DISARM. -/
theorem no_storm_iff (l : Launch) (run : List (Callback × Env)) :
    NoStorm (reach l run) ↔ ¬ (reach l run).OffRearms := by
  have hsees : Sees (reach l run) (reach l run).sessionControl := (Refines.reach l run).observed
  exact ⟨fun hno h => storm h hsees hno, no_storm hsees⟩

/-- The mower tilts while it mows, the DISARM is refused, and the behaviour tree goes idle. -/
def tiltRun : List (Callback × Env) :=
  armedRun ++ [(.mavrosImu true, .clock 1000), (.mavrosImu true, .clock 1600),
    (.armResponse 3 (some (false, 4)), .clock 1650), (.highLevelStatus 1, .clock 1700)]

/-- OFF, the refusal of its DISARM, and OFF again. -/
def offTwice : List (Callback × Env) :=
  [(.mowerControl 7 0 0, .clock 1800), (.armResponse 4 (some (false, 4)), .clock 1850),
    (.mowerControl 8 0 0, .clock 1900)]

/-- Under a tilt emergency the refused DISARM is sent again by every OFF. -/
theorem refused_disarm_repeats :
    Stretch (reach defaultLaunch tiltRun) offTwice ∧
      (machine.log (reach defaultLaunch tiltRun) offTwice).countP (Effect.sends .arm) = 2 := by
  decide +kernel

end Bridge
end MowgliMavros
