import MowgliMavros.BladeDeadline
import MowgliMavros.BridgeBlade

/-!
# The owner of a temporary ARM

`drive_session_locked` makes the demand match the movement session and the blade test (`Backed`, and
`Wanted` in a movement session); `drive_blade_locked` ends a blade test that waits for nothing (`Busy`).
A callback that ends one of the two runs the drive that notices. The sends must not throw: a servo send
that throws drops the intention after the drive has looked at it.
-/

namespace MowgliMavros
namespace Bridge
open Prog (Triple Keeps)

/-- An arming demand has a movement session or a blade test. -/
def Backed (n : Node) : Prop :=
  n.sessionControl.wantedArm = true → n.motionSessionActive = true ∨ n.bladeTestActive = true

/-- A blade test outside a movement session has a waiting start or an ON. -/
def Busy (n : Node) : Prop :=
  n.bladeTestActive = true →
    n.motionSessionActive = true ∨ n.pendingBladeStarts ≠ [] ∨ n.bladeControl.requested ≠ .off

/-- A movement session without an emergency wants to be armed. -/
def Wanted (n : Node) : Prop :=
  n.motionSessionActive = true → n.emergency 0 = false → n.sessionControl.wantedArm = true

/-- `q` when `Wanted` is asked for. -/
def Arming (q : Prop) : Assertion := fun n _ => Backed n ∧ (q → Wanted n)

def Owned (q : Prop) : Assertion := fun n log => Arming q n log ∧ Busy n

def Untested : Assertion := fun n _ => n.bladeTestActive = false

/-- No servo send throws. -/
def Env.Sends (env : Env) : Prop := ∀ i, (env.blade i).throws = false

variable {q : Prop} {n n' : Node} {log : List Effect}

theorem Backed.wantedArm_eq (hn : n'.sessionSide = n.sessionSide) :
    (Backed n ↔ Backed n') ∧ (Wanted n ↔ Wanted n') := by
  simp only [Node.sessionSide, Prod.mk.injEq] at hn
  obtain ⟨hs, -, hf, hl, ht, -⟩ := hn
  simp only [Backed, Wanted, Node.motionSessionActive, Node.emergency, hs, hf, hl, ht, and_self]

theorem arming_bladeFree : BladeFree (Arming q) where
  frame hside h := by
    obtain ⟨hb, hw⟩ := Backed.wantedArm_eq hside
    exact ⟨hb.1 h.1, fun hq => hw.1 (h.2 hq)⟩
  emit _ _ _ _ h := h

theorem untested_bladeFree : BladeFree Untested where
  frame hside h := by
    simp only [Node.sessionSide, Prod.mk.injEq] at hside
    exact hside.2.2.2.2.1.trans h
  emit _ _ _ _ h := h

theorem Untested.busy (h : n.bladeTestActive = false) : Busy n := fun ht => by rw [h] at ht; cases ht

theorem keeps_neutral {I : Assertion} (hemit : ∀ n l e, I n l → I n (l ++ [e])) :
    Keeps I publishNeutralManualControl :=
  keeps_publishNeutralManualControl (fun _ _ _ => Triple.emit fun n l => hemit n l _)
    fun _ _ _ => Triple.emit fun n l => hemit n l _

/-! ### The end of a blade test -/

def Still : Assertion := fun n _ => n.motionSessionActive = false

theorem still_bladeFree : BladeFree Still where
  frame hside h := by
    simp only [Node.sessionSide, Prod.mk.injEq] at hside
    simp only [Still, Node.motionSessionActive, hside.2.2.2.1] at h ⊢
    exact h
  emit _ _ _ _ h := h

/-- Outside a movement session nothing wants to be armed once the test is over. -/
theorem Still.hold (safety : Bool) :
    Triple Still (updateSession (·.demand "HOLD" false safety)) fun _ => Arming q := by
  refine Triple.update fun n l hstill => ?_
  have hstands := demand_stands n.sessionControl "HOLD" false safety
  simp only [Prod.mk.injEq] at hstands
  constructor
  · intro harm
    have harm' : (n.sessionControl.demand "HOLD" false safety).wantedArm = true := harm
    rw [hstands.2.1] at harm'; cases harm'
  · intro _ hm
    have hm' : n.motionSessionActive = true := hm
    rw [hstill] at hm'; cases hm'

theorem endFailed_arming (env : EndEnv) : Keeps (Arming q) (endFailedBladeTestLocked env) := by
  refine Triple.read fun n => Triple.ite (fun _ => Triple.pure fun _ _ => And.right) fun hactive => ?_
  have hmotion : n.motionSessionActive = false := by
    by_contra h; exact hactive (.inr (by simpa using h))
  refine Triple.bind (R := fun _ => Still) (Triple.update ?_) fun _ => ?_
  · rintro n l ⟨rfl, -⟩
    exact hmotion
  have hfree := still_bladeFree
  refine hfree.cancelPendingBladeStarts.seq fun _ => (hfree.updateBlade _).seq fun _ => ?_
  exact Keeps.seq (keeps_neutral fun _ _ _ h => h) fun _ => Still.hold _

theorem endFailed_untested (env : EndEnv) : Keeps Untested (endFailedBladeTestLocked env) := by
  refine Triple.read fun n => Triple.ite (fun _ => Triple.pure fun _ _ => And.right) fun hactive => ?_
  refine Triple.pre (S := fun _ _ => False) (fun _ _ h => h.elim) ?_
  rintro _ l ⟨rfl, ht⟩
  exact hactive (.inl (by rw [show Node.bladeTestActive _ = false from ht]; simp))

/-- No blade test waits for nothing after the end of a failed one. -/
theorem endFailed_busy {P : Assertion} (env : EndEnv) :
    Triple P (endFailedBladeTestLocked env) fun _ n _ => Busy n := by
  refine Triple.read fun n => Triple.ite (fun hidle => Triple.pure ?_) fun _ => ?_
  · rintro n l ⟨rfl, -⟩ ht
    rcases hidle with h | h
    · exact absurd ht h
    · exact .inl h
  · have hfree := untested_bladeFree
    refine Triple.bind (R := fun _ => Untested) (Triple.update fun _ _ _ => rfl) fun _ => ?_
    refine hfree.cancelPendingBladeStarts.seq fun _ => (hfree.updateBlade _).seq fun _ => ?_
    refine Keeps.seq (keeps_neutral fun _ _ _ h => h) fun _ => ?_
    exact Triple.update fun _ _ h => Untested.busy h

/-! ### The session drive -/

theorem sessionControl_wanted {s s' : FcuSessionController} (hv : s'.view = s.view) : s'.wantedArm = s.wantedArm :=
  (FcuSessionController.view_wanted hv).2.1

theorem Arming.session (h : Arming q n log) {s : FcuSessionController} (hv : s.view = n.sessionControl.view) :
    Arming q { n with sessionControl := s } log := by
  have harm := sessionControl_wanted hv
  refine ⟨fun hw => h.1 (harm ▸ hw), fun hq hm hem => ?_⟩
  exact harm.trans (h.2 hq hm hem)

theorem demandSession_arming (env : SessionEnv) :
    Triple (fun _ _ => True) (demandSession env) fun _ => Arming q := by
  refine Triple.update fun n l _ => ?_
  have hview := FcuSessionController.tick_view (s := n.sessionControl.demand (n.sessionMode env.nowNs)
    (!n.emergency env.nowNs && (n.motionSessionActive || n.bladeTestActive)) (n.emergency env.nowNs)) env.steady
  have hstands := demand_stands n.sessionControl (n.sessionMode env.nowNs)
    (!n.emergency env.nowNs && (n.motionSessionActive || n.bladeTestActive)) (n.emergency env.nowNs)
  simp only [Prod.mk.injEq] at hstands
  have harm := (sessionControl_wanted hview).trans hstands.2.1
  refine ⟨fun hw => ?_, fun _ hm hem => harm.trans ?_⟩
  · have hw' := harm.symm.trans hw
    simp only [Bool.and_eq_true, Bool.or_eq_true] at hw'
    exact hw'.2
  · have hm' : n.motionSessionActive = true := hm
    have hem' : n.emergency env.nowNs = false := (emergency_clock env.nowNs).trans hem
    rw [hm', hem']; rfl

/-- What a session controller of the same target and observation keeps. -/
structure Viewed (I : Assertion) : Prop where
  emit : ∀ n l e, I n l → I n (l ++ [e])
  session : ∀ n l s, s.view = n.sessionControl.view → I n l → I { n with sessionControl := s } l
  ready : ∀ n l ready, I n l → I { n with tractionWasReady := ready } l
  ids : ∀ n l ids, I n l → I { n with sessionRpcIds := ids } l

namespace Viewed
variable {I : Assertion} (h : Viewed I)
include h

theorem neutral : Keeps I publishNeutralManualControl := keeps_neutral h.emit

theorem neutralizeTraction (env : SessionEnv) : Keeps I (neutralizeTraction env) :=
  Keeps.read fun _ => Keeps.seq h.neutral.when fun _ => Keeps.update fun n l => h.ready n l _

theorem forgetSessionRpcs : Keeps I forgetSessionRpcs :=
  Keeps.read fun _ => (Keeps.emitMap (fun _ n l => h.emit n l _) _).seq fun _ => Keeps.update fun n l => h.ids n l _

theorem handSession (command : FcuSessionController.Command) (asked : FcuSessionController) (env : SessionEnv) :
    Keeps I (handSession command asked env) := by
  refine Keeps.seq h.neutral.when fun _ => Keeps.ite ?_ (Keeps.read fun n => ?_)
  · exact Keeps.update fun n l => h.session n l _ (FcuSessionController.complete_view _ _ _)
  · exact Keeps.seq (Triple.emit fun n l => h.emit n l _) fun _ => Keeps.update fun n l => h.ids n l _

theorem sendSession (env : SessionEnv) : Keeps I (sendSession env) := by
  refine Triple.read fun n => Triple.bind (R := fun _ => I) (Triple.update ?_) fun _ => ?_
  · rintro n l ⟨rfl, hi⟩
    exact h.session n l _ (FcuSessionController.next_view _ _ _ _) hi
  · split
    · exact Keeps.skip
    · exact h.handSession _ _ env

theorem driveSessionLocked {P : Assertion} {env : SessionEnv}
    (hdemand : Triple P (demandSession env) fun _ => I) (hended : Keeps I (endFailedBladeTestLocked env.ended)) :
    Triple P (driveSessionLocked env) fun _ => I :=
  triple_driveSessionLocked hdemand (h.neutralizeTraction env) hended h.forgetSessionRpcs (h.sendSession env)
    (Keeps.read fun _ => Triple.emit fun n l => h.emit n l _)

end Viewed

theorem arming_viewed : Viewed (Arming q) where
  emit _ _ _ h := h
  session _ _ _ hv h := h.session hv
  ready _ _ _ h := h
  ids _ _ _ h := h

theorem busy_viewed : Viewed fun n _ => Busy n where
  emit _ _ _ h := h
  session _ _ _ _ h := h
  ready _ _ _ h := h
  ids _ _ _ h := h

theorem driveSession_arming (env : SessionEnv) :
    Triple (fun _ _ => True) (driveSessionLocked env) fun _ => Arming q :=
  arming_viewed.driveSessionLocked (demandSession_arming env) (endFailed_arming _)

theorem driveSession_busy (env : SessionEnv) : Keeps (fun n _ => Busy n) (driveSessionLocked env) :=
  busy_viewed.driveSessionLocked (Keeps.update fun _ _ h => h) (endFailed_busy _)

theorem driveSession_owned (env : SessionEnv) :
    Triple (fun n _ => Busy n) (driveSessionLocked env) fun _ => Owned q := fun n l h =>
  ⟨driveSession_arming env n l trivial, driveSession_busy env n l h⟩

/-! ### The blade drive -/

/-- Between the tick and the send no deadline is due. -/
def Punctual (q : Prop) (steady : Int) : Assertion := fun n log =>
  Arming q n log ∧ BladeControl.Timely steady n.bladeControl

theorem punctual_endFailed (steady : Int) (env : EndEnv) :
    Keeps (Punctual q steady) (endFailedBladeTestLocked env) := by
  have htimely : Keeps (fun n _ => BladeControl.Timely steady n.bladeControl) (endFailedBladeTestLocked env) := by
    refine Keeps.read fun n => Keeps.skip.ite ?_
    refine Keeps.seq (Keeps.update fun _ _ h => h) fun _ => Keeps.seq ?_ fun _ => Keeps.seq ?_ fun _ => ?_
    · exact Keeps.read fun _ => (Keeps.forEach fun _ _ => Keeps.read fun _ => Triple.emit fun _ _ => id).seq fun _ =>
        Keeps.update fun _ _ h => h
    · exact Keeps.update fun _ _ _ => BladeControl.Timely.forceOff _
    · exact Keeps.seq (keeps_neutral fun _ _ _ h => h) fun _ => Keeps.update fun _ _ h => h
  exact (endFailed_arming env).and htimely

theorem punctual_promote (steady : Int) (emergency : Bool) :
    Keeps (Punctual q steady) (promoteBladeStarts emergency steady) := by
  have hfree := arming_bladeFree (q := q)
  have hreply : ∀ header success, Keeps (Punctual q steady) (replyBlade header success) := fun header success =>
    Keeps.read fun _ => Triple.emit fun _ _ => id
  refine keeps_promoteBladeStarts hreply (fun direction => ?_) (fun _ _ _ => ?_) (fun n l starts h => ?_) emergency
  · exact keeps_requestBlade fun n l h => ⟨hfree.frame rfl h.1, h.2.request direction⟩
  · exact Keeps.read fun _ => Keeps.ite (Keeps.update fun _ _ h => h) (hreply _ _)
  · exact h

theorem driveBlade_owned {env : BladeEnv} (hsend : env.throws = false) :
    Triple (Arming q) (driveBladeLocked env) fun _ => Owned q := by
  have hfree := arming_bladeFree (q := q)
  refine triple_driveBladeLocked (J := Arming q) (M := Punctual q env.steady)
    (K := fun n log => Owned q n log ∧ BladeControl.Timely env.steady n.bladeControl) (hfree.side fun _ => rfl)
    (endFailed_arming _) (hfree.permitBlade _ _ _) ?_ ?_ (punctual_promote _) ?_ ?_ ?_ ?_ ?_
  · exact Triple.update fun n l h => ⟨hfree.frame rfl h, BladeControl.Timely.tick _ _⟩
  · exact Keeps.read fun _ => (punctual_endFailed _ _).when
  · refine Keeps.update fun n l h => ?_
    split
    · exact ⟨hfree.frame rfl h.1, BladeControl.Timely.serviceTimeout _⟩
    · exact h
  · exact Keeps.read fun _ => (Keeps.emitMap (fun _ _ _ h => h) _).seq fun _ => Keeps.update fun _ _ h => h
  · exact Keeps.read fun _ => (Keeps.emitMap (fun _ _ _ h => h) _).seq fun _ => Keeps.update fun _ _ h => h
  · refine Triple.read fun n => ?_
    by_cases hidle : n.pendingBladeStarts = [] ∧ n.bladeControl.requested = .off
    · rw [Prog.when, if_pos hidle]
      have hended : Triple (fun s l => s = n ∧ Punctual q env.steady s l) (endFailedBladeTestLocked env.endedIdle)
          fun _ n l => Punctual q env.steady n l ∧ Busy n := fun s l h =>
        ⟨punctual_endFailed _ _ s l h.2, endFailed_busy (P := fun _ _ => True) _ s l trivial⟩
      exact hended.weaken (fun _ _ => id) fun _ _ _ h => ⟨⟨h.1.1, h.2⟩, h.1.2⟩
    · rw [Prog.when_neg hidle]
      refine Triple.pure ?_
      rintro n l ⟨rfl, h⟩
      refine ⟨⟨h.1, fun _ => ?_⟩, h.2⟩
      by_cases hp : n.pendingBladeStarts = []
      · exact .inr (.inr fun hr => hidle ⟨hp, hr⟩)
      · exact .inr (.inl hp)
  · refine Triple.read fun n => Triple.ite (fun _ => Triple.pure fun _ _ h => h.2.1) fun _ => ?_
    refine Triple.bind (R := fun _ => Owned q) (Triple.update ?_) fun _ => ?_
    · rintro n l ⟨rfl, ⟨harming, hbusy⟩, htimely⟩
      refine ⟨hfree.frame rfl harming, fun ht => ?_⟩
      show n.motionSessionActive = true ∨ n.pendingBladeStarts ≠ [] ∨
        (n.bladeControl.next env.steady).1.requested ≠ .off
      rw [htimely.next_frame.1]
      exact hbusy ht
    · split
      · exact Keeps.skip
      · unfold handBlade
        rw [hsend]
        refine Keeps.seq (Keeps.update fun _ _ h => h) fun _ => Keeps.read fun _ => ?_
        exact Keeps.seq (Triple.emit fun _ _ h => h) fun _ => Keeps.update fun _ _ h => h

/-! ### The callbacks -/

/-- What a callback starts from: the demand of before is the `q` of after. -/
def Standing (q : Prop) : Assertion := fun n _ =>
  Backed n ∧ Busy n ∧ (q → n.sessionControl.wantedArm = true)

theorem Standing.arming {n : Node} {log : List Effect} (h : Standing q n log) : Arming q n log :=
  ⟨h.1, fun hq _ _ => h.2.2 hq⟩

theorem Standing.owned {n : Node} {log : List Effect} (h : Standing q n log) : Owned q n log := ⟨h.arming, h.2.1⟩

/-- What `Owned` and `Standing` read. -/
def Node.ownership (n : Node) :=
  (n.sessionControl, n.highLevelState, n.bladeTestActive, n.pendingBladeStarts, n.bladeControl.requested)

theorem Standing.side {f : Node → Node} (hf : ∀ n, (f n).ownership = n.ownership) :
    Keeps (Standing q) (Prog.update f) := by
  refine Keeps.update fun n _ h => ?_
  have hn := hf n
  simp only [Node.ownership, Prod.mk.injEq] at hn
  obtain ⟨hs, hh, ht, hp, hr⟩ := hn
  simp only [Standing, Backed, Busy, Node.motionSessionActive, hs, hh, ht, hp, hr] at h ⊢
  exact h

theorem Standing.side_owned {f : Node → Node} (hf : ∀ n, (f n).ownership = n.ownership) :
    Triple (Standing q) (Prog.update f) fun _ => Owned q :=
  (Standing.side hf).weaken (fun _ _ => id) fun _ _ _ => Standing.owned

theorem anything {α : Type} (x : Program α) : Keeps (fun _ _ => True) x := fun _ _ _ => trivial

section Callbacks
variable {env : Env}

/-- A safety disarm ends every blade test, so the session drive has only the movement session to look at. -/
theorem requestSafetyDisarm_owned (hold : Bool) :
    Triple (fun _ _ => True) (requestSafetyDisarm hold env) fun _ => Owned q := by
  have hfree := untested_bladeFree
  have hneutral : Keeps Untested publishNeutralManualControl := keeps_neutral fun _ _ _ h => h
  have hend : Triple (fun _ _ => True) (Prog.update fun n => { n with bladeTestActive := false }) fun _ => Untested :=
    Triple.update fun _ _ _ => rfl
  refine hend.seq fun _ => hfree.cancelPendingBladeStarts.seq fun _ => (hfree.updateBlade _).seq fun _ => ?_
  refine hneutral.seq fun _ => Keeps.seq (Keeps.update fun _ _ h => h) fun _ => ?_
  refine (hfree.driveBladeLocked endFailed_untested _).seq fun _ => ?_
  exact ((driveSession_owned _).pre fun _ _ h => Untested.busy h).seq fun _ => Keeps.read fun _ => Keeps.skip

theorem onMowerOff_owned (header : Nat) : Triple (fun _ _ => True) (onMowerOff header env) fun _ => Owned q := by
  have hfree := untested_bladeFree
  refine (anything cancelPendingBladeStarts).seq fun _ => ?_
  refine Triple.seq (R := Untested) (Triple.update fun _ _ _ => rfl) fun _ => Triple.peek fun n => ?_
  refine Keeps.seq (Keeps.when (Keeps.seq (Keeps.update fun _ _ h => h) fun _ => hfree.permitBlade _ _ _)) fun _ => ?_
  refine (hfree.requestBlade _ _).seq fun _ => (hfree.answerOff _ _ _).seq fun _ => ?_
  refine (hfree.driveBladeLocked endFailed_untested _).seq fun _ => ?_
  exact (driveSession_owned _).pre fun _ _ h => Untested.busy h

theorem onCmdVel_owned (twist : Twist) : Triple (fun n _ => Busy n) (onCmdVel twist env) fun _ => Owned q := by
  have hneutral : Keeps (Owned q) publishNeutralManualControl := keeps_neutral fun _ _ _ h => h
  have hguided : ∀ linearX angularZ, Keeps (Owned q) (publishGuided (some twist) linearX angularZ) :=
    keeps_publishGuided (fun _ _ _ => Triple.emit fun _ _ h => h) _
  refine (driveSession_owned (q := q) _).seq fun _ => ?_
  split
  · exact Keeps.read fun n => hneutral.ite ((hguided _ _).ite (Triple.emit fun _ _ h => h))
  · exact Keeps.skip

theorem safetyEdge_owned {c : Prop} [Decidable c] (hold : Bool) :
    Triple (Standing q) (Prog.when c do
      let _ ← requestSafetyDisarm hold env) fun _ => Owned q := by
  refine Triple.ite (fun _ => ?_) fun _ => Triple.pure fun _ _ => Standing.owned
  refine Triple.pre (S := fun _ _ => True) ?_ fun _ _ _ => trivial
  exact (requestSafetyDisarm_owned hold).seq fun _ => Keeps.skip

variable (hsends : env.Sends)
include hsends

theorem drives_owned (i j : Nat) :
    Triple (fun _ _ => True) (do
      driveSessionLocked (env.session i)
      driveBladeLocked (env.blade j)) fun _ => Owned q :=
  (driveSession_arming _).seq fun _ => driveBlade_owned (hsends j)

/-- A start that waits, or one that the drive has looked at. -/
theorem startBlade_owned (header : Nat) (direction : BladeControl.Direction) :
    Triple (Arming q) (startBlade header direction env) fun _ => Owned q := by
  have hfree := arming_bladeFree (q := q)
  refine Triple.read fun n => Triple.ite (fun _ => Triple.ite (fun hfull => ?_) fun _ => ?_) fun _ => ?_
  · refine Triple.read fun _ => Triple.emit ?_
    rintro n' l ⟨rfl, rfl, h⟩
    refine ⟨h, fun _ => .inr (.inl fun he => ?_)⟩
    rw [he] at hfull; simp at hfull
  · refine Triple.update ?_
    rintro n' l ⟨rfl, h⟩
    exact ⟨hfree.frame rfl h, fun _ => .inr (.inl (by simp))⟩
  · refine Triple.pre ?_ fun _ _ => And.right
    refine (hfree.permitBlade _ _ _).seq fun _ => (hfree.requestBlade _ _).seq fun _ => ?_
    exact (hfree.answerRequest _ _ _).seq fun _ => driveBlade_owned (hsends 1)

theorem onMowerOn_owned (header : Nat) (direction : BladeControl.Direction) :
    Triple (fun _ _ => True) (onMowerOn header direction env) fun _ => Owned q := by
  have hreply : Keeps (Owned q) (replyBlade header false) := Keeps.read fun _ => Triple.emit fun _ _ h => h
  refine Triple.peek fun n => (anything _).seq fun _ => ?_
  refine Triple.seq (driveSession_arming (q := q) _) fun _ => (driveBlade_owned (hsends 0)).seq fun _ => ?_
  refine Triple.peek fun n => Triple.ite (fun _ => hreply) fun _ => ?_
  refine Triple.seq (R := fun _ _ => True) (fun _ _ _ => trivial) fun _ => ?_
  refine (driveSession_arming (q := q) _).seq fun _ => Triple.peek fun n => Triple.ite (fun _ => ?_) fun _ => ?_
  · have hended : Triple (Arming q) (endFailedBladeTestLocked env.ended) fun _ => Owned q := fun s l h =>
      ⟨endFailed_arming _ s l h, endFailed_busy (P := fun _ _ => True) _ s l trivial⟩
    exact hended.seq fun _ => hreply
  · exact startBlade_owned hsends header direction

theorem onSetParameters_owned (parameters : List Parameter) :
    Triple (Standing q) (onSetParameters parameters env) fun _ => Owned q := by
  have hfree := arming_bladeFree (q := q)
  have hscale (n : Node) : (parameters.foldl Node.setScale n).ownership = n.ownership := by
    obtain ⟨linear, yaw, hscale⟩ := foldl_setScale parameters n
    rw [hscale]
    rfl
  refine Triple.peek fun n => ?_
  split
  · exact Triple.pure fun _ _ => Standing.owned
  refine Triple.seq (Standing.side hscale) fun _ => ?_
  refine Triple.ite (fun _ => ?_) fun _ => Triple.pure fun _ _ => Standing.owned
  refine Triple.pre ?_ fun _ _ => Standing.arming
  refine Keeps.seq (hfree.side fun _ => rfl) fun _ => ?_
  exact (hfree.updateBlade _).seq fun _ => driveBlade_owned (hsends 0)

theorem onBladeWire_owned (message : Option WireCommand) :
    Triple (Standing q) (onBladeWire message env) fun _ => Owned q := by
  have hkept : Triple (Standing q) (pure () : Program Unit) fun _ => Owned q := Triple.pure fun _ _ => Standing.owned
  refine Triple.peek fun n => ?_
  split
  · exact hkept
  refine Triple.ite (fun _ => hkept) fun _ => ?_
  refine Triple.seq (Standing.side fun _ => rfl : Keeps (Standing q) (expireWireExpectations _)) fun _ => ?_
  refine Triple.peek fun n => ?_
  split
  · exact Standing.side_owned fun _ => rfl
  · refine Triple.pre ?_ fun _ _ => Standing.arming
    exact (arming_bladeFree.updateBlade _).seq fun _ => driveBlade_owned (hsends 0)

theorem onBladeOutput_owned (message : RCOut) :
    Triple (Standing q) (onBladeOutput message env) fun _ => Owned q := by
  have hfree := arming_bladeFree (q := q)
  have hkept : Triple (Standing q) (pure () : Program Unit) fun _ => Owned q := Triple.pure fun _ _ => Standing.owned
  refine Triple.peek fun n => Triple.ite (fun _ => hkept) fun _ => ?_
  split
  · exact hkept
  refine Triple.ite (fun _ => ?_) fun _ => hkept
  refine Triple.pre ?_ fun _ _ => Standing.arming
  refine Keeps.seq (hfree.side fun _ => rfl) fun _ => ?_
  exact (hfree.updateBlade _).seq fun _ => driveBlade_owned (hsends 0)

theorem onEscTelemetry_owned (message : EscObservation) :
    Triple (Standing q) (onEscTelemetry message env) fun _ => Owned q := by
  refine Triple.peek fun n => Triple.ite (fun _ => ?_) fun _ => Triple.pure fun _ _ => Standing.owned
  refine Triple.seq (Standing.side fun _ => rfl) fun _ => ?_
  refine Triple.ite (fun _ => Triple.peek fun n => ?_) fun _ => Triple.pure fun _ _ => Standing.owned
  refine Triple.pre ?_ fun _ _ => Standing.arming
  exact (arming_bladeFree.updateBlade _).seq fun _ => driveBlade_owned (hsends 0)

/-- Every callback ends with an owner for the demand, and keeps the demand of a movement session. -/
theorem callback_owned (c : Callback) : Triple (Standing q) (c.program env) fun _ => Owned q := by
  have hfree := arming_bladeFree (q := q)
  have hall : ∀ n (log : List Effect), Standing q n log → (fun _ _ => True) n log := fun _ _ _ => trivial
  have hkept : Triple (Standing q) (pure () : Program Unit) fun _ => Owned q := Triple.pure fun _ _ => Standing.owned
  cases c with
  | setParameters parameters => exact onSetParameters_owned hsends parameters
  | bladeWire message => exact onBladeWire_owned hsends message
  | bladeOutput message => exact onBladeOutput_owned hsends message
  | escTelemetry message => exact onEscTelemetry_owned hsends message
  | cmdVel twist => exact (onCmdVel_owned twist).pre fun _ _ h => h.2.1
  | highLevelStatus state =>
    refine Triple.pre (Triple.peek fun n => ?_) hall
    exact (anything _).seq fun _ => (anything _).seq fun _ => drives_owned hsends 0 1
  | mavrosState message =>
    refine Triple.pre (Triple.peek fun n => ?_) hall
    exact (anything _).seq fun _ => (anything _).seq fun _ => (anything _).seq fun _ => drives_owned hsends 0 0
  | mavrosSysStatus present enabled =>
    refine Triple.peek fun n => Triple.ite (fun _ => ?_) fun _ => hkept
    exact Triple.seq (Standing.side fun _ => rfl) fun _ => safetyEdge_owned true
  | buttonChange state =>
    refine Triple.peek fun n => Triple.ite (fun _ => ?_) fun _ => hkept
    refine Triple.seq (Standing.side fun _ => rfl) fun _ => Triple.seq (Standing.side fun _ => rfl) fun _ => ?_
    exact safetyEdge_owned false
  | mavrosImu tilted =>
    refine Triple.peek fun n => Triple.ite (fun _ => ?_) fun _ => ?_
    · exact Triple.seq (Standing.side fun _ => rfl) fun _ => safetyEdge_owned false
    · exact Standing.side_owned fun _ => rfl
  | mowerControl header mowEnabled mowDirection =>
    have hreply : Triple (Standing q) (replyBlade header false) fun _ => Owned q :=
      Triple.peek fun _ => Triple.emit fun _ _ => Standing.owned
    refine Triple.ite (fun _ => hreply) fun _ => Triple.ite (fun _ => ?_) fun _ => ?_
    · exact (onMowerOff_owned header).pre hall
    · exact (onMowerOn_owned hsends header _).pre hall
  | emergencyStop emergency =>
    have hanswer : ∀ success, Keeps (Owned q) (Prog.emit (.emergencyReply success)) :=
      fun _ => Triple.emit fun _ _ h => h
    refine Triple.pre (Triple.seq (anything _) fun _ => Triple.ite (fun _ => ?_) fun _ => ?_) hall
    · refine (anything _).seq fun _ => (driveSession_arming (q := q) _).seq fun _ => ?_
      exact (driveBlade_owned (hsends 0)).seq fun _ => hanswer true
    · exact (requestSafetyDisarm_owned true).seq fun success => hanswer success
  | rebootBoard =>
    refine Triple.ite (fun _ => Triple.emit fun _ _ => Standing.owned) fun _ => ?_
    exact Triple.seq (R := Standing q) (Triple.emit fun _ _ => id) fun _ => Triple.emit fun _ _ => Standing.owned
  | bladeTimer => exact (drives_owned hsends 0 0).pre hall
  | modeResponse serial response =>
    refine Triple.pre (Triple.seq (anything _) fun _ => ?_) hall
    exact (anything _).seq fun _ => drives_owned hsends 0 0
  | armResponse serial response =>
    refine Triple.pre (Triple.seq (anything _) fun _ => ?_) hall
    exact (anything _).seq fun _ => drives_owned hsends 0 0
  | servoResponse token response =>
    refine Triple.pre ?_ fun _ _ => Standing.arming
    refine Keeps.seq (hfree.side fun _ => rfl) fun _ => ?_
    exact (hfree.updateBlade _).seq fun _ => driveBlade_owned (hsends 0)

end Callbacks

/-! ### Runs -/

theorem reach_owned (l : Launch) {run : List (Callback × Env)} (hsends : ∀ c ∈ run, c.2.Sends) :
    Backed (reach l run) ∧ Busy (reach l run) := by
  refine Machine.inv_final (m := machine) (A := fun _ c => c.2.Sends) (I := fun n => Backed n ∧ Busy n)
    (fun n c hn hc => ?_) ⟨nofun, nofun⟩ (Machine.along_of_forall hsends)
  have howned := callback_owned (q := False) hc c.1 n [] ⟨hn.1, hn.2, False.elim⟩
  exact ⟨howned.1.1, howned.2⟩

/-- An arming demand at the end of a callback has a movement session, or a blade test with a waiting start
or an ON; and in a movement session without an emergency no callback withdraws it. -/
theorem arm_owned (l : Launch) (run : List (Callback × Env)) (hsends : ∀ c ∈ run, c.2.Sends) :
    ((reach l run).sessionControl.wantedArm = true →
      (reach l run).motionSessionActive = true ∨ (reach l run).bladeTestActive = true ∧
        ((reach l run).pendingBladeStarts ≠ [] ∨ (reach l run).bladeControl.requested ≠ .off)) ∧
    ∀ c : Callback × Env, c.2.Sends → (reach l run).sessionControl.wantedArm = true →
      (reach l (run ++ [c])).motionSessionActive = true → (∀ nowNs, (reach l (run ++ [c])).emergency nowNs = false) →
      (reach l (run ++ [c])).sessionControl.wantedArm = true := by
  obtain ⟨hbacked, hbusy⟩ := reach_owned l hsends
  constructor
  · intro harm
    rcases hbacked harm with hm | ht
    · exact .inl hm
    rcases hbusy ht with hm | hwait
    · exact .inl hm
    · exact .inr ⟨ht, hwait⟩
  · intro c hc harm hmotion hem
    have howned := callback_owned (q := True) hc c.1 (reach l run) [] ⟨hbacked, hbusy, fun _ => harm⟩
    have hlast : reach l (run ++ [c]) = (c.1.program c.2).after (reach l run) :=
      Machine.final_append (m := machine) run [c]
    rw [hlast] at hmotion hem ⊢
    exact howned.1.2 trivial hmotion (hem 0)

/-- `arm_owned` where the FCU refuses the FWD of a movement session. -/
theorem arm_owned_refused :
    (reach defaultLaunch (cuttingRun ++ [(.servoResponse 3 none, .clock 1200)])).bladeControl.failed = true ∧
      (reach defaultLaunch (cuttingRun ++ [(.servoResponse 3 none, .clock 1200)])).sessionControl.wantedArm =
        true := by
  have hsends : ∀ c ∈ cuttingRun, c.2.Sends := by
    simp [cuttingRun, armedRun, standing, Env.Sends, Env.clock]
  refine ⟨by decide +kernel, (arm_owned defaultLaunch cuttingRun hsends).2 (.servoResponse 3 none, .clock 1200)
    (fun _ => rfl) (by decide +kernel) (by decide +kernel) fun nowNs => ?_⟩
  rw [emergency_clock]
  decide +kernel

end Bridge
end MowgliMavros
