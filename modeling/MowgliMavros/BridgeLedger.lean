import MowgliMavros.BridgeSession

/-!
# Stretches of repeated callbacks

In a `Stretch` OFF requests, repeated states, velocities, ticks and responses arrive while nothing else
changes. A `Ledger` is a potential of the session controller that pays for the requests of one kind:
no callback of a stretch sends more of them than the potential loses (`Ledger.stretch_pays`). The demand
of an OFF is one of its fields, since OFF does not ask for what `drive_session_locked` asks for.
-/

namespace MowgliMavros
namespace Bridge
open Prog (Triple Keeps)
open FcuSessionController (Kind Command)

def Effect.sends (kind : Kind) : Effect → Bool
  | setMode _ _ => Kind.mode == kind
  | arming _ _ _ => Kind.arm == kind
  | _ => false

/-- What a stretch leaves unchanged. -/
structure Same (n n' : Node) : Prop where
  highLevel : n'.highLevelState = n.highLevelState
  flags : n'.safetyState.flags = n.safetyState.flags
  bladeTest : n'.bladeTestActive = n.bladeTestActive
  fcu : n'.mavrosState = n.mavrosState

instance (n n' : Node) : Decidable (Same n n') :=
  decidable_of_iff (n'.highLevelState = n.highLevelState ∧ n'.safetyState.flags = n.safetyState.flags ∧
    n'.bladeTestActive = n.bladeTestActive ∧ n'.mavrosState = n.mavrosState)
    ⟨fun ⟨h, f, t, m⟩ => ⟨h, f, t, m⟩, fun ⟨h, f, t, m⟩ => ⟨h, f, t, m⟩⟩

def Repeats (n : Node) : Callback → Prop
  | .mowerControl _ mowEnabled _ => mowEnabled = 0
  | .highLevelStatus state => state = n.highLevelState
  | .mavrosState message => message = n.mavrosState
  | .cmdVel _ | .bladeTimer | .modeResponse _ _ | .armResponse _ _ => True
  | _ => False

instance (n : Node) (c : Callback) : Decidable (Repeats n c) :=
  match c with
  | .mowerControl .. | .highLevelStatus _ | .mavrosState _ => inferInstanceAs (Decidable (_ = _))
  | .cmdVel .. | .bladeTimer | .modeResponse .. | .armResponse .. => inferInstanceAs (Decidable True)
  | .setParameters .. | .bladeWire .. | .bladeOutput .. | .mavrosSysStatus .. | .buttonChange .. | .mavrosImu ..
  | .escTelemetry .. | .emergencyStop .. | .rebootBoard | .servoResponse .. => inferInstanceAs (Decidable False)

def Stretch (n : Node) (cs : List (Callback × Env)) : Prop :=
  machine.Along (fun n' c => Repeats n c.1 ∧ Same n (machine.step n' c).1) n cs

instance (n : Node) (cs : List (Callback × Env)) : Decidable (Stretch n cs) :=
  inferInstanceAs (Decidable (machine.Along _ n cs))

def cost (kind : Kind) (c : Command) : Nat := if c.kind = kind then 1 else 0

structure Ledger (n₀ : Node) (kind : Kind) where
  φ : FcuSessionController → Nat
  tick : ∀ s now, Sees n₀ s → φ (s.tick now) ≤ φ s
  complete : ∀ s serial accepted now, Sees n₀ s → φ (s.complete serial accepted now) ≤ φ s
  observe : ∀ s, Sees n₀ s →
    φ (s.observe n₀.mavrosState.connected n₀.mavrosState.armed n₀.mavrosState.mode) ≤ φ s
  demand : ∀ s, Sees n₀ s → φ (s.demand n₀.wants.1 n₀.wants.2.1 n₀.wants.2.2) ≤ φ s
  off : n₀.motionSessionActive = false → n₀.bladeTestActive = false → ∀ s, Sees n₀ s →
    φ (s.demand "HOLD" false (n₀.emergency 0)) ≤ φ s
  next : ∀ s now modeService armService allowArm, Sees n₀ s → Aimed n₀ s →
    (s.next now modeService armService allowArm).2.elim 0 (cost kind) +
      φ (s.next now modeService armService allowArm).1 ≤ φ s

variable {n₀ n : Node} {kind : Kind} {log : List Effect}

theorem Same.of_session {s : FcuSessionController} (h : Same n₀ { n with sessionControl := s }) : Same n₀ n :=
  ⟨h.highLevel, h.flags, h.bladeTest, h.fcu⟩

/-! ### The demand -/

theorem wants_congr {n' : Node} (h : Same n n') (hp : n'.provider = n.provider) : n'.wants = n.wants := by
  simp [Node.wants, Node.sessionMode, Node.guided, Node.motionSessionActive, h.highLevel, h.flags, h.bladeTest,
    h.fcu, hp]

/-- What a stretch and the potentials read of the node. -/
def Node.core (n : Node) :=
  (n.sessionControl, n.mavrosState, n.safetyState, n.highLevelState, n.bladeTestActive, n.provider)

theorem core_of_sessionSide {n' : Node} (h : n'.sessionSide = n.sessionSide) : n'.core = n.core := by
  simp only [Node.sessionSide, Node.core, Prod.mk.injEq] at h ⊢
  obtain ⟨hs, hm, hf, hl, ht, -, -, -, hp⟩ := h
  exact ⟨hs, hm, hf, hl, ht, hp⟩

/-! ### What is paid -/

/-- Between the callbacks of a stretch and inside them: `due` is owed for a command at hand. The end of a
blade test is no part of a stretch, so nothing is owed after it. -/
structure Ledger.Paid (ℓ : Ledger n₀ kind) (k due : Nat) (n : Node) (log : List Effect) : Prop where
  provider : n.provider = n₀.provider
  highLevel : n.highLevelState = n₀.highLevelState
  fcu : n.mavrosState = n₀.mavrosState
  sees : Sees n₀ n.sessionControl
  bladeTest : n.bladeTestActive = true → n₀.bladeTestActive = true
  pays : Same n₀ n → log.countP (Effect.sends kind) + due + ℓ.φ n.sessionControl ≤ k

namespace Ledger.Paid
variable {ℓ : Ledger n₀ kind} {k due : Nat}

theorem frame (h : ℓ.Paid k due n log) {n' : Node} (hn : n'.core = n.core) : ℓ.Paid k due n' log := by
  simp only [Node.core, Prod.mk.injEq] at hn
  obtain ⟨hs, hm, hf, hl, ht, hp⟩ := hn
  refine ⟨hp.trans h.provider, hl.trans h.highLevel, hm.trans h.fcu, hs ▸ h.sees, ht ▸ h.bladeTest, fun hsame => ?_⟩
  rw [hs]
  exact h.pays ⟨h.highLevel, hf ▸ hsame.flags, ht ▸ hsame.bladeTest, h.fcu⟩

theorem emit (h : ℓ.Paid k due n log) {e : Effect} (he : e.sends kind = false) : ℓ.Paid k due n (log ++ [e]) :=
  { h with pays := fun hsame => by simpa [List.countP_append, he] using h.pays hsame }

theorem session (h : ℓ.Paid k due n log) {s : FcuSessionController} (hs : Sees n₀ s)
    (hφ : Same n₀ n → ℓ.φ s ≤ ℓ.φ n.sessionControl) : ℓ.Paid k due { n with sessionControl := s } log :=
  { h with
    sees := hs
    pays := fun hsame => by
      have hn : Same n₀ n := hsame.of_session
      have := h.pays hn
      have := hφ hn
      dsimp only
      omega }

theorem bladeFree : BladeFree (ℓ.Paid k due) where
  frame hside h := h.frame (core_of_sessionSide hside)
  emit n l e he h := h.emit (by cases e <;> simp_all [Effect.isBlade, Effect.sends])

theorem keeps_emit {e : Effect} (he : e.sends kind = false) : Keeps (ℓ.Paid k due) (Prog.emit e) :=
  Triple.emit fun _ _ h => h.emit he

theorem publishNeutralManualControl : Keeps (ℓ.Paid k due) publishNeutralManualControl :=
  keeps_publishNeutralManualControl (fun _ _ _ => keeps_emit rfl) fun _ _ _ => keeps_emit rfl

/-- A blade test that ended: the stretch is over. -/
def Over (n₀ n : Node) : Prop :=
  n.provider = n₀.provider ∧ n.highLevelState = n₀.highLevelState ∧ n.mavrosState = n₀.mavrosState ∧
    Sees n₀ n.sessionControl ∧ n.bladeTestActive = false ∧ n₀.bladeTestActive = true

theorem of_over (h : Over n₀ n) : ℓ.Paid k due n log := by
  obtain ⟨hp, hl, hm, hs, ht, ht₀⟩ := h
  refine ⟨hp, hl, hm, hs, fun _ => ht₀, fun hsame => ?_⟩
  rw [hsame.bladeTest, ht₀] at ht; cases ht

theorem over_bladeFree (n₀ : Node) : BladeFree fun n _ => Over n₀ n where
  frame hside h := by
    simp only [Node.sessionSide, Prod.mk.injEq] at hside
    obtain ⟨hs, hm, hf, hl, ht, -, -, -, hp⟩ := hside
    unfold Over; rw [hs, hm, hl, ht, hp]; exact h
  emit _ _ _ _ h := h

theorem keeps_endFailed {I : Assertion} (hpaid : ∀ n log, I n log → ℓ.Paid k due n log)
    (hover : ∀ n log, Over n₀ n → I n log) (env : EndEnv) : Keeps I (endFailedBladeTestLocked env) := by
  refine Triple.read fun n => Triple.ite (fun _ => Triple.pure fun _ _ => And.right) fun hactive => ?_
  have htest : n.bladeTestActive = true := by
    by_contra h; exact hactive (.inl h)
  refine Triple.bind (R := fun _ n _ => Over n₀ n) (Triple.update ?_) fun _ => ?_
  · rintro _ l ⟨rfl, hi⟩
    have h := hpaid _ _ hi
    exact ⟨h.provider, h.highLevel, h.fcu, h.sees, rfl, h.bladeTest htest⟩
  have hfree := over_bladeFree n₀
  refine hfree.cancelPendingBladeStarts.seq fun _ => (hfree.updateBlade _).seq fun _ => Keeps.seq ?_ fun _ => ?_
  · exact keeps_publishNeutralManualControl (fun _ _ _ => Triple.emit fun _ _ => id)
      fun _ _ _ => Triple.emit fun _ _ => id
  · refine Triple.update fun n l ⟨hp, hl, hm, hs, ht⟩ => hover _ _ ⟨hp, hl, hm, ?_, ht⟩
    exact Sees.apply hs (.demand _ _ _) (by simp)

theorem endFailedBladeTestLocked (env : EndEnv) : Keeps (ℓ.Paid k due) (endFailedBladeTestLocked env) :=
  keeps_endFailed (fun _ _ => id) (fun _ _ => of_over) env

theorem driveBladeLocked (env : BladeEnv) : Keeps (ℓ.Paid k due) (driveBladeLocked env) :=
  bladeFree.driveBladeLocked endFailedBladeTestLocked env

/-! ### The session drive -/

/-- Paid, with the demand of `drive_session_locked` standing. -/
def AtTarget (ℓ : Ledger n₀ kind) (k : Nat) : Assertion := fun n log =>
  ℓ.Paid k 0 n log ∧ (Same n₀ n → Aimed n₀ n.sessionControl)

theorem demandSession (env : SessionEnv) : Triple (ℓ.Paid k 0) (demandSession env) fun _ => AtTarget ℓ k := by
  refine Triple.update fun n l h => ?_
  have hdemand : n.sessionControl.demand (n.sessionMode env.nowNs)
      (!n.emergency env.nowNs && (n.motionSessionActive || n.bladeTestActive)) (n.emergency env.nowNs) =
        n.sessionControl.demand n.wants.1 n.wants.2.1 n.wants.2.2 := by
    rw [sessionMode_clock env.nowNs, emergency_clock env.nowNs]; rfl
  rw [hdemand]
  have hsees : Sees n₀ (n.sessionControl.demand n.wants.1 n.wants.2.1 n.wants.2.2) :=
    h.sees.apply (.demand _ _ _) (by simp)
  refine ⟨h.session ?_ fun hsame => ?_, fun hsame => ?_⟩
  · exact hsees.apply (.tick env.steady) (by simp)
  · refine Nat.le_trans (ℓ.tick _ env.steady hsees) ?_
    rw [wants_congr hsame h.provider]
    exact ℓ.demand _ h.sees
  · have hn : Same n₀ n := hsame.of_session
    refine aimed_of_view (FcuSessionController.tick_view _) ?_
    rw [wants_congr hn h.provider]
    exact demand_stands _ _ _ _

theorem AtTarget.frame (h : AtTarget ℓ k n log) {n' : Node} (hn : n'.core = n.core) : AtTarget ℓ k n' log := by
  refine ⟨h.1.frame hn, fun hsame => ?_⟩
  simp only [Node.core, Prod.mk.injEq] at hn
  obtain ⟨hs, -, hf, -, ht, -⟩ := hn
  rw [hs]
  exact h.2 ⟨h.1.highLevel, hf ▸ hsame.flags, ht ▸ hsame.bladeTest, h.1.fcu⟩

theorem AtTarget.keeps_emit {e : Effect} (he : e.sends kind = false) : Keeps (AtTarget ℓ k) (Prog.emit e) :=
  Triple.emit fun _ _ h => ⟨h.1.emit he, h.2⟩

theorem neutralizeTraction (env : SessionEnv) : Keeps (AtTarget ℓ k) (neutralizeTraction env) := by
  have hneutral : Keeps (AtTarget ℓ k) Bridge.publishNeutralManualControl :=
    keeps_publishNeutralManualControl (fun _ _ _ => AtTarget.keeps_emit rfl) fun _ _ _ => AtTarget.keeps_emit rfl
  exact Keeps.read fun n => hneutral.when.seq fun _ => Keeps.update fun _ _ h => AtTarget.frame h rfl

theorem forgetSessionRpcs : Keeps (AtTarget ℓ k) forgetSessionRpcs := by
  refine Keeps.read fun n => Keeps.seq (Keeps.emitMap (fun _ _ _ h => ⟨h.1.emit rfl, h.2⟩) _) fun _ => ?_
  exact Keeps.update fun _ _ h => AtTarget.frame h rfl

theorem endFailed_atTarget (env : EndEnv) : Keeps (AtTarget ℓ k) (Bridge.endFailedBladeTestLocked env) := by
  refine keeps_endFailed (fun _ _ h => h.1) (fun n log h => ⟨of_over h, fun hsame => ?_⟩) env
  obtain ⟨-, -, -, -, ht, ht₀⟩ := h
  rw [hsame.bladeTest, ht₀] at ht; cases ht

@[simp] theorem commandRequest_sends (c : Command) (asked : FcuSessionController) (n : Node) :
    (commandRequest c asked n).sends kind = (c.kind == kind) := by
  unfold commandRequest
  split <;> rename_i h <;> rw [h] <;> rfl

theorem handSession (c : Command) (asked : FcuSessionController) (env : SessionEnv) :
    Triple (ℓ.Paid k (cost kind c)) (handSession c asked env) fun _ => ℓ.Paid k 0 := by
  refine Keeps.seq (Keeps.when publishNeutralManualControl) fun _ => ?_
  refine Triple.ite (fun _ => ?_) fun _ => Triple.peek fun sent => ?_
  · refine Triple.update fun n l h => ?_
    have hpaid : ℓ.Paid k 0 n l := { h with pays := fun hsame => by have := h.pays hsame; omega }
    exact hpaid.session (h.sees.apply (.complete _ _ _) (by simp))
      fun _ => ℓ.complete _ _ _ _ h.sees
  · refine Triple.bind (R := fun _ => ℓ.Paid k 0) (Triple.emit fun n l h => ?_) fun _ =>
      Keeps.update fun _ _ h => h.frame rfl
    refine { h with pays := fun hsame => ?_ }
    have := h.pays hsame
    by_cases hk : c.kind = kind <;> simp_all [List.countP_append, cost]

theorem sendSession (env : SessionEnv) : Triple (AtTarget ℓ k) (sendSession env) fun _ => ℓ.Paid k 0 := by
  refine Triple.read fun n => ?_
  refine Triple.bind (R := fun _ => ℓ.Paid k ((n.sessionControl.next env.steady env.modeReady env.armReady
    (n.allowArm env.nowNs)).2.elim 0 (cost kind))) (Triple.update ?_) fun _ => ?_
  · rintro n l ⟨rfl, h, haimed⟩
    refine { h with
      sees := h.sees.apply (.next _ _ _ _) (by simp)
      pays := fun hsame => ?_ }
    have hn : Same n₀ n := hsame.of_session
    have hnext := ℓ.next _ env.steady env.modeReady env.armReady (n.allowArm env.nowNs) h.sees (haimed hn)
    have := h.pays hn
    dsimp only
    omega
  · cases (n.sessionControl.next env.steady env.modeReady env.armReady (n.allowArm env.nowNs)).2 with
    | none => exact Keeps.skip
    | some c => exact handSession c _ env

theorem driveSessionLocked (env : SessionEnv) : Keeps (ℓ.Paid k 0) (driveSessionLocked env) :=
  triple_driveSessionLocked (demandSession env) (neutralizeTraction env) (endFailed_atTarget env.ended)
    forgetSessionRpcs (sendSession env) (Keeps.read fun _ => keeps_emit rfl)

/-! ### The callbacks of a stretch -/

theorem drives (env : Env) (i j : Nat) : Keeps (ℓ.Paid k 0) (do
    Bridge.driveSessionLocked (env.session i)
    Bridge.driveBladeLocked (env.blade j)) :=
  (driveSessionLocked _).seq fun _ => driveBladeLocked _

theorem onCmdVel (twist : Twist) (env : Env) : Keeps (ℓ.Paid k 0) (onCmdVel twist env) := by
  refine (driveSessionLocked _).seq fun _ => ?_
  split
  · exact Keeps.read fun n => publishNeutralManualControl.ite
      ((keeps_publishGuided (fun _ _ _ => keeps_emit rfl) _ _ _).ite (keeps_emit rfl))
  · exact Keeps.skip

theorem onHighLevelStatus (env : Env) : Keeps (ℓ.Paid k 0) (onHighLevelStatus n₀.highLevelState env) := by
  refine Triple.read fun n => ?_
  refine Triple.assume (p := n.highLevelState = n₀.highLevelState) (fun hl => Triple.pre ?_ fun _ _ => And.right) ?_
  · refine Keeps.seq (Keeps.update fun n l h => { h with highLevel := rfl, pays := fun hsame => ?_ }) fun _ => ?_
    · exact h.pays ⟨h.highLevel, hsame.flags, hsame.bladeTest, h.fcu⟩
    · have hsame : ¬ (n.motionSessionActive = true ∧ ¬ highLevelMotionActive n₀.highLevelState = true) := by
        rw [Node.motionSessionActive, hl]; exact fun h => h.2 h.1
      rw [Prog.when_neg hsame]
      exact Keeps.seq Keeps.skip fun _ => drives env 0 1
  · rintro _ l ⟨rfl, h⟩
    exact h.highLevel

theorem onResponse {serial : Nat} {accepted : Bool} {now : Int} :
    Keeps (ℓ.Paid k 0) (updateSession (·.complete serial accepted now)) :=
  Keeps.update fun n l h => h.session (h.sees.apply (.complete _ _ _) (by simp))
    fun _ => ℓ.complete _ _ _ _ h.sees

theorem eraseRpc (serial : Nat) :
    Keeps (ℓ.Paid k 0) (Prog.update fun n => { n with sessionRpcIds := erase n.sessionRpcIds serial }) :=
  Keeps.update fun _ _ h => h.frame rfl

def AtStart (ℓ : Ledger n₀ kind) (k : Nat) : Assertion := fun n log => ℓ.Paid k 0 n log ∧ Same n₀ n

/-- A repeated FCU state; a disconnected one may still change what is projected. -/
theorem onMavrosState (env : Env) :
    Triple (AtStart ℓ k) (onMavrosState n₀.mavrosState env) fun _ => ℓ.Paid k 0 := by
  refine Triple.peek fun n => ?_
  refine Triple.bind (R := fun _ => ℓ.Paid k 0) (Triple.update fun n l ⟨h, hsame⟩ => ?_) fun _ => ?_
  · exact {
      provider := h.provider
      highLevel := h.highLevel
      fcu := h.fcu
      sees := h.sees
      bladeTest := h.bladeTest
      pays := fun _ => h.pays hsame }
  refine Keeps.seq (Keeps.when bladeFree.cancelPendingBladeStarts) fun _ => ?_
  refine Keeps.seq (Keeps.update fun n l h => ?_) fun _ => drives env 0 0
  have hobserved := session_observe_observed n.sessionControl n₀.mavrosState.connected n₀.mavrosState.armed
    n₀.mavrosState.mode
  exact {
    provider := h.provider
    highLevel := h.highLevel
    fcu := rfl
    sees := hobserved
    bladeTest := h.bladeTest
    pays := fun hsame => Nat.le_trans (Nat.add_le_add_left (ℓ.observe _ h.sees) _)
      (h.pays ⟨h.highLevel, hsame.flags, hsame.bladeTest, h.fcu⟩) }

/-- OFF demands HOLD on its own when no session is active, before the drive's demand. -/
theorem onMowerOff (header : Nat) (env : Env) : Keeps (ℓ.Paid k 0) (onMowerOff header env) := by
  refine bladeFree.cancelPendingBladeStarts.seq fun _ => ?_
  refine Triple.bind (R := fun _ n log => ℓ.Paid k 0 n log ∧ n.bladeTestActive = false)
    (Triple.update fun n l h => ⟨?_, rfl⟩) fun _ => Triple.read fun n => ?_
  · refine { h with bladeTest := fun ht => (nomatch ht), pays := fun hsame => ?_ }
    have ht₀ : n₀.bladeTestActive = false := hsame.bladeTest.symm
    have ht : n.bladeTestActive = n₀.bladeTestActive := by
      by_contra hne
      rw [ht₀, Bool.not_eq_false] at hne
      rw [h.bladeTest hne] at ht₀; cases ht₀
    exact h.pays ⟨h.highLevel, hsame.flags, ht, h.fcu⟩
  refine Triple.bind (R := fun _ => ℓ.Paid k 0) (Triple.when (fun hmotion => ?_) fun _ n l h => h.2.1) fun _ => ?_
  · refine Triple.bind (R := fun _ => ℓ.Paid k 0) (Triple.update ?_) fun _ => bladeFree.permitBlade _ _ _
    rintro n l ⟨rfl, h, ht⟩
    refine h.session (h.sees.apply (.demand _ _ _) (by simp)) fun hsame => ?_
    have hmotion₀ : n₀.motionSessionActive = false := by
      rw [Node.motionSessionActive, ← h.highLevel]; simpa [Node.motionSessionActive] using hmotion
    have hem : n.emergency env.nowNs = n₀.emergency 0 := by simp [hsame.flags]
    rw [hem]
    exact ℓ.off hmotion₀ (hsame.bladeTest.symm.trans ht) _ h.sees
  · exact (bladeFree.requestBlade _ _).seq fun result => (bladeFree.answerOff header result env).seq fun _ =>
      (driveBladeLocked _).seq fun _ => driveSessionLocked _

theorem callback {c : Callback} (hc : Repeats n₀ c) (env : Env) :
    Triple (AtStart ℓ k) (c.program env) fun _ => ℓ.Paid k 0 := by
  have of_keeps : ∀ {x : Program Unit}, Keeps (ℓ.Paid k 0) x → Triple (AtStart ℓ k) x fun _ => ℓ.Paid k 0 :=
    fun h => h.pre fun _ _ => And.left
  cases c with
  | cmdVel twist => exact of_keeps (onCmdVel twist env)
  | highLevelStatus state =>
    obtain rfl := hc
    exact of_keeps (onHighLevelStatus env)
  | mavrosState message =>
    obtain rfl := hc
    exact onMavrosState env
  | mowerControl header mowEnabled mowDirection =>
    obtain rfl := hc
    refine of_keeps ?_
    rw [show (Callback.mowerControl header 0 mowDirection).program env = Bridge.onMowerOff header env by
      simp [Callback.program, onMowerControl]]
    exact onMowerOff header env
  | bladeTimer => exact of_keeps (drives env 0 0)
  | modeResponse serial response =>
    exact of_keeps ((eraseRpc serial).seq fun _ => onResponse.seq fun _ => drives env 0 0)
  | armResponse serial response =>
    exact of_keeps ((eraseRpc serial).seq fun _ => onResponse.seq fun _ => drives env 0 0)
  | _ => exact hc.elim

end Ledger.Paid

/-! ### Stretches -/

/-- The potential pays for every request of a stretch. -/
theorem Ledger.stretch_pays (ℓ : Ledger n₀ kind) (hsees : Sees n₀ n₀.sessionControl) {cs : List (Callback × Env)}
    (hcs : Stretch n₀ cs) : (machine.log n₀ cs).countP (Effect.sends kind) ≤ ℓ.φ n₀.sessionControl := by
  have hpay := Machine.budget (m := machine) (A := fun n' c => Repeats n₀ c.1 ∧ Same n₀ (machine.step n' c).1)
    (fun n' => n'.provider = n₀.provider ∧ Sees n₀ n'.sessionControl ∧ Same n₀ n') (Effect.sends kind)
    (fun n' => ℓ.φ n'.sessionControl) ?_ (s := n₀) ⟨rfl, hsees, rfl, rfl, rfl, rfl⟩ hcs
  · omega
  rintro n ⟨c, env⟩ ⟨hprovider, hn, hsame⟩ ⟨hrepeats, hafter⟩
  have hstart : ℓ.Paid (ℓ.φ n.sessionControl) 0 n [] := {
    provider := hprovider
    highLevel := hsame.highLevel
    fcu := hsame.fcu
    sees := hn
    bladeTest := fun ht => hsame.bladeTest ▸ ht
    pays := fun _ => by simp }
  have hend := Paid.callback hrepeats env n [] ⟨hstart, hsame⟩
  have hpays := hend.pays hafter
  rw [List.nil_append, Nat.add_zero] at hpays
  exact ⟨⟨hend.provider, hend.sees, hafter⟩, hpays⟩

end Bridge
end MowgliMavros
