import MowgliMavros.BridgeBlade
import MowgliMavros.BridgeWalk

/-!
# The emergency-stop press

A press demands HOLD and DISARM and drives the session. Over a connected, armed FCU with the arming service
ready a DISARM is then pending unless the sequencer has latched its failure for that same demand, or the
request that would send it throws (`emergency_press`).
-/

namespace MowgliMavros

/-! ### The sequencer -/

namespace FcuSessionController
variable {s : FcuSessionController} {now : Int} {modeService armService allowArm throws : Bool}

/-- The DISARM under way expires now, or the one before it failed under this HOLD demand. -/
def DisarmLatched (s : FcuSessionController) (now : Int) : Prop :=
  s.safetyDisarm = true ∧
    if s.disarmPending then now - s.sentAt ≥ 3000 else s.wantedMode = "HOLD" ∧ s.armFailed = true

/-- Under a safety demand in force a MODE is pending and has not expired. -/
def WaitsForMode (s : FcuSessionController) (now : Int) : Prop :=
  s.safetyDisarm = true ∧ s.ModePending ∧ now - s.sentAt < 3000

/-- The DISARM of the safety demand in force is under way. -/
def DisarmStands (s : FcuSessionController) : Prop := s.safetyDisarm = true ∧ s.disarmPending = true

/-- What `next` returned is handed to a client, which may throw. -/
def handed (next : FcuSessionController × Option Command) (now : Int) (throws : Bool) : FcuSessionController :=
  match next.2 with
  | none => next.1
  | some c => if throws then next.1.complete c.serial false now else next.1

/-- What a press makes of the sequencer. -/
def pressed (s : FcuSessionController) (now : Int) (modeService allowArm throws : Bool) : FcuSessionController :=
  handed (((s.demand "HOLD" false true).tick now).next now modeService true allowArm) now throws

theorem disarmPending_iff : s.disarmPending = true ↔ ∃ c, s.pending = some c ∧ c.kind = .arm ∧ c.arm = false := by
  unfold disarmPending
  rw [Option.any_eq_true]
  simp

/-- After a failed DISARM `next` sends no other. -/
theorem issue_failed (hp : s.pending = none) (hf : s.armFailed = true) :
    (s.issue now modeService true allowArm).1.disarmPending = false := by
  rcases issue_cases s now modeService true allowArm with h | ⟨-, -, kind, arm, force, hdue, h⟩
  · rw [h]
    simp [disarmPending, hp]
  · rw [h]
    cases kind with
    | mode => rfl
    | arm =>
      rw [hdue.1] at hf
      cases hf

/-- With nothing pending the drive under a safety demand disarms unless that has failed. -/
theorem idle_disarms (hc : s.connected = true) (ha : s.armed = true) (hs : s.safetyDisarm = true)
    (hp : s.pending = none) :
    (s.issue now modeService true allowArm).1.disarmPending = true ↔ s.armFailed = false := by
  cases hf : s.armFailed with
  | true => simp [issue_failed hp hf]
  | false =>
    rw [issue_urgent hc hp ⟨hs, .inr ha, hf⟩]
    exact ⟨fun _ => rfl, fun _ => rfl⟩

/-- The drive under a safety demand that stands. -/
theorem driven_disarms (h : Disarming s) (hc : s.connected = true) (ha : s.armed = true)
    (hs : s.safetyDisarm = true) (hmode : ¬ s.WaitsForMode now) :
    ((s.tick now).issue now modeService true allowArm).1.disarmPending = true ↔
      if s.disarmPending then now - s.sentAt < 3000 else s.armFailed = false := by
  cases hp : s.pending with
  | none =>
    have hnone : s.disarmPending = false := by simp [disarmPending, hp]
    rw [tick_of_idle hp, idle_disarms hc ha hs hp, hnone]
    simp
  | some c =>
    by_cases hexpired : now - s.sentAt ≥ 3000
    · have htick : s.tick now = s.fail "confirmation_timeout" := if_pos ⟨by simp [hp], hexpired⟩
      rw [htick, fail_eq hp]
      refine Iff.trans (idle_disarms ?_ ?_ ?_ rfl) ?_
      iterate 3 assumption
      cases hk : c.kind with
      | mode => simp [disarmPending, hp, hk]
      | arm =>
        have harm := h.pending hs c hp hk
        simp [disarmPending, hp, hk, harm, h.wanted hs, hexpired]
    · have htick : s.tick now = s := if_neg fun hboth => hexpired hboth.2
      have hk : c.kind = .arm := by
        cases hk : c.kind with
        | arm => rfl
        | mode => exact absurd ⟨hs, ⟨c, hp, hk⟩, by omega⟩ hmode
      have hdisarm : s.disarmPending = true := disarmPending_iff.2 ⟨c, hp, hk, h.pending hs c hp hk⟩
      rw [htick, issue_busy hp, if_pos hdisarm]
      exact ⟨fun _ => by omega, fun _ => hdisarm⟩

theorem tick_disarmPending :
    (s.tick now).disarmPending = true ↔ s.disarmPending = true ∧ now - s.sentAt < 3000 := by
  cases hp : s.pending with
  | none => simp [tick_of_idle hp, disarmPending, hp]
  | some c =>
    by_cases hexpired : now - s.sentAt ≥ 3000
    · have htick : s.tick now = s.fail "confirmation_timeout" := if_pos ⟨by simp [hp], hexpired⟩
      rw [htick, fail_eq hp]
      exact ⟨(fun h => by cases h), fun h => absurd hexpired (by omega)⟩
    · have htick : s.tick now = s := if_neg fun hboth => hexpired hboth.2
      rw [htick]
      exact (and_iff_left (by omega)).symm

/-- A send that throws leaves no DISARM but the one that was under way before. -/
theorem handed_disarms : (handed (s.issue now modeService armService allowArm) now throws).disarmPending = true ↔
    (s.issue now modeService armService allowArm).1.disarmPending = true ∧
      (throws = true → s.disarmPending = true) := by
  rcases issue_cases s now modeService armService allowArm with h | ⟨-, hp, kind, arm, force, -, h⟩ <;> rw [h]
  · exact ⟨fun hd => ⟨hd, fun _ => hd⟩, And.left⟩
  · have hidle : s.disarmPending = false := by simp [disarmPending, hp]
    cases throws with
    | false => simp [handed, emit]
    | true => simp [handed, emit, complete, tick, current, fail, disarmPending, hp]

/-- What a press leaves pending when no client throws. -/
theorem demanded_disarms (h : Disarming s) (hc : s.connected = true) (ha : s.armed = true)
    (hmode : ¬ s.WaitsForMode now) :
    (((s.demand "HOLD" false true).tick now).issue now modeService true allowArm).1.disarmPending = true ↔
      ¬ s.DisarmLatched now := by
  cases hs : s.safetyDisarm with
  | false =>
    have hdemand : s.demand "HOLD" false true = { s with
        wantedMode := "HOLD", wantedArm := false, modeFailed := false, armFailed := false, error := ""
        pending := none, forceDisarm := true, safetyDisarm := true } := by
      simp [demand, hs]
    rw [hdemand, tick_of_idle rfl]
    refine Iff.trans (idle_disarms ?_ ?_ rfl rfl) ?_
    iterate 2 assumption
    simp [DisarmLatched, hs]
  | true =>
    have hwanted := h.wanted hs
    by_cases hsame : s.wantedMode = "HOLD"
    · have hdemand : s.demand "HOLD" false true = s := if_pos ⟨hsame, hwanted, hs⟩
      rw [hdemand, driven_disarms h hc ha hs hmode]
      unfold DisarmLatched
      split <;> simp [hs, hsame]
    · have hdemand : s.demand "HOLD" false true = { s with
          wantedMode := "HOLD", wantedArm := false, modeFailed := false, armFailed := false, error := "" } := by
        simp [demand, hs, hsame]
      have hdisarming := h.demand "HOLD" false true fun _ => rfl
      rw [hdemand] at hdisarming ⊢
      rw [driven_disarms hdisarming hc ha hs hmode]
      unfold DisarmLatched
      cases hd : s.disarmPending with
      | true => simp [disarmPending] at hd ⊢; simp [hd, hs]
      | false => simp [disarmPending] at hd ⊢; simp [hd, hs, hsame]

/-- The press keeps the DISARM of the demand in force, up to its deadline, and no other. -/
theorem demanded_stands : ((s.demand "HOLD" false true).tick now).disarmPending = true ↔
    s.DisarmStands ∧ now - s.sentAt < 3000 := by
  rw [tick_disarmPending]
  unfold demand DisarmStands
  split
  · rename_i h
    simp [h.2.2]
  · cases hs : s.safetyDisarm <;> simp [disarmPending]

/-- A press disarms exactly unless the failure is latched or its own request throws. -/
theorem pressed_disarms (h : Disarming s) (hc : s.connected = true) (ha : s.armed = true)
    (hmode : ¬ s.WaitsForMode now) : (s.pressed now modeService allowArm throws).disarmPending = true ↔
      ¬ s.DisarmLatched now ∧ (throws = true → s.DisarmStands) := by
  unfold pressed
  rw [next, tick_tick, handed_disarms, demanded_disarms h hc ha hmode, demanded_stands]
  refine and_congr_right fun hlatched => forall_congr' fun _ => and_iff_left_of_imp fun hstands => ?_
  by_contra hexpired
  exact hlatched ⟨hstands.1, by rw [if_pos hstands.2]; omega⟩

end FcuSessionController

/-! ### The node -/

namespace Bridge
open Prog (Triple Keeps)
variable {n₀ n : Node} {s s' : FcuSessionController} {env : Env}

/-- The sequencer is in state `s`; the emergency stands and no blade test is under way. -/
structure Pressed (n₀ : Node) (s : FcuSessionController) (n : Node) (_ : List Effect) : Prop where
  session : n.sessionControl = s
  fcu : n.mavrosState = n₀.mavrosState
  stop : n.safetyState.serviceEmergencyActive = true
  test : n.bladeTestActive = false

theorem Pressed.bladeFree : BladeFree (Pressed n₀ s) where
  frame hside h := by
    simp only [Node.sessionSide, Prod.mk.injEq] at hside
    obtain ⟨hsession, hfcu, hsafety, -, htest, -⟩ := hside
    exact ⟨hsession.trans h.session, hfcu.trans h.fcu, hsafety ▸ h.stop, htest.trans h.test⟩
  emit _ _ _ _ h := ⟨h.session, h.fcu, h.stop, h.test⟩

theorem Pressed.emits (e : Effect) : Keeps (Pressed n₀ s) (Prog.emit e) :=
  Triple.emit fun _ _ h => ⟨h.session, h.fcu, h.stop, h.test⟩

theorem Pressed.ended (env : EndEnv) : Keeps (Pressed n₀ s) (endFailedBladeTestLocked env) :=
  Triple.read fun n => Triple.ite (fun _ => Triple.pure fun _ _ h => h.2) fun h => fun n' l hn => by
    obtain ⟨rfl, hpressed⟩ := hn
    simp [hpressed.test] at h

/-- In a service emergency the session is driven to HOLD. -/
theorem hold_of_stop (h : n.safetyState.serviceEmergencyActive = true) (nowNs : Int) :
    n.emergency nowNs = true ∧ n.sessionMode nowNs = "HOLD" := by
  have hemergency : n.emergency nowNs = true := by
    have := n.safetyState.emergency_iff.2 (.inr (.inr (.inl h)))
    simpa [SafetyState.emergency] using this
  have hhold : n.holdEmergency nowNs = true := by
    rw [holdEmergency_flags]
    unfold SafetyState.flags
    by_cases hengaged : n.safetyState.hardwareSafetyState = .engaged <;> simp [hengaged, h]
  refine ⟨hemergency, ?_⟩
  unfold Node.sessionMode
  rw [if_neg fun h => h.2 hhold, if_pos (.inl hemergency)]

theorem Pressed.neutral : Keeps (Pressed n₀ s) publishNeutralManualControl :=
  keeps_publishNeutralManualControl (fun _ _ _ => Pressed.emits _) fun _ _ _ => Pressed.emits _

theorem Pressed.hand (c : FcuSessionController.Command) (asked : FcuSessionController) (env : SessionEnv) :
    Triple (Pressed n₀ s) (handSession c asked env) fun _ =>
      Pressed n₀ (if env.throws then s.complete c.serial false env.steady else s) := by
  refine (Keeps.when Pressed.neutral).seq fun _ => ?_
  cases env.throws with
  | true =>
    refine Triple.update fun n l h => ⟨?_, h.fcu, h.stop, h.test⟩
    exact congrArg (·.complete c.serial false env.steady) h.session
  | false =>
    exact Keeps.read fun _ => (Pressed.emits _).seq fun _ =>
      Keeps.update fun _ _ h => ⟨h.session, h.fcu, h.stop, h.test⟩

theorem Pressed.send (env : SessionEnv) (hready : env.armReady = true) :
    Triple (Pressed n₀ s) (sendSession env) fun _ =>
      Pressed n₀ (.handed (s.next env.steady env.modeReady true false) env.steady env.throws) := by
  refine Triple.read fun n => Triple.assume (p := Pressed n₀ s n []) (fun h => ?_) ?_
  · have hallow : n.allowArm env.nowNs = false := by
      unfold Node.allowArm
      rw [(hold_of_stop h.stop env.nowNs).1]
      rfl
    rw [hready, hallow, h.session]
    refine Triple.bind (R := fun _ => Pressed n₀ (s.next env.steady env.modeReady true false).1) (Triple.update ?_)
      fun _ => ?_
    · rintro m l ⟨rfl, -⟩
      refine ⟨?_, h.fcu, h.stop, h.test⟩
      show (m.sessionControl.next env.steady env.modeReady true (m.allowArm env.nowNs)).1 = _
      rw [hallow, h.session]
    · unfold FcuSessionController.handed
      cases (s.next env.steady env.modeReady true false).2 with
      | none => exact Keeps.skip
      | some c => exact Pressed.hand c _ env
  · rintro _ l ⟨rfl, h⟩
    exact ⟨h.session, h.fcu, h.stop, h.test⟩

/-- The drive of the session after the demand of a press. -/
theorem Pressed.drive (env : SessionEnv) (hready : env.armReady = true) :
    Triple (Pressed n₀ (s.demand "HOLD" false true)) (driveSessionLocked env) fun _ =>
      Pressed n₀ (s.pressed env.steady env.modeReady false env.throws) := by
  have hmark : ∀ s, Keeps (Pressed n₀ s) markDriven := fun _ => Keeps.read fun _ => Pressed.emits _
  refine triple_driveSessionLocked (J := Pressed n₀ ((s.demand "HOLD" false true).tick env.steady))
    (M := Pressed n₀ ((s.demand "HOLD" false true).tick env.steady)) ?_ ?_ (Pressed.ended _) ?_ ?_ (hmark _)
  · refine Triple.update fun n l h => ⟨?_, h.fcu, h.stop, h.test⟩
    obtain ⟨hemergency, hmode⟩ := hold_of_stop h.stop env.nowNs
    show (n.sessionControl.demand (n.sessionMode env.nowNs) _ (n.emergency env.nowNs)).tick env.steady = _
    rw [hmode, hemergency, h.session]
    have hagain : (s.demand "HOLD" false true).demand "HOLD" false true = s.demand "HOLD" false true := by
      refine if_pos ?_
      have hstands := demand_stands s "HOLD" false true
      simpa [Prod.mk.injEq] using hstands
    exact congrArg (·.tick env.steady) hagain
  · exact Keeps.read fun n => (Keeps.when Pressed.neutral).seq fun _ =>
      Keeps.update fun _ _ h => ⟨h.session, h.fcu, h.stop, h.test⟩
  · exact Keeps.read fun _ => (Pressed.bladeFree.emitMap (fun _ => rfl) _).seq fun _ =>
      Keeps.update fun _ _ h => ⟨h.session, h.fcu, h.stop, h.test⟩
  · exact Pressed.send env hready

/-- A press drives the sequencer and answers with what it left pending. -/
theorem onEmergencyStop_press {emergency : UInt8} (hstop : emergency ≠ 0) (env : Env)
    (hready : (env.session 0).armReady = true) (ha : n₀.mavrosState.armed = true) :
    Triple (fun n _ => n = n₀) (onEmergencyStop emergency env) fun _ n log =>
      n.sessionControl = n₀.sessionControl.pressed (env.session 0).steady (env.session 0).modeReady false
        (env.session 0).throws ∧ log.getLast? = some (.emergencyReply n.sessionControl.disarmPending) := by
  refine Triple.seq (R := fun n _ => n = { n₀ with
    safetyState := n₀.safetyState.setServiceEmergency (emergency ≠ 0) }) (Triple.update ?_) fun _ => ?_
  · rintro _ l rfl
    rfl
  rw [if_neg hstop]
  have hset : (n₀.safetyState.setServiceEmergency (emergency ≠ 0)).serviceEmergencyActive = true := by
    simp [SafetyState.setServiceEmergency, hstop]
  refine Triple.bind (R := fun success n _ =>
    n.sessionControl = n₀.sessionControl.pressed (env.session 0).steady (env.session 0).modeReady false
      (env.session 0).throws ∧ success = n.sessionControl.disarmPending) ?_ fun success => ?_
  · refine Triple.seq (R := Pressed n₀ n₀.sessionControl) (Triple.update ?_) fun _ => ?_
    · rintro _ l rfl
      exact ⟨rfl, rfl, hset, rfl⟩
    refine Triple.seq Pressed.bladeFree.cancelPendingBladeStarts fun _ => ?_
    refine Triple.seq (Pressed.bladeFree.updateBlade _) fun _ => Triple.seq Pressed.neutral fun _ => ?_
    have hdemand (n : Node) (l : List Effect) (h : Pressed n₀ n₀.sessionControl n l) :
        Pressed n₀ (n₀.sessionControl.demand "HOLD" false true)
          { n with sessionControl := n.sessionControl.demand "HOLD" false true } l :=
      ⟨congrArg (·.demand "HOLD" false true) h.session, h.fcu, h.stop, h.test⟩
    refine Triple.seq (Triple.update hdemand) fun _ => ?_
    refine Triple.seq (Pressed.bladeFree.driveBladeLocked Pressed.ended _) fun _ => ?_
    refine Triple.seq (Pressed.drive _ hready) fun _ => Triple.read fun n => Triple.pure ?_
    rintro _ l ⟨rfl, h⟩
    refine ⟨h.session, ?_⟩
    rw [h.fcu, ha]
    simp
  · refine Triple.emit fun n l h => ⟨h.1, ?_⟩
    rw [List.getLast?_concat, h.2]

theorem step_emergencyStop (n : Node) (emergency : UInt8) (env : Env) :
    machine.step n (.emergencyStop emergency, env) =
      ((onEmergencyStop emergency env).after n, (onEmergencyStop emergency env).emitted n) := rfl

/-- In every reachable state with a connected, armed FCU and the arming service ready, where no MODE command
holds the sequencer: the reply to a press says whether a DISARM is pending, and one is unless its failure is
latched or the client throws the one that this press would send. -/
theorem emergency_press (l : Launch) (run : List (Callback × Env)) (emergency : UInt8) (env : Env)
    (hstop : emergency ≠ 0) (hconnected : (reach l run).mavrosState.connected = true)
    (harmed : (reach l run).mavrosState.armed = true) (hready : (env.session 0).armReady = true)
    (hmode : ¬ (reach l run).sessionControl.WaitsForMode (env.session 0).steady) :
    let s := (reach l run).sessionControl
    let s' := (reach l (run ++ [(.emergencyStop emergency, env)])).sessionControl
    (machine.log (reach l run) [(.emergencyStop emergency, env)]).getLast? =
        some (.emergencyReply s'.disarmPending) ∧
      (s'.disarmPending = true ↔
        ¬ s.DisarmLatched (env.session 0).steady ∧ ((env.session 0).throws = true → s.DisarmStands)) := by
  obtain ⟨hsession, hreply⟩ := onEmergencyStop_press hstop env hready harmed (reach l run) [] rfl
  have hsees := (Refines.reach l run).observed
  simp only [Prod.mk.injEq] at hsees
  intro s s'
  have hs' : s' = ((onEmergencyStop emergency env).after (reach l run)).sessionControl := by
    show (machine.final l.node (run ++ [_])).sessionControl = _
    rw [Machine.final_append, Machine.final_cons, step_emergencyStop]
    rfl
  constructor
  · rw [Machine.log_cons, step_emergencyStop, hs']
    simpa using hreply
  · rw [hs', hsession]
    exact FcuSessionController.pressed_disarms (Refines.reach l run).disarming (hsees.1.trans hconnected)
      (hsees.2.1.trans harmed) hmode

/-- `emergency_press` in AUTONOMOUS with the FCU armed in GUIDED. -/
theorem emergency_press_guided :
    (machine.log (reach defaultLaunch armedRun) [(.emergencyStop 1, .clock 10)]).getLast? =
      some (.emergencyReply true) := by
  have hcalm : (reach defaultLaunch armedRun).sessionControl.safetyDisarm ≠ true := by decide +kernel
  obtain ⟨hreply, hpending⟩ := emergency_press defaultLaunch armedRun 1 (.clock 10) (by decide)
    (by decide +kernel) (by decide +kernel) rfl fun h => hcalm h.1
  rw [hpending.2 ⟨fun h => hcalm h.1, fun hthrows => by cases hthrows⟩] at hreply
  exact hreply

/-- A press whose DISARM the FCU refuses, up to the confirmed HOLD. -/
def refusedRun : List (Callback × Env) := armedRun ++ [
  (.emergencyStop 1, .clock 10),
  (.armResponse 3 (some (false, 4)), .clock 20),
  (.modeResponse 4 (some true), .clock 30),
  (.mavrosState { connected := true, armed := true, mode := "HOLD" }, .clock 40)]

/-- After a refused DISARM the next press sends none and is refused. -/
theorem refused_press :
    (reach defaultLaunch refusedRun).mavrosState = { connected := true, armed := true, mode := "HOLD" } ∧
      (machine.log (reach defaultLaunch refusedRun) [(.emergencyStop 1, .clock 50)]).any (fun e =>
        match e with
        | .emergencyReply success => !success
        | _ => false) = true ∧
      (reach defaultLaunch (refusedRun ++ [(.emergencyStop 1, .clock 50)])).sessionControl.pending = none := by
  decide +kernel

end Bridge
end MowgliMavros
