import MowgliMavros.SessionSpec

/-!
# When the next command leaves

Under a safety demand only a MODE still pending delays the DISARM (`disarm_supersedes`): the invariant
`Disarming` says that every ARM command pending in such a state is a DISARM. After a reconnection a
command leaves unless failures latched before it hold it back (`reconnect_reconciles`).
-/

namespace MowgliMavros
namespace FcuSessionController
variable {s s' : FcuSessionController}

/-- Under the safety demand, disarming is wanted and an ARM command pending is a DISARM. -/
structure Disarming (s : FcuSessionController) : Prop where
  wanted : s.safetyDisarm = true → s.wantedArm = false
  pending : s.safetyDisarm = true → ∀ c, s.pending = some c → c.kind = .arm → c.arm = false

namespace Disarming

theorem shrink (h : Disarming s) (hv : s'.view = s.view) (hp : s'.pending = none ∨ s'.pending = s.pending) :
    Disarming s' := by
  obtain ⟨-, harm, hsafe⟩ := view_wanted hv
  refine ⟨by rw [harm, hsafe]; exact h.wanted, fun hs c hc hk => ?_⟩
  rcases hp with hp | hp
  · rw [hp] at hc; cases hc
  · exact h.pending (hsafe ▸ hs) c (hp ▸ hc) hk

theorem tick (h : Disarming s) (now : Int) : Disarming (s.tick now) :=
  h.shrink (tick_view now) (tick_pending s now)

theorem settle (h : Disarming s) : Disarming s.settle := h.shrink settle_view (settle_pending s)

theorem complete (h : Disarming s) (serial : Nat) (accepted : Bool) (now : Int) :
    Disarming (s.complete serial accepted now) :=
  (h.tick now).shrink ((complete_view serial accepted now).trans (tick_view now).symm)
    (complete_pending s serial accepted now)

theorem next (h : Disarming s) (now : Int) (modeService armService allowArm : Bool) :
    Disarming (s.next now modeService armService allowArm).1 := by
  have ht := h.tick now
  unfold FcuSessionController.next
  rcases issue_cases (s.tick now) now modeService armService allowArm with he | ⟨-, -, kind, arm, force, hdue, he⟩ <;>
    rw [he]
  · exact ht
  · refine ⟨ht.wanted, fun hs c hc hk => ?_⟩
    obtain rfl := Option.some.inj hc
    obtain rfl : kind = .arm := hk
    obtain ⟨-, ⟨-, rfl, -⟩ | ⟨-, rfl, -⟩⟩ := hdue
    exacts [rfl, ht.wanted hs]

theorem demand (h : Disarming s) (mode : String) (arm safety : Bool) (hsafe : safety = true → arm = false) :
    Disarming (s.demand mode arm safety) := by
  unfold FcuSessionController.demand
  split_ifs
  · exact h
  · refine ⟨hsafe, fun hs c hc hk => ?_⟩
    obtain rfl : safety = true := hs
    cases hwas : s.safetyDisarm with
    | false => simp [hwas] at hc
    | true => exact h.pending hwas c (by simpa [hwas] using hc) hk

theorem observe (h : Disarming s) (connected armed : Bool) (mode : String) :
    Disarming (s.observe connected armed mode) := by
  rw [observe_eq]
  have hseen : Disarming (s.seen connected armed mode) := by
    refine ⟨h.wanted, fun hs c hc hk => h.pending hs c ?_ hk⟩
    cases connected with
    | true => simpa [seen] using hc
    | false => simp [seen] at hc
  exact hseen.settle

theorem step (h : Disarming s) {op : Op} (hop : op.Safe) : Disarming (s.apply op) := by
  cases op with
  | demand mode arm safety => exact h.demand mode arm safety hop
  | observe connected armed mode => exact h.observe connected armed mode
  | tick now => exact h.tick now
  | next now modeService armService allowArm => exact h.next now modeService armService allowArm
  | complete serial accepted now => exact h.complete serial accepted now

theorem reach {ops : List Op} (hsafe : ∀ op ∈ ops, op.Safe) : Disarming (reach ops) :=
  Machine.inv_final (fun _ _ h hop => h.step hop) ⟨by simp, by simp⟩ (Machine.along_of_forall hsafe)

end Disarming

/-! ### Safety DISARM and a pending MODE -/

def ModePending (s : FcuSessionController) : Prop := ∃ c, s.pending = some c ∧ c.kind = .mode

/-- A DISARM is pending, or whatever the MODE service and the clock say, `next` returns one. -/
def DisarmsAtOnce (s : FcuSessionController) : Prop :=
  s.disarmPending = true ∨
    ∀ now modeService allowArm, ∃ c,
      (s.next now modeService true allowArm).2 = some c ∧ c.kind = .arm ∧ c.arm = false

theorem issue_urgent (hc : s.connected = true) (hp : s.pending = none) (hu : s.Urgent) (now : Int)
    (modeService allowArm : Bool) : s.issue now modeService true allowArm =
      { s with forceDisarm := false }.emit .arm false now := by
  obtain ⟨hs, hforce, hf⟩ := hu
  simp [issue, hc, hp, hs, hforce, hf]

theorem issue_busy {c : Command} (hp : s.pending = some c) (now : Int) (modeService armService allowArm : Bool) :
    s.issue now modeService armService allowArm = (s, none) := by
  simp [issue, hp]

/-- In every state a run with safe demands reaches in which the safety demand stands over a connected,
armed FCU without a failed DISARM: the DISARM is under way or leaves at once exactly when no MODE
command is pending. -/
theorem disarm_supersedes (ops : List Op) (hsafe : ∀ op ∈ ops, op.Safe)
    (hs : (reach ops).safetyDisarm = true) (hc : (reach ops).connected = true)
    (ha : (reach ops).armed = true) (hf : (reach ops).armFailed = false) :
    (reach ops).DisarmsAtOnce ↔ ¬ (reach ops).ModePending := by
  have h := Disarming.reach hsafe
  revert h hs hc ha hf
  generalize reach ops = s
  intro hs hc ha hf h
  constructor
  · rintro hd ⟨c, hp, hk⟩
    rcases hd with hd | hd
    · simp [disarmPending, hp, hk] at hd
    · -- the MODE has just been sent
      obtain ⟨d, hn, -⟩ := hd s.sentAt true true
      have ht : s.tick s.sentAt = s := by simp [tick]
      rw [next, ht, issue_busy hp] at hn
      cases hn
  · intro hm
    cases hp : s.pending with
    | none =>
      refine .inr fun now modeService allowArm => ?_
      rw [next, tick_of_idle hp, issue_urgent hc hp ⟨hs, .inr ha, hf⟩]
      exact ⟨_, rfl, rfl, rfl⟩
    | some c =>
      have hk : c.kind = .arm := by
        cases hk : c.kind with
        | arm => rfl
        | mode => exact absurd ⟨c, hp, hk⟩ hm
      exact .inl (by simp [disarmPending, hp, hk, h.pending hs c hp hk])

/-- An emergency while ARM is under way: the DISARM is confirmed, then HOLD is requested. -/
def holdPendingRun : List Op :=
  [.demand "MANUAL" true false, .observe true false "MANUAL", .next 0 true true true,
    .demand "HOLD" false true, .next 10 true true true, .complete 2 true 20, .next 30 true true true]

def lateArmRun : List Op :=
  [.demand "MANUAL" true false, .observe true false "MANUAL", .next 0 true true true,
    .demand "HOLD" false true, .observe true true "MANUAL"]

/-- `disarm_supersedes` where the late ARM is observed before HOLD is requested. -/
theorem disarm_supersedes_late_arm : (reach lateArmRun).DisarmsAtOnce := by
  refine (disarm_supersedes lateArmRun (by decide) (by decide) (by decide) (by decide) (by decide)).2 ?_
  rintro ⟨c, hp, -⟩
  have hnone : (reach lateArmRun).pending = none := by decide
  rw [hnone] at hp; cases hp

/-- The ARM observed while the HOLD of the emergency is pending is not answered. -/
theorem late_arm_waits_for_hold :
    (∀ op ∈ holdPendingRun ++ [.observe true true "MANUAL"], op.Safe) ∧
      (reach (holdPendingRun ++ [.observe true true "MANUAL"])).safetyDisarm = true ∧
      (reach (holdPendingRun ++ [.observe true true "MANUAL"])).connected = true ∧
      (reach (holdPendingRun ++ [.observe true true "MANUAL"])).armed = true ∧
      (reach (holdPendingRun ++ [.observe true true "MANUAL"])).armFailed = false ∧
      ¬ (reach (holdPendingRun ++ [.observe true true "MANUAL"])).DisarmsAtOnce := by
  refine ⟨by decide, by decide, by decide, by decide, by decide, ?_⟩
  rintro (hd | hd)
  · exact absurd hd (by decide)
  · obtain ⟨c, hn, -⟩ := hd 40 true true
    have hnone : ((reach (holdPendingRun ++ [.observe true true "MANUAL"])).next 40 true true true).2 = none := by
      decide
    rw [hnone] at hn; cases hn

/-! ### Reconnection -/

/-- Nothing is due, or the latched failures hold it back: an ARM also waits for its failed MODE. -/
structure Held (s : FcuSessionController) : Prop where
  calm : ¬ s.Urgent
  mode : s.mode ≠ s.wantedMode → s.modeFailed = true
  arm : s.armed ≠ s.wantedArm → s.armFailed = true ∨ s.wantedArm = true ∧ s.mode ≠ s.wantedMode

/-- With every service available, a connected controller without a pending command returns one unless
it is held. -/
theorem issue_isSome_iff (hc : s.connected = true) (hp : s.pending = none) (now : Int) :
    (s.issue now true true true).2.isSome = true ↔ ¬ s.Held := by
  have hidle : ¬ (¬ s.connected ∨ s.pending.isSome) := by simp [hc, hp]
  by_cases hu : s.Urgent
  · rw [issue_urgent hc hp hu]
    exact ⟨fun _ h => h.calm hu, fun _ => rfl⟩
  have hu' : ¬ (s.safetyDisarm ∧ (s.forceDisarm ∨ s.armed) ∧ ¬ s.armFailed) := by simpa [Urgent] using hu
  unfold issue
  rw [if_neg hidle, if_neg hu']
  by_cases hm : s.mode ≠ s.wantedMode ∧ ¬ s.modeFailed
  · rw [if_pos hm]
    refine ⟨fun _ h => hm.2 (h.mode hm.1), fun _ => rfl⟩
  rw [if_neg hm]
  have hmode : s.mode ≠ s.wantedMode → s.modeFailed = true := fun h => by
    by_contra hf; exact hm ⟨h, hf⟩
  by_cases ha : s.armed ≠ s.wantedArm ∧ ¬ s.armFailed
  · rw [if_pos ha]
    by_cases hw : s.wantedArm = true ∧ s.mode ≠ s.wantedMode
    · rw [if_pos (.inl ⟨hw.1, .inl hw.2⟩)]
      refine ⟨by simp, fun h => absurd ⟨hu, hmode, fun _ => .inr hw⟩ h⟩
    · have hgo : ¬ (s.wantedArm ∧ (s.mode ≠ s.wantedMode ∨ ¬ true) ∨ ¬ true) := by simpa using hw
      rw [if_neg hgo]
      refine ⟨fun _ h => ?_, fun _ => rfl⟩
      rcases h.arm ha.1 with hf | hf
      exacts [ha.2 hf, hw hf]
  · rw [if_neg ha]
    refine ⟨by simp, fun h => absurd ⟨hu, hmode, fun hne => .inl ?_⟩ h⟩
    by_contra hf; exact ha ⟨hne, hf⟩

def reconnected (s : FcuSessionController) (armed armed' : Bool) (mode mode' : String) : FcuSessionController :=
  (s.observe false armed mode).observe true armed' mode'

theorem reconnected_eq (s : FcuSessionController) (armed armed' : Bool) (mode mode' : String) :
    s.reconnected armed armed' mode mode' = (s.seen false armed mode).seen true armed' mode' := by
  have hlost : (s.seen false armed mode).pending = none := rfl
  rw [reconnected, observe_eq, observe_eq, settle_of_idle hlost, settle_of_idle rfl]

/-- After a reconnection, `next` with every service available returns a command unless the latches hold
it back. These are the ones from before the disconnection, as long as the FCU is not observed where the
demand wants it; an ARM that appears under the safety demand releases the arming latch. -/
theorem reconnect_reconciles (ops : List Op) (armed armed' : Bool) (mode mode' : String) (now : Int) :
    ((((reach ops).reconnected armed armed' mode mode').next now true true true).2.isSome = true ↔
      ¬ ((reach ops).reconnected armed armed' mode mode').Held) ∧
    (((reach ops).reconnected armed armed' mode mode').modeFailed = true ↔
      (reach ops).modeFailed = true ∧ mode' ≠ (reach ops).wantedMode) ∧
    (((reach ops).reconnected armed armed' mode mode').armFailed = true ↔
      (reach ops).armFailed = true ∧ armed' ≠ (reach ops).wantedArm ∧
        ¬ ((reach ops).safetyDisarm = true ∧
          (armed = true ∧ (reach ops).armed = false ∨ armed' = true ∧ armed = false))) := by
  rw [reconnected_eq]
  refine ⟨?_, by simp [seen], ?_⟩
  · rw [next, tick_of_idle rfl]
    exact issue_isSome_iff rfl rfl now
  · simp only [seen]
    cases (reach ops).armFailed <;> cases (reach ops).safetyDisarm <;> cases (reach ops).armed <;>
      cases armed <;> cases armed' <;> simp

def refusedModeRun : List Op :=
  [.demand "MANUAL" true false, .observe true false "HOLD", .next 0 true true true, .complete 1 false 10]

/-- After the refusal, a reconnection to an FCU in HOLD leaves mode and arming unreconciled. -/
theorem reconnect_keeps_refusal :
    ((reach refusedModeRun).reconnected false false "" "HOLD").mode ≠
        ((reach refusedModeRun).reconnected false false "" "HOLD").wantedMode ∧
      (((reach refusedModeRun).reconnected false false "" "HOLD").next 20 true true true).2 = none := by
  constructor <;> decide

end FcuSessionController
end MowgliMavros
