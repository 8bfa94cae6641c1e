import MowgliMavros.SessionSpec

/-!
# What a confirmed session reports

A session is healthy when `ready` goes with no text of a failure. A failure sets the text and one of the
two flags; an observation that reaches the target clears the flags alone. `Spoils` are the steps after
which a text stays behind: the state after a step is healthy exactly when the step is not one of them
(`apply_healthy_iff`), so a run stays healthy as long as it has none of them.
-/

namespace MowgliMavros
namespace FcuSessionController

inductive Level
  | ok | error
deriving DecidableEq, Repr

structure DiagnosticStatus where
  name : String
  level : Level
  message : String
  values : List (String × String)
deriving DecidableEq, Repr

def flag (b : Bool) : String := if b then "true" else "false"

/-- `fcu_session` of `publish_readiness`. -/
def sessionStatus (s : FcuSessionController) : DiagnosticStatus where
  name := "mowgli_mavros_bridge/fcu_session"
  level := if s.failed then .error else .ok
  message := if s.error = "" then (if s.ready then "confirmed" else "waiting_fcu") else s.error
  values := [
    ("requested_mode", s.wantedMode), ("confirmed_mode", s.mode), ("requested_arm", flag s.wantedArm),
    ("confirmed_arm", flag s.armed), ("command_pending", flag s.pending.isSome),
    ("command_acknowledged", flag (s.pending.isSome && s.acked)), ("state_confirmed", flag s.ready)]

/-- A ready session reports no failure. -/
def Healthy (s : FcuSessionController) : Prop :=
  s.ready = true → s.error = "" ∧ s.failed = false ∧ s.sessionStatus.message = "confirmed"

/-- The FCU is observed connected, in the wanted mode and arming. -/
def AtTarget (s : FcuSessionController) : Prop :=
  s.connected = true ∧ s.mode = s.wantedMode ∧ s.armed = s.wantedArm

def Expires (s : FcuSessionController) (now : Int) : Prop := s.pending.isSome = true ∧ now - s.sentAt ≥ 3000

/-- The urgent DISARM stays due when the pending command fails. -/
def DisarmDue (s : FcuSessionController) : Prop :=
  s.Urgent ∧ ∀ c ∈ s.pending, c.kind = .arm → c.arm ≠ s.wantedArm

/-- The steps after which a session at its target has the text of a failure. -/
def Spoils (s : FcuSessionController) : Op → Prop
  -- a late confirmation: no command is left to clear the text
  | .observe connected armed mode =>
    (connected = true ∧ mode = s.wantedMode ∧ armed = s.wantedArm) ∧ s.pending = none ∧ s.error ≠ ""
  | .tick now => s.AtTarget ∧ s.Expires now
  | .next now _ armService _ => s.AtTarget ∧ s.Expires now ∧ ¬ (s.DisarmDue ∧ armService = true)
  | .complete serial accepted now =>
    s.AtTarget ∧ (s.Expires now ∨ s.current serial = true ∧
      (accepted = false ∨ s.failed = true ∧ ∀ c ∈ s.pending, s.Confirmed c))
  | .demand _ _ _ => False

variable {s : FcuSessionController}

instance : Decidable s.AtTarget := inferInstanceAs (Decidable (_ ∧ _))

instance (now : Int) : Decidable (s.Expires now) := inferInstanceAs (Decidable (_ ∧ _))

instance : Decidable s.DisarmDue := inferInstanceAs (Decidable (_ ∧ _))

instance (op : Op) : Decidable (s.Spoils op) :=
  match op with
  | .observe .. | .tick _ | .next .. | .complete .. => inferInstanceAs (Decidable (_ ∧ _))
  | .demand .. => inferInstanceAs (Decidable False)

instance : Decidable s.Healthy := inferInstanceAs (Decidable (_ → _))

theorem ready_iff : s.ready = true ↔ s.AtTarget ∧ s.pending = none := by
  simp only [ready, AtTarget, Bool.and_eq_true, Option.isNone_iff_eq_none, beq_iff_eq]
  constructor
  · rintro ⟨⟨⟨hconn, hidle⟩, hmode⟩, harm⟩
    exact ⟨⟨hconn, hmode, harm⟩, hidle⟩
  · rintro ⟨⟨hconn, hmode, harm⟩, hidle⟩
    exact ⟨⟨⟨hconn, hidle⟩, hmode⟩, harm⟩

theorem healthy_iff : s.Healthy ↔ (s.AtTarget → s.pending = none → s.error = "" ∧ s.failed = false) := by
  unfold Healthy sessionStatus
  constructor
  · intro h htarget hidle
    obtain ⟨herror, hfailed, -⟩ := h (ready_iff.2 ⟨htarget, hidle⟩)
    exact ⟨herror, hfailed⟩
  · intro h hready
    obtain ⟨htarget, hidle⟩ := ready_iff.1 hready
    obtain ⟨herror, hfailed⟩ := h htarget hidle
    exact ⟨herror, hfailed, by simp [herror, hready]⟩

theorem healthy_of_pending (h : s.pending ≠ none) : s.Healthy := by
  rw [healthy_iff]
  intro _ hidle
  exact absurd hidle h

theorem healthy_of_away (h : ¬ s.AtTarget) : s.Healthy := by
  rw [healthy_iff]
  intro htarget
  exact absurd htarget h

/-! ### A command that fails -/

section Fail
variable {c : Command} (hc : s.pending = some c)
include hc

theorem failed_atTarget (reason : String) : (s.fail reason).AtTarget ↔ s.AtTarget := by
  rw [fail_eq hc]
  rfl

theorem failed_error (reason : String) : (s.fail reason).error ≠ "" := by
  rw [fail_eq hc]
  cases c.kind <;> simp

theorem failed_urgent (reason : String) : (s.fail reason).Urgent ↔ s.DisarmDue := by
  unfold DisarmDue Urgent
  rw [fail_eq hc, hc]
  cases hkind : c.kind with
  | mode => simp [hkind]
  | arm => simp [hkind, and_assoc]

/-- After a failure a session is healthy unless it is at its target. -/
theorem failed_healthy (reason : String) : (s.fail reason).Healthy ↔ ¬ s.AtTarget := by
  rw [healthy_iff, failed_atTarget hc]
  constructor
  · intro h htarget
    have hidle : (s.fail reason).pending = none := by rw [fail_eq hc]
    exact failed_error hc reason (h htarget hidle).1
  · intro h htarget
    exact absurd htarget h

end Fail

/-- A confirmed command leaves the text of a failure only under a flag. -/
theorem settle_healthy {c : Command} (hc : s.pending = some c) :
    s.settle.Healthy ↔ ¬ (s.acked = true ∧ s.Confirmed c ∧ s.AtTarget ∧ s.failed = true) := by
  unfold settle
  rw [hc]
  dsimp only
  by_cases hdone : s.acked = true ∧ s.Confirmed c
  · rw [if_pos hdone, healthy_iff]
    show (s.AtTarget → none = none → (if s.failed then s.error else "") = "" ∧ s.failed = false) ↔ _
    cases hfailed : s.failed <;> simp [hdone]
  · rw [if_neg hdone]
    refine iff_of_true (healthy_of_pending (by simp [hc])) ?_
    rintro ⟨hacked, hconfirmed, -⟩
    exact hdone ⟨hacked, hconfirmed⟩

theorem tick_expired {now : Int} (h : s.Expires now) : s.tick now = s.fail "confirmation_timeout" := if_pos h

theorem tick_live {now : Int} (h : ¬ s.Expires now) : s.tick now = s := if_neg h

/-- At its target, only the urgent DISARM leaves. -/
theorem issue_atTarget (h : s.AtTarget) (hidle : s.pending = none) (now : Int)
    (modeService armService allowArm : Bool) :
    s.issue now modeService armService allowArm =
      if s.Urgent ∧ armService = true then { s with forceDisarm := false }.emit .arm false now else (s, none) := by
  obtain ⟨hconn, hmode, harm⟩ := h
  unfold issue Urgent
  rw [if_neg (by simp [hconn, hidle])]
  by_cases hurgent : s.safetyDisarm = true ∧ (s.forceDisarm = true ∨ s.armed = true) ∧ ¬ s.armFailed = true
  · rw [if_pos hurgent]
    cases armService <;> simp_all
  · rw [if_neg hurgent, if_neg (by simp [hmode]), if_neg (by simp [harm]), if_neg]
    rintro ⟨⟨hsafety, hforce, hfailed⟩, -⟩
    exact hurgent ⟨hsafety, hforce, by simp [hfailed]⟩

/-! ### One step -/

theorem observe_healthy (connected armed : Bool) (mode : String) :
    (s.observe connected armed mode).Healthy ↔ ¬ s.Spoils (.observe connected armed mode) := by
  rw [observe_eq]
  unfold Spoils
  by_cases htarget : connected = true ∧ mode = s.wantedMode ∧ armed = s.wantedArm
  · obtain ⟨rfl, rfl, rfl⟩ := htarget
    have hfailed : (s.seen true s.wantedArm s.wantedMode).failed = false := by simp [seen, failed]
    cases hc : s.pending with
    | none =>
      rw [settle_of_idle (by simp [seen, hc]), healthy_iff, hfailed]
      simp [AtTarget, seen, hc]
    | some c =>
      have hpending : (s.seen true s.wantedArm s.wantedMode).pending = some c := by simp [seen, hc]
      rw [settle_healthy hpending, hfailed]
      simp
  · refine iff_of_true (healthy_of_away fun h => htarget ?_) fun h => htarget h.1
    have hview := settle_view (s := s.seen connected armed mode)
    obtain ⟨hwanted, harm, -⟩ := view_wanted hview
    obtain ⟨hconn, harmed, hmode⟩ := view_observed hview
    unfold AtTarget at h
    rwa [hwanted, harm, hconn, harmed, hmode] at h

theorem tick_healthy (h : s.Healthy) (now : Int) : (s.tick now).Healthy ↔ ¬ s.Spoils (.tick now) := by
  unfold Spoils
  by_cases hexp : s.Expires now
  · obtain ⟨c, hc⟩ := Option.isSome_iff_exists.1 hexp.1
    rw [tick_expired hexp, failed_healthy hc]
    simp [hexp]
  · rw [tick_live hexp]
    simp [h, hexp]

theorem next_healthy (h : s.Healthy) (now : Int) (modeService armService allowArm : Bool) :
    (s.next now modeService armService allowArm).1.Healthy ↔ ¬ s.Spoils
    (.next now modeService armService allowArm) := by
  unfold next Spoils
  by_cases hexp : s.Expires now
  · obtain ⟨c, hc⟩ := Option.isSome_iff_exists.1 hexp.1
    rw [tick_expired hexp]
    by_cases htarget : s.AtTarget
    · have hidle : (s.fail "confirmation_timeout").pending = none := by rw [fail_eq hc]
      rw [issue_atTarget ((failed_atTarget hc _).2 htarget) hidle]
      split
      · rename_i hdue
        rw [failed_urgent hc] at hdue
        exact iff_of_true (healthy_of_pending (by simp [emit])) (by simp [hdue])
      · rename_i hdue
        rw [failed_urgent hc] at hdue
        refine iff_of_false ?_ (by simp [htarget, hexp, hdue])
        rw [failed_healthy hc]
        simp [htarget]
    · refine iff_of_true ?_ (by simp [htarget])
      rcases issue_cases (s.fail "confirmation_timeout") now modeService armService allowArm with
        h | ⟨-, -, _, _, _, -, h⟩ <;> rw [h]
      · exact (failed_healthy hc _).2 htarget
      · exact healthy_of_pending (by simp [emit])
  · refine iff_of_true ?_ (by simp [hexp])
    rw [tick_live hexp]
    rcases issue_cases s now modeService armService allowArm with hi | ⟨-, -, _, _, _, -, hi⟩ <;> rw [hi]
    · exact h
    · exact healthy_of_pending (by simp [emit])

theorem complete_healthy (h : s.Healthy) (serial : Nat) (accepted : Bool) (now : Int) :
    (s.complete serial accepted now).Healthy ↔ ¬ s.Spoils (.complete serial accepted now) := by
  unfold complete Spoils
  by_cases hexp : s.Expires now
  · obtain ⟨c, hc⟩ := Option.isSome_iff_exists.1 hexp.1
    have hidle : (s.fail "confirmation_timeout").current serial = false := by rw [fail_eq hc]; rfl
    rw [tick_expired hexp]
    simp [hidle, hexp, failed_healthy hc]
  rw [tick_live hexp]
  by_cases hcurrent : s.current serial = true
  · cases hc : s.pending with
    | none => simp [current, hc] at hcurrent
    | some c =>
      cases accepted with
      | false => simp [hcurrent, hexp, failed_healthy hc]
      | true =>
        have hsettled := settle_healthy (s := { s with acked := true }) hc
        rw [if_neg (by simp [hcurrent]), if_neg (by simp), hsettled]
        show ¬ (true = true ∧ s.Confirmed c ∧ s.AtTarget ∧ s.failed = true) ↔ _
        constructor
        · rintro hno ⟨htarget, hexpires | ⟨-, hrefused | ⟨hfailed, hconfirmed⟩⟩⟩
          · exact hexp hexpires
          · cases hrefused
          · exact hno ⟨rfl, hconfirmed c rfl, htarget, hfailed⟩
        · rintro hno ⟨-, hconfirmed, htarget, hfailed⟩
          exact hno ⟨htarget, .inr ⟨hcurrent, .inr ⟨hfailed, by simpa using hconfirmed⟩⟩⟩
  · simp [hcurrent, hexp, h]

/-- A healthy session stays healthy in exactly the steps that do not spoil it. -/
theorem apply_healthy_iff (h : s.Healthy) (op : Op) : (s.apply op).Healthy ↔ ¬ s.Spoils op := by
  cases op with
  | demand mode arm safetyDisarm =>
    refine iff_of_true ?_ id
    show (s.demand mode arm safetyDisarm).Healthy
    unfold demand
    split
    · exact h
    · rw [healthy_iff]
      intro _ _
      exact ⟨rfl, rfl⟩
  | observe connected armed mode => exact observe_healthy connected armed mode
  | tick now => exact tick_healthy h now
  | next now modeService armService allowArm => exact next_healthy h now modeService armService allowArm
  | complete serial accepted now => exact complete_healthy h serial accepted now

/-! ### Runs -/

/-- All states of a run are healthy exactly when no step of it spoils one. -/
theorem confirmed_iff (ops : List Op) :
    (∀ pre, pre <+: ops → (reach pre).Healthy) ↔ machine.Along (fun s op => ¬ s.Spoils op) {} ops :=
  Machine.always_iff (m := machine) (I := Healthy) (fun _ op h => apply_healthy_iff h op) (by decide)

/-- MODE HOLD expires, and the FCU is observed in HOLD later. -/
theorem late_confirmation_unhealthy :
    ¬ (reach [.observe true false "MANUAL", .next 1 true true true, .tick 3001,
    .observe true false "HOLD"]).Healthy := by
  decide

end FcuSessionController
end MowgliMavros
