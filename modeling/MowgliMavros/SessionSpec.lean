import MowgliMavros.SessionController

/-!
# What each operation of the session controller can do

`view` is the target and the observed FCU state, which only `demand` and `observe` change.
`fail_eq`, `settle_cases`, `tick_cases` and `complete_cases` say how a pending command ends,
`issue_cases` which command `next` may return, `issue_arms` when it may be an ARM.
-/

namespace MowgliMavros
namespace FcuSessionController

/-- The target and the observed state. -/
structure View where
  wantedMode : String
  wantedArm : Bool
  safetyDisarm : Bool
  connected : Bool
  armed : Bool
  mode : String
deriving DecidableEq

def view (s : FcuSessionController) : View :=
  ⟨s.wantedMode, s.wantedArm, s.safetyDisarm, s.connected, s.armed, s.mode⟩

def Urgent (s : FcuSessionController) : Prop :=
  s.safetyDisarm = true ∧ (s.forceDisarm = true ∨ s.armed = true) ∧ s.armFailed = false

/-- `next` may return a command of this kind and arming, leaving `force` in `force_disarm_`. -/
def Due (s : FcuSessionController) (arm force : Bool) : Kind → Prop
  | .arm => s.armFailed = false ∧
      (s.Urgent ∧ arm = false ∧ force = false ∨ s.armed ≠ s.wantedArm ∧ arm = s.wantedArm ∧ force = s.forceDisarm)
  | .mode => ¬ s.Urgent ∧ s.mode ≠ s.wantedMode ∧ s.modeFailed = false ∧ force = s.forceDisarm

variable {s : FcuSessionController} {c : Command}

instance : Decidable s.Urgent := inferInstanceAs (Decidable (_ ∧ _))

theorem view_wanted {s s' : FcuSessionController} (h : s'.view = s.view) :
    s'.wantedMode = s.wantedMode ∧ s'.wantedArm = s.wantedArm ∧ s'.safetyDisarm = s.safetyDisarm :=
  ⟨congrArg View.wantedMode h, congrArg View.wantedArm h, congrArg View.safetyDisarm h⟩

theorem view_observed {s s' : FcuSessionController} (h : s'.view = s.view) :
    s'.connected = s.connected ∧ s'.armed = s.armed ∧ s'.mode = s.mode :=
  ⟨congrArg View.connected h, congrArg View.armed h, congrArg View.mode h⟩

/-! ### The end of a pending command -/

/-- A refused or expired MODE counts against the wanted mode only, an ARM against the wanted arming. -/
theorem fail_eq (hc : s.pending = some c) (reason : String) :
    s.fail reason = { s with
      modeFailed := s.modeFailed || (decide (c.kind = .mode) && c.mode == s.wantedMode)
      armFailed := s.armFailed || (!decide (c.kind = .mode) && c.arm == s.wantedArm)
      error := (if c.kind = .mode then "mode:" else "arming:") ++ reason
      pending := none } := by
  unfold fail; rw [hc]; simp

theorem settle_cases (s : FcuSessionController) :
    s.settle = s ∨ ∃ c error, s.pending = some c ∧ s.acked = true ∧ s.Confirmed c ∧
      s.settle = { s with pending := none, error := error } := by
  unfold settle
  split
  · exact .inl rfl
  · rename_i c hc
    by_cases h : s.acked ∧ s.Confirmed c
    · rw [if_pos h]; exact .inr ⟨c, _, hc, h.1, h.2, rfl⟩
    · rw [if_neg h]; exact .inl rfl

theorem tick_cases (s : FcuSessionController) (now : Int) :
    s.tick now = s ∨ ∃ c, s.pending = some c ∧ 3000 ≤ now - s.sentAt ∧
      s.tick now = s.fail "confirmation_timeout" := by
  unfold tick
  split_ifs with h
  · obtain ⟨c, hc⟩ := Option.isSome_iff_exists.1 h.1
    exact .inr ⟨c, hc, h.2, rfl⟩
  · exact .inl rfl

theorem complete_cases (s : FcuSessionController) (serial : Nat) (accepted : Bool) (now : Int) :
    s.complete serial accepted now = s.tick now ∨
      (∃ c, (s.tick now).pending = some c ∧ c.serial = serial ∧ accepted = false ∧
        s.complete serial accepted now = (s.tick now).fail "request_refused") ∨
      accepted = true ∧ s.complete serial accepted now = { s.tick now with acked := true }.settle := by
  unfold complete
  generalize s.tick now = s
  cases hc : s.pending with
  | none => exact .inl (by simp [current, hc])
  | some c =>
    by_cases hser : c.serial = serial
    · cases accepted with
      | false => exact .inr (.inl ⟨c, rfl, hser, rfl, by simp [current, hc, hser]⟩)
      | true => exact .inr (.inr ⟨rfl, by simp [current, hc, hser]⟩)
    · exact .inl (by simp [current, hc, hser])

@[simp] theorem fail_view (reason : String) : (s.fail reason).view = s.view := by
  cases hc : s.pending with
  | none => simp [fail, hc]
  | some c => rw [fail_eq hc]; rfl

@[simp] theorem settle_view : s.settle.view = s.view := by
  rcases settle_cases s with h | ⟨_, _, -, -, -, h⟩ <;> rw [h]
  rfl

@[simp] theorem tick_view (now : Int) : (s.tick now).view = s.view := by
  rcases tick_cases s now with h | ⟨_, -, -, h⟩ <;> rw [h]
  exact fail_view _

@[simp] theorem complete_view (serial : Nat) (accepted : Bool) (now : Int) :
    (s.complete serial accepted now).view = s.view := by
  rcases complete_cases s serial accepted now with h | ⟨_, -, -, -, h⟩ | ⟨-, h⟩ <;> rw [h]
  · exact tick_view now
  · exact (fail_view _).trans (tick_view now)
  · exact settle_view.trans (tick_view now)

theorem settle_pending (s : FcuSessionController) : s.settle.pending = none ∨ s.settle.pending = s.pending := by
  rcases settle_cases s with h | ⟨_, _, -, -, -, h⟩ <;> rw [h]
  exacts [.inr rfl, .inl rfl]

theorem tick_pending (s : FcuSessionController) (now : Int) :
    (s.tick now).pending = none ∨ (s.tick now).pending = s.pending := by
  rcases tick_cases s now with h | ⟨c, hc, -, h⟩ <;> rw [h]
  · exact .inr rfl
  · exact .inl (by rw [fail_eq hc])

theorem complete_pending (s : FcuSessionController) (serial : Nat) (accepted : Bool) (now : Int) :
    (s.complete serial accepted now).pending = none ∨
      (s.complete serial accepted now).pending = (s.tick now).pending := by
  rcases complete_cases s serial accepted now with h | ⟨c, hc, -, -, h⟩ | ⟨-, h⟩ <;> rw [h]
  · exact .inr rfl
  · exact .inl (by rw [fail_eq hc])
  · exact settle_pending { s.tick now with acked := true }

theorem tick_of_idle (hp : s.pending = none) (now : Int) : s.tick now = s := by simp [tick, hp]

theorem tick_tick (now : Int) : (s.tick now).tick now = s.tick now := by
  rcases tick_cases s now with h | ⟨c, hc, -, h⟩
  · rw [h, h]
  · rw [h, fail_eq hc]; exact tick_of_idle rfl now

/-- A new demand does not expire the command under way. -/
theorem tick_demand {now : Int} (h : s.tick now = s) (mode : String) (arm safetyDisarm : Bool) :
    (s.demand mode arm safetyDisarm).tick now = s.demand mode arm safetyDisarm := by
  have hlive : ¬ (s.pending.isSome = true ∧ now - s.sentAt ≥ 3000) := by
    intro hexpired
    obtain ⟨c, hc⟩ := Option.isSome_iff_exists.1 hexpired.1
    unfold tick at h
    rw [if_pos hexpired, fail_eq hc] at h
    have hnone : none = s.pending := congrArg pending h
    rw [hc] at hnone
    cases hnone
  have hkept : (s.demand mode arm safetyDisarm).sentAt = s.sentAt ∧
      ((s.demand mode arm safetyDisarm).pending = none ∨ (s.demand mode arm safetyDisarm).pending = s.pending) := by
    unfold demand
    split
    · exact ⟨rfl, .inr rfl⟩
    · refine ⟨rfl, ?_⟩
      dsimp only
      split
      exacts [.inl rfl, .inr rfl]
  obtain ⟨hsent, hpending | hpending⟩ := hkept
  · exact tick_of_idle hpending now
  · refine if_neg fun hexpired => hlive ?_
    rwa [hpending, hsent] at hexpired

theorem settle_of_idle (hp : s.pending = none) : s.settle = s := by simp [settle, hp]

/-! ### The next command -/

/-- After its tick, `next` returns nothing or, when connected with nothing pending, a due command. -/
theorem issue_cases (s : FcuSessionController) (now : Int) (modeService armService allowArm : Bool) :
    s.issue now modeService armService allowArm = (s, none) ∨
      s.connected = true ∧ s.pending = none ∧ ∃ kind arm force, s.Due arm force kind ∧
        s.issue now modeService armService allowArm = { s with forceDisarm := force }.emit kind arm now := by
  unfold issue
  split
  · exact .inl rfl
  rename_i hidle
  have hidle' : s.connected = true ∧ s.pending = none := by simpa using hidle
  split
  · rename_i hu
    split
    · exact .inl rfl
    · have hu' : s.Urgent := by simpa [Urgent] using hu
      exact .inr ⟨hidle'.1, hidle'.2, .arm, false, false, ⟨hu'.2.2, .inl ⟨hu', rfl, rfl⟩⟩, rfl⟩
  rename_i hu
  have hu' : ¬ s.Urgent := by simpa [Urgent] using hu
  split
  · rename_i hm
    split
    · split
      · exact .inl rfl
      · rename_i ha
        simp only [not_or, Bool.not_eq_true] at ha
        refine .inr ⟨hidle'.1, hidle'.2, .arm, false, s.forceDisarm, ⟨ha.2.2.1, .inr ⟨?_, ha.1.symm, rfl⟩⟩, rfl⟩
        rw [ha.1]; simpa using ha.2.1
    · exact .inr ⟨hidle'.1, hidle'.2, .mode, false, s.forceDisarm, ⟨hu', hm.1, by simpa using hm.2, rfl⟩, rfl⟩
  split
  · rename_i ha
    split
    · exact .inl rfl
    · exact .inr ⟨hidle'.1, hidle'.2, .arm, s.wantedArm, s.forceDisarm,
        ⟨by simpa using ha.2, .inr ⟨ha.1, rfl, rfl⟩⟩, rfl⟩
  · exact .inl rfl

theorem issue_none {now : Int} {modeService armService allowArm : Bool}
    (h : (s.issue now modeService armService allowArm).2 = none) :
    (s.issue now modeService armService allowArm).1 = s := by
  rcases issue_cases s now modeService armService allowArm with he | ⟨-, -, _, _, _, -, he⟩
  · rw [he]
  · rw [he] at h; cases h

/-- A command leaves for something that is not as wanted, unless the safety demand stands. -/
theorem due_unsettled {kind : Kind} {arm force : Bool} (h : s.Due arm force kind) (hs : s.safetyDisarm = false) :
    ¬ (s.mode = s.wantedMode ∧ s.armed = s.wantedArm) := by
  rintro ⟨hmode, harm⟩
  cases kind with
  | mode => exact h.2.1 hmode
  | arm =>
    obtain ⟨-, ⟨hu, -⟩ | ⟨hne, -⟩⟩ := h
    · rw [hu.1] at hs; cases hs
    · exact hne harm

/-- An ARM leaves a connected, disarmed FCU in the wanted mode only. -/
theorem issue_arms {now : Int} {modeService armService allowArm : Bool}
    (hc : (s.issue now modeService armService allowArm).2 = some c) (hk : c.kind = .arm) (ha : c.arm = true) :
    s.connected = true ∧ s.pending = none ∧ s.wantedArm = true ∧ s.armed = false ∧ s.mode = s.wantedMode ∧
      allowArm = true ∧ s.issue now modeService armService allowArm = s.emit .arm true now := by
  unfold issue at hc ⊢
  split at hc
  · cases hc
  rename_i hidle
  have hidle' : s.connected = true ∧ s.pending = none := by simpa using hidle
  split at hc
  · split at hc
    · cases hc
    · cases hc; cases ha
  rename_i hu
  split at hc
  · split at hc
    · split at hc
      · cases hc
      · cases hc; cases ha
    · cases hc; cases hk
  rename_i hm
  split at hc
  · rename_i hdue
    split at hc
    · cases hc
    · rename_i hgo
      obtain rfl := Option.some.inj hc
      have hwanted : s.wantedArm = true := ha
      have hgo' : s.mode = s.wantedMode ∧ allowArm = true ∧ armService = true := by
        simpa [hwanted, and_assoc] using hgo
      obtain ⟨hmode, hallow, harm⟩ := hgo'
      have hdisarmed : s.armed = false := by simpa [hwanted] using hdue.1
      refine ⟨hidle'.1, hidle'.2, hwanted, hdisarmed, hmode, hallow, ?_⟩
      rw [if_neg hidle, if_neg hu, if_neg hm, if_pos hdue, if_neg hgo, hwanted]
  · cases hc

@[simp] theorem emit_view (force : Bool) (kind : Kind) (arm : Bool) (now : Int) :
    ({ s with forceDisarm := force }.emit kind arm now).1.view = s.view := rfl

@[simp] theorem next_view (now : Int) (modeService armService allowArm : Bool) :
    (s.next now modeService armService allowArm).1.view = s.view := by
  unfold next
  rcases issue_cases (s.tick now) now modeService armService allowArm with h | ⟨-, -, _, _, _, -, h⟩ <;> rw [h]
  · exact tick_view now
  · exact (emit_view _ _ _ now).trans (tick_view now)

/-- What is handed out becomes the pending command, and the session was not as wanted. -/
theorem next_issued {now : Int} {modeService armService allowArm : Bool}
    (hc : (s.next now modeService armService allowArm).2 = some c) :
    (s.next now modeService armService allowArm).1.pending = some c ∧
      (s.safetyDisarm = false → ¬ (s.mode = s.wantedMode ∧ s.armed = s.wantedArm)) := by
  have htick := tick_view (s := s) now
  obtain ⟨hwm, hwa, hws⟩ := view_wanted htick
  obtain ⟨-, hva, hvm⟩ := view_observed htick
  unfold next at hc ⊢
  rcases issue_cases (s.tick now) now modeService armService allowArm with he | ⟨-, -, kind, arm, force, hdue, he⟩
  · rw [he] at hc
    cases hc
  · rw [he] at hc ⊢
    refine ⟨hc, fun hsafety => ?_⟩
    rw [← hwm, ← hwa, ← hva, ← hvm]
    exact due_unsettled hdue (hws.trans hsafety)

/-! ### Demands and observations -/

/-- The state before `observe` settles: the new observation, and the latches it releases. -/
def seen (s : FcuSessionController) (connected armed : Bool) (mode : String) : FcuSessionController :=
  let rising : Bool := s.safetyDisarm && armed && !s.armed
  { s with
    connected := connected
    armed := armed
    mode := mode
    pending := if connected then s.pending else none
    forceDisarm := s.forceDisarm || rising
    modeFailed := s.modeFailed && !(connected && mode == s.wantedMode)
    armFailed := s.armFailed && !rising && !(connected && armed == s.wantedArm) }

theorem observe_eq (s : FcuSessionController) (connected armed : Bool) (mode : String) :
    s.observe connected armed mode = (s.seen connected armed mode).settle := by
  have hlost : (if ¬ connected then { s with pending := none } else s) =
      { s with pending := if connected then s.pending else none } := by cases connected <;> rfl
  have hrise : ∀ s : FcuSessionController,
      (if s.safetyDisarm ∧ armed ∧ ¬ s.armed then { s with forceDisarm := true, armFailed := false } else s) =
        { s with forceDisarm := s.forceDisarm || (s.safetyDisarm && armed && !s.armed),
                 armFailed := s.armFailed && !(s.safetyDisarm && armed && !s.armed) } := by
    intro s
    cases hr : s.safetyDisarm && armed && !s.armed <;> simp_all
  have hmode : ∀ s : FcuSessionController,
      (if s.connected ∧ s.mode = s.wantedMode then { s with modeFailed := false } else s) =
        { s with modeFailed := s.modeFailed && !(s.connected && s.mode == s.wantedMode) } := by
    intro s
    cases hr : s.connected && s.mode == s.wantedMode <;> simp_all
  have harm : ∀ s : FcuSessionController,
      (if s.connected ∧ s.armed = s.wantedArm then { s with armFailed := false } else s) =
        { s with armFailed := s.armFailed && !(s.connected && s.armed == s.wantedArm) } := by
    intro s
    cases hr : s.connected && s.armed == s.wantedArm <;> simp_all
  unfold observe
  extract_lets s₁ s₂ s₃ s₄ s₅
  have h₁ : s₁ = { s with pending := if connected then s.pending else none } := hlost
  have h₂ := hrise s₁
  have h₄ := hmode s₃
  have h₅ := harm s₄
  change s₂ = _ at h₂
  change s₄ = _ at h₄
  change s₅ = _ at h₅
  rw [h₅, h₄]
  simp only [s₃, h₂, h₁]
  rfl

theorem demand_same {mode : String} {arm safety : Bool} (h : ¬ s.Retargets (.demand mode arm safety)) :
    s.demand mode arm safety = s := by
  unfold demand; rw [if_pos (by simpa [Retargets] using h)]

end FcuSessionController
end MowgliMavros
