import MowgliMavros.SessionSpec

/-!
# Whose failure is latched

A failure becomes latched only with the end of the pending command, and only when the part of it that
`fail` compares is what the target asks for (`latches_ends`). A command can outlive a change of the
target; `Attributed` says that its end then latches nothing, and `obsolete_harmless` when that is so:
no change of the target leaves pending a command that still asks for the compared part.
-/

namespace MowgliMavros
namespace FcuSessionController
variable {s : FcuSessionController} {c : Command} {l : List Event}

/-- The part of the command that `fail` compares is this target's. -/
def Command.Asks (c : Command) (mode : String) (arm : Bool) : Prop :=
  match c.kind with
  | .mode => c.mode = mode
  | .arm => c.arm = arm

def Op.clock? : Op → Option Int
  | tick now | next now _ _ _ | complete _ _ now => some now
  | _ => none

/-- The operation refuses the pending command `c` or lets it expire. -/
def Ends (s : FcuSessionController) (op : Op) (c : Command) : Prop :=
  s.pending = some c ∧
    ((∃ now, op.clock? = some now ∧ 3000 ≤ now - s.sentAt) ∨ ∃ now, op = .complete c.serial false now)

def Latches (s : FcuSessionController) (op : Op) : Prop :=
  s.modeFailed = false ∧ (s.apply op).modeFailed = true ∨ s.armFailed = false ∧ (s.apply op).armFailed = true

/-- The command was returned after the last change of the target. -/
def Current (l : List Event) (c : Command) : Prop :=
  ∃ before after, l = before ++ .emitted c :: after ∧ .retargeted ∉ after

/-- Failures are latched by commands returned for the standing target only. -/
structure Attributed (ops : List Op) : Prop where
  latched : ∀ pre op post, ops = pre ++ op :: post → (reach pre).Latches op →
    ∃ c, (reach pre).Ends op c ∧ Current (trace pre) c
  obsolete : ∀ pre op post, ops = pre ++ op :: post → ∀ c, (reach pre).Ends op c → ¬ Current (trace pre) c →
    (reach (pre ++ [op])).modeFailed = false ∧ (reach (pre ++ [op])).armFailed = false

/-- `demand` changes the target, keeps the command pending, and that command asks for the compared part
of the new target. -/
def Shares (s : FcuSessionController) : Op → Prop
  | .demand mode arm safety => s.Retargets (.demand mode arm safety) ∧
      (safety = true → s.safetyDisarm = true) ∧ ∃ c, s.pending = some c ∧ c.Asks mode arm
  | _ => False

/-! ### Latching -/

theorem fail_latches (hc : s.pending = some c) (reason : String) :
    (s.fail reason).modeFailed = (s.modeFailed || decide (c.kind = .mode ∧ c.mode = s.wantedMode)) ∧
      (s.fail reason).armFailed = (s.armFailed || decide (c.kind = .arm ∧ c.arm = s.wantedArm)) := by
  rw [fail_eq hc]
  cases hk : c.kind <;> simp [beq_eq_decide]

theorem asks_of_fail (hc : s.pending = some c) (reason : String)
    (h : s.modeFailed = false ∧ (s.fail reason).modeFailed = true ∨
      s.armFailed = false ∧ (s.fail reason).armFailed = true) : c.Asks s.wantedMode s.wantedArm := by
  obtain ⟨hm, ha⟩ := fail_latches hc reason
  rcases h with ⟨hno, h⟩ | ⟨hno, h⟩
  · rw [hm, hno, Bool.false_or, decide_eq_true_eq] at h
    simp [Command.Asks, h.1, h.2]
  · rw [ha, hno, Bool.false_or, decide_eq_true_eq] at h
    simp [Command.Asks, h.1, h.2]

theorem refused_latches (hc : s.pending = some c) (hm : s.modeFailed = false) (ha : s.armFailed = false)
    (hasks : c.Asks s.wantedMode s.wantedArm) {now : Int} (hfresh : now - s.sentAt < 3000) :
    s.Latches (.complete c.serial false now) := by
  have ht : s.tick now = s := by
    unfold tick; rw [if_neg]; omega
  have hfail : s.complete c.serial false now = s.fail "request_refused" := by simp [complete, ht, current, hc]
  obtain ⟨hm', ha'⟩ := fail_latches hc "request_refused"
  rw [Latches, apply, hfail, hm', ha']
  cases hk : c.kind with
  | mode =>
    have hmode : c.mode = s.wantedMode := by simpa [Command.Asks, hk] using hasks
    exact .inl ⟨hm, by simp [hmode]⟩
  | arm =>
    have harm : c.arm = s.wantedArm := by simpa [Command.Asks, hk] using hasks
    exact .inr ⟨ha, by simp [harm]⟩

def latches (s : FcuSessionController) : Bool × Bool := (s.modeFailed, s.armFailed)

theorem latches_eq {s s' : FcuSessionController} (h : s'.latches = s.latches) :
    s'.modeFailed = s.modeFailed ∧ s'.armFailed = s.armFailed :=
  ⟨congrArg Prod.fst h, congrArg Prod.snd h⟩

theorem settle_latches : s.settle.latches = s.latches := by
  rcases settle_cases s with h | ⟨_, _, -, -, -, h⟩ <;> rw [h]
  rfl

theorem next_latches (now : Int) (modeService armService allowArm : Bool) :
    (s.next now modeService armService allowArm).1.latches = (s.tick now).latches := by
  unfold next
  rcases issue_cases (s.tick now) now modeService armService allowArm with h | ⟨-, -, _, _, _, -, h⟩ <;> rw [h]
  rfl

theorem not_latches_of_eq {op : Op} (h : (s.apply op).latches = s.latches) : ¬ s.Latches op := by
  obtain ⟨hm, ha⟩ := latches_eq h
  rintro (⟨hno, hyes⟩ | ⟨hno, hyes⟩)
  · rw [hm, hno] at hyes; cases hyes
  · rw [ha, hno] at hyes; cases hyes

theorem ends_of_tick {op : Op} {now : Int} (hclock : op.clock? = some now)
    (happly : (s.apply op).latches = (s.tick now).latches) (h : s.Latches op) :
    ∃ c, s.Ends op c ∧ c.Asks s.wantedMode s.wantedArm := by
  rcases tick_cases s now with he | ⟨c, hc, hexp, he⟩
  · exact absurd h (not_latches_of_eq (by rw [happly, he]))
  · refine ⟨c, ⟨hc, .inl ⟨now, hclock, hexp⟩⟩, asks_of_fail hc "confirmation_timeout" ?_⟩
    obtain ⟨hm, ha⟩ := latches_eq happly
    rw [he] at hm ha
    rwa [Latches, hm, ha] at h

/-- A failure is latched only by the end of the pending command, when it asks for what is wanted. -/
theorem latches_ends {op : Op} (h : s.Latches op) : ∃ c, s.Ends op c ∧ c.Asks s.wantedMode s.wantedArm := by
  cases op with
  | demand mode arm safety =>
    exfalso
    simp only [Latches, apply, demand] at h
    split_ifs at h <;> simp_all
  | observe connected armed mode =>
    exfalso
    obtain ⟨hm, ha⟩ := latches_eq (settle_latches (s := s.seen connected armed mode))
    simp only [Latches, apply, observe_eq, hm, ha] at h
    simp only [seen, Bool.and_eq_true] at h
    rcases h with ⟨hno, hyes⟩ | ⟨hno, hyes⟩
    · rw [hno] at hyes; cases hyes.1
    · rw [hno] at hyes; cases hyes.1.1
  | tick now => exact ends_of_tick rfl rfl h
  | next now modeService armService allowArm =>
    exact ends_of_tick rfl (next_latches now modeService armService allowArm) h
  | complete serial accepted now =>
    rcases complete_cases s serial accepted now with he | ⟨c, hc, rfl, rfl, he⟩ | ⟨-, he⟩
    · exact ends_of_tick rfl (by rw [apply, he]) h
    · -- the tick left the command pending, so it latched nothing itself
      have ht : s.tick now = s := by
        rcases tick_cases s now with ht | ⟨d, hd, -, ht⟩
        · exact ht
        · rw [ht, fail_eq hd] at hc; cases hc
      rw [ht] at hc he
      refine ⟨c, ⟨hc, .inr ⟨now, rfl⟩⟩, asks_of_fail hc "request_refused" ?_⟩
      rwa [Latches, apply, he] at h
    · refine ends_of_tick rfl ?_ h
      rw [apply, he]
      exact settle_latches (s := { s.tick now with acked := true })

/-! ### The owner of the pending command -/

theorem not_current_retargeted : ¬ Current (l ++ [.retargeted]) c := by
  rintro ⟨before, after, h, hno⟩
  rcases List.append_eq_append_iff.1 h with ⟨mid, -, hmid⟩ | ⟨mid, -, hmid⟩
  · cases mid with
    | nil => cases hmid
    | cons e mid => simp at hmid
  · cases mid with
    | nil => cases hmid
    | cons e mid =>
      obtain ⟨-, rfl⟩ := List.cons.inj hmid
      exact hno (by simp)

theorem Current.quiet {l' : List Event} (h : Current l c) (hno : .retargeted ∉ l') : Current (l ++ l') c := by
  obtain ⟨before, after, rfl, hafter⟩ := h
  refine ⟨before, after ++ l', by simp, fun hm => ?_⟩
  rcases List.mem_append.1 hm with hm | hm
  exacts [hafter hm, hno hm]

/-- The pending command was returned for the standing target; or nothing is latched, and it does not ask
for a part of the target that `fail` compares. -/
def Owned (l : List Event) (s : FcuSessionController) : Prop :=
  ∀ c, s.pending = some c → Current l c ∨
    s.modeFailed = false ∧ s.armFailed = false ∧ ¬ c.Asks s.wantedMode s.wantedArm

namespace Owned

theorem shrink {s' : FcuSessionController} (h : Owned l s) (hv : s'.view = s.view)
    (hp : s'.pending = none ∨ s'.pending = s.pending ∧
      (s.modeFailed = false → s'.modeFailed = false) ∧ (s.armFailed = false → s'.armFailed = false)) :
    Owned l s' := by
  intro c hc
  obtain ⟨hmode, harm, -⟩ := view_wanted hv
  rcases hp with hp | ⟨hp, hm, ha⟩
  · rw [hp] at hc; cases hc
  · rw [hmode, harm]
    exact (h c (hp ▸ hc)).imp_right fun ⟨h₁, h₂, h₃⟩ => ⟨hm h₁, ha h₂, h₃⟩

theorem tick (h : Owned l s) (now : Int) : Owned l (s.tick now) := by
  refine h.shrink (tick_view now) ?_
  rcases tick_cases s now with he | ⟨c, hc, -, he⟩ <;> rw [he]
  · exact .inr ⟨rfl, id, id⟩
  · exact .inl (by rw [fail_eq hc])

theorem settle (h : Owned l s) : Owned l s.settle := by
  refine h.shrink settle_view ?_
  rcases settle_cases s with he | ⟨c, error, -, -, -, he⟩ <;> rw [he]
  exacts [.inr ⟨rfl, id, id⟩, .inl rfl]

theorem complete (h : Owned l s) (serial : Nat) (accepted : Bool) (now : Int) :
    Owned l (s.complete serial accepted now) := by
  have ht := h.tick now
  rcases complete_cases s serial accepted now with he | ⟨c, hc, -, -, he⟩ | ⟨-, he⟩ <;> rw [he]
  · exact ht
  · exact ht.shrink (fail_view _) (.inl (by rw [fail_eq hc]))
  · have hack : Owned l { s.tick now with acked := true } := ht.shrink rfl (.inr ⟨rfl, id, id⟩)
    exact hack.settle

theorem observe (h : Owned l s) (connected armed : Bool) (mode : String) :
    Owned l (s.observe connected armed mode) := by
  rw [observe_eq]
  refine settle fun c hc => ?_
  cases connected with
  | false => simp [seen] at hc
  | true =>
    refine (h c (by simpa [seen] using hc)).imp_right fun ⟨hm, ha, hno⟩ => ?_
    exact ⟨by simp [seen, hm], by simp [seen, ha], hno⟩

theorem demand {mode : String} {arm safety : Bool} (hchange : s.Retargets (.demand mode arm safety))
    (hno : ¬ s.Shares (.demand mode arm safety)) : Owned l (s.demand mode arm safety) := by
  unfold FcuSessionController.demand
  rw [if_neg hchange]
  intro c hc
  refine .inr ⟨rfl, rfl, fun hasks => hno ⟨hchange, fun hs => ?_, c, ?_, hasks⟩⟩ <;>
    cases hwas : s.safetyDisarm <;> simp_all

theorem step (h : Owned l s) {op : Op} (hno : ¬ s.Shares op) : Owned (l ++ s.observed op) (s.apply op) := by
  by_cases hchange : s.Retargets op
  · cases op with
    | demand mode arm safety => exact demand hchange hno
    | _ => cases hchange
  have hquiet : ∀ {s'}, Owned l s' → Owned (l ++ s.observed op) s' := fun h' c hc =>
    (h' c hc).imp_left fun hcur => hcur.quiet (by cases op <;> simp [observed, hchange])
  cases op with
  | demand mode arm safety =>
    rw [apply, demand_same hchange]; exact hquiet h
  | observe connected armed mode => exact hquiet (h.observe connected armed mode)
  | tick now => exact hquiet (h.tick now)
  | complete serial accepted now => exact hquiet (h.complete serial accepted now)
  | next now modeService armService allowArm =>
    have ht := h.tick now
    rcases issue_cases (s.tick now) now modeService armService allowArm with he | ⟨-, -, kind, arm, force, -, he⟩
    · refine hquiet ?_
      rw [apply, next, he]; exact ht
    · intro c hc
      rw [apply, next, he] at hc
      refine .inl ⟨l, [], ?_, by simp⟩
      have hobs : s.observed (.next now modeService armService allowArm) = [.emitted c] := by
        rw [observed, if_neg hchange, next, he]
        obtain rfl := Option.some.inj hc
        rfl
      rw [hobs]

end Owned

/-! ### Runs -/

theorem owned_reach {ops : List Op} (h : machine.Along (fun s op => ¬ s.Shares op) {} ops) :
    Owned (trace ops) (reach ops) :=
  Machine.history (H := Owned) (l := []) (fun _ _ _ h hno => h.step hno) (by simp [Owned]) h

theorem reach_append (pre post : List Op) : reach (pre ++ post) = machine.final (reach pre) post :=
  Machine.final_append pre post

theorem trace_append (pre post : List Op) : trace (pre ++ post) = trace pre ++ machine.log (reach pre) post :=
  Machine.log_append pre post

/-- Without a shared part every failure is attributed to the standing target. -/
theorem attributed_of_not_shares {ops : List Op} (h : machine.Along (fun s op => ¬ s.Shares op) {} ops) :
    Attributed ops := by
  have howned : ∀ pre op post, ops = pre ++ op :: post → Owned (trace pre) (reach pre) := by
    rintro pre op post rfl
    exact owned_reach ((Machine.along_append pre (op :: post)).1 h).1
  constructor
  · intro pre op post heq hlatch
    obtain ⟨c, hends, hasks⟩ := latches_ends hlatch
    rcases howned pre op post heq c hends.1 with hcur | ⟨-, -, hno⟩
    exacts [⟨c, hends, hcur⟩, absurd hasks hno]
  · intro pre op post heq c hends hcur
    obtain ⟨hm, ha, hno⟩ := (howned pre op post heq c hends.1).resolve_left hcur
    have hlatch : ¬ (reach pre).Latches op := fun hlatch => by
      obtain ⟨d, hd, hasks⟩ := latches_ends hlatch
      obtain rfl : c = d := Option.some.inj (hends.1.symm.trans hd.1)
      exact hno hasks
    rw [reach_append]
    refine ⟨?_, ?_⟩ <;> by_contra hyes
    · exact hlatch (.inl ⟨hm, by simpa using hyes⟩)
    · exact hlatch (.inr ⟨ha, by simpa using hyes⟩)

/-- A command that shares a part of the new target latches a failure when it is refused. -/
theorem not_attributed_of_shares (pre : List Op) {op : Op} (h : (reach pre).Shares op) :
    ∃ more, machine.Along (fun s op => ¬ s.Retargets op) (reach (pre ++ [op])) more ∧
      ¬ Attributed (pre ++ [op] ++ more) := by
  cases op with
  | demand mode arm safety =>
    obtain ⟨hchange, hkeep, c, hc, hasks⟩ := h
    have hreach : reach (pre ++ [.demand mode arm safety]) = (reach pre).demand mode arm safety :=
      reach_append pre [.demand mode arm safety]
    refine ⟨[.complete c.serial false (reach pre).sentAt], ⟨by simp [Retargets], trivial⟩, fun hattr => ?_⟩
    have hstep : (reach pre).demand mode arm safety = { reach pre with
        wantedMode := mode, wantedArm := arm, modeFailed := false, armFailed := false, error := "",
        forceDisarm := (reach pre).forceDisarm || (safety && !(reach pre).safetyDisarm),
        safetyDisarm := safety } := by
      have hrise : (safety && !(reach pre).safetyDisarm) = false := by cases safety <;> simp_all
      unfold demand
      rw [if_neg hchange]
      simp [hrise]
    have hlatch : (reach (pre ++ [.demand mode arm safety])).Latches
        (.complete c.serial false (reach pre).sentAt) := by
      rw [hreach, hstep]
      refine refused_latches ?_ rfl rfl ?_ ?_
      exacts [hc, hasks, by simp]
    obtain ⟨d, -, hcur⟩ := hattr.latched _ _ [] rfl hlatch
    have hlog : machine.log (reach pre) [.demand mode arm safety] = [.retargeted] := by
      simp [Machine.log, observed, hchange]
    rw [trace_append, hlog] at hcur
    exact not_current_retargeted hcur
  | _ => cases h

/-- A run, however continued from any of its prefixes on an unchanged target, latches only failures of
commands returned for the standing target, exactly when no change of the target in it leaves pending a
command that asks for the compared part of the new target. -/
theorem obsolete_harmless (ops : List Op) :
    (∀ pre more, pre <+: ops → machine.Along (fun s op => ¬ s.Retargets op) (reach pre) more →
      Attributed (pre ++ more)) ↔
    machine.Along (fun s op => ¬ s.Shares op) {} ops := by
  constructor
  · intro hall
    rw [Machine.along_iff]
    rintro pre op post rfl hshares
    obtain ⟨more, hmore, hno⟩ := not_attributed_of_shares pre hshares
    exact hno (hall (pre ++ [op]) more ⟨post, by simp⟩ hmore)
  · rintro h pre more ⟨post, rfl⟩ hmore
    refine attributed_of_not_shares ((Machine.along_append pre more).2 ⟨?_, hmore.mono fun s op hno hshares => ?_⟩)
    · exact ((Machine.along_append pre post).1 h).1
    · cases op with
      | demand mode arm safety => exact hno hshares.1
      | _ => exact hshares

/-- ARM is sent for GUIDED, the demand becomes MANUAL with arming still wanted, and the ARM is refused. -/
def sharedArmRun : List Op :=
  [.demand "GUIDED" true false, .observe true false "GUIDED", .next 0 true true true,
    .demand "MANUAL" true false, .complete 1 false 10]

theorem shared_arm_latched : (reach sharedArmRun).armFailed = true ∧ ¬ Attributed sharedArmRun := by
  refine ⟨by decide, fun h => ?_⟩
  obtain ⟨c, -, hcur⟩ := h.latched (sharedArmRun.take 4) (.complete 1 false 10) [] rfl (.inr (by decide))
  have htrace : trace (sharedArmRun.take 4) =
      [.retargeted, .emitted ⟨1, .arm, "GUIDED", true⟩] ++ [.retargeted] := by decide
  rw [htrace] at hcur
  exact not_current_retargeted hcur

end FcuSessionController
end MowgliMavros
