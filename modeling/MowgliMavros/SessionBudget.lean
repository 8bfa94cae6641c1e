import MowgliMavros.SessionNext

/-!
# No retry storm in the session controller

While the demand and the observation repeat, `next` returns at most one MODE and one ARM or DISARM. A
kind of command is `Spent` once the observed state is as wanted, its failure is latched, or it is
pending for what is wanted. `next` returns a command of an unspent kind only (`due_unspent`) and spends
it (`emit_spends`).
-/

namespace MowgliMavros
namespace FcuSessionController

def PendingWanted (s : FcuSessionController) (kind : Kind) : Prop :=
  ∃ c, s.pending = some c ∧ c.kind = kind ∧ match kind with
    | .mode => c.mode = s.wantedMode
    | .arm => c.arm = s.wantedArm

/-- While the demand and the observation stand, no command of this kind will leave. -/
def Spent (s : FcuSessionController) : Kind → Prop
  | .mode => s.mode ≠ s.wantedMode → s.modeFailed = true ∨ s.PendingWanted .mode
  | .arm => (s.armed = s.wantedArm → s.safetyDisarm = true → s.forceDisarm = false) ∧
      (s.armed ≠ s.wantedArm → s.armFailed = true ∨ s.PendingWanted .arm)

/-- The operation repeats the standing demand or the last observation. -/
def Op.Repeats (v : View) : Op → Prop
  | demand mode arm safety => mode = v.wantedMode ∧ arm = v.wantedArm ∧ safety = v.safetyDisarm
  | observe connected armed mode => connected = v.connected ∧ armed = v.armed ∧ mode = v.mode
  | _ => True

instance (v : View) (op : Op) : Decidable (op.Repeats v) :=
  match op with
  | .demand .. | .observe .. => inferInstanceAs (Decidable (_ ∧ _))
  | .tick _ | .next .. | .complete .. => inferInstanceAs (Decidable True)

def Event.sends (kind : Kind) : Event → Bool
  | emitted c => c.kind == kind
  | _ => false

variable {s s' : FcuSessionController} {kind : Kind} {c : Command}

theorem PendingWanted.congr (h : s.PendingWanted kind) (hv : s'.view = s.view) (hp : s'.pending = s.pending) :
    s'.PendingWanted kind := by
  obtain ⟨hmode, harm, -⟩ := view_wanted hv
  rw [PendingWanted, hp, hmode, harm]; exact h

namespace Spent

theorem keep (h : s.Spent kind) (hv : s'.view = s.view) (hforce : s.forceDisarm = false → s'.forceDisarm = false)
    (hmode : s.mode ≠ s.wantedMode → s.modeFailed = true → s'.modeFailed = true)
    (harm : s.armed ≠ s.wantedArm → s.armFailed = true → s'.armFailed = true)
    (hp : ∀ k, s.PendingWanted k → s'.PendingWanted k ∨
      match k with
      | .mode => s.mode ≠ s.wantedMode → s'.modeFailed = true
      | .arm => s.armed ≠ s.wantedArm → s'.armFailed = true) : s'.Spent kind := by
  obtain ⟨hwm, hwa, hs⟩ := view_wanted hv
  obtain ⟨-, ha, hm⟩ := view_observed hv
  cases kind with
  | mode =>
    intro hne
    rw [hm, hwm] at hne
    rcases h hne with hf | hpend
    · exact .inl (hmode hne hf)
    · rcases hp .mode hpend with hpend | hf
      exacts [.inr hpend, .inl (hf hne)]
  | arm =>
    constructor
    · intro heq hsafe
      rw [ha, hwa] at heq; rw [hs] at hsafe
      exact hforce (h.1 heq hsafe)
    · intro hne
      rw [ha, hwa] at hne
      rcases h.2 hne with hf | hpend
      · exact .inl (harm hne hf)
      · rcases hp .arm hpend with hpend | hf
        exacts [.inr hpend, .inl (hf hne)]

theorem fail (h : s.Spent kind) (hc : s.pending = some c) (reason : String) : (s.fail reason).Spent kind := by
  refine h.keep (fail_view reason) ?_ ?_ ?_ fun k hk => .inr ?_ <;> rw [fail_eq hc]
  · exact id
  · intro _ hf; simp [hf]
  · intro _ hf; simp [hf]
  · obtain ⟨d, hd, hkind, hasks⟩ := hk
    obtain rfl : c = d := Option.some.inj (hc.symm.trans hd)
    cases k with
    | mode => intro _; simp [hkind, show c.mode = s.wantedMode from hasks]
    | arm => intro _; simp [hkind, show c.arm = s.wantedArm from hasks]

/-- What settles is not a wanted command of a mismatching state. -/
theorem settle (h : s.Spent kind) : s.settle.Spent kind := by
  rcases settle_cases s with he | ⟨c, error, hc, -, hconf, he⟩ <;> rw [he]
  · exact h
  · refine h.keep rfl id (fun _ => id) (fun _ => id) fun k hk => .inr ?_
    obtain ⟨d, hd, hkind, hasks⟩ := hk
    obtain rfl : c = d := Option.some.inj (hc.symm.trans hd)
    cases k with
    | mode =>
      have hm : s.mode = c.mode := by simpa [Confirmed, hkind] using hconf
      intro hne
      exact absurd (hm.trans hasks) hne
    | arm =>
      have ha : s.armed = c.arm := by simpa [Confirmed, hkind] using hconf
      intro hne
      exact absurd (ha.trans hasks) hne

theorem tick (h : s.Spent kind) (now : Int) : (s.tick now).Spent kind := by
  rcases tick_cases s now with he | ⟨c, hc, -, he⟩ <;> rw [he]
  exacts [h, h.fail hc _]

theorem complete (h : s.Spent kind) (serial : Nat) (accepted : Bool) (now : Int) :
    (s.complete serial accepted now).Spent kind := by
  have ht := h.tick now
  rcases complete_cases s serial accepted now with he | ⟨c, hc, -, -, he⟩ | ⟨-, he⟩ <;> rw [he]
  · exact ht
  · exact ht.fail hc _
  · have hack : ({ s.tick now with acked := true } : FcuSessionController).Spent kind :=
      ht.keep rfl id (fun _ => id) (fun _ => id) fun k hk => .inl (hk.congr rfl rfl)
    exact hack.settle

theorem observe (h : s.Spent kind) (hc : s.connected = true) : (s.observe true s.armed s.mode).Spent kind := by
  rw [observe_eq]
  have hv : (s.seen true s.armed s.mode).view = s.view := by simp [view, seen, hc]
  refine settle (h.keep hv ?_ ?_ ?_ fun k hk => .inl (hk.congr hv rfl))
  · intro hf; simp [seen, hf]
  · intro hne hf; simp [seen, hf, hne]
  · intro hne hf; cases ha : s.armed <;> simp_all [seen]

end Spent

theorem not_pendingWanted (hp : s.pending = none) (k : Kind) : ¬ s.PendingWanted k := by
  rintro ⟨c, hc, -⟩
  rw [hp] at hc; cases hc

/-- A command that is due is of an unspent kind. -/
theorem due_unspent (hwanted : s.safetyDisarm = true → s.wantedArm = false) (hp : s.pending = none)
    {arm force : Bool} (hdue : s.Due arm force kind) : ¬ s.Spent kind := by
  intro h
  cases kind with
  | mode =>
    obtain ⟨-, hne, hf, -⟩ := hdue
    rcases h hne with hf' | hpend
    · rw [hf] at hf'; cases hf'
    · exact not_pendingWanted hp _ hpend
  | arm =>
    obtain ⟨hf, hcase⟩ := hdue
    by_cases heq : s.armed = s.wantedArm
    · rcases hcase with ⟨⟨hs, hu, -⟩, -⟩ | ⟨hne, -⟩
      · rcases hu with hu | hu
        · rw [h.1 heq hs] at hu; cases hu
        · rw [heq, hwanted hs] at hu; cases hu
      · exact hne heq
    · rcases h.2 heq with hf' | hpend
      · rw [hf] at hf'; cases hf'
      · exact not_pendingWanted hp _ hpend

/-- A command that leaves spends its kind; the other kind stays spent. -/
theorem emit_spends (hwanted : s.safetyDisarm = true → s.wantedArm = false) (hp : s.pending = none)
    {arm force : Bool} (hdue : s.Due arm force kind) (now : Int) {k : Kind} (hk : k = kind ∨ s.Spent k) :
    ({ s with forceDisarm := force }.emit kind arm now).1.Spent k := by
  cases kind with
  | mode =>
    obtain ⟨-, -, -, rfl⟩ := hdue
    cases k with
    | mode => exact fun _ => .inr ⟨_, rfl, rfl, rfl⟩
    | arm =>
      have h := hk.resolve_left (by decide)
      exact ⟨h.1, fun hne => .inl ((h.2 hne).resolve_right (not_pendingWanted hp _))⟩
  | arm =>
    obtain ⟨-, hcase⟩ := hdue
    cases k with
    | mode =>
      have h := hk.resolve_left (by decide)
      intro hne
      exact .inl ((h hne).resolve_right (not_pendingWanted hp _))
    | arm =>
      refine ⟨fun heq _ => ?_, fun _ => .inr ⟨_, rfl, rfl, ?_⟩⟩
      · rcases hcase with ⟨-, -, rfl⟩ | ⟨hne, -⟩
        exacts [rfl, absurd heq hne]
      · rcases hcase with ⟨hu, rfl, -⟩ | ⟨-, rfl, -⟩
        exacts [(hwanted hu.1).symm, rfl]

/-! ### Runs -/

open Classical in
/-- How many commands of this kind may still leave. -/
noncomputable def allowance (s : FcuSessionController) (kind : Kind) : Nat :=
  if s.connected = true ∧ ¬ s.Spent kind then 1 else 0

theorem allowance_le_one (s : FcuSessionController) (kind : Kind) : s.allowance kind ≤ 1 := by
  unfold allowance
  split_ifs <;> omega

theorem allowance_mono (hc : s'.connected = s.connected)
    (h : s.connected = true → s.Spent kind → s'.Spent kind) : s'.allowance kind ≤ s.allowance kind := by
  by_cases hs : s.connected = true ∧ ¬ s.Spent kind
  · have h1 : s.allowance kind = 1 := if_pos hs
    have := s'.allowance_le_one kind
    omega
  · have h0 : s'.allowance kind = 0 := by
      refine if_neg ?_
      rintro ⟨hc', hno⟩
      rw [hc] at hc'
      exact hs ⟨hc', fun hs' => hno (h hc' hs')⟩
    omega

theorem repeats_view {op : Op} (h : op.Repeats s.view) : (s.apply op).view = s.view := by
  cases op with
  | demand mode arm safety =>
    obtain ⟨rfl, rfl, rfl⟩ := h
    rw [apply, demand_same (by simp [Retargets, view])]
  | observe connected armed mode =>
    obtain ⟨rfl, rfl, rfl⟩ := h
    rw [apply, observe_eq, settle_view]; rfl
  | tick now => exact tick_view now
  | next now modeService armService allowArm => exact next_view now modeService armService allowArm
  | complete serial accepted now => exact complete_view serial accepted now

theorem next_pays (hwanted : s.safetyDisarm = true → s.wantedArm = false) (now : Int)
    (modeService armService allowArm : Bool) :
    ((s.next now modeService armService allowArm).2.toList.map Event.emitted).countP (Event.sends kind) +
      (s.next now modeService armService allowArm).1.allowance kind ≤ s.allowance kind := by
  have hview := view_observed (tick_view (s := s) now)
  have ht : (s.tick now).allowance kind ≤ s.allowance kind := allowance_mono hview.1 fun _ h => h.tick now
  unfold next
  rcases issue_cases (s.tick now) now modeService armService allowArm with he | ⟨hc, hp, k, arm, force, hdue, he⟩ <;>
    rw [he]
  · simpa using ht
  · obtain ⟨-, hwa, hs⟩ := view_wanted (tick_view (s := s) now)
    have hwanted' : (s.tick now).safetyDisarm = true → (s.tick now).wantedArm = false := by
      rw [hs, hwa]; exact hwanted
    refine Nat.le_trans ?_ ht
    have hsent : (({ s.tick now with forceDisarm := force } : FcuSessionController).emit k arm now).2.toList.map
        Event.emitted = [.emitted ⟨(s.tick now).serial + 1, k, (s.tick now).wantedMode, arm⟩] := rfl
    rw [hsent]
    by_cases hk : k = kind
    · subst hk
      have h0 :
          (({ s.tick now with forceDisarm := force } : FcuSessionController).emit k arm now).1.allowance k = 0 :=
        if_neg fun h => h.2 (emit_spends hwanted' hp hdue now (.inl rfl))
      have h1 : (s.tick now).allowance k = 1 := if_pos ⟨hc, due_unspent hwanted' hp hdue⟩
      rw [h0, h1]; simp [Event.sends]
    · have hle : (({ s.tick now with forceDisarm := force } : FcuSessionController).emit k arm now).1.allowance kind ≤
          (s.tick now).allowance kind :=
        allowance_mono rfl fun _ h => emit_spends hwanted' hp hdue now (.inr h)
      simpa [Event.sends, hk] using hle

theorem repeats_pays {op : Op} (hwanted : s.safetyDisarm = true → s.wantedArm = false) (h : op.Repeats s.view) :
    (s.observed op).countP (Event.sends kind) + (s.apply op).allowance kind ≤ s.allowance kind := by
  have hconn : (s.apply op).connected = s.connected := (view_observed (repeats_view h)).1
  cases op with
  | next now modeService armService allowArm =>
    have hobs : s.observed (.next now modeService armService allowArm) =
        (s.next now modeService armService allowArm).2.toList.map .emitted := by simp [observed, Retargets]
    rw [hobs]
    exact next_pays hwanted now modeService armService allowArm
  | demand mode arm safety =>
    obtain ⟨rfl, rfl, rfl⟩ := h
    have hsame : ¬ s.Retargets (.demand s.view.wantedMode s.view.wantedArm s.view.safetyDisarm) := by
      simp [Retargets, view]
    have hobs : s.observed (.demand s.view.wantedMode s.view.wantedArm s.view.safetyDisarm) = [] := by
      simp [observed, Retargets, view]
    rw [apply, demand_same hsame, hobs]; simp
  | observe connected armed mode =>
    obtain ⟨rfl, rfl, rfl⟩ := h
    have hle :
        (s.apply (.observe s.view.connected s.view.armed s.view.mode)).allowance kind ≤ s.allowance kind := by
      refine allowance_mono hconn fun hc hs => ?_
      have hobs := hs.observe hc
      rw [← hc] at hobs; exact hobs
    simpa [observed, Retargets] using hle
  | tick now => simpa [observed, Retargets] using allowance_mono hconn fun _ hs => hs.tick now
  | complete serial accepted now =>
    simpa [observed, Retargets] using allowance_mono hconn fun _ hs => hs.complete serial accepted now

/-- From every state that safe demands reach, any continuation that only repeats the standing demand
and the last observation, ticks, asks for commands and completes them sends at most one MODE and at
most one ARM or DISARM. -/
theorem no_retry_storm (ops : List Op) (hsafe : ∀ op ∈ ops, op.Safe) (more : List Op)
    (hmore : ∀ op ∈ more, op.Repeats (reach ops).view) (kind : Kind) :
    (machine.log (reach ops) more).countP (Event.sends kind) ≤ 1 := by
  have hwanted := (Disarming.reach hsafe).wanted
  have hpay : (machine.log (reach ops) more).countP (Event.sends kind) +
      (machine.final (reach ops) more).allowance kind ≤ (reach ops).allowance kind := by
    refine Machine.budget (fun s : FcuSessionController => s.view = (reach ops).view) (Event.sends kind)
      (fun s => s.allowance kind) (fun s op hs hop => ?_) rfl (Machine.along_of_forall hmore)
    obtain ⟨-, ha, hd⟩ := view_wanted hs
    rw [← hs] at hop
    exact ⟨(repeats_view hop).trans hs, repeats_pays (by rw [ha, hd]; exact hwanted) hop⟩
  have := (reach ops).allowance_le_one kind
  omega

theorem no_retry_storm_refused :
    (machine.log (reach refusedModeRun) [.tick 20, .demand "MANUAL" true false, .observe true false "HOLD",
      .next 30 true true true]).countP (Event.sends .mode) ≤ 1 :=
  no_retry_storm refusedModeRun (by decide) _ (by decide) .mode

end FcuSessionController
end MowgliMavros
