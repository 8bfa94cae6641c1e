import MowgliMavros.BladeRep
import MowgliMavros.Lib.Past

/-!
# The neutral is never lost

An ON that is no longer wanted has its neutral queued, a queued neutral is what `next` returns, and
an OFF request is confirmed or under way, unless the failure of a neutral is latched (`off_request_assured`).
-/

namespace MowgliMavros
namespace BladeControl
variable {last acked : Option Command} {s : BladeControl}

/-- A neutral is confirmed, queued or in flight. -/
def OffAssured (s : BladeControl) : Prop :=
  s.confirmed = .off ∨ s.queuedNeutral = true ∨ s.neutralPending = true

instance (s : BladeControl) : Decidable s.OffAssured := inferInstanceAs (Decidable (_ ∨ _))

theorem Rep.not_on_of_queued (h : Rep last acked s) (hq : s.queuedNeutral = true) {c : Command}
    (hc : s.inFlight = some c) : c.direction = .off := by
  by_contra hd
  have := (h.drive c hc hd).2.2.1
  rw [hq] at this; cases this

theorem Rep.next_queued (h : Rep last acked s) (hq : s.queuedNeutral = true) (now : Int) :
    s.neutralPending = true ∨
      ∃ c, (s.next now).2 = some c ∧ c.direction = .off ∧ c.pwm = s.config.1.neutral := by
  have hq' : (s.tick now).queuedNeutral = true := by
    rcases tick_cases s now with ht | ⟨_, _, _, _, ht, -, hkeep⟩ <;> rw [ht]
    exacts [hq, hkeep hq]
  rcases next_cases s now with ⟨-, hin | hno⟩ | ⟨-, target, -, hg, he⟩
  · left
    have hin' : s.inFlight.isSome := by
      rcases tick_cases s now with ht | ⟨_, _, _, _, ht, hi, -⟩ <;> rw [ht] at hin
      · exact hin
      · rcases hi with rfl | rfl
        exacts [absurd hin (by simp), hin]
    obtain ⟨c, hc⟩ := Option.isSome_iff_exists.1 hin'
    simp [neutralPending, hc, h.not_on_of_queued hq hc]
  · rw [hq'] at hno; cases hno
  · right
    rcases hg with ⟨-, rfl⟩ | ⟨hno, -⟩
    · refine ⟨_, by rw [he], rfl, ?_⟩
      show (s.tick now).config.1.neutral = _
      rw [tick_config]
    · rw [hq'] at hno; cases hno

/-- In every reachable state, an ON returned last is still wanted or its neutral is queued; and a
queued neutral excludes an ON in flight and is what `next` returns. -/
theorem failsafe_neutral (config : ValidConfig) (ops : List Op) :
    (∀ c, lastEmitted (trace config ops) = some c → c.direction.IsOn →
      (reach config ops).requested = c.direction ∧ (reach config ops).fault = false ∨
        (reach config ops).queuedNeutral = true) ∧
    ((reach config ops).queuedNeutral = true →
      (∀ c, (reach config ops).inFlight = some c → ¬ c.direction.IsOn) ∧
      ∀ now, (reach config ops).neutralPending = true ∨
        ∃ c, ((reach config ops).next now).2 = some c ∧ c.direction = .off ∧ c.pwm = config.1.neutral) := by
  have h := rep_reach config ops
  refine ⟨fun c hc hon => ?_, fun hq => ⟨fun c hc hon => ?_, fun now => ?_⟩⟩
  · by_cases hq : (reach config ops).queuedNeutral = true
    · exact .inr hq
    · obtain ⟨hr, hf, -⟩ := h.running c hc (by rcases hon with hd | hd <;> simp [hd]) (by simpa using hq)
      exact .inl ⟨hr, hf⟩
  · have hoff := h.not_on_of_queued hq hc
    rcases hon with hd | hd <;> simp [hd] at hoff
  · simpa [config_reach] using h.next_queued hq now

def defaultConfig : ValidConfig := ⟨{}, by decide⟩

/-- Startup up to a requested FWD: link, permission, confirmed neutral, five zero samples. -/
def readyRun : List Op :=
  [.connection true 0, .permission true 0, .next 0, .complete 2 true 0] ++
    (List.range 5).map (fun i => .sample ⟨1, i + 1, 0, false, true, 0⟩ (i * 250)) ++
    [.request .forward 1000]

def forwardRun : List Op := readyRun ++ [.next 1000, .complete 3 true 1000]

/-- The telemetry of a running blade stops. -/
def staleRun : List Op := forwardRun ++ [.tick 2100]

/-- `failsafe_neutral` on a FWD that lost its telemetry: the neutral is queued and returned. -/
theorem failsafe_neutral_stale :
    (reach defaultConfig staleRun).neutralPending = true ∨
      ∃ c, ((reach defaultConfig staleRun).next 2100).2 = some c ∧ c.direction = .off ∧
        c.pwm = defaultConfig.1.neutral :=
  ((failsafe_neutral defaultConfig staleRun).2 (by decide +kernel)).2 2100

/-! ### The explicit OFF request -/

theorem fault_request_off {s : BladeControl} (hf : s.fault = true) (now : Int) :
    s.request .off now = (s, .rejected) := by
  simp [request, hf]

theorem Rep.request_off (h : Rep last acked s) (hc : s.connected = true) (hf : s.fault = false) (now : Int) :
    (s.request .off now).1.OffAssured := by
  by_cases hr : s.requested = .off
  · have he : (s.request .off now).1 = s := by simp [BladeControl.request, hc, hf, hr]
    rw [he]; exact h.covered hf hr
  · have he : (s.request .off now).1 =
        { s with revision := s.revision + 1, requested := .off }.forceOff now := by
      simp [BladeControl.request, hc, hf, Ne.symm hr]
    rw [he]; exact .inr (.inl rfl)

/-- The refusal or the expiry of the command in flight. -/
def Op.Fails (s : BladeControl) : Op → Prop
  | complete token accepted _ => s.current token = true ∧ accepted = false
  | tick now | next now => now - s.sentAt ≥ s.config.1.ackTimeoutMs
  | _ => False

/-- The neutral in flight fails, and no other is queued. -/
def LosesNeutral (s : BladeControl) (op : Op) : Prop :=
  s.neutralPending = true ∧ s.queuedNeutral = false ∧ op.Fails s

/-- A new safety generation: no failure is latched any more, or the service timeout has queued a neutral. -/
def Renews (s : BladeControl) (op : Op) : Prop := (s.apply op).fault = false ∨ ∃ now, op = .serviceTimeout now

/-- The neutral was refused or timed out, and its failure is still latched. -/
def NeutralLost (config : ValidConfig) (ops : List Op) : Prop :=
  Past.Was (fun pre op => (reach config pre).LosesNeutral op) (fun pre op => (reach config pre).Renews op) ops

/-- `fail` drops an ON in flight only. -/
theorem fail_neutralPending (s : BladeControl) (sendNeutral : Bool) :
    (s.fail sendNeutral).neutralPending = s.neutralPending := by
  cases hc : s.inFlight with
  | none => simp [fail, neutralPending, hc]
  | some c => by_cases hd : c.direction = .off <;> simp [fail, neutralPending, hc, hd]

theorem assured_fail (s : BladeControl) : (s.fail true).OffAssured := by
  unfold OffAssured
  rw [fail_neutralPending]
  cases hp : s.neutralPending with
  | true => exact .inr (.inr rfl)
  | false => exact .inr (.inl (by simp [fail, hp]))

theorem OffAssured.fail (h : s.OffAssured) (sendNeutral : Bool) : (s.fail sendNeutral).OffAssured := by
  rcases h with hc | hq | hp
  · exact .inl hc
  · exact .inr (.inl (by simp [BladeControl.fail, hq]))
  · exact .inr (.inr ((fail_neutralPending s sendNeutral).trans hp))

/-- The refusal or the expiry of `c`. -/
theorem lost_or_assured {c : Command} {op : Op} (hc : s.inFlight = some c) (hop : op.Fails s) :
    ({ s with inFlight := none }.fail (c.direction != Direction.off)).OffAssured ∨ s.LosesNeutral op := by
  by_cases hd : c.direction = .off
  · cases hq : s.queuedNeutral with
    | true => exact .inl (.inr (.inl (by simp [fail])))
    | false => exact .inr ⟨by simp [neutralPending, hc, hd], hq, hop⟩
  · have hsend : (c.direction != Direction.off) = true := by simpa using hd
    rw [hsend]
    exact .inl (assured_fail _)

/-- A deadline that passes sends the neutral, unless it is the one of the neutral. -/
theorem Rep.tick_assured (h : Rep last acked s) (hs : s.fault = true → s.OffAssured) {now : Int} {op : Op}
    (hop : now - s.sentAt ≥ s.config.1.ackTimeoutMs → op.Fails s) (hf : (s.tick now).fault = true) :
    (s.tick now).OffAssured ∨ s.LosesNeutral op := by
  have hack : (s.ackDeadline now = s ∨ (s.ackDeadline now).OffAssured) ∨ s.LosesNeutral op := by
    unfold ackDeadline
    cases hc : s.inFlight with
    | none => exact .inl (.inl rfl)
    | some c =>
      dsimp only
      split_ifs with hexpired
      · exact (lost_or_assured hc (hop hexpired)).imp_left .inr
      · exact .inl (.inl rfl)
  refine hack.imp_left fun hack => ?_
  have hstale : (s.ackDeadline now).staleDeadline now = s ∨ ((s.ackDeadline now).staleDeadline now).OffAssured := by
    unfold staleDeadline
    split_ifs
    · exact .inr (assured_fail _)
    · exact hack
  unfold BladeControl.tick at hf ⊢
  generalize (s.ackDeadline now).staleDeadline now = s₁ at hf hstale ⊢
  unfold stopDeadline at hf ⊢
  rcases hstale with rfl | hassured
  · split_ifs at hf ⊢ with hwait
    · exact .inl (h.waiting hwait.1).2.1
    · exact hs hf
  · split_ifs
    · exact hassured.fail false
    · exact hassured

/-- A latched failure has its neutral under way or confirmed, or it is the failure of the neutral. -/
theorem Rep.step_assured (h : Rep last acked s) (hs : s.fault = true → s.OffAssured) (op : Op)
    (hf : (s.apply op).fault = true) : (s.apply op).OffAssured ∨ s.LosesNeutral op := by
  cases op with
  | connection connected now =>
    rcases connection_cases s connected now with ⟨-, he⟩ | ⟨-, he⟩ <;> rw [apply, he] at hf ⊢
    · exact .inl (hs hf)
    · cases hf
  | permission allowed now =>
    by_cases hdrop : s.allowed = true ∧ allowed = false
    · simp [apply, BladeControl.permission, hdrop, BladeControl.forceOff] at hf
    · have he : s.permission allowed now = { s with allowed := allowed } := by
        rw [BladeControl.permission, if_neg (by simpa using hdrop)]
      rw [apply, he] at hf ⊢
      exact .inl (hs hf)
  | request direction now =>
    rcases request_cases s direction now with he | ⟨hno, -, -, -, hcase⟩
    · rw [apply, he] at hf ⊢
      exact .inl (hs hf)
    · rcases hcase with ⟨-, he⟩ | ⟨-, -, he⟩ | ⟨-, -, he⟩ | ⟨-, -, -, -, he⟩ <;> rw [apply, he] at hf
      · cases hf
      · cases hf
      · exact absurd (hno.symm.trans hf) Bool.false_ne_true
      · exact absurd (hno.symm.trans hf) Bool.false_ne_true
  | forceOff now => cases hf
  | serviceTimeout now => exact .inl (.inr (.inl rfl))
  | sample x now =>
    obtain ⟨_, _, _, _, _, _, _, he⟩ := sample_frame s x now
    rw [apply, he] at hf ⊢
    exact .inl (hs hf)
  | tick now => exact h.tick_assured hs id hf
  | next now =>
    rcases next_cases s now with ⟨he, -⟩ | ⟨-, target, -, hg, he⟩ <;> rw [apply, he] at hf ⊢
    · exact h.tick_assured hs id hf
    · rcases hg with ⟨-, rfl⟩ | ⟨-, hno, -⟩
      · exact .inl (.inr (.inr rfl))
      · exact absurd (hno.symm.trans hf) Bool.false_ne_true
  | complete token accepted now =>
    rcases complete_cases s token accepted now with ⟨he, -⟩ | ⟨c, hc, htok, hcase⟩
    · rw [apply, he] at hf ⊢
      exact .inl (hs hf)
    · rcases hcase with ⟨rfl, he⟩ | ⟨-, -, he⟩ | ⟨-, hon, he⟩ <;> rw [apply, he] at hf ⊢
      · exact lost_or_assured hc ⟨by simp [current, hc, htok], rfl⟩
      · exact .inl (.inl rfl)
      · exact absurd ((h.drive c hc hon).2.2.2.symm.trans hf) (by decide)
  | output pwmValue now =>
    rcases output_cases s pwmValue now with he | he <;> rw [apply, he] at hf ⊢
    · exact .inl (hs hf)
    · cases hf

theorem reach_snoc (config : ValidConfig) (ops : List Op) (op : Op) :
    reach config (ops ++ [op]) = (reach config ops).apply op := by
  rw [reach, Machine.final_append]
  rfl

theorem assured_or_lost (config : ValidConfig) (ops : List Op) (hf : (reach config ops).fault = true) :
    (reach config ops).OffAssured ∨ NeutralLost config ops := by
  induction ops using List.reverseRecOn with
  | nil => cases hf
  | append_singleton ops op ih =>
    unfold NeutralLost
    rw [Past.was_snoc]
    rw [reach_snoc] at hf ⊢
    by_cases hlost : (reach config ops).fault = true ∧ ¬ (reach config ops).OffAssured
    · have hwas := (ih hlost.1).resolve_left hlost.2
      by_cases htimeout : ∃ now, op = .serviceTimeout now
      · obtain ⟨now, rfl⟩ := htimeout
        exact .inl (.inr (.inl rfl))
      · refine .inr (.inr ⟨?_, hwas⟩)
        rintro (hclear | h)
        · rw [hf] at hclear
          cases hclear
        · exact htimeout h
    · have hs : (reach config ops).fault = true → (reach config ops).OffAssured := fun hfault =>
        not_not.1 fun hno => hlost ⟨hfault, hno⟩
      exact ((rep_reach config ops).step_assured hs op hf).imp_right .inl

/-- In every reachable connected state an OFF request leaves the blade confirmed off or a neutral under way,
unless the failure of the neutral is latched. With a latched failure it is rejected and changes nothing, and
`forceOff` is what makes `next` return a neutral again. -/
theorem off_request_assured (config : ValidConfig) (ops : List Op) (now : Int)
    (hc : (reach config ops).connected = true) :
    (((reach config ops).request .off now).1.OffAssured ∨
      (reach config ops).fault = true ∧ NeutralLost config ops) ∧
    ((reach config ops).fault = true →
      (reach config ops).request .off now = (reach config ops, .rejected) ∧
      ∀ later, ∃ c, (((reach config ops).forceOff now).next later).2 = some c ∧ c.direction = .off) := by
  constructor
  · cases hf : (reach config ops).fault with
    | false => exact .inl ((rep_reach config ops).request_off hc hf now)
    | true =>
      rw [fault_request_off hf]
      exact (assured_or_lost config ops hf).imp_right fun hlost => ⟨rfl, hlost⟩
  · intro hf
    refine ⟨fault_request_off hf now, fun later => ?_⟩
    have h : Rep none none ((reach config ops).forceOff now) := Rep.forceOff now
    rcases h.next_queued rfl later with hp | ⟨c, hn, hd, -⟩
    · simp [neutralPending, forceOff] at hp
    · exact ⟨c, hn, hd⟩

def refusedNeutralRun : List Op := staleRun ++ [.next 2100, .complete 4 false 2200]

theorem off_request_assured_forward : ((reach defaultConfig forwardRun).request .off 1000).1.OffAssured := by
  refine (off_request_assured defaultConfig forwardRun 1000 (by decide +kernel)).1.resolve_right ?_
  rintro ⟨hf, -⟩
  exact absurd hf (by decide +kernel)

/-- After a refused neutral the last accepted command is FWD, an OFF request is rejected, no neutral
is queued or in flight, and `next` returns nothing. -/
theorem refused_neutral_off_noop :
    (reach defaultConfig refusedNeutralRun).connected = true ∧
      (lastAcked (trace defaultConfig refusedNeutralRun)).map (·.direction) = some .forward ∧
      ¬ ((reach defaultConfig refusedNeutralRun).request .off 2300).1.OffAssured ∧
      (((reach defaultConfig refusedNeutralRun).request .off 2300).1.next 2300).2 = none := by
  refine ⟨?_, ?_, ?_, ?_⟩ <;> decide +kernel

end BladeControl
end MowgliMavros
