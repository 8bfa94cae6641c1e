import MowgliMavros.MotorCounter

/-!
# The travel of published wheel ticks

The projector takes a counter with the labels of its reference for the counter of its reference. A
replacement drops counters and begins other ones under labels that were used before; `Watch` remembers for
each wheel whether the counter of its reference is dropped. Where no projection `Mistakes` another
counter for a dropped one, a count grows with the travel of one unbroken segment (`tick_travel`).
-/

namespace MowgliMavros
namespace Odometry
open ObservationEngine

/-! ### The projector -/

namespace WheelTickProjector
variable {p : WheelTickProjector} {source : WheelSource} {ticks : MotorTickState} {side : Side}

/-- The reference of a wheel. -/
def reference (p : WheelTickProjector) (side : Side) : Counter where
  epoch := p.epoch
  wheel :=
    { ticks := (p.wheels side).ticks, sampleNs := (p.wheels side).sampleNs
      valid := true, segment := (p.wheels side).segment }

def seen (ticks : MotorTickState) (side : Side) : Counter := ⟨ticks.epoch, ticks.wheels side⟩

/-- The ticks have the labels of the wheel's reference. -/
def Recognizes (p : WheelTickProjector) (source : WheelSource) (ticks : MotorTickState) (side : Side) : Prop :=
  ¬ Idle source ticks ∧ (ticks.wheels side).valid = true ∧ (p.wheels side).valid = true ∧ p.source = source ∧
    (p.reference side).SameLabels (seen ticks side)

instance (p : WheelTickProjector) (source : WheelSource) (ticks : MotorTickState) (side : Side) :
    Decidable (p.Recognizes source ticks side) := inferInstanceAs (Decidable (_ ∧ _))

/-- The wheel takes the ticks as its reference. -/
def Refers (p : WheelTickProjector) (source : WheelSource) (ticks : MotorTickState) (side : Side) : Prop :=
  ¬ Idle source ticks ∧ (ticks.wheels side).valid = true ∧
    (p.Recognizes source ticks side → (p.wheels side).sampleNs < (ticks.wheels side).sampleNs)

instance (p : WheelTickProjector) (source : WheelSource) (ticks : MotorTickState) (side : Side) :
    Decidable (p.Refers source ticks side) := inferInstanceAs (Decidable (_ ∧ _))

/-- A wheel whose labels are not those of the ticks has no reference to them. -/
theorem turn_unknown (hidle : ¬ Idle source ticks) (hvalid : (ticks.wheels side).valid = true)
    (h : ¬ p.Recognizes source ticks side) :
    ((p.turn source ticks.epoch).wheels side).Unknown (ticks.wheels side) := by
  unfold turn
  split
  · exact .inl rfl
  · rename_i hsame
    push Not at hsame
    by_contra hknown
    unfold ProjectedWheel.Unknown at hknown
    push Not at hknown
    exact h ⟨hidle, hvalid, by simpa using hknown.1, hsame.1, hsame.2.symm, hknown.2.symm⟩

theorem turn_same (hsource : p.source = source) (hepoch : p.epoch = ticks.epoch) : p.turn source ticks.epoch = p :=
  if_neg (by simp [hsource, hepoch])

theorem turn_count (p : WheelTickProjector) (source : WheelSource) (epoch : Nat) (side : Side) :
    ((p.turn source epoch).wheels side).count = (p.wheels side).count := by
  unfold turn
  split
  · rfl
  · rfl

theorem turn_labels (p : WheelTickProjector) (source : WheelSource) (epoch : Nat) :
    (p.turn source epoch).source = source ∧ (p.turn source epoch).epoch = epoch := by
  unfold turn
  split
  · exact ⟨rfl, rfl⟩
  · rename_i hsame
    push Not at hsame
    exact hsame

/-- A wheel that is not recognized is not counted. -/
theorem project_unrecognized (h : ¬ p.Recognizes source ticks side) :
    ((p.project source ticks).1.wheels side).count = (p.wheels side).count := by
  unfold project
  split
  · rfl
  · rename_i hidle
    dsimp only
    unfold ProjectedWheel.project
    split
    · exact turn_count p source ticks.epoch side
    · rename_i hvalid
      rw [if_pos (turn_unknown hidle (by simpa using hvalid) h)]
      exact turn_count p source ticks.epoch side

/-- A wheel that is recognized is projected from its reference. -/
theorem project_recognized (h : p.Recognizes source ticks side) :
    (p.project source ticks).1.wheels side =
      if (ticks.wheels side).sampleNs ≤ (p.wheels side).sampleNs then p.wheels side
      else
        let delta := (ticks.wheels side).ticks - (p.wheels side).ticks
        if |delta| * WheelTickProjection.countsPerMotorRevolution > 2 ^ 31 - 1 then
          { (p.wheels side).refer (ticks.wheels side) with valid := false }
        else ((p.wheels side).refer (ticks.wheels side)).advance delta := by
  obtain ⟨hidle, hvalid, hwheel, hsource, hepoch, hsegment⟩ := h
  have hknown : ¬ (p.wheels side).Unknown (ticks.wheels side) := by
    rintro (hinvalid | hother)
    · rw [hwheel] at hinvalid
      cases hinvalid
    · exact hother hsegment.symm
  unfold project
  rw [if_neg hidle, turn_same hsource hepoch.symm]
  dsimp only
  unfold ProjectedWheel.project
  rw [if_neg (by simp [hvalid]), if_neg hknown]
  split
  · rfl
  · dsimp only
    split
    · rfl
    · rfl

/-- A projection with a valid source sets the labels. -/
theorem project_labels (hidle : ¬ Idle source ticks) :
    (p.project source ticks).1.source = source ∧ (p.project source ticks).1.epoch = ticks.epoch := by
  unfold project
  rw [if_neg hidle]
  exact p.turn_labels source ticks.epoch

/-- A reference that is valid after a projection is the ticks that it takes, or the one before. -/
theorem project_reference (h : ((p.project source ticks).1.wheels side).valid = true) :
    p.Refers source ticks side ∧ (p.project source ticks).1.source = source ∧
        (p.project source ticks).1.reference side =
          ⟨ticks.epoch, { ticks.wheels side with receiptNs := 0, valid := true }⟩ ∨
      ¬ p.Refers source ticks side ∧ p.Recognizes source ticks side ∧
        (ticks.wheels side).sampleNs ≤ (p.wheels side).sampleNs ∧
        (p.project source ticks).1.source = p.source ∧ (p.project source ticks).1.epoch = p.epoch ∧
        (p.project source ticks).1.wheels side = p.wheels side := by
  have hidle : ¬ Idle source ticks := by
    intro hidle
    unfold project at h
    rw [if_pos hidle] at h
    cases h
  obtain ⟨hsource, hepoch⟩ := project_labels (p := p) hidle
  by_cases hrecognizes : p.Recognizes source ticks side
  · have hwheel := project_recognized hrecognizes
    have hvalid := hrecognizes.2.1
    have hlabels := hrecognizes.2.2.2
    by_cases hold : (ticks.wheels side).sampleNs ≤ (p.wheels side).sampleNs
    · rw [if_pos hold] at hwheel
      exact .inr ⟨fun hrefers => absurd (hrefers.2.2 hrecognizes) (not_lt.2 hold), hrecognizes, hold,
        hsource.trans hlabels.1.symm, hepoch.trans hlabels.2.1, hwheel⟩
    · rw [if_neg hold] at hwheel
      refine .inl ⟨⟨hidle, hvalid, fun _ => not_le.1 hold⟩, hsource, ?_⟩
      dsimp only at hwheel
      split at hwheel
      · rw [hwheel] at h
        cases h
      · unfold reference
        rw [hepoch, hwheel]
        rfl
  · have hvalid : (ticks.wheels side).valid = true := by
      by_contra hvalid
      unfold project at h
      rw [if_neg hidle] at h
      dsimp only at h
      unfold ProjectedWheel.project at h
      rw [if_pos (by simpa using hvalid)] at h
      cases h
    refine .inl ⟨⟨hidle, hvalid, fun hrec => absurd hrec hrecognizes⟩, hsource, ?_⟩
    unfold reference
    rw [hepoch]
    unfold project
    rw [if_neg hidle]
    dsimp only
    unfold ProjectedWheel.project
    rw [if_neg (by simp [hvalid]), if_pos (turn_unknown hidle hvalid hrecognizes)]
    rfl

end WheelTickProjector

/-! ### The plugin -/

/-- The callback publishes wheel ticks, at this clock reading. -/
def Callback.published : Callback → Option Int
  | .handleStatus _ publishNs | .handleRpm _ _ publishNs => some publishNs
  | _ => none

namespace EscWheelOdometryPlugin
variable {p : EscWheelOdometryPlugin} {c : Callback × Int} {source : WheelSource} {side : Side}

def counter (p : EscWheelOdometryPlugin) (source : WheelSource) (side : Side) : Counter :=
  p.engine.counter source side

/-- The callback begins other counters of the source. -/
def Drops (p : EscWheelOdometryPlugin) (source : WheelSource) : Callback → Prop
  | .parameterApply pending => ¬ p.engine.Retains pending.config (p.SameLegacyMapping pending) source
  | _ => False

instance (c : Callback) : Decidable (p.Drops source c) := by
  cases c <;> (unfold Drops; infer_instance)

/-- What the projection of the callback sees. -/
def sees (p : EscWheelOdometryPlugin) (c : Callback × Int) : WheelSource × MotorTickState :=
  match c.1.published with
  | some publishNs => (p.engaged c).tickSource publishNs
  | none => (.none, {})

/-- The projection takes a counter as the wheel's reference. -/
def Refers (p : EscWheelOdometryPlugin) (c : Callback × Int) (side : Side) : Prop :=
  p.wheelTickProjector.Refers (p.sees c).1 (p.sees c).2 side

instance (c : Callback × Int) (side : Side) : Decidable (p.Refers c side) :=
  inferInstanceAs (Decidable (p.wheelTickProjector.Refers _ _ _))

/-- The projection counts the ticks from the wheel's reference on. -/
def Continues (p : EscWheelOdometryPlugin) (c : Callback × Int) (side : Side) : Prop :=
  p.wheelTickProjector.Recognizes (p.sees c).1 (p.sees c).2 side ∧
    (p.wheelTickProjector.wheels side).sampleNs < ((p.sees c).2.wheels side).sampleNs ∧
    ((p.sees c).2.wheels side).ticks ≠ (p.wheelTickProjector.wheels side).ticks

instance (c : Callback × Int) (side : Side) : Decidable (p.Continues c side) := inferInstanceAs (Decidable (_ ∧ _))

theorem step_engine (p : EscWheelOdometryPlugin) (c : Callback × Int) :
    (p.step c).1.engine = (p.engaged c).engine := by
  obtain ⟨c, now⟩ := c
  cases c with
  | connectionCb connected => cases connected <;> rfl
  | _ => rfl

theorem engaged_leads (h : ¬ p.Drops source c.1) (side : Side) :
    (p.counter source side).Leads ((p.engaged c).counter source side) := by
  obtain ⟨c, now⟩ := c
  cases c with
  | parameterApply pending => exact replace_leads (not_not.1 h) side
  | _ => exact (p.engine.step_counts _ rfl).leads source side

theorem tickSource_ticks (p : EscWheelOdometryPlugin) (now : Int) :
    (p.tickSource now).1 = .none ∨ (p.tickSource now).2 = p.engine.motorTicks (p.tickSource now).1 now := by
  unfold tickSource
  dsimp only
  split
  · exact .inr rfl
  · split
    · split
      · exact .inr rfl
      · exact .inl rfl
    · exact .inl rfl

theorem restrict_restrict (w : WheelTicks) (a b : Bool) : (w.restrict a).restrict b = w.restrict (a && b) := by
  unfold WheelTicks.restrict
  dsimp only
  rw [Bool.and_assoc]

/-- The ticks of a source are its counters, not all of them valid. -/
theorem motorTicks_seen (e : ObservationEngine) (now : Int) (side : Side)
    (h : source = .escStatus ∨ source = .ardupilotLegacy) :
    (e.motorTicks source now).epoch = (e.counter source side).epoch ∧
      ∃ valid, (e.motorTicks source now).wheels side = (e.counter source side).wheel.restrict valid := by
  rcases h with rfl | rfl
  · exact ⟨rfl, _, restrict_restrict _ _ _⟩
  · exact ⟨rfl, _, rfl⟩

/-- A projection sees the counters of its source. -/
theorem sees_counter (p : EscWheelOdometryPlugin) (c : Callback × Int) (side : Side)
    (h : ¬ WheelTickProjector.Idle (p.sees c).1 (p.sees c).2) :
    (p.sees c).2.epoch = ((p.engaged c).counter (p.sees c).1 side).epoch ∧
      ∃ valid, (p.sees c).2.wheels side = ((p.engaged c).counter (p.sees c).1 side).wheel.restrict valid := by
  unfold sees at h ⊢
  split at h
  · rename_i publishNs _
    unfold WheelTickProjector.Idle at h
    push Not at h
    have hsource : ((p.engaged c).tickSource publishNs).1 = .escStatus ∨
        ((p.engaged c).tickSource publishNs).1 = .ardupilotLegacy := or_iff_not_imp_left.2 h.1
    rcases (p.engaged c).tickSource_ticks publishNs with hnone | hticks
    · rw [hnone] at hsource
      simp at hsource
    · rw [hticks]
      exact motorTicks_seen (p.engaged c).engine publishNs side hsource
  · exact absurd (.inl ⟨nofun, nofun⟩) h

theorem step_counter (p : EscWheelOdometryPlugin) (c : Callback × Int) (source : WheelSource) (side : Side) :
    (p.step c).1.counter source side = (p.engaged c).counter source side := by
  unfold counter
  rw [step_engine]

theorem step_publishes {t : Int} (h : c.1.published = some t) :
    (p.step c).1.wheelTickProjector = (p.wheelTickProjector.project (p.sees c).1 (p.sees c).2).1 := by
  obtain ⟨c, now⟩ := c
  cases c with
  | handleStatus packet publishNs => rfl
  | handleRpm rpm1 rpm2 publishNs => rfl
  | _ => cases h

theorem step_quiet (h : c.1.published = none) : (p.step c).1.wheelTickProjector = p.wheelTickProjector ∨
    (p.step c).1.wheelTickProjector = p.wheelTickProjector.invalidate := by
  obtain ⟨c, now⟩ := c
  cases c with
  | handleStatus packet publishNs => cases h
  | handleRpm rpm1 rpm2 publishNs => cases h
  | connectionCb connected =>
    cases connected with
    | true => exact .inl rfl
    | false => exact .inr rfl
  | _ => exact .inl rfl

theorem not_refers_of_quiet (h : c.1.published = none) : ¬ p.Refers c side := by
  unfold Refers sees
  rw [h]
  intro hrefers
  exact hrefers.1 (.inl ⟨nofun, nofun⟩)

theorem not_drops_of_published {t : Int} (h : c.1.published = some t) : ¬ p.Drops source c.1 := by
  obtain ⟨c, now⟩ := c
  cases c with
  | parameterApply pending => cases h
  | _ => exact id

end EscWheelOdometryPlugin

/-! ### The watch -/

structure Watch where
  plugin : EscWheelOdometryPlugin
  dropped : Side → Bool := fun _ => false

def watch : Machine Watch (Callback × Int) WheelTick where
  step w c :=
    ({ plugin := (w.plugin.step c).1
       dropped := fun side => if w.plugin.Refers c side then false
         else w.dropped side || w.plugin.Drops w.plugin.wheelTickProjector.source c.1 },
      (w.plugin.step c).2)

namespace Watch
open EscWheelOdometryPlugin
variable {w w' : Watch} {c : Callback × Int} {side : Side} {calls : List (Callback × Int)}

def projector (w : Watch) : WheelTickProjector := w.plugin.wheelTickProjector

/-- The counter that the wheel's reference is compared with. -/
def counter (w : Watch) (side : Side) : Counter := w.plugin.counter w.projector.source side

/-- The counter leads on from the reference. -/
def Anchored (w : Watch) (side : Side) : Prop :=
  (w.projector.wheels side).valid = true → w.dropped side = false →
    (w.projector.reference side).Leads (w.counter side)

theorem dropped_of_quiet (h : c.1.published = none) (hdropped : (watch.step w c).1.dropped side = false) :
    w.dropped side = false ∧ ¬ w.plugin.Drops w.projector.source c.1 := by
  have hdropped : (if w.plugin.Refers c side then false
      else w.dropped side || w.plugin.Drops w.plugin.wheelTickProjector.source c.1) = false := hdropped
  rw [if_neg (not_refers_of_quiet h), Bool.or_eq_false_iff, decide_eq_false_iff_not] at hdropped
  exact hdropped

theorem dropped_of_published {t : Int} (h : c.1.published = some t) (hrefers : ¬ w.plugin.Refers c side) :
    (watch.step w c).1.dropped side = w.dropped side := by
  change (if w.plugin.Refers c side then false
      else w.dropped side || w.plugin.Drops w.plugin.wheelTickProjector.source c.1) = _
  rw [if_neg hrefers, decide_eq_false (not_drops_of_published h), Bool.or_false]

theorem step_projector {t : Int} (h : c.1.published = some t) :
    (watch.step w c).1.projector = (w.projector.project (w.plugin.sees c).1 (w.plugin.sees c).2).1 := step_publishes h

theorem step_counter (w : Watch) (c : Callback × Int) (side : Side) : (watch.step w c).1.counter side =
    (w.plugin.engaged c).counter (watch.step w c).1.projector.source side :=
  w.plugin.step_counter c _ side

/-- After a projection the wheel's reference is the last sample of its counter, or it is the one before. -/
theorem reference_cases {t : Int} (h : c.1.published = some t) {a : Counter} {b : Counter}
    (ha : a = (watch.step w c).1.projector.reference side) (hb : b = (watch.step w c).1.counter side)
    (hvalid : ((watch.step w c).1.projector.wheels side).valid = true) :
    a.SameLabels b ∧ (b.wheel.sampleNs = a.wheel.sampleNs ∧ b.wheel.ticks = a.wheel.ticks ∨
      ¬ w.plugin.Refers c side ∧ (watch.step w c).1.projector.source = w.projector.source ∧
        (w.projector.wheels side).valid = true ∧ a = w.projector.reference side ∧
        b.wheel.valid = true ∧ b.wheel.sampleNs ≤ a.wheel.sampleNs) := by
  rw [step_counter] at hb
  rw [step_projector h] at ha hb hvalid ⊢
  have hseen := w.plugin.sees_counter c side
  rcases WheelTickProjector.project_reference hvalid with
    ⟨hrefers, hsource, hreference⟩ | ⟨hrefers, hrecognizes, hold, hsource, hepoch, hwheel⟩
  · obtain ⟨hticks, valid, hwheel⟩ := hseen hrefers.1
    rw [hsource] at hb
    rw [hreference, hticks, hwheel] at ha
    subst ha hb
    exact ⟨⟨rfl, rfl⟩, .inl ⟨rfl, rfl⟩⟩
  · obtain ⟨hidle, hlive, hset, hsame, hlabels⟩ := hrecognizes
    obtain ⟨hticks, valid, hseen⟩ := hseen hidle
    have hreference : a = w.projector.reference side := by
      rw [ha]
      unfold WheelTickProjector.reference
      rw [hepoch, hwheel]
    rw [hsource, show w.projector.source = (w.plugin.sees c).1 from hsame] at hb
    have hsample : b.wheel.sampleNs = ((w.plugin.sees c).2.wheels side).sampleNs := by rw [hseen, hb]; rfl
    have hbvalid : b.wheel.valid = true := by
      rw [hseen] at hlive
      rw [hb]
      exact (Bool.and_eq_true_iff.1 hlive).1
    refine ⟨?_, .inr ⟨hrefers, hsource, hset, hreference, hbvalid, ?_⟩⟩
    · unfold WheelTickProjector.seen at hlabels
      rw [hticks, hseen] at hlabels
      rw [hreference, hb]
      exact hlabels
    · rw [hsample, hreference]
      exact hold

/-- The counter of a wheel goes on from its reference, unless it is dropped. -/
theorem anchored_step (h : w.Anchored side) (c : Callback × Int) : (watch.step w c).1.Anchored side := by
  intro hvalid hdropped
  cases hpublished : c.1.published with
  | none =>
    obtain ⟨hkept, hdrops⟩ := dropped_of_quiet hpublished hdropped
    rcases w.plugin.step_quiet hpublished with hsame | hinvalid
    · have hprojector : (watch.step w c).1.projector = w.projector := hsame
      rw [hprojector] at hvalid ⊢
      rw [step_counter, hprojector]
      exact (h hvalid hkept).trans (engaged_leads hdrops side)
    · have hprojector : (watch.step w c).1.projector = w.projector.invalidate := hinvalid
      rw [hprojector] at hvalid
      cases hvalid
  | some t =>
    obtain ⟨hlabels, ⟨hsample, hticks⟩ | ⟨hrefers, hsource, hset, hreference, _⟩⟩ :=
      reference_cases hpublished rfl rfl hvalid
    · exact .of_sample hlabels rfl hsample hticks
    · rw [dropped_of_published hpublished hrefers] at hdropped
      rw [hreference, step_counter, hsource]
      exact (h hset hdropped).trans (engaged_leads (not_drops_of_published hpublished) side)

/-- The reference of a wheel that is not dropped is the last sample of its counter. -/
def Settled (w : Watch) (side : Side) : Prop :=
  (w.projector.wheels side).valid = true → w.dropped side = false →
    (w.projector.reference side).SameLabels (w.counter side) ∧
      (w.counter side).wheel.ticks = (w.projector.wheels side).ticks

theorem settled_step {t : Int} (h : w.Anchored side) (hpublished : c.1.published = some t) :
    (watch.step w c).1.Settled side := by
  intro hvalid hdropped
  have hleads := anchored_step h c hvalid hdropped
  obtain ⟨hlabels, ⟨_, hticks⟩ | ⟨_, _, _, _, hlive, hold⟩⟩ := reference_cases hpublished rfl rfl hvalid
  · exact ⟨hlabels, hticks⟩
  · exact ⟨hlabels, hleads.ticks hlabels hlive (le_antisymm hold (hleads.sample hlabels hlive))⟩

end Watch
/-! ### The travel -/

namespace EscWheelOdometryPlugin
variable {p : EscWheelOdometryPlugin} {source : WheelSource} {side : Side} {calls : List (Callback × Int)}

/-- The callback leaves the source its counter, in the same segment. -/
def Unbroken (source : WheelSource) (side : Side) (p : EscWheelOdometryPlugin) (c : Callback × Int) : Prop :=
  ¬ p.Drops source c.1 ∧ (p.counter source side).SameLabels ((p.step c).1.counter source side)

instance (c : Callback × Int) : Decidable (p.Unbroken source side c) := inferInstanceAs (Decidable (_ ∧ _))

/-- The revolutions that the integrator of the source adds within a segment. -/
def gain (source : WheelSource) (side : Side) (p : EscWheelOdometryPlugin) (c : Callback × Int) : Rat :=
  if p.Unbroken source side c then
    |((p.step c).1.counter source side).wheel.ticks - (p.counter source side).wheel.ticks|
  else 0

def travel (source : WheelSource) (side : Side) : EscWheelOdometryPlugin → List (Callback × Int) → Rat
  | _, [] => 0
  | p, c :: calls => p.gain source side c + travel source side (p.step c).1 calls

/-- How far the count of a wheel is ahead of another one. -/
def counted (p q : EscWheelOdometryPlugin) (side : Side) : Nat :=
  ((q.wheelTickProjector.wheels side).count - (p.wheelTickProjector.wheels side).count).toNat

/-- The count after the calls is the one before with the travel of an unbroken segment. -/
structure Earned (p : EscWheelOdometryPlugin) (calls : List (Callback × Int)) (side : Side) : Prop where
  unbroken : p.counted (ticker.final p calls) side ≠ 0 →
    ticker.Along (Unbroken (ticker.final p calls).wheelTickProjector.source side) p calls
  bounded : (p.counted (ticker.final p calls) side : Rat) ≤
    1000 * travel (ticker.final p calls).wheelTickProjector.source side p calls +
      (p.wheelTickProjector.wheels side).fractionalCount.1

theorem gain_nonneg (c : Callback × Int) : 0 ≤ p.gain source side c := by
  unfold gain
  split
  · exact abs_nonneg _
  · exact le_rfl

theorem travel_nonneg (calls : List (Callback × Int)) : 0 ≤ travel source side p calls := by
  induction calls generalizing p with
  | nil => exact le_rfl
  | cons c calls ih => exact add_nonneg (gain_nonneg c) ih

theorem step_leads {c : Callback × Int} (h : ¬ p.Drops source c.1) (side : Side) :
    (p.counter source side).Leads ((p.step c).1.counter source side) := by
  rw [step_counter]
  exact engaged_leads h side

theorem final_leads (side : Side) (halong : ticker.Along (fun p c => ¬ p.Drops source c.1) p calls) :
    (p.counter source side).Leads ((ticker.final p calls).counter source side) := by
  induction calls generalizing p with
  | nil => exact .refl _
  | cons c calls ih => exact (step_leads halong.1 side).trans (ih halong.2)

/-- A counter that is not dropped and ends in the segment where it began has travelled in it. -/
theorem unbroken_travel (halong : ticker.Along (fun p c => ¬ p.Drops source c.1) p calls)
    (hsame : (p.counter source side).SameLabels ((ticker.final p calls).counter source side)) :
    ticker.Along (Unbroken source side) p calls ∧
      |((ticker.final p calls).counter source side).wheel.ticks - (p.counter source side).wheel.ticks| ≤
        travel source side p calls := by
  induction calls generalizing p with
  | nil => exact ⟨trivial, by simp [travel]⟩
  | cons c calls ih =>
    obtain ⟨hkept, hrest⟩ := halong
    obtain ⟨hstep, hlater⟩ := (step_leads hkept side).between (final_leads side hrest) hsame
    obtain ⟨hunbroken, hbound⟩ := ih hrest hlater
    refine ⟨⟨⟨hkept, hstep⟩, hunbroken⟩, ?_⟩
    have hgain : p.gain source side c =
        |((p.step c).1.counter source side).wheel.ticks - (p.counter source side).wheel.ticks| :=
      if_pos ⟨hkept, hstep⟩
    rw [travel, hgain, add_comm]
    exact (abs_sub_le _ ((p.step c).1.counter source side).wheel.ticks _).trans (by gcongr; exact hbound)

/-- The counts of a wheel that the projection advances are within the travel. -/
theorem advance_counted (w : ProjectedWheel) (delta : Rat) :
    (((w.advance delta).count - w.count).toNat : Rat) ≤ 1000 * |delta| + w.fractionalCount.1 := by
  have hfraction := w.fractionalCount.2.1
  have htotal : w.total delta ≤ 1000 * |delta| + w.fractionalCount.1 := by
    unfold ProjectedWheel.total WheelTickProjection.countsPerMotorRevolution
    split
    · linarith
    · linarith
  have hnonneg : 0 ≤ w.total delta := by
    unfold ProjectedWheel.total WheelTickProjection.countsPerMotorRevolution
    split
    · positivity
    · positivity
  have hcount : (w.advance delta).count - w.count = UInt32.ofNat ⌊w.total delta⌋₊ := by
    change w.count + UInt32.ofNat ⌊w.total delta⌋₊ - w.count = _
    rw [UInt32.add_comm, UInt32.add_sub_cancel]
  have hwhole : (UInt32.ofNat ⌊w.total delta⌋₊).toNat ≤ ⌊w.total delta⌋₊ := by
    rw [UInt32.toNat_ofNat']
    exact Nat.mod_le _ _
  rw [hcount]
  calc ((UInt32.ofNat ⌊w.total delta⌋₊).toNat : Rat)
    _ ≤ (⌊w.total delta⌋₊ : Rat) := by exact_mod_cast hwhole
    _ ≤ w.total delta := Nat.floor_le hnonneg
    _ ≤ 1000 * |delta| + w.fractionalCount.1 := htotal

/-- A projection counts a wheel from its reference on, or leaves its count. -/
theorem project_counted (p : WheelTickProjector) (source : WheelSource) (ticks : MotorTickState) (side : Side) :
    ((p.project source ticks).1.wheels side).count = (p.wheels side).count ∨
      p.Recognizes source ticks side ∧ (p.wheels side).sampleNs < (ticks.wheels side).sampleNs ∧
        ((p.project source ticks).1.wheels side).count =
          ((p.wheels side).advance ((ticks.wheels side).ticks - (p.wheels side).ticks)).count := by
  by_cases h : p.Recognizes source ticks side
  · rw [WheelTickProjector.project_recognized h]
    dsimp only
    split
    · exact .inl rfl
    · rename_i hnew
      split
      · exact .inl rfl
      · exact .inr ⟨h, not_le.1 hnew, rfl⟩
  · exact .inl (WheelTickProjector.project_unrecognized h)

end EscWheelOdometryPlugin

namespace Watch
open EscWheelOdometryPlugin
variable {w : Watch} {c x : Callback × Int} {side : Side} {calls mid : List (Callback × Int)} {t : Int}

/-- No wheel counts from a reference whose counter is dropped. -/
def Sound (w : Watch) (c : Callback × Int) : Prop := ∀ side, w.dropped side = true → ¬ w.plugin.Continues c side

instance (c : Callback × Int) : Decidable (w.Sound c) :=
  decidable_of_iff ((w.dropped .left = true → ¬ w.plugin.Continues c .left) ∧
      (w.dropped .right = true → ¬ w.plugin.Continues c .right))
    ⟨fun h side => by cases side with | left => exact h.1 | right => exact h.2, fun h => ⟨h .left, h .right⟩⟩

theorem final_plugin (w : Watch) (calls : List (Callback × Int)) :
    (watch.final w calls).plugin = ticker.final w.plugin calls := by
  induction calls generalizing w with
  | nil => rfl
  | cons c calls ih => exact ih (watch.step w c).1

/-- Between projections a reference stays, or it is not valid any more. -/
theorem quiet_run (w : Watch) (side : Side) (hquiet : ∀ c ∈ calls, c.1.published = none) :
    (watch.final w calls).projector.source = w.projector.source ∧
      ((watch.final w calls).projector.wheels side).count = (w.projector.wheels side).count ∧
      (((watch.final w calls).projector.wheels side).valid = true →
        (watch.final w calls).projector.wheels side = w.projector.wheels side ∧
          (watch.final w calls).projector.epoch = w.projector.epoch) ∧
      ((watch.final w calls).dropped side = false →
        w.dropped side = false ∧ ticker.Along (fun p c => ¬ p.Drops w.projector.source c.1) w.plugin calls) := by
  induction calls generalizing w with
  | nil => exact ⟨rfl, rfl, fun _ => ⟨rfl, rfl⟩, fun h => ⟨h, trivial⟩⟩
  | cons c calls ih =>
    have hc := hquiet c (by simp)
    obtain ⟨hsource, hcount, hwheel, hdropped⟩ := ih (watch.step w c).1 fun a ha => hquiet a (by simp [ha])
    have hstep : (watch.step w c).1.projector.source = w.projector.source ∧
        ((watch.step w c).1.projector.wheels side).count = (w.projector.wheels side).count ∧
        (((watch.step w c).1.projector.wheels side).valid = true → (watch.step w c).1.projector = w.projector) := by
      rcases w.plugin.step_quiet hc with hsame | hinvalid
      · have hsame : (watch.step w c).1.projector = w.projector := hsame
        rw [hsame]
        exact ⟨rfl, rfl, fun _ => rfl⟩
      · have hinvalid : (watch.step w c).1.projector = w.projector.invalidate := hinvalid
        rw [hinvalid]
        exact ⟨rfl, rfl, nofun⟩
    refine ⟨hsource.trans hstep.1, hcount.trans hstep.2.1, fun hvalid => ?_, fun hkept => ?_⟩
    · obtain ⟨hlater, hepoch⟩ := hwheel hvalid
      have hsame := hstep.2.2 (hlater ▸ hvalid)
      rw [hsame] at hlater hepoch
      exact ⟨hlater, hepoch⟩
    · obtain ⟨hfirst, halong⟩ := hdropped hkept
      rw [hstep.1] at halong
      exact ⟨(dropped_of_quiet hc hfirst).1, (dropped_of_quiet hc hfirst).2, halong⟩

/-- What a projection counts from a reference that is not dropped has been travelled since the last one. -/
theorem continues_earned {t : Int} (h : w.Settled side) (hquiet : ∀ y ∈ mid, y.1.published = none)
    (hc : c.1.published = some t) {w' : Watch} (hw' : watch.final w mid = w')
    (hrecognizes : w'.projector.Recognizes (w'.plugin.sees c).1 (w'.plugin.sees c).2 side)
    (hkept : w'.dropped side = false) :
    let q := ticker.final w.plugin (mid ++ [c])
    ticker.Along (Unbroken q.wheelTickProjector.source side) w.plugin (mid ++ [c]) ∧
      |((w'.plugin.sees c).2.wheels side).ticks - (w'.projector.wheels side).ticks| ≤
        EscWheelOdometryPlugin.travel q.wheelTickProjector.source side w.plugin (mid ++ [c]) := by
  obtain ⟨hsource, _, hwheel, hdropped⟩ := w.quiet_run side hquiet
  have hplugin : w'.plugin = ticker.final w.plugin mid := hw' ▸ w.final_plugin mid
  rw [hw'] at hsource hwheel hdropped
  obtain ⟨hidle, _, hvalid, hsame, hlabels⟩ := hrecognizes
  obtain ⟨hwheel, hepoch⟩ := hwheel hvalid
  obtain ⟨hfirst, halong⟩ := hdropped hkept
  obtain ⟨hsettled, hticks⟩ := h (hwheel ▸ hvalid) hfirst
  obtain ⟨hseenEpoch, _, hseen⟩ := w'.plugin.sees_counter c side hidle
  intro q
  have hq : q = (w'.plugin.step c).1 := by
    rw [hplugin]
    exact Machine.final_append mid [c]
  have hlast : q.wheelTickProjector.source = w.projector.source := by
    rw [hq, step_publishes hc, (WheelTickProjector.project_labels hidle).1, ← hsource]
    exact hsame.symm
  have hcounter : q.counter w.projector.source side = (w'.plugin.engaged c).counter (w'.plugin.sees c).1 side := by
    have hsame : w'.projector.source = (w'.plugin.sees c).1 := hsame
    rw [hq, EscWheelOdometryPlugin.step_counter, ← hsource, hsame]
  have hall : ticker.Along (fun p c => ¬ p.Drops w.projector.source c.1) w.plugin (mid ++ [c]) :=
    (Machine.along_append mid [c]).2 ⟨halong, not_drops_of_published hc, trivial⟩
  have hends : (w.plugin.counter w.projector.source side).SameLabels (q.counter w.projector.source side) := by
    have hreference : w'.projector.reference side = w.projector.reference side := by
      unfold WheelTickProjector.reference
      rw [hwheel, hepoch]
    have hsees : (WheelTickProjector.seen (w'.plugin.sees c).2 side).SameLabels
        (q.counter w.projector.source side) := by
      rw [hcounter]
      exact ⟨hseenEpoch.symm, by rw [WheelTickProjector.seen, hseen]; rfl⟩
    exact hsettled.symm.trans ((hreference ▸ hlabels).trans hsees)
  obtain ⟨hunbroken, hbound⟩ := unbroken_travel hall hends
  rw [hlast]
  refine ⟨hunbroken, ?_⟩
  have hlater : ((w'.plugin.sees c).2.wheels side).ticks = (q.counter w.projector.source side).wheel.ticks := by
    rw [hseen, hcounter]
    rfl
  rw [hlater, hwheel, ← hticks]
  exact hbound

/-- From one projection to the next, the counts of a wheel are earned. -/
theorem earned {t : Int} (h : w.Settled side) (hquiet : ∀ y ∈ mid, y.1.published = none)
    (hc : c.1.published = some t) (hsound : (watch.final w mid).Sound c) : w.plugin.Earned (mid ++ [c]) side := by
  obtain ⟨_, hcount, hwheel, _⟩ := w.quiet_run side hquiet
  have hplugin := w.final_plugin mid
  generalize hw' : watch.final w mid = w' at hsound hcount hwheel hplugin
  have hfinal : ticker.final w.plugin (mid ++ [c]) = (w'.plugin.step c).1 := by
    rw [Machine.final_append, ← hplugin]
    rfl
  have hcounted : w.plugin.counted (ticker.final w.plugin (mid ++ [c])) side =
      (((w'.projector.project (w'.plugin.sees c).1 (w'.plugin.sees c).2).1.wheels side).count -
        (w'.projector.wheels side).count).toNat := by
    unfold counted
    rw [hfinal, step_publishes hc, hcount]
    rfl
  have hnothing (hzero : w.plugin.counted (ticker.final w.plugin (mid ++ [c])) side = 0) :
      w.plugin.Earned (mid ++ [c]) side := by
    refine ⟨fun hne => absurd hzero hne, ?_⟩
    rw [hzero, Nat.cast_zero]
    exact add_nonneg (mul_nonneg (by norm_num) (travel_nonneg _)) (w.projector.wheels side).fractionalCount.2.1
  rcases project_counted w'.projector (w'.plugin.sees c).1 (w'.plugin.sees c).2 side with
    hsame | ⟨hrecognizes, hnew, hadvance⟩
  · refine hnothing ?_
    rw [hcounted, hsame, UInt32.sub_self]
    rfl
  · obtain ⟨hwheel, _⟩ := hwheel hrecognizes.2.2.1
    have hbound := advance_counted (w'.projector.wheels side)
      (((w'.plugin.sees c).2.wheels side).ticks - (w'.projector.wheels side).ticks)
    rw [← hadvance, ← hcounted, hwheel] at hbound
    by_cases hstill : ((w'.plugin.sees c).2.wheels side).ticks = (w'.projector.wheels side).ticks
    · refine hnothing (Nat.lt_one_iff.1 (Nat.cast_lt.1 (hbound.trans_lt ?_)))
      rw [hstill, hwheel, sub_self, abs_zero, mul_zero, zero_add, Nat.cast_one]
      exact (w.projector.wheels side).fractionalCount.2.2
    · have hkept : w'.dropped side = false := by
        by_contra hdropped
        exact hsound side (by simpa using hdropped) ⟨hrecognizes, hnew, hstill⟩
      obtain ⟨hunbroken, htravel⟩ := continues_earned h hquiet hc hw' hrecognizes hkept
      rw [hwheel] at htravel
      refine ⟨fun _ => hunbroken, hbound.trans ?_⟩
      exact add_le_add_left (mul_le_mul_of_nonneg_left htravel (by norm_num)) _

end Watch

namespace EscWheelOdometryPlugin
variable {p : EscWheelOdometryPlugin} {c : Callback × Int} {side : Side}

/-- A callback that does not publish adds no count. -/
theorem quiet_count (h : c.1.published = none) (side : Side) :
    ((p.step c).1.wheelTickProjector.wheels side).count = (p.wheelTickProjector.wheels side).count := by
  rcases p.step_quiet h with hsame | hinvalid
  · rw [hsame]
  · rw [hinvalid]
    rfl

/-- A published message has the counts of the projector. -/
theorem published_ticks {message : WheelTick} (h : message ∈ (p.step c).2) (side : Side) :
    message.ticks side = ((p.step c).1.wheelTickProjector.wheels side).count := by
  have hproject (q : EscWheelOdometryPlugin) (now : Int) (hq : message ∈ (q.publishWheelTicks now).2) :
      message.ticks side = ((q.publishWheelTicks now).1.wheelTickProjector.wheels side).count := by
    unfold publishWheelTicks at hq ⊢
    dsimp only at hq ⊢
    rw [Option.mem_toList, Option.map_eq_some_iff] at hq
    obtain ⟨projected, hprojected, rfl⟩ := hq
    unfold WheelTickProjector.project at hprojected ⊢
    split at hprojected
    · cases hprojected
    · rename_i hidle
      rw [if_neg hidle]
      dsimp only at hprojected ⊢
      split at hprojected
      · cases hprojected
      · obtain rfl := Option.some.inj hprojected
        rfl
  obtain ⟨c, now⟩ := c
  cases c with
  | handleStatus packet publishNs => exact hproject _ _ h
  | handleRpm rpm1 rpm2 publishNs => exact hproject _ _ h
  | _ => cases h

end EscWheelOdometryPlugin

/-- Published wheel ticks do not invent travel, where no wheel counts from a reference whose counter is
dropped. -/
theorem tick_travel (pending : Pending) (connected : Bool) (run : List (Callback × Int))
    (hsound : watch.Along Watch.Sound { plugin := .new pending connected } run) :
    (∀ pre x mid c post, run = pre ++ x :: (mid ++ c :: post) → x.1.published ≠ none →
      (∀ y ∈ mid, y.1.published = none) → c.1.published ≠ none →
      let p := ticker.final (.new pending connected) (pre ++ [x])
      (∀ side, p.Earned (mid ++ [c]) side) ∧
        ∀ message ∈ (ticker.step (ticker.final p mid) c).2, ∀ side,
          message.ticks side = ((ticker.final p (mid ++ [c])).wheelTickProjector.wheels side).count) ∧
    ∀ pre c post, run = pre ++ c :: post → c.1.published = none → ∀ side,
      ((ticker.final (.new pending connected) (pre ++ [c])).wheelTickProjector.wheels side).count =
        ((ticker.final (.new pending connected) pre).wheelTickProjector.wheels side).count := by
  constructor
  · rintro pre x mid c post rfl hx hquiet hc
    obtain ⟨t, hx⟩ := Option.ne_none_iff_exists'.1 hx
    obtain ⟨t', hc⟩ := Option.ne_none_iff_exists'.1 hc
    obtain ⟨hpre, _, hrest⟩ := (Machine.along_append pre (x :: (mid ++ c :: post))).1 hsound
    have hsound := ((Machine.along_append mid (c :: post)).1 hrest).2.1
    intro p
    have hanchored (side : Side) : (watch.final { plugin := .new pending connected } pre).Anchored side :=
      Machine.inv_final (I := fun w => w.Anchored side) (fun w c h _ => Watch.anchored_step h c) nofun hpre
    have hp : p = (watch.step (watch.final { plugin := .new pending connected } pre) x).1.plugin := by
      change ticker.final _ (pre ++ [x]) = (ticker.step (watch.final _ pre).plugin x).1
      rw [Watch.final_plugin, Machine.final_append]
      rfl
    constructor
    · intro side
      rw [hp]
      exact Watch.earned (Watch.settled_step (hanchored side) hx) hquiet hc hsound
    · intro message hmessage side
      rw [Machine.final_append]
      exact EscWheelOdometryPlugin.published_ticks hmessage side
  · rintro pre c post rfl hc side
    rw [Machine.final_append]
    exact EscWheelOdometryPlugin.quiet_count hc side

/-- The wheels of `bothWheels` on the next two slots. -/
def nextSlots : ValidConfig :=
  ⟨{ bothWheels.1 with geometry := { bothWheels.1.geometry with leftEscSlot := 2, rightEscSlot := 3 } },
    by decide +kernel⟩

def motorsOn (config : ValidConfig) (h : config.1.legacyEnabled = false) : Pending :=
  { config := config, offset := 1, legacy := h }

/-- Both motors turn once a second. -/
def motorStatus (seconds : Nat) : Callback × Int :=
  (.handleStatus { timeUs := seconds * 1000000, rpm := fun _ => 60 } (seconds * 1000000000), seconds * 1000000000)

/-- The motors move to other slots after a second of travel. -/
def movedRun : List (Callback × Int) :=
  [motorStatus 1, motorStatus 2, (.parameterApply (motorsOn nextSlots rfl), 2000000000), motorStatus 3]

theorem tick_travel_moved :
    let p := ticker.final (.new (motorsOn bothWheels rfl) true) (movedRun.take 2)
    (∀ side, p.Earned (movedRun.drop 2) side) ∧
      ∀ message ∈ (ticker.step (ticker.final p (movedRun.drop 2).dropLast) (motorStatus 3)).2, ∀ side,
        message.ticks side = ((ticker.final p (movedRun.drop 2)).wheelTickProjector.wheels side).count :=
  (tick_travel (motorsOn bothWheels rfl) true movedRun (by decide +kernel)).1 [motorStatus 1] (motorStatus 2)
    [(.parameterApply (motorsOn nextSlots rfl), 2000000000)] (motorStatus 3) [] rfl nofun
    (by simp [Callback.published]) nofun

/-- The motors move to other slots, and back after a second of travel. -/
def movedBackRun : List (Callback × Int) :=
  (.parameterApply (motorsOn nextSlots rfl), 0) :: motorStatus 1 :: motorStatus 2 ::
    (.parameterApply (motorsOn bothWheels rfl), 2000000000) :: [motorStatus 3]

/-- The counter that begins after two updates is taken for the one before: its first sample, without any
travel, is counted as the travel of the other one. -/
theorem dropped_mistaken :
    movedBackRun.Pairwise (fun a b => a.2 ≤ b.2) ∧
      let p := ticker.final (.new (motorsOn bothWheels rfl) true) (movedBackRun.take 3)
      p.counted (ticker.final p (movedBackRun.drop 3)) .left = 1000 ∧
        EscWheelOdometryPlugin.travel .escStatus .left p (movedBackRun.drop 3) = 0 ∧
        (p.wheelTickProjector.wheels .left).fractionalCount.1 = 0 ∧ ¬ p.Earned (movedBackRun.drop 3) .left := by
  refine ⟨by decide, by decide +kernel, by decide +kernel, by decide +kernel, fun h => ?_⟩
  exact absurd h.bounded (by decide +kernel)

end Odometry
end MowgliMavros
