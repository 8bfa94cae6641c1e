import MowgliMavros.EscWheelOdometry
import MowgliMavros.ObservationSpec

/-!
# Counters of motor revolutions

A `Counter` is what a projector sees of one motor: the epoch, the segment and the last sample.
`Leads` is how a counter goes on: a later epoch, a later segment, or a later sample of the same segment.
Every call but a replacement leads every counter of the engine on (`step_counts`), and a replacement does
if it `Retains` the counts (`replace_leads`).
-/

namespace MowgliMavros
namespace Odometry

structure Counter where
  epoch : Nat
  wheel : WheelTicks

namespace Counter

/-- The labels that the projector compares. -/
def SameLabels (a b : Counter) : Prop := b.epoch = a.epoch ∧ b.wheel.segment = a.wheel.segment

instance (a b : Counter) : Decidable (a.SameLabels b) := inferInstanceAs (Decidable (_ ∧ _))

theorem SameLabels.symm {a b : Counter} (h : a.SameLabels b) : b.SameLabels a := ⟨h.1.symm, h.2.symm⟩

theorem SameLabels.trans {a b c : Counter} (hab : a.SameLabels b) (hbc : b.SameLabels c) : a.SameLabels c :=
  ⟨hbc.1.trans hab.1, hbc.2.trans hab.2⟩

/-- `b` is the counter `a`, later. -/
structure Leads (a b : Counter) : Prop where
  epoch : a.epoch ≤ b.epoch
  segment : b.epoch = a.epoch → a.wheel.segment ≤ b.wheel.segment
  valid : a.SameLabels b → b.wheel.valid = true → a.wheel.valid = true
  sample : a.SameLabels b → b.wheel.valid = true → a.wheel.sampleNs ≤ b.wheel.sampleNs
  ticks :
    a.SameLabels b → b.wheel.valid = true → b.wheel.sampleNs = a.wheel.sampleNs → b.wheel.ticks = a.wheel.ticks

namespace Leads
variable {a b c : Counter}

theorem refl (a : Counter) : a.Leads a :=
  ⟨le_rfl, fun _ => le_rfl, fun _ => id, fun _ _ => le_rfl, fun _ _ _ => rfl⟩

/-- Where the labels of the ends are the same, those between are too. -/
theorem between (hab : a.Leads b) (hbc : b.Leads c) (h : a.SameLabels c) : a.SameLabels b ∧ b.SameLabels c := by
  obtain ⟨hepoch, hsegment⟩ := h
  have hb : b.epoch = a.epoch := le_antisymm (hepoch ▸ hbc.epoch) hab.epoch
  have hc : c.epoch = b.epoch := hepoch.trans hb.symm
  have hs : b.wheel.segment = a.wheel.segment := le_antisymm (hsegment ▸ hbc.segment hc) (hab.segment hb)
  exact ⟨⟨hb, hs⟩, hc, hsegment.trans hs.symm⟩

theorem trans (hab : a.Leads b) (hbc : b.Leads c) : a.Leads c where
  epoch := hab.epoch.trans hbc.epoch
  segment h := by
    have hb : b.epoch = a.epoch := le_antisymm (h ▸ hbc.epoch) hab.epoch
    exact (hab.segment hb).trans (hbc.segment (h.trans hb.symm))
  valid h hvalid := by
    obtain ⟨hb, hc⟩ := hab.between hbc h
    exact hab.valid hb (hbc.valid hc hvalid)
  sample h hvalid := by
    obtain ⟨hb, hc⟩ := hab.between hbc h
    exact (hab.sample hb (hbc.valid hc hvalid)).trans (hbc.sample hc hvalid)
  ticks h hvalid hsample := by
    obtain ⟨hb, hc⟩ := hab.between hbc h
    have hbvalid := hbc.valid hc hvalid
    have hmid : b.wheel.sampleNs = a.wheel.sampleNs :=
      le_antisymm (hsample ▸ hbc.sample hc hvalid) (hab.sample hb hbvalid)
    exact (hbc.ticks hc hvalid (hsample.trans hmid.symm)).trans (hab.ticks hb hbvalid hmid)

/-- Another label ends what the counter promises. -/
theorem of_epoch (h : a.epoch < b.epoch) : a.Leads b where
  epoch := h.le
  segment heq := absurd heq h.ne'
  valid hsame := absurd hsame.1 h.ne'
  sample hsame := absurd hsame.1 h.ne'
  ticks hsame := absurd hsame.1 h.ne'

theorem of_segment (hepoch : b.epoch = a.epoch) (h : a.wheel.segment < b.wheel.segment) : a.Leads b where
  epoch := hepoch.ge
  segment _ := h.le
  valid hsame := absurd hsame.2 h.ne'
  sample hsame := absurd hsame.2 h.ne'
  ticks hsame := absurd hsame.2 h.ne'

theorem of_invalid (h : a.SameLabels b) (hvalid : b.wheel.valid = false) : a.Leads b where
  epoch := h.1.ge
  segment _ := h.2.ge
  valid _ hb := absurd hb (by simp [hvalid])
  sample _ hb := absurd hb (by simp [hvalid])
  ticks _ hb := absurd hb (by simp [hvalid])

theorem of_sample (h : a.SameLabels b) (hvalid : a.wheel.valid = true) (hsample : b.wheel.sampleNs = a.wheel.sampleNs)
    (hticks : b.wheel.ticks = a.wheel.ticks) : a.Leads b where
  epoch := h.1.ge
  segment _ := h.2.ge
  valid _ _ := hvalid
  sample _ _ := hsample.ge
  ticks _ _ _ := hticks

end Leads
end Counter

/-! ### The integrator -/

namespace MotorTickIntegrator
variable {m m' : MotorTickIntegrator} {side : Side}

def counter (m : MotorTickIntegrator) (side : Side) : Counter := ⟨m.epoch, (m.wheels side).state⟩

theorem counter_congr (hepoch : m'.epoch = m.epoch) (hwheel : m'.wheels side = m.wheels side) :
    (m.counter side).Leads (m'.counter side) := by
  unfold counter
  rw [hepoch, hwheel]
  exact .refl _

theorem sampled_leads {rpm : Rat} {sample receipt : Int} (h : m.Admits side sample receipt) :
    (m.counter side).Leads ⟨m.epoch, (m.sampled side rpm sample receipt).state⟩ := by
  unfold sampled
  dsimp only
  by_cases hcontiguous : m.Contiguous side sample receipt
  · have hlater : (m.wheels side).sampleNs < sample := by
      obtain ⟨_, _, _, hnew⟩ := h
      exact not_le.1 fun hle => hnew ⟨hcontiguous.1, .inl hle⟩
    simp only [hcontiguous, decide_true, if_true]
    exact ⟨le_rfl, fun _ => le_rfl, fun _ _ => hcontiguous.1, fun _ _ => hlater.le,
      fun _ _ hsample => absurd hsample hlater.ne'⟩
  · simp only [hcontiguous, decide_false, Bool.false_eq_true, if_false]
    exact .of_segment rfl (Nat.lt_succ_self _)

theorem observe_leads (m : MotorTickIntegrator) (wheel side : Side) (rpm : Rat) (sample receipt : Int) :
    (m.counter side).Leads ((m.observe wheel rpm sample receipt).1.counter side) := by
  unfold observe
  split
  · rename_i h
    unfold counter
    dsimp only
    by_cases hside : side = wheel
    · subst hside
      rw [Function.update_self]
      exact sampled_leads h
    · rw [Function.update_of_ne hside]
      exact .refl _
  · exact .refl _

theorem reset_leads (m : MotorTickIntegrator) (side : Side) : (m.counter side).Leads (m.reset.counter side) :=
  .of_epoch (Nat.lt_succ_self _)

theorem invalidate_leads (m : MotorTickIntegrator) (wheel side : Side) :
    (m.counter side).Leads ((m.invalidate wheel).counter side) := by
  by_cases hside : side = wheel
  · subst hside
    unfold counter invalidate
    dsimp only
    rw [Function.update_self]
    exact .of_invalid ⟨rfl, rfl⟩ rfl
  · exact counter_congr rfl (Function.update_of_ne hside _ _)

theorem resetReferences_leads (m : MotorTickIntegrator) (side : Side) :
    (m.counter side).Leads (m.resetReferences.counter side) := .of_invalid ⟨rfl, rfl⟩ rfl

end MotorTickIntegrator

/-! ### The engine -/

def Call.replaces : Call → Bool
  | .replace _ _ => true
  | _ => false

namespace ObservationEngine
variable {e e' e'' : ObservationEngine} {receipt now : Int}

/-- The integrator of a source. -/
def motorTickIntegrator (e : ObservationEngine) : WheelSource → MotorTickIntegrator
  | .ardupilotLegacy => e.legacyMotorTicks
  | _ => e.commonMotorTicks

def counter (e : ObservationEngine) (source : WheelSource) (side : Side) : Counter :=
  (e.motorTickIntegrator source).counter side

/-- Every counter goes on. -/
structure Counts (e e' : ObservationEngine) : Prop where
  common : ∀ side, (e.commonMotorTicks.counter side).Leads (e'.commonMotorTicks.counter side)
  legacy : ∀ side, (e.legacyMotorTicks.counter side).Leads (e'.legacyMotorTicks.counter side)

namespace Counts

theorem leads (h : e.Counts e') (source : WheelSource) (side : Side) :
    (e.counter source side).Leads (e'.counter source side) := by
  cases source with
  | ardupilotLegacy => exact h.legacy side
  | _ => exact h.common side

theorem of_ticks (hcommon : e'.commonMotorTicks = e.commonMotorTicks)
    (hlegacy : e'.legacyMotorTicks = e.legacyMotorTicks) : e.Counts e' where
  common side := by
    rw [hcommon]
    exact .refl _
  legacy side := by
    rw [hlegacy]
    exact .refl _

theorem of_reports (h : e'.reports = e.reports) : e.Counts e' :=
  .of_ticks (congrArg (·.commonMotorTicks) h) (congrArg (·.legacyMotorTicks) h)

theorem refl (e : ObservationEngine) : e.Counts e := .of_ticks rfl rfl

theorem trans (h : e.Counts e') (h' : e'.Counts e'') : e.Counts e'' where
  common side := (h.common side).trans (h'.common side)
  legacy side := (h.legacy side).trans (h'.legacy side)

end Counts

theorem resetCommon_counts (e : ObservationEngine) : e.Counts e.resetCommon where
  common := e.commonMotorTicks.reset_leads
  legacy _ := .refl _

theorem reset_counts (e : ObservationEngine) : e.Counts e.reset where
  common := e.commonMotorTicks.reset_leads
  legacy := e.legacyMotorTicks.reset_leads

theorem receiveClock_counts (e : ObservationEngine) (receipt : Int) : e.Counts (e.receiveClock receipt) := by
  unfold receiveClock
  split
  · exact e.reset_counts.trans (.of_ticks rfl rfl)
  · exact .of_ticks rfl rfl

theorem reselect_counts (e : ObservationEngine) (now : Int) : e.Counts (e.reselect now) :=
  .of_reports (reselect_reports _ _)

theorem onWheels_leads {slot : Nat} {f : Side → MotorTickIntegrator → MotorTickIntegrator}
    (hf : ∀ wheel (m : MotorTickIntegrator) side, (m.counter side).Leads ((f wheel m).counter side)) (side : Side) :
    (e.commonMotorTicks.counter side).Leads ((e.onWheels slot f).counter side) := by
  unfold onWheels
  dsimp only
  split
  · split
    · exact (hf _ _ side).trans (hf _ _ side)
    · exact hf _ _ side
  · split
    · exact hf _ _ side
    · exact .refl _

theorem recordSlot_counts (e : ObservationEngine) (packet : CommonStatusPacket) (receipt : Int) (i : Fin 4) :
    e.Counts (e.recordSlot packet receipt i) := by
  unfold recordSlot
  dsimp only
  split
  · exact ⟨onWheels_leads fun wheel m side => m.observe_leads wheel side _ _ _, fun _ => .refl _⟩
  · split
    · exact ⟨onWheels_leads fun wheel m side => m.invalidate_leads wheel side, fun _ => .refl _⟩
    · exact .refl e

theorem recordStatus_counts (e : ObservationEngine) (packet : CommonStatusPacket) (receipt : Int) :
    e.Counts (e.recordStatus packet receipt) := by
  refine List.foldlRecOn _ _ (motive := fun e' => e.Counts e') (.refl e) ?_
  intro e' h i _
  exact h.trans (e'.recordSlot_counts packet receipt i)

theorem restartCommon_counts (e : ObservationEngine) (packet : CommonStatusPacket) :
    e.Counts (e.restartCommon packet) := by
  unfold restartCommon
  split
  · exact e.resetCommon_counts.trans (.of_ticks rfl rfl)
  · exact .refl e

theorem acceptCommonStatus_counts {a : ObservationEngine} {component : UInt8} {receipt : Int}
    (h : e.acceptCommonStatus component receipt = some a) : e.Counts a := by
  obtain ⟨-, rfl⟩ | rfl := acceptCommonStatus_cases h
  · exact .of_ticks rfl rfl
  · exact e.resetCommon_counts.trans (.of_ticks rfl rfl)

theorem acceptCommonInfo_counts {a : ObservationEngine} {component : UInt8}
    (h : e.acceptCommonInfo component = some a) : e.Counts a := by
  obtain ⟨-, rfl⟩ | ⟨-, rfl⟩ := acceptCommonInfo_cases h
  · exact .of_ticks rfl rfl
  · exact e.resetCommon_counts.trans (.of_ticks rfl rfl)

theorem commonStatus_counts (e : ObservationEngine) (packet : CommonStatusPacket) (receipt : Int) :
    e.Counts (e.commonStatus packet receipt).1 := by
  unfold commonStatus
  split
  · exact .refl e
  · have hclock := e.receiveClock_counts receipt
    dsimp only
    split
    · exact hclock
    · rename_i a haccept
      refine ((hclock.trans (acceptCommonStatus_counts haccept)).trans (a.restartCommon_counts packet)).trans ?_
      exact (recordStatus_counts _ packet receipt).trans (.of_reports (by simp))

theorem commonInfo_counts (e : ObservationEngine) (packet : CommonInfoPacket) (receipt : Int) :
    e.Counts (e.commonInfo packet receipt) := by
  unfold commonInfo
  split
  · exact .refl e
  · have hclock := e.receiveClock_counts receipt
    dsimp only
    split
    · exact hclock
    · rename_i a haccept
      refine (hclock.trans (acceptCommonInfo_counts haccept)).trans ?_
      split
      · refine .trans ?_ (reselect_counts _ receipt)
        obtain ⟨_, h⟩ := a.restartInfo_frame packet
        rw [h]
        exact .of_ticks rfl rfl
      · refine .trans ?_ (reselect_counts _ receipt)
        obtain ⟨_, h⟩ := a.recordInfo_frame packet receipt
        rw [h]
        exact .of_ticks rfl rfl

theorem legacyEscTelemetry_counts (e : ObservationEngine) (packet : LegacyEscPacket) (receipt : Int) :
    e.Counts (e.legacyEscTelemetry packet receipt) := by
  unfold legacyEscTelemetry
  split
  · exact .refl e
  · obtain ⟨_, h⟩ := recordLegacy_frame { e.receiveClock receipt with
      legacy := (e.receiveClock receipt).legacy.receiveEscCounts packet.index packet.counts receipt } packet receipt
    refine (e.receiveClock_counts receipt).trans ?_
    dsimp only
    rw [h]
    exact .of_ticks rfl rfl

theorem receiveLegacy_counts (e : ObservationEngine) (rpm : Side → Rat) (receipt : Int) :
    e.Counts (e.receiveLegacy rpm receipt).1 := by
  unfold receiveLegacy
  dsimp only
  split
  · exact .of_ticks rfl rfl
  · split
    · refine ⟨fun _ => .refl _, fun side => ?_⟩
      exact (MotorTickIntegrator.observe_leads _ .left side _ _ _).trans
        (MotorTickIntegrator.observe_leads _ .right side _ _ _)
    · exact .of_ticks rfl rfl

theorem legacyRpm_counts (e : ObservationEngine) (left right : Option Rat) (receipt : Int) :
    e.Counts (e.legacyRpm left right receipt).1 := by
  unfold legacyRpm
  split
  · exact .refl e
  · refine (e.receiveClock_counts receipt).trans ?_
    dsimp only
    split
    · rename_i left right
      have hdrive (a : ObservationEngine) (motion : Option WheelMotionObservation) :
          a.Counts (a.driveLegacy motion).1 := .of_reports (driveLegacy_reports _ _)
      refine .trans ?_ (hdrive _ _)
      refine .trans ?_ (reselect_counts _ receipt)
      exact (receiveLegacy_counts _ _ receipt).trans (.of_ticks rfl rfl)
    · refine .trans ?_ (reselect_counts _ receipt)
      exact ⟨fun _ => .refl _, (e.receiveClock receipt).legacyMotorTicks.resetReferences_leads⟩

theorem wheelDistance_counts (e : ObservationEngine) (packet : DistancePacket) (receipt : Int) :
    e.Counts (e.wheelDistance packet receipt).1 := by
  unfold wheelDistance
  split
  · exact .refl e
  · refine (e.receiveClock_counts receipt).trans ?_
    dsimp only
    split
    · exact .refl _
    · rename_i a haccept
      refine (Counts.of_reports (acceptDistance_reports haccept)).trans ?_
      split
      · exact .of_reports (by simp)
      · exact .of_reports (by simp)

/-- Every call but a replacement. -/
theorem step_counts (e : ObservationEngine) (c : Call × Int) (h : c.1.replaces = false) :
    e.Counts (e.step c).1 := by
  obtain ⟨call, t⟩ := c
  cases call with
  | commonStatus packet => exact e.commonStatus_counts packet t
  | commonInfo packet => exact e.commonInfo_counts packet t
  | legacyEsc packet => exact e.legacyEscTelemetry_counts packet t
  | legacyRpm left right => exact e.legacyRpm_counts left right t
  | wheelDistance packet => exact e.wheelDistance_counts packet t
  | poll => exact (e.receiveClock_counts t).trans (reselect_counts _ t)
  | connection connected => exact e.reset_counts.trans (.of_ticks rfl rfl)
  | replace config retain => cases h

/-- The replacement keeps the counts of the source. -/
def Retains (e : ObservationEngine) (config : ValidConfig) (retainLegacyTicks : Bool) (source : WheelSource) : Prop :=
  (config.1.geometry.leftEscSlot = e.geometry.leftEscSlot ∧
      config.1.geometry.rightEscSlot = e.geometry.rightEscSlot) ∧
    if source = .ardupilotLegacy then retainLegacyTicks = true
    else (e.replace config 0 retainLegacyTicks).commonComponent = e.commonComponent

instance (config : ValidConfig) (retainLegacyTicks : Bool) (source : WheelSource) :
    Decidable (e.Retains config retainLegacyTicks source) := by
  unfold Retains
  infer_instance

theorem replace_leads {config : ValidConfig} {t : Int} {retain : Bool} {source : WheelSource}
    (h : e.Retains config retain source) (side : Side) :
    (e.counter source side).Leads ((e.replace config t retain).counter source side) := by
  obtain ⟨hslots, hkept⟩ := h
  have hsame :
      ((e.replace config t retain).motorTickIntegrator source).epoch = (e.motorTickIntegrator source).epoch ∧
        ((e.replace config t retain).motorTickIntegrator source).wheels side =
          (e.motorTickIntegrator source).wheels side := by
    by_cases hlegacy : source = .ardupilotLegacy
    · subst hlegacy
      rw [if_pos rfl] at hkept
      have hticks : (e.replace config t retain).legacyMotorTicks =
          (ofConfig config).legacyMotorTicks.retainCounts e.legacyMotorTicks := if_pos ⟨hslots, hkept⟩
      constructor
      · exact congrArg (·.epoch) hticks
      · exact congrArg (·.wheels side) hticks
    · rw [if_neg hlegacy] at hkept
      have hticks : (e.replace config t retain).commonMotorTicks =
          (ofConfig config).commonMotorTicks.retainCounts e.commonMotorTicks := if_pos ⟨hslots, hkept⟩
      cases source with
      | ardupilotLegacy => exact absurd rfl hlegacy
      | _ => exact ⟨congrArg (·.epoch) hticks, congrArg (·.wheels side) hticks⟩
  exact MotorTickIntegrator.counter_congr hsame.1 hsame.2

end ObservationEngine
end Odometry
end MowgliMavros
