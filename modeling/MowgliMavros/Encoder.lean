import MowgliMavros.ObservationSpec

/-!
# The encoder by itself

`Encoder` is what the odometry of WHEEL_DISTANCE is for: a distance that the one producer keeps fresh
gives the speed since the last one. It knows of no other source. `Tracked` is the invariant under which
the engine, with its shared `core_`, `active_` and `distance_baseline_`, computes the same.
-/

namespace MowgliMavros
namespace Odometry
open ObservationEngine

structure Encoder where
  config : ValidConfig
  connected : Bool := false
  distance : Distance := {}
  component : Option UInt8 := none

namespace Encoder
variable (n : Encoder)

/-- An engine that has received nothing else. -/
def engine : ObservationEngine :=
  { ofConfig n.config with connected := n.connected, distance := n.distance, distanceComponent := n.component }

def Live (now : Int) : Prop := n.distance.valid = true ∧ n.engine.Fresh n.distance.receiptNs now

instance (now : Int) : Decidable (n.Live now) := inferInstanceAs (Decidable (_ ∧ _))

/-- The configuration lets the encoder drive. -/
def Drivable : Prop := n.connected = true ∧ n.engine.WheelConfigured ∧ n.engine.Configured .wheelDistance

instance : Decidable n.Drivable := inferInstanceAs (Decidable (_ ∧ _))

def Other (component : UInt8) : Prop := n.component.any (· ≠ component) = true

instance (component : UInt8) : Decidable (n.Other component) := inferInstanceAs (Decidable (_ = _))

def Refuses (component : UInt8) (receipt : Int) : Prop :=
  ¬ n.connected ∨ receipt ≤ 0 ∨
    (0 ≤ n.config.1.wheelDistanceComponentId ∧ (component.toNat : Int) ≠ n.config.1.wheelDistanceComponentId) ∨
    n.Other component ∧ n.Live receipt

instance (component : UInt8) (receipt : Int) : Decidable (n.Refuses component receipt) :=
  inferInstanceAs (Decidable (_ ∨ _))

def restart : Encoder := { n with distance := {}, component := none }

def drop : Encoder := { n with distance := { n.distance with valid := false } }

/-- The last distance is a baseline for `next`. -/
def Follows (next : Distance) : Prop :=
  n.Drivable ∧ n.Live next.receiptNs ∧ n.distance.timeUs < next.timeUs ∧
    next.timeUs - n.distance.timeUs ≤ (n.config.1.timeoutNs / 1000).toNat

instance (next : Distance) : Decidable (n.Follows next) := inferInstanceAs (Decidable (_ ∧ _))

def ImplausibleSpeed (next : Distance) : Prop :=
  |speed n.distance next .left| > n.config.1.maxDistanceSpeedMps ∨
    |speed n.distance next .right| > n.config.1.maxDistanceSpeedMps

instance (next : Distance) : Decidable (n.ImplausibleSpeed next) := inferInstanceAs (Decidable (_ ∨ _))

def drive (next : Distance) : WheelObservation where
  sampleStampNs := next.timeUs * 1000
  receiptStampNs := next.receiptNs
  linearXMps := (speed n.distance next .left + speed n.distance next .right) / 2
  angularZRps := (speed n.distance next .right - speed n.distance next .left) / n.config.1.geometry.trackWidthM

def renew (next : Distance) (component : UInt8) : Encoder × Option WheelObservation :=
  let n' : Encoder := { n with distance := next, component := some component }
  if n.Follows next then if n.ImplausibleSpeed next then (n'.drop, none) else (n', some (n.drive next)) else
    (n', none)

def receive (packet : DistancePacket) (receipt : Int) : Encoder × Option WheelObservation :=
  if n.Refuses packet.componentId receipt then (n, none)
  else
    let n := if n.Other packet.componentId then n.restart else n
    match n.engine.readDistance packet receipt with
    | none => (n.drop, none)
    | some next =>
      if n.distance.valid ∧ next.timeUs = n.distance.timeUs then
        if next.wheel .left ≠ n.distance.wheel .left ∨ next.wheel .right ≠ n.distance.wheel .right then (n.drop, none)
        else (n, none)
      else n.renew next packet.componentId

def step : Call × Int → Encoder × Option WheelObservation
  | (.wheelDistance packet, receipt) => n.receive packet receipt
  | (.connection connected, _) => ({ config := n.config, connected := connected }, none)
  | (.replace config _, _) => ({ config := config, connected := n.connected }, none)
  | _ => (n, none)

end Encoder

namespace ObservationEngine
variable {e e' : ObservationEngine} {receipt now t : Int}

/-- What the engine holds of the encoder. -/
def encoder (e : ObservationEngine) : Encoder := ⟨e.config, e.connected, e.distance, e.distanceComponent⟩

/-! ### The invariant -/

/-- The two cores are the configuration's. -/
structure Wired (e : ObservationEngine) : Prop where
  core : e.core.geometry = e.geometry
  legacy : e.legacy.geometry = e.geometry
  timeout : e.legacy.timeoutNs = e.config.1.timeoutNs

/-- While the encoder is selected, its last distance is the baseline and bounds what the core has seen. -/
structure Linked (e : ObservationEngine) : Prop where
  baseline : e.active = .wheelDistance → e.distanceBaseline = some e.distance
  sample : e.active = .wheelDistance → e.core.lastSampleNs ≤ e.distance.timeUs * 1000
  receipt : e.active = .wheelDistance → e.core.lastReceiptNs ≤ e.distance.receiptNs

/-- The distance was received, and not in the future. -/
structure Dated (t : Int) (e : ObservationEngine) : Prop where
  past : e.lastReceiptNs ≤ max t 0
  early : t ≤ 0 → e.distance = {} ∧ e.distanceComponent = none
  received : e.distance.valid = true → 0 < e.distance.receiptNs
  stamped : e.distance.valid = true → e.distance.receiptNs ≤ t

/-- The encoder is selected whenever it can be. -/
structure Tracked (t : Int) (e : ObservationEngine) : Prop where
  wired : e.Wired
  linked : e.Linked
  dated : e.Dated t
  live : e.active = .wheelDistance → e.distance.valid = true ∧ e.encoder.Drivable
  chosen : e.distance.valid = true → e.Fresh e.distance.receiptNs t → e.encoder.Drivable → e.active = .wheelDistance

theorem Wired.configured (h : e.Wired) : e.WheelConfigured ↔ e.encoder.engine.WheelConfigured := by
  have hcore : e.core.valid = e.encoder.engine.core.valid := by
    unfold WheelOdometryCore.valid
    rw [h.core]
    rfl
  have hlegacy : e.legacy.valid = e.encoder.engine.legacy.valid := by
    unfold LegacyWheelAdapter.valid
    rw [h.legacy, h.timeout]
    rfl
  unfold WheelConfigured
  rw [hcore, hlegacy]
  rfl

theorem Wired.drivable (h : e.Wired) :
    e.encoder.Drivable ↔ e.connected = true ∧ e.WheelConfigured ∧ e.Configured .wheelDistance := by
  unfold Encoder.Drivable
  rw [← h.configured]
  rfl

theorem selected_wheelDistance (now : Int) (h : e.Wired) : e.selected now = .wheelDistance ↔
    e.encoder.Drivable ∧ e.distance.valid = true ∧ e.Fresh e.distance.receiptNs now := by
  rw [h.drivable]
  unfold selected
  by_cases hdrive : ¬ e.connected ∨ ¬ e.WheelConfigured
  · rw [if_pos hdrive]
    simp only [reduceCtorEq, false_iff]
    rintro ⟨⟨hconnected, hconfigured, _⟩, _⟩
    exact hdrive.elim (· hconnected) (· hconfigured)
  · rw [if_neg hdrive]
    by_cases hwheel : e.Configured .wheelDistance ∧ e.distance.valid ∧ e.Fresh e.distance.receiptNs now
    · rw [if_pos hwheel]
      push Not at hdrive
      exact ⟨fun _ => ⟨⟨hdrive.1, hdrive.2, hwheel.1⟩, hwheel.2⟩, fun _ => rfl⟩
    · rw [if_neg hwheel]
      constructor
      · intro hnext
        repeat' split at hnext
        all_goals cases hnext
      · rintro ⟨⟨_, _, hauto⟩, hlive⟩
        exact absurd ⟨hauto, hlive⟩ hwheel

theorem Dated.mono {t' : Int} (ht : t ≤ t') (h : e.Dated t) : e.Dated t' :=
  ⟨h.past.trans (by omega), fun ht' => h.early (ht.trans ht'), h.received, fun hv => (h.stamped hv).trans ht⟩

theorem Tracked.mono {t' : Int} (ht : t ≤ t') (h : e.Tracked t) : e.Tracked t' where
  wired := h.wired
  linked := h.linked
  dated := h.dated.mono ht
  live := h.live
  chosen hvalid hfresh hdrive := by
    have := h.dated.stamped hvalid
    exact h.chosen hvalid ⟨hfresh.1, this, by have := hfresh.2.2; omega⟩ hdrive

/-- A selection establishes the invariant. -/
theorem select_tracked {commonUpdate : Bool} {previous : Side → Nat} (hwired : e.Wired)
    (hlinked : e.selected now = e.active → e.Linked) (hdated : e.Dated now) :
    (e.select now commonUpdate previous).Tracked now := by
  have hnext := selected_wheelDistance now hwired
  unfold select selectAs
  by_cases hsame : e.selected now = e.active
  · rw [if_pos hsame]
    rw [hsame] at hnext
    exact ⟨hwired, hlinked hsame, hdated, fun ha => ⟨(hnext.1 ha).2.1, (hnext.1 ha).1⟩,
      fun hvalid hfresh hdrive => hnext.2 ⟨hdrive, hvalid, hfresh⟩⟩
  · rw [if_neg hsame]
    refine ⟨⟨hwired.core, hwired.legacy, hwired.timeout⟩, ⟨fun ha => if_pos ha, fun _ => ?_, fun ha => ?_⟩,
      ⟨hdated.past, hdated.early, hdated.received, hdated.stamped⟩, fun ha => ?_, fun hvalid hfresh hdrive => ?_⟩
    · exact Int.mul_nonneg (Int.natCast_nonneg _) (by decide)
    · exact (hdated.received (hnext.1 ha).2.1).le
    · exact ⟨(hnext.1 ha).2.1, (hnext.1 ha).1⟩
    · exact hnext.2 ⟨hdrive, hvalid, hfresh⟩

@[simp] theorem select_encoder (e : ObservationEngine) (now : Int) (commonUpdate : Bool) (previous : Side → Nat) :
    (e.select now commonUpdate previous).encoder = e.encoder := by
  obtain ⟨_, _, _, hframe⟩ := e.selectAs_frame (e.selected now) commonUpdate previous
  unfold select
  rw [hframe]
  rfl

/-! ### The other sources -/

/-- `e'` differs from `e` in nothing that the encoder uses. -/
structure Beside (e e' : ObservationEngine) : Prop where
  encoder : e'.encoder = e.encoder
  last : e'.lastReceiptNs = e.lastReceiptNs
  active : e'.active = .wheelDistance ↔ e.active = .wheelDistance
  baseline : e.active = .wheelDistance → e'.distanceBaseline = e.distanceBaseline
  core : e.active = .wheelDistance → e'.core = e.core
  geometry : e'.core.geometry = e.core.geometry
  legacy : e'.legacy.geometry = e.legacy.geometry
  timeout : e'.legacy.timeoutNs = e.legacy.timeoutNs

namespace Beside

theorem refl (e : ObservationEngine) : e.Beside e := ⟨rfl, rfl, Iff.rfl, fun _ => rfl, fun _ => rfl, rfl, rfl, rfl⟩

theorem trans {e'' : ObservationEngine} (h : e.Beside e') (h' : e'.Beside e'') : e.Beside e'' where
  encoder := h'.encoder.trans h.encoder
  last := h'.last.trans h.last
  active := h'.active.trans h.active
  baseline ha := (h'.baseline (h.active.2 ha)).trans (h.baseline ha)
  core ha := (h'.core (h.active.2 ha)).trans (h.core ha)
  geometry := h'.geometry.trans h.geometry
  legacy := h'.legacy.trans h.legacy
  timeout := h'.timeout.trans h.timeout

theorem config (h : e.Beside e') : e'.config = e.config := congrArg (·.config) h.encoder

theorem distance (h : e.Beside e') : e'.distance = e.distance := congrArg (·.distance) h.encoder

theorem wired (h : e.Beside e') (hw : e.Wired) : e'.Wired := by
  have hgeometry : e'.geometry = e.geometry := by
    unfold ObservationEngine.geometry
    rw [h.config]
  exact ⟨by rw [h.geometry, hw.core, hgeometry], by rw [h.legacy, hw.legacy, hgeometry],
    by rw [h.timeout, hw.timeout, h.config]⟩

theorem linked (h : e.Beside e') (hl : e.Linked) : e'.Linked where
  baseline ha := by
    have ha := h.active.1 ha
    rw [h.baseline ha, hl.baseline ha, h.distance]
  sample ha := by
    have ha := h.active.1 ha
    rw [h.core ha, h.distance]
    exact hl.sample ha
  receipt ha := by
    have ha := h.active.1 ha
    rw [h.core ha, h.distance]
    exact hl.receipt ha

theorem dated (h : e.Beside e') (hd : e.Dated t) : e'.Dated t where
  past := h.last ▸ hd.past
  early ht := by
    rw [h.distance, show e'.distanceComponent = e.distanceComponent from congrArg (·.component) h.encoder]
    exact hd.early ht
  received := by
    rw [h.distance]
    exact hd.received
  stamped := by
    rw [h.distance]
    exact hd.stamped

theorem tracked (h : e.Beside e') (ht : e.Tracked t) : e'.Tracked t where
  wired := h.wired ht.wired
  linked := h.linked ht.linked
  dated := h.dated ht.dated
  live ha := by
    rw [h.distance, h.encoder]
    exact ht.live (h.active.1 ha)
  chosen := by
    unfold Fresh
    rw [h.distance, h.encoder, h.config, h.active]
    exact ht.chosen

end Beside

/-- The invariant holds and the encoder is the same. -/
def Passes (t : Int) (e e' : ObservationEngine) : Prop := e'.Tracked t ∧ e'.encoder = e.encoder

theorem Beside.passes (h : e.Beside e') (ht : e.Tracked t) : e.Passes t e' := ⟨h.tracked ht, h.encoder⟩

theorem Passes.trans {e'' : ObservationEngine} (h : e.Passes t e') (h' : e'.Beside e'') : e.Passes t e'' :=
  ⟨h'.tracked h.1, h'.encoder.trans h.2⟩

theorem select_passes (h : e.Beside e') (hwired : e.Wired) (hlinked : e.Linked) (hdated : e.Dated now)
    (commonUpdate : Bool) (previous : Side → Nat) : e.Passes now (e'.select now commonUpdate previous) := by
  refine ⟨select_tracked (h.wired hwired) (fun _ => h.linked hlinked) (h.dated hdated), ?_⟩
  rw [select_encoder]
  exact h.encoder

theorem Tracked.select (h : e.Tracked now) (hbeside : e.Beside e') (commonUpdate : Bool) (previous : Side → Nat) :
    e.Passes now (e'.select now commonUpdate previous) :=
  select_passes hbeside h.wired h.linked h.dated commonUpdate previous

theorem resetCommon_beside (e : ObservationEngine) : e.Beside e.resetCommon where
  encoder := rfl
  last := rfl
  active := by
    unfold resetCommon
    dsimp only
    split
    · rename_i ha
      simp [ha]
    · rfl
  baseline _ := rfl
  core ha := by
    unfold resetCommon
    rw [ha]
    rfl
  geometry := by
    unfold resetCommon
    dsimp only
    split
    · rfl
    · rfl
  legacy := rfl
  timeout := rfl

theorem Beside.common (h : e.Beside e') (component : Option UInt8) (owner needed : Bool) :
    e.Beside { e' with
      commonComponent := component, commonStatusOwner := owner, commonEpochBaselineNeeded := needed } :=
  ⟨h.encoder, h.last, h.active, h.baseline, h.core, h.geometry, h.legacy, h.timeout⟩

theorem acceptCommonStatus_beside {component : UInt8} (h : e.acceptCommonStatus component receipt = some e') :
    e.Beside e' := by
  obtain ⟨-, rfl⟩ | rfl := acceptCommonStatus_cases h
  · exact (Beside.refl e).common _ _ _
  · exact e.resetCommon_beside.common _ _ _

theorem acceptCommonInfo_beside {component : UInt8} (h : e.acceptCommonInfo component = some e') : e.Beside e' := by
  obtain ⟨-, rfl⟩ | ⟨-, rfl⟩ := acceptCommonInfo_cases h
  · exact (Beside.refl e).common _ _ _
  · exact e.resetCommon_beside.common _ _ _

theorem restartCommon_beside (e : ObservationEngine) (packet : CommonStatusPacket) :
    e.Beside (e.restartCommon packet) := by
  unfold restartCommon
  split
  · exact e.resetCommon_beside.common _ _ _
  · exact .refl e

theorem recordStatus_beside (e : ObservationEngine) (packet : CommonStatusPacket) (receipt : Int) :
    e.Beside (e.recordStatus packet receipt) := by
  obtain ⟨_, _, h⟩ := e.recordStatus_frame packet receipt
  rw [h]
  exact ⟨rfl, rfl, Iff.rfl, fun _ => rfl, fun _ => rfl, rfl, rfl, rfl⟩

theorem receiveMotion_geometry (c : WheelOdometryCore) (motion : WheelMotionObservation) :
    (c.receiveMotion motion).1.geometry = c.geometry := by
  unfold WheelOdometryCore.receiveMotion
  split
  · rfl
  · rfl

/-- The core takes a COMMON motion while `esc_status` is selected only. -/
theorem pairCommon_beside (e : ObservationEngine) (receipt : Int) : e.Beside (e.pairCommon receipt).1 := by
  unfold pairCommon
  split
  · exact .refl e
  · rename_i hactive
    have hesc : e.active = .escStatus := by
      by_contra h
      exact hactive (.inl h)
    have hwheel : e.active ≠ .wheelDistance := by simp [hesc]
    split
    · exact .refl e
    · split
      · exact ⟨rfl, rfl, Iff.rfl, fun _ => rfl, fun _ => rfl, rfl, rfl, rfl⟩
      · split
        · exact .refl e
        · split
          · exact .refl e
          · rename_i motion _
            have hgeometry := receiveMotion_geometry e.core motion
            split
            · rename_i hmotion
              rw [hmotion] at hgeometry
              exact ⟨rfl, rfl, Iff.rfl, fun _ => rfl, fun h => absurd h hwheel, hgeometry, rfl, rfl⟩
            · rename_i hmotion
              rw [hmotion] at hgeometry
              exact ⟨rfl, rfl, Iff.rfl, fun _ => rfl, fun h => absurd h hwheel, hgeometry, rfl, rfl⟩

theorem restartInfo_beside (e : ObservationEngine) (packet : CommonInfoPacket) : e.Beside (e.restartInfo packet) := by
  obtain ⟨_, h⟩ := e.restartInfo_frame packet
  rw [h]
  exact ⟨rfl, rfl, Iff.rfl, fun _ => rfl, fun _ => rfl, rfl, rfl, rfl⟩

theorem recordInfo_beside (e : ObservationEngine) (packet : CommonInfoPacket) (receipt : Int) :
    e.Beside (e.recordInfo packet receipt) := by
  obtain ⟨_, h⟩ := e.recordInfo_frame packet receipt
  rw [h]
  exact ⟨rfl, rfl, Iff.rfl, fun _ => rfl, fun _ => rfl, rfl, rfl, rfl⟩

theorem receiveEscCounts_geometry (a : LegacyWheelAdapter) (offset : Nat) (counts : Fin 4 → UInt16) (receipt : Int) :
    (a.receiveEscCounts offset counts receipt).geometry = a.geometry ∧
      (a.receiveEscCounts offset counts receipt).timeoutNs = a.timeoutNs := by
  have hcount (a : LegacyWheelAdapter) (wheel : Side) :
    (a.receiveCount offset counts receipt wheel).geometry = a.geometry ∧
      (a.receiveCount offset counts receipt wheel).timeoutNs = a.timeoutNs := by
    unfold LegacyWheelAdapter.receiveCount
    dsimp only
    repeat' split
    all_goals exact ⟨rfl, rfl⟩
  unfold LegacyWheelAdapter.receiveEscCounts
  split
  · exact ⟨rfl, rfl⟩
  · exact ⟨(hcount _ _).1.trans (hcount _ _).1, (hcount _ _).2.trans (hcount _ _).2⟩

theorem receiveRpm_geometry (a : LegacyWheelAdapter) (rpm : Side → Rat) (receipt : Int) :
    (a.receiveRpm rpm receipt).1.geometry = a.geometry ∧ (a.receiveRpm rpm receipt).1.timeoutNs = a.timeoutNs := by
  unfold LegacyWheelAdapter.receiveRpm
  split
  · exact ⟨rfl, rfl⟩
  · dsimp only
    split
    · exact ⟨rfl, rfl⟩
    · exact ⟨rfl, rfl⟩

theorem receiveLegacy_beside (e : ObservationEngine) (rpm : Side → Rat) (receipt : Int) :
    e.Beside (e.receiveLegacy rpm receipt).1 := by
  have hgeometry := receiveRpm_geometry e.legacy rpm receipt
  unfold receiveLegacy
  dsimp only
  split
  · exact ⟨rfl, rfl, Iff.rfl, fun _ => rfl, fun _ => rfl, rfl, hgeometry.1, hgeometry.2⟩
  · split
    · exact ⟨rfl, rfl, Iff.rfl, fun _ => rfl, fun _ => rfl, rfl, hgeometry.1, hgeometry.2⟩
    · exact ⟨rfl, rfl, Iff.rfl, fun _ => rfl, fun _ => rfl, rfl, hgeometry.1, hgeometry.2⟩

theorem recallLegacy_beside (e : ObservationEngine) (rpm : Side → Rat) (receipt : Int)
    (motion : Option WheelMotionObservation) :
    e.Beside { (e.receiveLegacy rpm receipt).1 with legacyMotion := motion } :=
  (e.receiveLegacy_beside rpm receipt).trans ⟨rfl, rfl, Iff.rfl, fun _ => rfl, fun _ => rfl, rfl, rfl, rfl⟩

/-- The core takes a legacy motion while `ardupilot_legacy` is selected only. -/
theorem driveLegacy_beside (e : ObservationEngine) (motion : Option WheelMotionObservation) :
    e.Beside (e.driveLegacy motion).1 := by
  unfold driveLegacy
  split
  · exact .refl e
  · rename_i motion
    split
    · rename_i hactive
      exact ⟨rfl, rfl, Iff.rfl, fun _ => rfl, fun h => by simp [hactive] at h, receiveMotion_geometry e.core motion,
        rfl, rfl⟩
    · exact .refl e

/-! ### The calls that the encoder does not see -/

theorem Tracked.received (h : e.Tracked receipt) : (e.received receipt).Tracked receipt :=
  ⟨⟨h.wired.core, h.wired.legacy, h.wired.timeout⟩, ⟨h.linked.baseline, h.linked.sample, h.linked.receipt⟩,
    ⟨Int.le_max_left receipt 0, h.dated.early, h.dated.received, h.dated.stamped⟩, h.live, h.chosen⟩

theorem Tracked.clock (h : e.Tracked receipt) (hpos : ¬ receipt ≤ 0) : e.receiveClock receipt = e.received receipt :=
  receiveClock_eq (clock_of_receipt h.dated.past hpos)

theorem commonStatus_passes (h : e.Tracked receipt) (packet : CommonStatusPacket) :
    e.Passes receipt (e.commonStatus packet receipt).1 := by
  unfold commonStatus
  split
  · exact ⟨h, rfl⟩
  · rename_i hok
    rw [h.clock fun hr => hok (.inr (.inl hr))]
    change Passes receipt (e.received receipt) _
    dsimp only
    split
    · exact ⟨h.received, rfl⟩
    · rename_i a ha
      have hbeside := ((acceptCommonStatus_beside ha).trans (a.restartCommon_beside packet)).trans
        (recordStatus_beside _ packet receipt)
      exact (h.received.select hbeside true a.mappedTime).trans (pairCommon_beside _ receipt)

theorem commonInfo_passes (h : e.Tracked receipt) (packet : CommonInfoPacket) :
    e.Passes receipt (e.commonInfo packet receipt) := by
  obtain heq | heq | ⟨a, b, ha, rfl | rfl, heq⟩ := commonInfo_eq h.dated.past packet
  · rw [heq]
    exact ⟨h, rfl⟩
  · rw [heq]
    exact ⟨h.received, rfl⟩
  · rw [heq]
    exact h.received.select ((acceptCommonInfo_beside ha).trans (a.restartInfo_beside packet)) _ _
  · rw [heq]
    exact h.received.select ((acceptCommonInfo_beside ha).trans (a.recordInfo_beside packet receipt)) _ _

theorem legacyEscTelemetry_passes (h : e.Tracked receipt) (packet : LegacyEscPacket) :
    e.Passes receipt (e.legacyEscTelemetry packet receipt) := by
  obtain heq | ⟨_, heq⟩ := legacyEscTelemetry_eq h.dated.past packet
  · rw [heq]
    exact ⟨h, rfl⟩
  · rw [heq]
    change Passes receipt (e.received receipt) _
    have hgeometry := receiveEscCounts_geometry e.legacy packet.index packet.counts receipt
    refine Beside.passes ?_ h.received
    exact ⟨rfl, rfl, Iff.rfl, fun _ => rfl, fun _ => rfl, rfl, hgeometry.1, hgeometry.2⟩

theorem legacyRpm_passes (h : e.Tracked receipt) (left right : Option Rat) :
    e.Passes receipt (e.legacyRpm left right receipt).1 := by
  unfold legacyRpm
  split
  · exact ⟨h, rfl⟩
  · rename_i hok
    rw [h.clock fun hr => hok (.inr hr)]
    change Passes receipt (e.received receipt) _
    dsimp only
    split
    · exact (h.received.select (recallLegacy_beside _ _ _ _) _ _).trans (driveLegacy_beside _ _)
    · refine h.received.select ?_ _ _
      exact ⟨rfl, rfl, Iff.rfl, fun _ => rfl, fun _ => rfl, rfl, rfl, rfl⟩

theorem reset_wired (h : e.Wired) : e.reset.Wired := by
  refine ⟨?_, h.legacy, h.timeout⟩
  unfold reset resetDistance resetCommon
  dsimp only
  split
  · split
    · exact h.core
    · exact h.core
  · split
    · exact h.core
    · exact h.core

/-- A clock that goes back finds nothing received. -/
theorem poll_passes (h : e.Tracked now) : e.Passes now (e.poll now) := by
  unfold poll receiveClock
  split
  · rename_i hback
    have hnow : now ≤ 0 := by
      have := h.dated.past
      omega
    obtain ⟨hdistance, hcomponent⟩ := h.dated.early hnow
    have hwired := reset_wired h.wired
    have hencoder : e.encoder = (e.reset.received now).encoder := by
      unfold encoder
      rw [hdistance, hcomponent]
      rfl
    have hpasses := select_passes (.refl (e.reset.received now)) ⟨hwired.core, hwired.legacy, hwired.timeout⟩
      ⟨nofun, nofun, nofun⟩ ⟨Int.le_max_left now 0, fun _ => ⟨rfl, rfl⟩, nofun, nofun⟩ false fun _ => 0
    exact ⟨hpasses.1, hpasses.2.trans hencoder.symm⟩
  · exact h.received.select (.refl _) _ _

theorem connection_tracked (h : e.Tracked t) (connected : Bool) : (e.connection connected).Tracked t := by
  have hwired := reset_wired h.wired
  exact ⟨⟨hwired.core, hwired.legacy, hwired.timeout⟩, ⟨nofun, nofun, nofun⟩,
    ⟨Int.le_max_right t 0, fun _ => ⟨rfl, rfl⟩, nofun, nofun⟩, nofun, nofun⟩

theorem ofConfig_tracked (config : ValidConfig) (t : Int) : (ofConfig config).Tracked t :=
  ⟨⟨rfl, rfl, rfl⟩, ⟨nofun, nofun, nofun⟩, ⟨Int.le_max_right t 0, fun _ => ⟨rfl, rfl⟩, nofun, nofun⟩, nofun, nofun⟩

theorem replace_tracked (h : e.Tracked t) (config : ValidConfig) (configurationNs : Int) (retainLegacyTicks : Bool) :
    (e.replace config configurationNs retainLegacyTicks).Tracked t :=
  ⟨⟨rfl, rfl, rfl⟩, ⟨nofun, nofun, nofun⟩, ⟨h.dated.past, fun _ => ⟨rfl, rfl⟩, nofun, nofun⟩, nofun, nofun⟩

/-! ### WHEEL_DISTANCE -/

/-- The engine and its result are the encoder's. -/
structure Matches (receipt : Int) (r : ObservationEngine × Option WheelObservation)
    (n : Encoder × Option WheelObservation) : Prop where
  tracked : r.1.Tracked receipt
  encoder : r.1.encoder = n.1
  result : r.2 = n.2

theorem resetDistance_active (e : ObservationEngine) : e.resetDistance.active ≠ .wheelDistance := by
  unfold resetDistance
  dsimp only
  split
  · decide
  · assumption

theorem resetDistance_tracked (h : e.Tracked t) : e.resetDistance.Tracked t := by
  have hactive := e.resetDistance_active
  refine ⟨⟨?_, h.wired.legacy, h.wired.timeout⟩, ⟨(absurd · hactive), (absurd · hactive), (absurd · hactive)⟩,
    ⟨h.dated.past, fun _ => ⟨rfl, rfl⟩, nofun, nofun⟩, (absurd · hactive), nofun⟩
  unfold resetDistance
  dsimp only
  split
  · exact h.wired.core
  · exact h.wired.core

/-- A refused distance stops the encoder. -/
theorem drop_matches (receipt : Int) (hwired : e.Wired) (hpast : e.lastReceiptNs ≤ max receipt 0)
    (hpos : ¬ receipt ≤ 0) :
    Matches receipt (e.dropDistance.reselect receipt, none) (e.encoder.drop, none) := by
  have hnext : e.dropDistance.selected receipt ≠ .wheelDistance := fun hnext => Bool.false_ne_true
    ((selected_wheelDistance (e := e.dropDistance) _ ⟨hwired.core, hwired.legacy, hwired.timeout⟩).1 hnext).2.1
  refine ⟨select_tracked ⟨hwired.core, hwired.legacy, hwired.timeout⟩ (fun hsame => ?_)
    ⟨hpast, fun hr => absurd hr hpos, nofun, nofun⟩, by rw [reselect, select_encoder]; rfl, rfl⟩
  rw [hsame] at hnext
  exact ⟨(absurd · hnext), (absurd · hnext), (absurd · hnext)⟩

/-- The state in which `wheel_distance` selects after a new distance. -/
structure Renewed (next : Distance) (component : UInt8) (receipt : Int) (e d : ObservationEngine) : Prop where
  wired : d.Wired
  last : d.lastReceiptNs = e.lastReceiptNs
  encoder : d.encoder = { e.encoder with distance := next, component := some component }
  /-- The encoder stays selected if the measurement time did not go back. -/
  active : d.active = .wheelDistance ↔ e.active = .wheelDistance ∧ ¬ next.timeUs < e.distance.timeUs
  core : d.active = .wheelDistance → d.core = e.core
  baseline : d.active = .wheelDistance →
    d.distanceBaseline = if e.Fresh e.distance.receiptNs receipt then some e.distance else none

theorem renewDistance_renewed (h : e.Tracked t) (next : Distance) (component : UInt8) (receipt : Int) :
    Renewed next component receipt e (e.renewDistance next component receipt) := by
  unfold renewDistance
  dsimp only
  by_cases hback : e.distance.valid = true ∧ next.timeUs < e.distance.timeUs
  · have hwired := (resetDistance_tracked h).wired
    have hstale : ¬ e.resetDistance.Fresh e.resetDistance.distance.receiptNs receipt := fun hf => lt_irrefl _ hf.1
    rw [if_pos hback, if_pos hstale]
    have hactive := e.resetDistance_active
    exact ⟨⟨hwired.core, hwired.legacy, hwired.timeout⟩, rfl, rfl,
      ⟨fun ha => absurd ha hactive, fun ha => absurd hback.2 ha.2⟩, (absurd · hactive), (absurd · hactive)⟩
  · rw [if_neg hback]
    have hahead (ha : e.active = .wheelDistance) : ¬ next.timeUs < e.distance.timeUs :=
      fun hlt => hback ⟨(h.live ha).1, hlt⟩
    by_cases hfresh : e.Fresh e.distance.receiptNs receipt
    · rw [if_neg (not_not.2 hfresh)]
      exact ⟨⟨h.wired.core, h.wired.legacy, h.wired.timeout⟩, rfl, rfl, ⟨fun ha => ⟨ha, hahead ha⟩, And.left⟩,
        fun _ => rfl, fun ha => (h.linked.baseline ha).trans (if_pos hfresh).symm⟩
    · rw [if_pos hfresh]
      exact ⟨⟨h.wired.core, h.wired.legacy, h.wired.timeout⟩, rfl, rfl, ⟨fun ha => ⟨ha, hahead ha⟩, And.left⟩,
        fun _ => rfl, fun _ => (if_neg hfresh).symm⟩

/-- A good packet. -/
structure Good (receipt : Int) (next : Distance) : Prop where
  valid : next.valid = true
  stamp : next.receiptNs = receipt
  positive : ¬ receipt ≤ 0

section Renew
variable {next : Distance} {component : UInt8}

theorem Renewed.dated {d : ObservationEngine} (hr : Renewed next component receipt e d) (hg : Good receipt next)
    (hpast : e.lastReceiptNs ≤ max receipt 0) : d.Dated receipt := by
  have hdistance : d.distance = next := congrArg (·.distance) hr.encoder
  refine ⟨hr.last ▸ hpast, fun hle => absurd hle hg.positive, ?_, ?_⟩
  · rw [hdistance, hg.stamp]
    exact fun _ => Int.not_le.1 hg.positive
  · rw [hdistance, hg.stamp]
    exact fun _ => le_rfl

/-- The encoder is selected with a new distance exactly if it is drivable. -/
theorem Renewed.selected {d : ObservationEngine} (hr : Renewed next component receipt e d) (hg : Good receipt next) :
    d.selected receipt = .wheelDistance ↔ e.encoder.Drivable := by
  have hdistance : d.distance = next := congrArg (·.distance) hr.encoder
  have hvalid : d.distance.valid = true := by rw [hdistance, hg.valid]
  have hfresh : d.Fresh d.distance.receiptNs receipt := by
    rw [hdistance, hg.stamp]
    have := d.config.timeout_pos
    exact ⟨Int.not_le.1 hg.positive, le_rfl, by omega⟩
  rw [selected_wheelDistance _ hr.wired]
  simp only [hvalid, hfresh, and_true]
  rw [hr.encoder]
  rfl

/-- An engine that selects the encoder with the baseline `next`. -/
theorem Renewed.based {d : ObservationEngine} (hr : Renewed next component receipt e d) (hg : Good receipt next)
    (hpast : e.lastReceiptNs ≤ max receipt 0) (hdrive : e.encoder.Drivable) (core : WheelOdometryCore)
    (hcore : core.geometry = d.core.geometry) (hsample : core.lastSampleNs ≤ next.timeUs * 1000)
    (hreceipt : core.lastReceiptNs ≤ next.receiptNs) (published : Side → Nat) :
    Tracked receipt { d with
      core := core, published := published, distanceBaseline := some next, active := .wheelDistance } := by
  have hdistance : d.distance = next := congrArg (·.distance) hr.encoder
  have hdated := hr.dated hg hpast
  refine ⟨⟨hcore.trans hr.wired.core, hr.wired.legacy, hr.wired.timeout⟩, ⟨fun _ => ?_, fun _ => ?_, fun _ => ?_⟩,
    ⟨hdated.past, hdated.early, hdated.received, hdated.stamped⟩, fun _ => ⟨?_, ?_⟩, fun _ _ _ => rfl⟩
  · exact congrArg some hdistance.symm
  · exact hdistance.symm ▸ hsample
  · exact hdistance.symm ▸ hreceipt
  · exact hdistance.symm ▸ hg.valid
  · change d.encoder.Drivable
    rw [hr.encoder]
    exact hdrive

/-- The implausible speed drops the distance, another one drives. -/
theorem driveDistance_matches (htracked : e.Tracked receipt) (hactive : e.active = .wheelDistance)
    {d : ObservationEngine}
    (hr : Renewed next component receipt e d) (hg : Good receipt next) (hd : d.active = .wheelDistance)
    (hfollows : e.encoder.Follows next) :
    Matches receipt ({ d with distanceBaseline := some next }.driveDistance e.distance next receipt)
      (e.encoder.renew next component) := by
  have hconfig : d.config = e.config := congrArg (·.config) hr.encoder
  unfold Encoder.renew
  rw [if_pos hfollows]
  unfold driveDistance
  by_cases hspeed : e.encoder.ImplausibleSpeed next
  · rw [if_pos hspeed, if_pos (show |speed e.distance next .left| > d.config.1.maxDistanceSpeedMps ∨ _ by
      rw [hconfig]; exact hspeed)]
    have hdrop := drop_matches (e := { d with distanceBaseline := some next }) receipt
      ⟨hr.wired.core, hr.wired.legacy, hr.wired.timeout⟩ (hr.last ▸ htracked.dated.past) hg.positive
    rw [show encoder { d with distanceBaseline := some next } = _ from hr.encoder] at hdrop
    exact hdrop
  · rw [if_neg hspeed, if_neg (show ¬ (|speed e.distance next .left| > d.config.1.maxDistanceSpeedMps ∨ _) by
      rw [hconfig]; exact hspeed)]
    obtain ⟨hdrive, ⟨hvalid, _⟩, hlater, _⟩ := hfollows
    have hlater : e.distance.timeUs < next.timeUs := hlater
    have hcore := hr.core hd
    have hstamped := htracked.dated.stamped hvalid
    have hsample := htracked.linked.sample hactive
    have hreceipt := htracked.linked.receipt hactive
    let motion : WheelMotionObservation := {
      leftMps := speed e.distance next .left, rightMps := speed e.distance next .right
      sampleStampNs := next.timeUs * 1000, receiptStampNs := receipt, source := .wheelDistance, valid := true }
    have haccepts : d.core.Accepts motion := by
      have hpos := hg.positive
      rw [hcore]
      exact ⟨(htracked.wired.drivable.1 hdrive).2.1.1, rfl, by simp [motion], by dsimp only [motion]; omega,
        Int.not_le.1 hpos, by dsimp only [motion]; omega⟩
    have hreceive : d.core.receiveMotion motion = _ := if_pos haccepts
    change Matches receipt ({ d with distanceBaseline := some next, core := (d.core.receiveMotion motion).1 },
      (d.core.receiveMotion motion).2) _
    rw [hreceive]
    refine ⟨?_, hr.encoder, ?_⟩
    · have hbased := hr.based hg htracked.dated.past hdrive
        { d.core with lastSampleNs := next.timeUs * 1000, lastReceiptNs := receipt }
        rfl le_rfl hg.stamp.ge d.published
      rw [← hd] at hbased
      exact hbased
    · have hwidth : d.core.geometry = e.config.1.geometry := by rw [hcore, htracked.wired.core]; rfl
      unfold WheelOdometryCore.drive Encoder.drive
      rw [hwidth, hg.stamp]
      rfl

/-- The encoder stays selected. -/
theorem renew_kept {d : ObservationEngine} (htracked : e.Tracked receipt) (hg : Good receipt next)
    (hnew : ¬ (e.distance.valid = true ∧ next.timeUs = e.distance.timeUs))
    (hr : Renewed next component receipt e d) (hdrive : e.encoder.Drivable) (hkept : d.active = .wheelDistance) :
    Matches receipt ((d.reselect receipt).fromBaseline next receipt) (e.encoder.renew next component) := by
  have hpast := htracked.dated.past
  have hconfig : d.config = e.config := congrArg (·.config) hr.encoder
  have hnext := (hr.selected hg).2 hdrive
  obtain ⟨hactive, hback⟩ := hr.active.1 hkept
  obtain ⟨hvalid, _⟩ := htracked.live hactive
  have hlater : e.distance.timeUs < next.timeUs := by
    have : next.timeUs ≠ e.distance.timeUs := fun heq => hnew ⟨hvalid, heq⟩
    omega
  have hsame : d.reselect receipt = d := if_pos (hnext.trans hkept.symm)
  have hsample := htracked.linked.sample hactive
  have hreceipt := htracked.linked.receipt hactive
  have hstamped := htracked.dated.stamped hvalid
  have hbased := hr.based hg hpast hdrive d.core rfl (by rw [hr.core hkept]; omega)
    (by rw [hr.core hkept, hg.stamp]; omega) d.published
  rw [← hkept] at hbased
  rw [hsame]
  unfold fromBaseline
  rw [if_neg (not_not.2 hkept), hr.baseline hkept]
  by_cases hfresh : e.Fresh e.distance.receiptNs receipt
  · rw [if_pos hfresh]
    dsimp only
    by_cases hgap : next.timeUs - e.distance.timeUs > (e.config.1.timeoutNs / 1000).toNat
    · rw [if_pos (.inr (.inr (by rw [hconfig]; exact hgap)))]
      unfold Encoder.renew
      rw [if_neg fun hf : e.encoder.Follows next => Nat.not_le.2 hgap hf.2.2.2]
      exact ⟨hbased, hr.encoder, rfl⟩
    · rw [if_neg]
      · exact driveDistance_matches htracked hactive hr hg hkept
          ⟨hdrive, ⟨hvalid, by rw [hg.stamp]; exact hfresh⟩, hlater, Nat.not_lt.1 hgap⟩
      · rw [hconfig, hg.stamp]
        omega
  · rw [if_neg hfresh]
    unfold Encoder.renew
    rw [if_neg fun hf : e.encoder.Follows next => hfresh (hg.stamp ▸ hf.2.1.2)]
    exact ⟨hbased, hr.encoder, rfl⟩

/-- The encoder is selected again, and starts with the baseline `next`. -/
theorem renew_again {d : ObservationEngine} (htracked : e.Tracked receipt) (hg : Good receipt next)
    (hr : Renewed next component receipt e d) (hdrive : e.encoder.Drivable) (hkept : d.active ≠ .wheelDistance) :
    Matches receipt ((d.reselect receipt).fromBaseline next receipt) (e.encoder.renew next component) := by
  have hpast := htracked.dated.past
  have hnext := (hr.selected hg).2 hdrive
  have hfollows : ¬ e.encoder.Follows next := by
    rintro ⟨_, ⟨hvalid, hfresh⟩, hlater, _⟩
    rw [hg.stamp] at hfresh
    exact hkept (hr.active.2 ⟨htracked.chosen hvalid hfresh hdrive, Nat.not_lt.2 (Nat.le_of_lt hlater)⟩)
  have hdistance : d.distance = next := congrArg (·.distance) hr.encoder
  have hselect : d.reselect receipt = { d with
      core := d.core.reset, published := d.floors .wheelDistance false fun _ => 0
      distanceBaseline := some next, active := .wheelDistance } := by
    unfold reselect select selectAs
    rw [hnext, if_neg (Ne.symm hkept), if_pos rfl, hdistance]
  rw [hselect]
  unfold fromBaseline Encoder.renew
  rw [if_neg (not_not.2 rfl), if_neg hfollows]
  dsimp only
  rw [if_pos (.inl le_rfl)]
  refine ⟨hr.based hg hpast hdrive d.core.reset rfl ?_ ?_ _, hr.encoder, rfl⟩
  · exact Int.mul_nonneg (Int.natCast_nonneg _) (by decide)
  · rw [hg.stamp]
    exact (Int.not_le.1 hg.positive).le

/-- An encoder that cannot be driven is not selected. -/
theorem renew_idle {d : ObservationEngine} (htracked : e.Tracked receipt) (hg : Good receipt next)
    (hr : Renewed next component receipt e d) (hdrive : ¬ e.encoder.Drivable) :
    Matches receipt ((d.reselect receipt).fromBaseline next receipt) (e.encoder.renew next component) := by
  have hnext : d.selected receipt ≠ .wheelDistance := fun h => hdrive ((hr.selected hg).1 h)
  have htracked' : (d.reselect receipt).Tracked receipt := by
    refine select_tracked hr.wired (fun hsame => ?_) (hr.dated hg htracked.dated.past)
    rw [hsame] at hnext
    exact ⟨(absurd · hnext), (absurd · hnext), (absurd · hnext)⟩
  have hactive : (d.reselect receipt).active ≠ .wheelDistance := fun ha => by
    have := (htracked'.live ha).2
    rw [reselect, select_encoder, hr.encoder] at this
    exact hdrive this
  unfold fromBaseline Encoder.renew
  rw [if_pos hactive, if_neg fun hf : e.encoder.Follows next => hdrive hf.1]
  exact ⟨htracked', by rw [reselect, select_encoder, hr.encoder], rfl⟩

theorem renew_matches (component : UInt8) (htracked : e.Tracked receipt) (hg : Good receipt next)
    (hnew : ¬ (e.distance.valid = true ∧ next.timeUs = e.distance.timeUs)) :
    Matches receipt (((e.renewDistance next component receipt).reselect receipt).fromBaseline next receipt)
      (e.encoder.renew next component) := by
  have hr := renewDistance_renewed htracked next component receipt
  by_cases hdrive : e.encoder.Drivable
  · by_cases hkept : (e.renewDistance next component receipt).active = .wheelDistance
    · exact renew_kept htracked hg hnew hr hdrive hkept
    · exact renew_again htracked hg hr hdrive hkept
  · exact renew_idle htracked hg hr hdrive

end Renew

theorem readDistance_good {packet : DistancePacket} {next : Distance} (h : e.readDistance packet receipt = some next)
    (hpos : ¬ receipt ≤ 0) : Good receipt next := by
  unfold readDistance at h
  split at h
  · obtain rfl := Option.some.inj h
    exact ⟨rfl, rfl, hpos⟩
  · cases h

theorem receiveDistance_matches (htracked : e.Tracked receipt) {next : Distance} (hg : Good receipt next)
    (component : UInt8) : Matches receipt (e.receiveDistance next component receipt)
      (if e.encoder.distance.valid ∧ next.timeUs = e.encoder.distance.timeUs then
        if next.wheel .left ≠ e.encoder.distance.wheel .left ∨
        next.wheel .right ≠ e.encoder.distance.wheel .right then
          (e.encoder.drop, none)
        else (e.encoder, none)
      else e.encoder.renew next component) := by
  rw [show e.encoder.distance = e.distance from rfl]
  unfold receiveDistance
  by_cases hold : e.distance.valid = true ∧ next.timeUs = e.distance.timeUs
  · rw [if_pos hold, if_pos hold]
    by_cases hcontra : next.wheel .left ≠ e.distance.wheel .left ∨ next.wheel .right ≠ e.distance.wheel .right
    · rw [if_pos hcontra, if_pos hcontra]
      exact drop_matches _ htracked.wired htracked.dated.past hg.positive
    · rw [if_neg hcontra, if_neg hcontra]
      exact ⟨htracked, rfl, rfl⟩
  · rw [if_neg hold, if_neg hold]
    exact renew_matches _ htracked hg hold

/-- An accepted packet, of the producer as it was or of another one. -/
theorem accepted_matches (h : e.Tracked receipt) (packet : DistancePacket) (hpos : ¬ receipt ≤ 0) :
    Matches receipt
      (match e.readDistance packet receipt with
      | none => (e.dropDistance.reselect receipt, none)
      | some next => e.receiveDistance next packet.componentId receipt)
      (match e.encoder.engine.readDistance packet receipt with
      | none => (e.encoder.drop, none)
      | some next =>
        if e.encoder.distance.valid ∧ next.timeUs = e.encoder.distance.timeUs then
          if next.wheel .left ≠ e.encoder.distance.wheel .left ∨
          next.wheel .right ≠ e.encoder.distance.wheel .right then
            (e.encoder.drop, none)
          else (e.encoder, none)
        else e.encoder.renew next packet.componentId) := by
  rw [show e.encoder.engine.readDistance packet receipt = e.readDistance packet receipt from rfl]
  cases hread : e.readDistance packet receipt with
  | none => exact drop_matches _ h.wired h.dated.past hpos
  | some next => exact receiveDistance_matches h (readDistance_good hread hpos) packet.componentId

/-- `wheel_distance` is the encoder's. -/
theorem wheelDistance_matches (h : e.Tracked receipt) (packet : DistancePacket) :
    Matches receipt (e.wheelDistance packet receipt) (e.encoder.receive packet receipt) := by
  unfold wheelDistance
  by_cases hrefuse : ¬ e.connected ∨ receipt ≤ 0
  · rw [if_pos hrefuse]
    have hrefuses : e.encoder.Refuses packet.componentId receipt := hrefuse.elim .inl fun hr => .inr (.inl hr)
    unfold Encoder.receive
    rw [if_pos hrefuses]
    exact ⟨h, rfl, rfl⟩
  · have hpos : ¬ receipt ≤ 0 := fun hr => hrefuse (.inr hr)
    rw [if_neg hrefuse, h.clock hpos]
    have h := h.received
    change Matches receipt _ ((e.received receipt).encoder.receive packet receipt)
    have hconnected : ¬ ¬ (e.received receipt).connected := fun hc => hrefuse (.inl hc)
    generalize e.received receipt = e at h hconnected ⊢
    dsimp only
    unfold acceptDistance Encoder.receive
    have hallows (hexcludes : ¬ (0 ≤ e.config.1.wheelDistanceComponentId ∧
        (packet.componentId.toNat : Int) ≠ e.config.1.wheelDistanceComponentId))
        (hlive : ¬ (e.encoder.Other packet.componentId ∧ e.encoder.Live receipt)) :
        ¬ e.encoder.Refuses packet.componentId receipt := by
      rintro (hr | hr | hr | hr)
      · exact hconnected hr
      · exact hpos hr
      · exact hexcludes hr
      · exact hlive hr
    by_cases hexcludes : 0 ≤ e.config.1.wheelDistanceComponentId ∧
        (packet.componentId.toNat : Int) ≠ e.config.1.wheelDistanceComponentId
    · have hrefuses : e.encoder.Refuses packet.componentId receipt := .inr (.inr (.inl hexcludes))
      rw [if_pos hexcludes, if_pos hrefuses]
      exact ⟨h, rfl, rfl⟩
    · rw [if_neg hexcludes]
      by_cases hother : e.distanceComponent.any (· ≠ packet.componentId) = true
      · rw [if_pos hother]
        by_cases hlive : e.distance.valid = true ∧ e.Fresh e.distance.receiptNs receipt
        · have hrefuses : e.encoder.Refuses packet.componentId receipt := .inr (.inr (.inr ⟨hother, hlive⟩))
          rw [if_pos hlive, if_pos hrefuses]
          exact ⟨h, rfl, rfl⟩
        · rw [if_neg hlive, if_neg (hallows hexcludes fun hr => hlive hr.2),
            if_pos (show e.encoder.Other packet.componentId from hother)]
          exact accepted_matches (resetDistance_tracked h) packet hpos
      · rw [if_neg hother, if_neg (hallows hexcludes fun hr => hother hr.1),
          if_neg (show ¬ e.encoder.Other packet.componentId from hother)]
        exact accepted_matches h packet hpos

end ObservationEngine

/-! ### Runs -/

def Call.isDistance : Call → Bool
  | .wheelDistance _ => true
  | _ => false

/-- The four messages of the ESC producers. -/
def Call.isEsc : Call → Bool
  | .commonStatus _ | .commonInfo _ | .legacyEsc _ | .legacyRpm _ _ => true
  | _ => false

/-- The encoder answers to WHEEL_DISTANCE. -/
def Encoder.machine : Machine Encoder (Call × Int) Answer :=
  ⟨fun n c => ((n.step c).1, if c.1.isDistance then [(c, (n.step c).2)] else [])⟩

section Runs
variable {e : ObservationEngine} {c : Call × Int} {t : Int}

/-- A call does to the encoder in the engine what it does to the encoder by itself. -/
theorem step_tracks (h : e.Tracked c.2) : (e.step c).1.Tracked c.2 ∧ (e.step c).1.encoder = (e.encoder.step c).1 ∧
    (c.1.isDistance = true → (e.step c).2 = (e.encoder.step c).2) := by
  obtain ⟨call, now⟩ := c
  cases call with
  | commonStatus packet =>
    obtain ⟨htracked, hencoder⟩ := commonStatus_passes h packet
    exact ⟨htracked, hencoder, nofun⟩
  | commonInfo packet =>
    obtain ⟨htracked, hencoder⟩ := commonInfo_passes h packet
    exact ⟨htracked, hencoder, nofun⟩
  | legacyEsc packet =>
    obtain ⟨htracked, hencoder⟩ := legacyEscTelemetry_passes h packet
    exact ⟨htracked, hencoder, nofun⟩
  | legacyRpm left right =>
    obtain ⟨htracked, hencoder⟩ := legacyRpm_passes h left right
    exact ⟨htracked, hencoder, nofun⟩
  | wheelDistance packet =>
    have hmatches := wheelDistance_matches h packet
    exact ⟨hmatches.tracked, hmatches.encoder, fun _ => hmatches.result⟩
  | poll =>
    obtain ⟨htracked, hencoder⟩ := poll_passes h
    exact ⟨htracked, hencoder, nofun⟩
  | connection connected => exact ⟨connection_tracked h connected, rfl, nofun⟩
  | replace config retainLegacyTicks => exact ⟨replace_tracked h config now retainLegacyTicks, rfl, nofun⟩

theorem reach_tracked (config : ValidConfig) {run : List (Call × Int)} (h : Clocked run) (ht : ∀ a ∈ run, a.2 ≤ t) :
    (reach config run).Tracked t := by
  refine run_induction (P := fun run e => ∀ t, (∀ a ∈ run, a.2 ≤ t) → e.Tracked t) config
    (fun t _ => ofConfig_tracked config t) ?_ h t ht
  intro run c hclock _ ih t ht
  exact (step_tracks (ih c.2 (clocked_snoc.1 hclock).2)).1.mono (ht c (by simp))

/-- The engine's answers to WHEEL_DISTANCE are the encoder's. -/
theorem log_encoder (h : e.Tracked t) {later : List (Call × Int)} (hfirst : ∀ a ∈ later, t ≤ a.2)
    (hsorted : Clocked later) :
    (Odometry.machine.log e later).filter (·.1.1.isDistance) = Encoder.machine.log e.encoder later := by
  induction later generalizing e t with
  | nil => rfl
  | cons c later ih =>
    obtain ⟨hc, hlater⟩ := List.pairwise_cons.1 hsorted
    obtain ⟨htracked, hencoder, hresult⟩ := step_tracks (h.mono (hfirst c (by simp)))
    have ih := ih htracked hc hlater
    rw [hencoder] at ih
    rw [Machine.log_cons, Machine.log_cons, List.filter_append]
    refine congrArg₂ (· ++ ·) ?_ ih
    cases hdistance : c.1.isDistance with
    | true => simp [Odometry.machine, Encoder.machine, hdistance, hresult hdistance]
    | false => simp [Odometry.machine, Encoder.machine, hdistance]

/-- The encoder does not see the ESC messages. -/
theorem encoder_ignores (n : Encoder) (later : List (Call × Int)) :
    Encoder.machine.log n (later.filter fun c => !c.1.isEsc) = Encoder.machine.log n later := by
  induction later generalizing n with
  | nil => rfl
  | cons c later ih =>
    cases hesc : c.1.isEsc with
    | false =>
      rw [List.filter_cons_of_pos (by simp [hesc]), Machine.log_cons, Machine.log_cons, ih]
    | true =>
      have hsilent : Encoder.machine.step n c = (n, []) := by
        obtain ⟨call, now⟩ := c
        cases call <;> first | rfl | cases hesc
      rw [List.filter_cons_of_neg (by simp [hesc]), Machine.log_cons, hsilent]
      exact ih n

end Runs

end Odometry
end MowgliMavros
