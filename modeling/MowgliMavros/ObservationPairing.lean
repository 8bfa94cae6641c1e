import MowgliMavros.Encoder
import MowgliMavros.ObservationOwner
import MowgliMavros.PairingLaw

/-!
# COMMON pairing along a run

`Fenced` is the invariant behind the law: a cached sample that the law would not let be paired is barred
by the floors, by the configuration time or by the baseline of a new epoch. Calls that record nothing are
`Calm`; `common_status` records and pairs. The one step that leaves a cached sample unbarred is
`SilentTakeover`.
-/

namespace MowgliMavros
namespace Odometry
namespace ObservationEngine
variable {e e' e'' : ObservationEngine} {t receipt now : Int} {x : PairMemory} {side : Side}

/-- The wheel's cached sample is not paired before another one comes. -/
def Barred (e : ObservationEngine) (side : Side) : Prop :=
  e.commonEpochBaselineNeeded = true ∨ (e.wheelStatus side).data.stampNs ≤ e.commonConfigurationNs ∨
    e.wheelTime side ≤ e.published side

/-- A valid wheel of the integrator holds the sample of its slot. -/
structure Synced (e : ObservationEngine) (side : Side) : Prop where
  seen : (e.wheelStatus side).seen = true
  sample : (e.commonMotorTicks.wheels side).sampleNs = e.wheelTime side * 1000
  receipt : (e.commonMotorTicks.wheels side).receiptNs = (e.wheelStatus side).data.stampNs
  rate : (e.commonMotorTicks.wheels side).ticksPerSecond = (e.wheelStatus side).data.rpm / 60

theorem Synced.congr (h : e.Synced side) (hstatus : e'.wheelStatus side = e.wheelStatus side)
    (hwheel : e'.commonMotorTicks.wheels side = e.commonMotorTicks.wheels side) : e'.Synced side := by
  have htime : e'.wheelTime side = e.wheelTime side := congrArg Status.timeUs hstatus
  exact ⟨by rw [hstatus]; exact h.seen, by rw [hwheel, htime]; exact h.sample,
    by rw [hwheel, hstatus]; exact h.receipt,
    by rw [hwheel, hstatus]; exact h.rate⟩

structure Fenced (t : Int) (x : PairMemory) (e : ObservationEngine) : Prop where
  timeout : e.commonMotorTicks.timeoutNs = e.config.1.timeoutNs
  stored : ∀ slot, (e.status slot).seen = true → e.commonComponent ≠ none
  sample : ∀ slot, (e.status slot).seen = true → x.sample slot = some (e.status slot).sample
  stamped : ∀ slot, (e.status slot).seen = true → (e.status slot).data.stampNs ≤ t
  configured : ∀ slot, (e.status slot).seen = true →
    x.configured slot = true ∨ (e.status slot).data.stampNs ≤ e.commonConfigurationNs
  settled : e.CommonMapping → ∀ side, (e.wheelStatus side).seen = true → x.settled (e.slot side) = true ∨
    e.Barred side
  previous : e.CommonMapping → ∀ times ∈ x.previous, ∀ side, (e.wheelStatus side).seen = true ∧
    (times side < e.wheelTime side ∨ times side ≤ e.wheelTime side ∧ e.Barred side)
  synced : e.CommonMapping → ∀ side, (e.commonMotorTicks.wheels side).valid = true → e.Synced side

/-! ### Calls that record nothing -/

/-- From `e` to `e'` the samples and the epoch stay, and the floors rise to cached samples only, which
they do when WHEEL_DISTANCE or the legacy source ends. -/
structure Calm (e e' : ObservationEngine) : Prop where
  config : e'.config = e.config
  status : ∀ slot, (e.status slot).Revalues (e'.status slot)
  component : e'.commonComponent = none → e.commonComponent = none
  ticks : e'.commonMotorTicks = e.commonMotorTicks
  needed : e'.commonEpochBaselineNeeded = e.commonEpochBaselineNeeded
  configuration : e'.commonConfigurationNs = e.commonConfigurationNs
  floors : ∀ side, e'.published side = e.published side ∨ e'.published side = e.wheelTime side
  fences : e.CommonMapping → (e.active = .wheelDistance ∨ e.active = .ardupilotLegacy) → e'.active ≠ e.active →
    ∀ side, e.wheelTime side ≤ e'.published side

namespace Calm

theorem slot (h : e.Calm e') (side : Side) : e'.slot side = e.slot side := by
  unfold ObservationEngine.slot geometry
  rw [h.config]

theorem mapping (h : e.Calm e') : e'.CommonMapping ↔ e.CommonMapping := by
  unfold CommonMapping geometry
  rw [h.config]

theorem wheel (h : e.Calm e') (side : Side) : (e.wheelStatus side).Revalues (e'.wheelStatus side) := by
  unfold wheelStatus
  rw [h.slot]
  exact h.status _

theorem time (h : e.Calm e') (side : Side) : e'.wheelTime side = e.wheelTime side := by
  obtain ⟨_, heq⟩ := h.wheel side
  unfold wheelTime
  rw [heq]

theorem stamp (h : e.Calm e') (side : Side) :
    (e'.wheelStatus side).data.stampNs = (e.wheelStatus side).data.stampNs := by
  obtain ⟨_, heq⟩ := h.wheel side
  rw [heq]

theorem rpm (h : e.Calm e') (side : Side) : (e'.wheelStatus side).data.rpm = (e.wheelStatus side).data.rpm := by
  obtain ⟨_, heq⟩ := h.wheel side
  rw [heq]

theorem refl (e : ObservationEngine) : e.Calm e :=
  ⟨rfl, fun _ => .refl _, id, rfl, rfl, rfl, fun _ => .inl rfl, fun _ _ h => absurd rfl h⟩

theorem trans (h : e.Calm e') (h' : e'.Calm e'') : e.Calm e'' where
  config := h'.config.trans h.config
  status slot := by
    obtain ⟨_, heq⟩ := h.status slot
    obtain ⟨valid, heq'⟩ := h'.status slot
    exact ⟨valid, by rw [heq', heq]⟩
  component hnone := h.component (h'.component hnone)
  ticks := h'.ticks.trans h.ticks
  needed := h'.needed.trans h.needed
  configuration := h'.configuration.trans h.configuration
  floors side := by
    rcases h'.floors side with hf | hf
    · rw [hf]
      exact h.floors side
    · exact .inr (hf.trans (h.time side))
  fences hmap hactive hends side := by
    by_cases hstays : e'.active = e.active
    · have := h'.fences (h.mapping.2 hmap) (hstays ▸ hactive) (hstays ▸ hends) side
      rwa [h.time] at this
    · rcases h'.floors side with hf | hf
      · rw [hf]
        exact h.fences hmap hactive hstays side
      · rw [hf, h.time]

theorem barred (h : e.Calm e') (hb : e.Barred side) : e'.Barred side := by
  unfold Barred
  rw [h.needed, h.configuration, h.stamp, h.time]
  rcases hb with hb | hb | hb
  · exact .inl hb
  · exact .inr (.inl hb)
  · rcases h.floors side with hf | hf
    · exact .inr (.inr (by rw [hf]; exact hb))
    · exact .inr (.inr (by rw [hf]))

/-- What has been fenced stays fenced. -/
theorem fenced (h : e.Calm e') (hf : Fenced t x e) : Fenced t x e' where
  timeout := by rw [h.ticks, h.config, hf.timeout]
  stored slot hseen hnone := hf.stored slot ((h.status slot).seen ▸ hseen) (h.component hnone)
  sample slot hseen := by
    obtain ⟨_, heq⟩ := h.status slot
    rw [hf.sample slot ((h.status slot).seen ▸ hseen), heq]
    rfl
  stamped slot hseen := by
    obtain ⟨_, heq⟩ := h.status slot
    have := hf.stamped slot ((h.status slot).seen ▸ hseen)
    rw [heq]
    exact this
  configured slot hseen := by
    obtain ⟨_, heq⟩ := h.status slot
    have := hf.configured slot ((h.status slot).seen ▸ hseen)
    rw [heq, h.configuration]
    exact this
  settled hmap side hseen := by
    rw [h.slot]
    exact (hf.settled (h.mapping.1 hmap) side ((h.wheel side).seen ▸ hseen)).imp_right h.barred
  previous hmap times htimes side := by
    obtain ⟨hseen, hold⟩ := hf.previous (h.mapping.1 hmap) times htimes side
    rw [(h.wheel side).seen, h.time]
    exact ⟨hseen, hold.imp_right (And.imp_right h.barred)⟩
  synced hmap side hvalid := by
    have hs := hf.synced (h.mapping.1 hmap) side (h.ticks ▸ hvalid)
    exact ⟨(h.wheel side).seen.trans hs.seen, by rw [h.ticks, h.time]; exact hs.sample,
      by rw [h.ticks, h.stamp]; exact hs.receipt, by rw [h.ticks, h.rpm]; exact hs.rate⟩

end Calm

/-- The floors after a change to `next`: as before, the cached samples, or `previous` on a change to COMMON. -/
theorem floors_cases (e : ObservationEngine) (next : WheelSource) (commonUpdate : Bool) (previous : Side → Nat) :
    e.floors next commonUpdate previous = e.published ∨ e.floors next commonUpdate previous = e.wheelTime ∨
      e.CommonMapping ∧ commonUpdate = true ∧ e.floors next commonUpdate previous = previous := by
  unfold floors
  split
  · exact .inl rfl
  · rename_i hmap
    split
    · exact .inr (.inl rfl)
    · rename_i hcached
      split
      · rename_i hesc
        have hupdate : commonUpdate = true := by
          by_contra h
          exact hcached (.inr ⟨hesc.1, h⟩)
        exact .inr (.inr ⟨not_not.1 hmap, hupdate, rfl⟩)
      · exact .inl rfl

/-- Leaving WHEEL_DISTANCE or the legacy source raises the floors. -/
theorem floors_ends (next : WheelSource) (commonUpdate : Bool) (previous : Side → Nat) (hmap : e.CommonMapping)
    (hactive : e.active = .wheelDistance ∨ e.active = .ardupilotLegacy) :
    e.floors next commonUpdate previous = e.wheelTime ∨
      commonUpdate = true ∧ e.floors next commonUpdate previous = previous := by
  have hesc : e.active ≠ .escStatus := by rcases hactive with h | h <;> simp [h]
  have hnone : e.active ≠ .none := by rcases hactive with h | h <;> simp [h]
  unfold floors
  rw [if_neg (not_not.2 hmap)]
  split
  · exact .inl rfl
  · rename_i hcached
    have hnext : next = .escStatus := by
      by_contra h
      exact hcached (.inl ⟨h, .inr hesc⟩)
    have hupdate : commonUpdate = true := by
      by_contra h
      exact hcached (.inr ⟨hnext, h⟩)
    exact .inr ⟨hupdate, if_pos ⟨hnext, hnone⟩⟩

theorem floors_enters {next : WheelSource} {previous : Side → Nat} (hmap : e.CommonMapping) (hnext : next ≠ .none) :
    e.floors next false previous = e.wheelTime := by
  unfold floors
  rw [if_neg (not_not.2 hmap), if_pos]
  by_cases hesc : next = .escStatus
  · exact .inr ⟨hesc, by decide⟩
  · exact .inl ⟨hesc, .inl hnext⟩

theorem selectAs_calm (e : ObservationEngine) (next : WheelSource) (previous : Side → Nat) :
    e.Calm (e.selectAs next false previous) := by
  unfold selectAs
  split
  · exact .refl e
  · refine ⟨rfl, fun _ => .refl _, id, rfl, rfl, rfl, fun side => ?_, fun hmap hactive _ side => ?_⟩
    · rcases e.floors_cases next false previous with hf | hf | ⟨_, hupdate, _⟩
      · exact .inl (congrFun hf side)
      · exact .inr (congrFun hf side)
      · cases hupdate
    · rcases floors_ends next false previous hmap hactive with hf | ⟨hupdate, _⟩
      · exact (congrFun hf side).ge
      · cases hupdate

theorem reselect_calm (e : ObservationEngine) (now : Int) : e.Calm (e.reselect now) := e.selectAs_calm _ _

/-- What the encoder and the legacy source keep is not COMMON's. -/
theorem calm_aside (e : ObservationEngine) (core : WheelOdometryCore) (legacy : LegacyWheelAdapter)
    (legacyMotorTicks : MotorTickIntegrator) (legacyEsc : Nat → Legacy) (lastReceiptNs : Int) (distance : Distance)
    (distanceComponent : Option UInt8) (distanceBaseline : Option Distance)
    (legacyMotion : Option WheelMotionObservation) :
    e.Calm { e with
      core := core, legacy := legacy, legacyMotorTicks := legacyMotorTicks, legacyEsc := legacyEsc
      lastReceiptNs := lastReceiptNs, distance := distance, distanceComponent := distanceComponent
      distanceBaseline := distanceBaseline, legacyMotion := legacyMotion } :=
  ⟨rfl, fun _ => .refl _, id, rfl, rfl, rfl, fun _ => .inl rfl, fun _ _ h => absurd rfl h⟩

theorem received_calm (e : ObservationEngine) (last : Int) : e.Calm (e.received last) := calm_aside ..

theorem dropDistance_calm (e : ObservationEngine) : e.Calm e.dropDistance := calm_aside ..

theorem driveDistance_calm (e : ObservationEngine) (baseline next : Distance) (receipt : Int) :
    e.Calm (e.driveDistance baseline next receipt).1 := by
  unfold driveDistance
  split
  · exact e.dropDistance_calm.trans (reselect_calm _ _)
  · exact calm_aside ..

theorem fromBaseline_calm (e : ObservationEngine) (next : Distance) (receipt : Int) :
    e.Calm (e.fromBaseline next receipt).1 := by
  unfold fromBaseline
  split
  · exact .refl e
  · split
    · exact calm_aside ..
    · dsimp only
      split
      · exact calm_aside ..
      · exact (calm_aside ..).trans (driveDistance_calm _ _ _ _)

/-! ### WHEEL_DISTANCE -/

/-- Another encoder takes over a stale one that is still active, with a packet that is no distance, while
no source is available and a COMMON sample above its floor is cached. -/
def SilentTakeover (e : ObservationEngine) : Call × Int → Prop
  | (.wheelDistance packet, receipt) =>
    e.active = .wheelDistance ∧ e.distanceComponent.any (· ≠ packet.componentId) = true ∧
      ¬ (0 ≤ e.config.1.wheelDistanceComponentId ∧
      (packet.componentId.toNat : Int) ≠ e.config.1.wheelDistanceComponentId) ∧
      ¬ (e.distance.valid = true ∧ e.Fresh e.distance.receiptNs receipt) ∧ e.readDistance packet receipt = none ∧
      e.resetDistance.selected receipt = .none ∧ e.CommonMapping ∧ ¬ ∀ side, e.wheelTime side ≤ e.published side
  | _ => False

instance : ∀ c, Decidable (e.SilentTakeover c)
  | (.wheelDistance _, _) => inferInstanceAs (Decidable (_ ∧ _))
  | (.commonStatus _, _) | (.commonInfo _, _) | (.legacyEsc _, _) | (.legacyRpm _ _, _) | (.poll, _)
  | (.connection _, _) | (.replace _ _, _) => inferInstanceAs (Decidable False)

/-- After `reset_distance` the engine is calm again if a stopped encoder has been fenced. -/
theorem Calm.of_resetDistance (h : e.resetDistance.Calm e')
    (hends : e.active = .wheelDistance → e'.active ≠ .wheelDistance → e.CommonMapping →
      ∀ side, e.wheelTime side ≤ e'.published side) : e.Calm e' where
  config := h.config
  status := h.status
  component := h.component
  ticks := h.ticks
  needed := h.needed
  configuration := h.configuration
  floors := h.floors
  fences hmap hactive hends' side := by
    rcases hactive with hactive | hactive
    · exact hends hactive (hactive ▸ hends') hmap side
    · have hstays : e.resetDistance.active = .ardupilotLegacy := by
        unfold resetDistance
        rw [hactive]
        rfl
      exact h.fences hmap (.inr hstays) (by rw [hstays, ← hactive]; exact hends') side

/-- A drivable encoder is active after a distance that does not follow the last one. -/
theorem renew_active {next : Distance} {component : UInt8} (h : e.Tracked receipt) (hg : Good receipt next)
    (hnew : ¬ (e.distance.valid = true ∧ next.timeUs = e.distance.timeUs)) (hdrive : e.encoder.Drivable)
    (hfollows : ¬ e.encoder.Follows next) :
    (((e.renewDistance next component receipt).reselect receipt).fromBaseline next receipt).1.active =
    .wheelDistance := by
  have hm := renew_matches component h hg hnew
  have hencoder := hm.encoder
  unfold Encoder.renew at hencoder
  rw [if_neg hfollows] at hencoder
  have hdistance := congrArg (·.distance) hencoder
  have hconfig := congrArg (·.config) hencoder
  dsimp only [encoder] at hdistance hconfig
  refine hm.tracked.chosen (by rw [hdistance, hg.valid]) ?_ (by rw [hencoder]; exact hdrive)
  rw [hdistance, hg.stamp]
  have := ValidConfig.timeout_pos
    (((e.renewDistance next component receipt).reselect receipt).fromBaseline next receipt).1.config
  exact ⟨Int.not_le.1 hg.positive, le_rfl, by omega⟩

theorem renewDistance_calm (e : ObservationEngine) (next : Distance) (component : UInt8) (receipt : Int) :
    (if e.distance.valid ∧ next.timeUs < e.distance.timeUs then e.resetDistance else e).Calm
      (e.renewDistance next component receipt) := by
  unfold renewDistance
  dsimp only
  generalize (if e.distance.valid = true ∧ next.timeUs < e.distance.timeUs then e.resetDistance else e) = b
  split
  · exact calm_aside ..
  · exact calm_aside ..

theorem receiveDistance_calm {next : Distance} (h : e.Tracked receipt) (hg : Good receipt next) (component : UInt8) :
    e.Calm (e.receiveDistance next component receipt).1 := by
  unfold receiveDistance
  split
  · split
    · exact e.dropDistance_calm.trans (reselect_calm _ _)
    · exact .refl e
  · rename_i hnew
    have hcalm := ((e.renewDistance_calm next component receipt).trans (reselect_calm _ receipt)).trans
      (fromBaseline_calm _ next receipt)
    by_cases hback : e.distance.valid = true ∧ next.timeUs < e.distance.timeUs
    · rw [if_pos hback] at hcalm
      refine hcalm.of_resetDistance fun hactive hends _ => absurd ?_ hends
      exact renew_active h hg hnew (h.live hactive).2 fun hf : e.encoder.Follows next =>
        Nat.lt_asymm hback.2 hf.2.2.1
    · rwa [if_neg hback] at hcalm

/-- An accepted packet, of the producer as it was or of another one. -/
theorem accepted_calm (h : e.Tracked receipt) (packet : DistancePacket) (hpos : ¬ receipt ≤ 0) :
    e.Calm (match e.readDistance packet receipt with
      | none => (e.dropDistance.reselect receipt, none)
      | some next => e.receiveDistance next packet.componentId receipt).1 := by
  cases hread : e.readDistance packet receipt with
  | none => exact e.dropDistance_calm.trans (reselect_calm _ _)
  | some next => exact receiveDistance_calm h (readDistance_good hread hpos) packet.componentId

/-- A takeover that stops the encoder fences the cached samples, unless it is silent. -/
theorem takeover_fences (h : e.Tracked receipt) {packet : DistancePacket} (hpos : ¬ receipt ≤ 0)
    (hloud : e.readDistance packet receipt = none → e.resetDistance.selected receipt = .none → e.CommonMapping →
      ∀ side, e.wheelTime side ≤ e.published side) (hactive : e.active = .wheelDistance) (hmap : e.CommonMapping)
    (hends : (match e.resetDistance.readDistance packet receipt with
      | none => (e.resetDistance.dropDistance.reselect receipt, none)
      | some next => e.resetDistance.receiveDistance next packet.componentId receipt).1.active ≠ .wheelDistance)
    (side : Side) : e.wheelTime side ≤ (match e.resetDistance.readDistance packet receipt with
      | none => (e.resetDistance.dropDistance.reselect receipt, none)
      | some next => e.resetDistance.receiveDistance next packet.componentId receipt).1.published side := by
  cases hread : e.resetDistance.readDistance packet receipt with
  | none =>
    have hidle : e.resetDistance.dropDistance.active = .none := by
      unfold dropDistance resetDistance
      rw [hactive]
      rfl
    dsimp only [reselect, select, selectAs]
    by_cases hnone : e.resetDistance.dropDistance.selected receipt = .none
    · rw [if_pos (hnone.trans hidle.symm)]
      exact hloud hread hnone hmap side
    · rw [if_neg (by rw [hidle]; exact hnone)]
      exact (congrFun (floors_enters (e := e.resetDistance.dropDistance) hmap hnone) side).ge
  | some next =>
    rw [hread] at hends
    have hg := readDistance_good hread hpos
    refine absurd ?_ hends
    dsimp only
    unfold receiveDistance
    rw [if_neg (by rintro ⟨hv, _⟩; cases hv)]
    exact renew_active (resetDistance_tracked h) hg (by rintro ⟨hv, _⟩; cases hv) (h.live hactive).2
      fun hf : e.resetDistance.encoder.Follows next => by cases hf.2.1.1

theorem wheelDistance_calm (h : e.Tracked receipt) {packet : DistancePacket}
    (hloud : ¬ e.SilentTakeover (.wheelDistance packet, receipt)) : e.Calm (e.wheelDistance packet receipt).1 := by
  unfold wheelDistance
  split
  · exact .refl e
  · rename_i hok
    have hpos : ¬ receipt ≤ 0 := fun hr => hok (.inr hr)
    have hreceived := h.received
    rw [h.clock hpos]
    refine (e.received_calm receipt).trans ?_
    have hloud : ¬ (e.received receipt).SilentTakeover (.wheelDistance packet, receipt) := hloud
    generalize e.received receipt = e at hreceived hloud ⊢
    dsimp only
    unfold acceptDistance
    by_cases hexcludes : 0 ≤ e.config.1.wheelDistanceComponentId ∧
        (packet.componentId.toNat : Int) ≠ e.config.1.wheelDistanceComponentId
    · rw [if_pos hexcludes]
      exact .refl e
    · rw [if_neg hexcludes]
      by_cases hother : e.distanceComponent.any (· ≠ packet.componentId) = true
      · rw [if_pos hother]
        by_cases hlive : e.distance.valid = true ∧ e.Fresh e.distance.receiptNs receipt
        · rw [if_pos hlive]
          exact .refl e
        · rw [if_neg hlive]
          refine (accepted_calm (resetDistance_tracked hreceived) packet hpos).of_resetDistance
            fun hactive hends hmap => ?_
          refine takeover_fences hreceived hpos (fun hread hnone _ => ?_) hactive hmap hends
          by_contra hbelow
          exact hloud ⟨hactive, hother, hexcludes, hlive, hread, hnone, hmap, hbelow⟩
      · rw [if_neg hother]
        exact accepted_calm hreceived packet hpos

/-! ### The other calls -/

theorem legacyEscTelemetry_calm (h : e.lastReceiptNs ≤ max receipt 0) (packet : LegacyEscPacket) :
    e.Calm (e.legacyEscTelemetry packet receipt) := by
  obtain heq | ⟨_, heq⟩ := legacyEscTelemetry_eq h packet
  · rw [heq]
    exact .refl e
  · rw [heq]
    exact calm_aside ..

theorem driveLegacy_calm (e : ObservationEngine) (motion : Option WheelMotionObservation) :
    e.Calm (e.driveLegacy motion).1 := by
  obtain ⟨_, h⟩ := e.driveLegacy_frame motion
  rw [h]
  exact calm_aside ..

theorem legacyRpm_calm (h : e.lastReceiptNs ≤ max receipt 0) (left right : Option Rat) :
    e.Calm (e.legacyRpm left right receipt).1 := by
  unfold legacyRpm
  split
  · exact .refl e
  · rename_i hok
    rw [receiveClock_eq (clock_of_receipt h fun hr => hok (.inr hr))]
    dsimp only
    split
    · obtain ⟨_, _, hreceive⟩ := receiveLegacy_frame { e with lastReceiptNs := receipt } _ receipt
      rw [hreceive]
      exact ((calm_aside ..).trans (reselect_calm _ receipt)).trans (driveLegacy_calm _ _)
    · exact (calm_aside ..).trans (reselect_calm _ receipt)

/-- No sample is left. -/
structure Cleared (e : ObservationEngine) : Prop where
  timeout : e.commonMotorTicks.timeoutNs = e.config.1.timeoutNs
  status : ∀ slot, (e.status slot).seen = false
  ticks : ∀ side, (e.commonMotorTicks.wheels side).valid = false

theorem Cleared.fenced (h : e.Cleared) (hx : x.previous = none) : Fenced t x e where
  timeout := h.timeout
  stored slot hseen := absurd hseen (by simp [h.status slot])
  sample slot hseen := absurd hseen (by simp [h.status slot])
  stamped slot hseen := absurd hseen (by simp [h.status slot])
  configured slot hseen := absurd hseen (by simp [h.status slot])
  settled _ side hseen := absurd hseen (by simp [wheelStatus, h.status])
  previous _ times htimes := by
    rw [hx] at htimes
    cases htimes
  synced _ side hvalid := absurd hvalid (by simp [h.ticks side])

theorem acceptCommonInfo_calm {a : ObservationEngine} {component : UInt8}
    (h : e.acceptCommonInfo component = some a) :
    e.Calm a ∨ a = { e.resetCommon with commonComponent := some component } := by
  obtain ⟨-, rfl⟩ | ⟨-, rfl⟩ := acceptCommonInfo_cases h
  · exact .inl ⟨rfl, fun _ => .refl _, nofun, rfl, rfl, rfl, fun _ => .inl rfl, fun _ _ h => absurd rfl h⟩
  · exact .inr rfl

theorem restartInfo_calm (e : ObservationEngine) (packet : CommonInfoPacket) : e.Calm (e.restartInfo packet) := by
  obtain ⟨_, h⟩ := e.restartInfo_frame packet
  rw [h]
  exact ⟨rfl, fun _ => .refl _, id, rfl, rfl, rfl, fun _ => .inl rfl, fun _ _ h => absurd rfl h⟩

theorem recordInfo_calm (e : ObservationEngine) (packet : CommonInfoPacket) (receipt : Int) :
    e.Calm (e.recordInfo packet receipt) := by
  obtain ⟨_, h⟩ := e.recordInfo_frame packet receipt
  rw [h]
  exact ⟨rfl, trimCount_status packet.count, id, rfl, rfl, rfl, fun _ => .inl rfl, fun _ _ h => absurd rfl h⟩

/-- The call is calm, or starts a new epoch without samples. -/
def CalmOrCleared (e e' : ObservationEngine) : Prop :=
  e.Calm e' ∨ ∃ a : ObservationEngine, a.Cleared ∧ a.commonMotorTicks.epoch ≠ e.commonMotorTicks.epoch ∧ a.Calm e'

theorem commonInfo_calm (htimeout : e.commonMotorTicks.timeoutNs = e.config.1.timeoutNs)
    (h : e.lastReceiptNs ≤ max receipt 0) (packet : CommonInfoPacket) :
    e.CalmOrCleared (e.commonInfo packet receipt) := by
  obtain heq | heq | ⟨a, b, ha, hb, heq⟩ := commonInfo_eq h packet
  · rw [heq]
    exact .inl (.refl e)
  · rw [heq]
    exact .inl (e.received_calm receipt)
  · have hrest : a.Calm (e.commonInfo packet receipt) := by
      rw [heq]
      rcases hb with rfl | rfl
      · exact (a.restartInfo_calm packet).trans (reselect_calm _ _)
      · exact (a.recordInfo_calm packet receipt).trans (reselect_calm _ _)
    rcases acceptCommonInfo_calm ha with hcalm | rfl
    · exact .inl (((e.received_calm receipt).trans hcalm).trans hrest)
    · exact .inr ⟨{ (e.received receipt).resetCommon with commonComponent := some packet.componentId },
        ⟨htimeout, fun _ => rfl, fun _ => rfl⟩, Nat.succ_ne_self _, hrest⟩

theorem poll_calm (htimeout : e.commonMotorTicks.timeoutNs = e.config.1.timeoutNs) (now : Int) :
    e.CalmOrCleared (e.poll now) := by
  unfold poll receiveClock
  split
  · exact .inr ⟨e.reset.received now, ⟨htimeout, fun _ => rfl, fun _ => rfl⟩, Nat.succ_ne_self _, reselect_calm _ _⟩
  · exact .inl ((e.received_calm now).trans (reselect_calm _ _))

theorem connection_calm (htimeout : e.commonMotorTicks.timeoutNs = e.config.1.timeoutNs) (connected : Bool) :
    e.CalmOrCleared (e.connection connected) :=
  .inr ⟨e.connection connected, ⟨htimeout, fun _ => rfl, fun _ => rfl⟩, Nat.succ_ne_self _, .refl _⟩

/-! ### What a call tells -/

theorem Fenced.mono {t' : Int} (h : Fenced t x e) (htt' : t ≤ t') : Fenced t' x e :=
  { h with stamped := fun slot hseen => (h.stamped slot hseen).trans htt' }

/-- A new epoch has no last pair. -/
theorem Fenced.epoch (h : Fenced t x e) (previous : Option (Side → Nat))
    (hprevious : previous = none ∨ previous = x.previous) : Fenced t { x with previous := previous } e := by
  rcases hprevious with rfl | rfl
  · exact { h with previous := fun _ _ htimes => by cases htimes }
  · exact h

theorem after_notices (e : ObservationEngine) (c : Call × Int) (x : PairMemory) :
    pairLaw.after x (e.notices c) = { x with
      previous := if e.Restarts c then none else x.previous
      settled := if e.Ends c then fun _ => false else x.settled } := by
  unfold notices
  split
  · split
    · rfl
    · rfl
  · split
    · rfl
    · rfl

theorem accepts_notices (e : ObservationEngine) (c : Call × Int) (x : PairMemory) :
    pairLaw.Accepts x (e.notices c) := by
  unfold notices
  split
  · split
    · exact ⟨trivial, trivial, trivial⟩
    · exact ⟨trivial, trivial⟩
  · split
    · exact ⟨trivial, trivial⟩
    · trivial

/-- A call that is calm, or that starts a new epoch without samples, keeps the invariant. -/
theorem Fenced.noticed {c : Call × Int} (hf : Fenced t x e) (h : e.CalmOrCleared (e.step c).1)
    (hrestarts : (e.step c).1.commonMotorTicks.epoch ≠ e.commonMotorTicks.epoch → e.Restarts c) :
    Fenced t (pairLaw.after x (e.notices c)) (e.step c).1 := by
  rw [after_notices]
  rcases h with hcalm | ⟨a, hcleared, hepoch, hcalm⟩
  · have hkept := (hcalm.fenced hf).epoch (if e.Restarts c then none else x.previous) (ite_eq_or_eq _ _ _)
    refine { hkept with settled := fun hmap side hseen => ?_ }
    by_cases hends : e.Ends c
    · have := hcalm.fences (hcalm.mapping.1 hmap) hends.1 hends.2 side
      exact .inr (.inr (.inr (by rwa [hcalm.time])))
    · have := hkept.settled hmap side hseen
      rwa [if_neg hends]
  · rw [if_pos (hrestarts (by rw [hcalm.ticks]; exact hepoch))]
    exact hcalm.fenced (hcleared.fenced rfl)

/-! ### Another configuration -/

section Replace
variable {config : ValidConfig} {retain : Bool}

/-- A cached sample was there before, and the component is still stored. -/
theorem replace_kept {slot : Nat} (hseen : ((e.replace config t retain).status slot).seen = true) :
    (e.replace config t retain).status slot = e.status slot ∧
      (e.replace config t retain).commonComponent = e.commonComponent := by
  unfold replace retainEscObservations at hseen ⊢
  dsimp only at hseen ⊢
  split at hseen
  · rename_i hkeeps
    rw [if_pos hkeeps, if_pos hkeeps]
    exact ⟨rfl, rfl⟩
  · cases hseen

/-- With the same slots and component the samples and the integrator stay. -/
theorem replace_same (h : ¬ e.Restarts (.replace config retain, t)) :
    ((e.replace config t retain).CommonMapping ↔ e.CommonMapping) ∧
      (e.commonComponent ≠ none → (e.replace config t retain).wheelStatus = e.wheelStatus) ∧
      (e.replace config t retain).commonMotorTicks.wheels = e.commonMotorTicks.wheels := by
  obtain ⟨hleft, hright, hcomponent⟩ := not_not.1 h
  have hslot : (e.replace config t retain).slot = e.slot := by
    funext side
    cases side
    exacts [congrArg Int.toNat hleft, congrArg Int.toNat hright]
  refine ⟨?_, fun hstored => ?_, ?_⟩
  · unfold CommonMapping
    rw [← hleft, ← hright]
    rfl
  · have hstatus : (e.replace config t retain).status = e.status := by
      have hcomponent : (e.replace config t retain).commonComponent = e.commonComponent := hcomponent
      unfold replace retainEscObservations at hcomponent ⊢
      dsimp only at hcomponent ⊢
      split at hcomponent
      · rename_i hkeeps
        rw [if_pos hkeeps]
      · exact absurd hcomponent.symm hstored
    unfold wheelStatus
    rw [hslot, hstatus]
  · unfold replace retainEscObservations
    dsimp only
    rw [if_pos]
    · rfl
    · exact ⟨⟨hleft, hright⟩, hcomponent⟩

theorem replace_fresh (h : e.Restarts (.replace config retain, t)) (side : Side) :
    ((e.replace config t retain).commonMotorTicks.wheels side).valid = false := by
  unfold replace retainEscObservations
  dsimp only
  rw [if_neg]
  · rfl
  · rintro ⟨⟨hleft, hright⟩, hcomponent⟩
    exact h ⟨hleft, hright, hcomponent⟩

/-- A wheel that a replacement leaves valid was in step with its sample, and still is. -/
theorem replace_synced (hstored : ∀ slot, (e.status slot).seen = true → e.commonComponent ≠ none)
    (hsynced : e.CommonMapping → ∀ side, (e.commonMotorTicks.wheels side).valid = true → e.Synced side)
    (hmap : (e.replace config t retain).CommonMapping) (side : Side)
    (hvalid : ((e.replace config t retain).commonMotorTicks.wheels side).valid = true) :
    (e.replace config t retain).Synced side := by
  by_cases hrestarts : e.Restarts (.replace config retain, t)
  · rw [replace_fresh hrestarts] at hvalid
    cases hvalid
  · obtain ⟨hmapping, hstatus, hwheels⟩ := replace_same hrestarts
    rw [hwheels] at hvalid
    have hs := hsynced (hmapping.1 hmap) side hvalid
    exact hs.congr (congrFun (hstatus (hstored _ hs.seen)) side) (congrFun hwheels side)

theorem replace_timeout (e : ObservationEngine) (config : ValidConfig) (t : Int) (retain : Bool) :
    (e.replace config t retain).commonMotorTicks.timeoutNs = (e.replace config t retain).config.1.timeoutNs := by
  unfold replace retainEscObservations
  dsimp only
  repeat' split
  all_goals rfl

theorem replace_fenced (hf : Fenced t x e) :
    Fenced t (pairLaw.after x (e.pairEvents (.replace config retain, t))) (e.replace config t retain) := by
  have hpast : ∀ slot, ((e.replace config t retain).status slot).seen = true →
      ((e.replace config t retain).status slot).data.stampNs ≤ (e.replace config t retain).commonConfigurationNs := by
    intro slot hseen
    have hstatus := (replace_kept hseen).1
    rw [hstatus] at hseen ⊢
    exact hf.stamped slot hseen
  unfold pairEvents
  rw [Monitor.after_append, after_notices]
  refine ⟨?_, fun slot hseen => ?_, fun slot hseen => ?_, fun slot hseen => ?_,
    fun slot hseen => .inr (hpast slot hseen),
    fun _ side hseen => .inr (.inr (.inl (hpast _ hseen))), fun hmap times htimes side => ?_,
      fun hmap side hvalid => ?_⟩
  · exact e.replace_timeout config t retain
  · obtain ⟨hstatus, hcomponent⟩ := replace_kept hseen
    rw [hcomponent]
    exact hf.stored slot (hstatus ▸ hseen)
  · have hstatus := (replace_kept hseen).1
    rw [hstatus]
    exact hf.sample slot (hstatus ▸ hseen)
  · exact hpast slot hseen
  · by_cases hrestarts : e.Restarts (.replace config retain, t)
    · dsimp only [Monitor.after_cons, Monitor.after_nil, pairLaw, PairMemory.observe] at htimes
      rw [if_pos hrestarts] at htimes
      cases htimes
    · dsimp only [Monitor.after_cons, Monitor.after_nil, pairLaw, PairMemory.observe] at htimes
      rw [if_neg hrestarts] at htimes
      obtain ⟨hmapping, hstatus, _⟩ := replace_same hrestarts
      obtain ⟨hseen, hold⟩ := hf.previous (hmapping.1 hmap) times htimes side
      have hsame := congrFun (hstatus (hf.stored _ hseen)) side
      have hle : times side ≤ e.wheelTime side := hold.elim le_of_lt And.left
      rw [← hsame] at hseen
      exact ⟨hseen, .inr ⟨by unfold wheelTime at hle ⊢; rwa [hsame], .inr (.inl (hpast _ hseen))⟩⟩
  · exact replace_synced hf.stored hf.synced hmap side hvalid

end Replace

end ObservationEngine
end Odometry
end MowgliMavros
