import MowgliMavros.ReplayedMotor

/-!
# Replayed ESC_STATUS makes no observation

While COMMON is or can be selected an available pair is barred (`Spent`): a pair is published as soon as it
is available, because the core takes it (`Fed`) and the integrator holds it. So a packet that brings no later
measurement time to a wheel returns nothing, and the law of replayed ESC_STATUS is complete
(`replayed_status`).
-/

namespace MowgliMavros
namespace Odometry
namespace ObservationEngine
variable {e e' e'' : ObservationEngine} {receipt t t' : Int} {side : Side} {c : Call × Int}

/-! ### The core and the floors -/

/-- The core took nothing that is later than the last pair. -/
structure Fed (e : ObservationEngine) : Prop where
  sample : ∃ side, e.core.lastSampleNs ≤ e.published side * 1000
  baseline : e.commonEpochBaselineNeeded = true → e.core.lastSampleNs = 0
  receipt : e.core.lastReceiptNs = 0 ∨ ∃ side, (e.wheelStatus side).seen = true ∧
    e.core.lastReceiptNs ≤ (e.wheelStatus side).data.stampNs

/-- The core and the floors are the same, and the samples not older. -/
structure Stays (e e' : ObservationEngine) : Prop where
  active : e.active = .escStatus
  core : e'.core = e.core
  published : e'.published = e.published
  needed : e'.commonEpochBaselineNeeded = e.commonEpochBaselineNeeded
  samples : ∀ side, (e.wheelStatus side).seen = true → (e'.wheelStatus side).seen = true ∧
    (e.wheelStatus side).data.stampNs ≤ (e'.wheelStatus side).data.stampNs

/-- If COMMON is selected after it, then nothing has changed for it, or the core is empty. -/
def Steers (e e' : ObservationEngine) : Prop :=
  e'.active = .escStatus → e.Stays e' ∨ e'.core.lastSampleNs = 0 ∧ e'.core.lastReceiptNs = 0

namespace Steers

theorem refl (e : ObservationEngine) : e.Steers e := fun h => .inl ⟨h, rfl, rfl, rfl, fun _ hseen => ⟨hseen, le_rfl⟩⟩

theorem trans (h : e.Steers e') (h' : e'.Steers e'') : e.Steers e'' := by
  intro hactive
  rcases h' hactive with hstays' | hempty
  · rcases h hstays'.active with hstays | hempty
    · refine .inl ⟨hstays.active, hstays'.core.trans hstays.core, hstays'.published.trans hstays.published,
        hstays'.needed.trans hstays.needed, fun side hseen => ?_⟩
      obtain ⟨hseen, hle⟩ := hstays.samples side hseen
      exact ⟨(hstays'.samples side hseen).1, hle.trans (hstays'.samples side hseen).2⟩
    · exact .inr (by rwa [hstays'.core])
  · exact .inr hempty

theorem fed (h : e.Steers e') (hactive : e'.active = .escStatus) (hfed : e.active = .escStatus → e.Fed) : e'.Fed := by
  rcases h hactive with hstays | ⟨hsample, hreceipt⟩
  · have hfed := hfed hstays.active
    refine ⟨by rw [hstays.core, hstays.published]; exact hfed.sample,
      by rw [hstays.core, hstays.needed]; exact hfed.baseline, ?_⟩
    rw [hstays.core]
    refine hfed.receipt.imp_right fun ⟨side, hseen, hle⟩ => ?_
    exact ⟨side, (hstays.samples side hseen).1, hle.trans (hstays.samples side hseen).2⟩
  · refine ⟨⟨.left, ?_⟩, fun _ => hsample, .inl hreceipt⟩
    rw [hsample]
    exact Int.mul_nonneg (Int.natCast_nonneg _) (by decide)

/-- Another source is selected. -/
theorem of_other (h : e'.active ≠ .escStatus) : e.Steers e' := fun hactive => absurd hactive h

/-- What COMMON's pairing uses is the same. -/
theorem of_same (hactive : e'.active = e.active) (hcore : e'.core = e.core) (hpublished : e'.published = e.published)
    (hneeded : e'.commonEpochBaselineNeeded = e.commonEpochBaselineNeeded)
    (hwheel : ∀ side, (e.wheelStatus side).Fades (e'.wheelStatus side)) : e.Steers e' := fun hesc =>
  .inl ⟨hactive ▸ hesc, hcore, hpublished, hneeded, fun side hseen =>
    ⟨(hwheel side).seen.trans hseen, (hwheel side).stamp.ge⟩⟩

end Steers

theorem selectAs_steers (e : ObservationEngine) (next : WheelSource) (commonUpdate : Bool) (previous : Side → Nat) :
    e.Steers (e.selectAs next commonUpdate previous) := by
  unfold selectAs
  split
  · exact .refl e
  · exact fun _ => .inr ⟨rfl, rfl⟩

theorem reselect_steers (e : ObservationEngine) (now : Int) : e.Steers (e.reselect now) := e.selectAs_steers _ _ _

theorem resetDistance_steers (e : ObservationEngine) : e.Steers e.resetDistance := by
  unfold resetDistance
  by_cases h : e.active = .wheelDistance
  · rw [if_pos h, if_pos h]
    exact .of_other nofun
  · rw [if_neg h, if_neg h]
    exact .of_same rfl rfl rfl rfl fun _ => .refl _

theorem resetCommon_other (e : ObservationEngine) : e.resetCommon.active ≠ .escStatus := by
  unfold resetCommon
  dsimp only
  split
  · nofun
  · assumption

theorem dropDistance_steers (e : ObservationEngine) : e.Steers e.dropDistance :=
  .of_same rfl rfl rfl rfl fun _ => .refl _

theorem received_steers (e : ObservationEngine) (last : Int) : e.Steers (e.received last) :=
  .of_same rfl rfl rfl rfl fun _ => .refl _

/-! ### Calls other than ESC_STATUS -/

theorem driveDistance_steers (baseline next : Distance) (receipt : Int) (h : e.active = .wheelDistance) :
    e.Steers (e.driveDistance baseline next receipt).1 := by
  unfold driveDistance
  split
  · exact e.dropDistance_steers.trans (reselect_steers _ _)
  · exact .of_other (by rw [h]; nofun)

theorem fromBaseline_steers (e : ObservationEngine) (next : Distance) (receipt : Int) :
    e.Steers (e.fromBaseline next receipt).1 := by
  unfold fromBaseline
  split
  · exact .refl e
  · rename_i hactive
    have hwheel : e.active = .wheelDistance := not_not.1 hactive
    have hother : ∀ a : ObservationEngine, a.active = .wheelDistance → e.Steers a := fun a ha =>
      .of_other (by rw [ha]; nofun)
    split
    · exact hother _ hwheel
    · dsimp only
      split
      · exact hother _ hwheel
      · refine .trans ?_ (driveDistance_steers _ _ _ ?_)
        · exact hother _ hwheel
        · exact hwheel

theorem renewDistance_steers (e : ObservationEngine) (next : Distance) (component : UInt8) (receipt : Int) :
    e.Steers (e.renewDistance next component receipt) := by
  have hfirst : e.Steers (if e.distance.valid ∧ next.timeUs < e.distance.timeUs then e.resetDistance else e) := by
    split
    · exact e.resetDistance_steers
    · exact .refl e
  refine hfirst.trans ?_
  unfold renewDistance
  dsimp only
  generalize (if e.distance.valid = true ∧ next.timeUs < e.distance.timeUs then e.resetDistance else e) = b
  split
  · exact .of_same rfl rfl rfl rfl fun _ => .refl _
  · exact .of_same rfl rfl rfl rfl fun _ => .refl _

theorem wheelDistance_steers (h : e.Tracked receipt) (packet : DistancePacket) :
    e.Steers (e.wheelDistance packet receipt).1 := by
  unfold wheelDistance
  split
  · exact .refl e
  · rename_i hok
    rw [h.clock fun hr => hok (.inr hr)]
    refine (e.received_steers receipt).trans ?_
    dsimp only
    generalize e.received receipt = e
    cases haccept : e.acceptDistance packet.componentId receipt with
    | none => exact .refl e
    | some a =>
      have hfirst : e.Steers a := by
        unfold acceptDistance at haccept
        repeat' split at haccept
        all_goals cases haccept
        · exact e.resetDistance_steers
        · exact .refl e
      refine hfirst.trans ?_
      dsimp only
      split
      · exact a.dropDistance_steers.trans (reselect_steers _ _)
      · unfold receiveDistance
        split
        · split
          · exact a.dropDistance_steers.trans (reselect_steers _ _)
          · exact .refl a
        · exact ((a.renewDistance_steers _ _ _).trans (reselect_steers _ _)).trans (fromBaseline_steers _ _ _)

theorem legacyEscTelemetry_steers (h : e.lastReceiptNs ≤ max receipt 0) (packet : LegacyEscPacket) :
    e.Steers (e.legacyEscTelemetry packet receipt) := by
  obtain heq | ⟨_, heq⟩ := legacyEscTelemetry_eq h packet
  · rw [heq]
    exact .refl e
  · rw [heq]
    exact .of_same rfl rfl rfl rfl fun _ => .refl _

theorem driveLegacy_steers (e : ObservationEngine) (motion : Option WheelMotionObservation) :
    e.Steers (e.driveLegacy motion).1 := by
  unfold driveLegacy
  split
  · exact .refl e
  · split
    · rename_i hlegacy
      exact .of_other (by rw [hlegacy]; nofun)
    · exact .refl e

theorem legacyRpm_steers (h : e.lastReceiptNs ≤ max receipt 0) (left right : Option Rat) :
    e.Steers (e.legacyRpm left right receipt).1 := by
  unfold legacyRpm
  split
  · exact .refl e
  · rename_i hok
    rw [receiveClock_eq (clock_of_receipt h fun hr => hok (.inr hr))]
    dsimp only
    split
    · obtain ⟨_, _, hreceive⟩ := receiveLegacy_frame { e with lastReceiptNs := receipt } _ receipt
      rw [hreceive]
      refine .trans (.trans (.of_same ?_ ?_ ?_ ?_ fun _ => ?_) (reselect_steers _ receipt)) (driveLegacy_steers _ _)
      iterate 4 rfl
      exact .refl _
    · refine .trans (.of_same ?_ ?_ ?_ ?_ fun _ => ?_) (reselect_steers _ receipt)
      iterate 4 rfl
      exact .refl _

theorem acceptCommonInfo_steers {a : ObservationEngine} {component : UInt8}
    (h : e.acceptCommonInfo component = some a) :
    e.Steers a := by
  obtain ⟨-, rfl⟩ | ⟨-, rfl⟩ := acceptCommonInfo_cases h
  · exact .of_same rfl rfl rfl rfl fun _ => .refl _
  · exact .of_other (resetCommon_other e)

theorem commonInfo_steers (h : e.lastReceiptNs ≤ max receipt 0) (packet : CommonInfoPacket) :
    e.Steers (e.commonInfo packet receipt) := by
  obtain heq | heq | ⟨a, b, ha, hb, heq⟩ := commonInfo_eq h packet
  · rw [heq]
    exact .refl e
  · rw [heq]
    exact e.received_steers receipt
  · rw [heq]
    refine ((e.received_steers receipt).trans (acceptCommonInfo_steers ha)).trans ?_
    rcases hb with rfl | rfl
    · refine .trans (.of_same ?_ ?_ ?_ ?_ fun side => ?_) (reselect_steers _ receipt)
      all_goals obtain ⟨_, hframe⟩ := a.restartInfo_frame packet
      all_goals rw [hframe]
      exact .refl _
    · have haging := a.recordInfo_aging packet receipt
      refine .trans (.of_same ?_ ?_ ?_ ?_ haging.wheel) (reselect_steers _ receipt)
      all_goals obtain ⟨_, hframe⟩ := a.recordInfo_frame packet receipt
      all_goals rw [hframe]
      all_goals rfl

theorem poll_steers (now : Int) : e.Steers (e.poll now) := by
  unfold poll receiveClock
  split
  · refine .trans (.of_other ?_) (reselect_steers _ now)
    nofun
  · exact (e.received_steers now).trans (reselect_steers _ now)

theorem restartCommon_steers {packet : CommonStatusPacket} {a : ObservationEngine}
    (h : e.acceptCommonStatus packet.componentId receipt = some a) : e.Steers (a.restartCommon packet) := by
  obtain ⟨-, hsame, rfl⟩ | ⟨needed, hreset⟩ := restartCommon_cases h
  · rw [hsame]
    exact .of_same rfl rfl rfl rfl fun _ => .refl _
  · rw [hreset]
    exact .of_other (resetCommon_other e)

theorem recordStatus_steers {packet : CommonStatusPacket} (hs : e.Steady receipt) :
    e.Steers (e.recordStatus packet receipt) := by
  have hsame := e.recordStatus_same packet receipt
  have hcore : (e.recordStatus packet receipt).core = e.core := by
    obtain ⟨_, _, hframe⟩ := e.recordStatus_frame packet receipt
    rw [hframe]
  refine fun hactive => .inl ⟨hsame.active ▸ hactive, hcore, hsame.published, hsame.needed, fun side hseen => ?_⟩
  unfold wheelStatus at hseen ⊢
  rw [hsame.slot]
  rcases e.recordStatus_slot packet receipt (e.slot side) with ⟨_, _, _, heq⟩ | ⟨_, hfades⟩
  · rw [heq]
    exact ⟨rfl, hs.stamped _ hseen⟩
  · exact ⟨hfades.seen.trans hseen, hfades.stamp.ge⟩

/-! ### A pair that is available is spent -/

/-- The configuration lets COMMON drive. -/
def CommonDrives (e : ObservationEngine) : Prop :=
  e.connected = true ∧ (ofConfig e.config).WheelConfigured ∧ (ofConfig e.config).Configured .escStatus ∧
    0 < (ofConfig e.config).geometry.ticksPerMeter

/-- Where COMMON is or could be selected, a pair that is available is barred. -/
structure Spent (t : Int) (e : ObservationEngine) : Prop where
  barred : e.CommonDrives → e.active = .none ∨ e.active = .escStatus → e.CommonAvailable t → ∃ side, e.Barred side
  fed : e.active = .escStatus → e.Fed

theorem Wired.drives (h : e.Wired) : e.CommonDrives ↔
    e.connected = true ∧ e.WheelConfigured ∧ e.Configured .escStatus ∧ 0 < e.geometry.ticksPerMeter := by
  rw [h.configured]
  rfl

theorem selected_of_available (hw : e.Wired) (hdrives : e.CommonDrives) (h : e.CommonAvailable t) :
    e.selected t = .wheelDistance ∨ e.selected t = .escStatus := by
  obtain ⟨hconnected, hconfigured, hesc, _⟩ := hw.drives.1 hdrives
  unfold selected
  rw [if_neg (by simp [hconnected, hconfigured])]
  split
  · exact .inl rfl
  · rw [if_pos ⟨hesc, h⟩]
    exact .inr rfl

/-- A pair that is available later was available before, if no sample came. -/
theorem CommonAvailable.before (h : e'.CommonAvailable t') (hs : e.Steady t) (ht : t ≤ t')
    (hconfig : e'.config = e.config)
    (hwheel : ∀ side, (e.wheelStatus side).Fades (e'.wheelStatus side)) : e.CommonAvailable t := by
  obtain ⟨hmap, hleft, hright, hpaired⟩ := h
  have havailable : ∀ side, e'.WheelAvailable t' side → e.WheelAvailable t side := by
    rintro side ⟨hseen, hvalid, ⟨hpos, _, hage⟩, _⟩
    have hfades := hwheel side
    have hseen := hfades.seen ▸ hseen
    have hvalid := hfades.valid hvalid
    have hpast := hs.stamped _ hseen
    rw [hfades.stamp] at hpos hage
    rw [hconfig] at hage
    unfold wheelStatus at hpos hage
    exact ⟨hseen, hvalid, ⟨hpos, hpast, by unfold wheelStatus; omega⟩, hs.counted _ hseen hvalid⟩
  have hmap : e.CommonMapping := by
    unfold CommonMapping geometry at hmap ⊢
    rwa [hconfig] at hmap
  refine ⟨hmap, havailable .left hleft, havailable .right hright, ?_⟩
  unfold Paired wheelTime at hpaired ⊢
  rwa [(hwheel .left).time, (hwheel .right).time, hconfig] at hpaired

/-- A calm call leaves a pair that it does not bring spent. -/
theorem Spent.calm (h : e.Spent t) (hs : e.Steady t) (ht : t ≤ t') (hcalm : e.Calm e') (haging : e.Aging e')
    (hsteers : e.Steers e') (hconnected : e'.connected = e.connected) : e'.Spent t' where
  barred hdrives hactive havailable := by
    have hbefore := havailable.before hs ht haging.config haging.wheel
    have hdrives : e.CommonDrives := by
      unfold CommonDrives at hdrives ⊢
      rwa [haging.config, hconnected] at hdrives
    by_cases hother : e.active = .wheelDistance ∨ e.active = .ardupilotLegacy
    · have hends : e'.active ≠ e.active := by
        rcases hother with ha | ha <;> rcases hactive with ha' | ha' <;> rw [ha, ha'] <;> nofun
      exact ⟨.left, .inr (.inr (by rw [hcalm.time]; exact hcalm.fences hbefore.1 hother hends .left))⟩
    · have hidle : e.active = .none ∨ e.active = .escStatus := by
        cases ha : e.active <;> simp [ha] at hother ⊢
      exact (h.barred hdrives hidle hbefore).imp fun _ => hcalm.barred
  fed hactive := hsteers.fed hactive h.fed

/-- Without samples there is no pair. -/
theorem Spent.of_unseen (hunseen : ∀ slot, (e'.status slot).seen = false) (hfed : e'.active = .escStatus → e'.Fed) :
    e'.Spent t' :=
  ⟨fun _ _ havailable => absurd havailable.2.1.1 (by simp [wheelStatus, hunseen]), hfed⟩

theorem Spent.calm_or_cleared (h : e.Spent t) (hs : e.Steady t) (ht : t ≤ t') (hcalm : e.CalmOrCleared e')
    (haging : e.AgingOrCleared e') (hsteers : e.Steers e') (hconnected : e'.connected = e.connected) :
    e'.Spent t' := by
  have hfed : e'.active = .escStatus → e'.Fed := fun hactive => hsteers.fed hactive h.fed
  rcases hcalm with hcalm | ⟨a, hcleared, _, hcalm⟩
  · rcases haging with haging | ⟨a, hcleared, haging⟩
    · exact h.calm hs ht hcalm haging hsteers hconnected
    · exact .of_unseen (fun slot => (haging.status slot).seen.trans (hcleared.status slot)) hfed
  · exact .of_unseen (fun slot => (hcalm.status slot).seen.trans (hcleared.status slot)) hfed

theorem silentTakeover_spent {packet : DistancePacket} (h : e.Tracked receipt) (hs : e.Steady receipt)
    (hsilent : e.SilentTakeover (.wheelDistance packet, receipt)) (hpos : ¬ receipt ≤ 0)
    (hconnected : e.connected = true) :
    (e.wheelDistance packet receipt).1.Spent receipt := by
  have haging := wheelDistance_aging h packet
  have heq := silentTakeover_eq h hsilent hpos hconnected
  obtain ⟨hactive, _, _, _, _, hnone, _⟩ := hsilent
  have hwired : e.resetDistance.Wired := (resetDistance_tracked h).wired
  have hselected : (e.received receipt).resetDistance.dropDistance.selected receipt = .none := hnone
  have hidle : (e.wheelDistance packet receipt).1.active = .none := by
    rw [heq]
    unfold reselect select selectAs
    rw [hselected]
    split
    · rename_i hsame
      exact hsame.symm
    · rfl
  refine ⟨fun hdrives _ havailable => ?_, fun hesc => by rw [hidle] at hesc; cases hesc⟩
  have hbefore := havailable.before hs le_rfl haging.config haging.wheel
  have hdrives : e.resetDistance.CommonDrives := by
    unfold CommonDrives at hdrives ⊢
    rw [haging.config] at hdrives
    exact ⟨hconnected, hdrives.2⟩
  rcases selected_of_available hwired hdrives (show e.resetDistance.CommonAvailable receipt from hbefore) with
    hsel | hsel <;>
    rw [hnone] at hsel <;> cases hsel

theorem replace_spent {config : ValidConfig} {retain : Bool} (hs : e.Steady t) :
    (e.replace config t retain).Spent t := by
  have hactive : (e.replace config t retain).active = .none := rfl
  refine ⟨fun _ _ havailable => ?_, fun hesc => by rw [hactive] at hesc; cases hesc⟩
  obtain ⟨_, ⟨hseen, _⟩, _⟩ := havailable
  have hstatus := (replace_kept hseen).1
  refine ⟨.left, .inr (.inl ?_)⟩
  unfold wheelStatus at hseen ⊢
  rw [hstatus] at hseen ⊢
  exact hs.stamped _ hseen

/-- Calls other than ESC_STATUS leave no pair. -/
theorem quiet_spent (hquiet : ∀ packet, c.1 ≠ .commonStatus packet) (h : e.Tracked c.2) (hs : e.Steady c.2)
    (hspent : e.Spent c.2) : (e.step c).1.Spent c.2 := by
  have hpast := h.dated.past
  have hencoder := (step_tracks h).2.1
  obtain ⟨call, now⟩ := c
  cases call with
  | commonStatus packet => exact absurd rfl (hquiet packet)
  | commonInfo packet =>
    exact hspent.calm_or_cleared hs le_rfl (commonInfo_calm hs.timeout hpast packet)
      (commonInfo_aging hs.timeout hpast packet)
      (commonInfo_steers hpast packet) (congrArg (·.connected) hencoder)
  | legacyEsc packet =>
    obtain ⟨_, _, he⟩ := legacyEscTelemetry_reports e packet hpast
    have hcalm := legacyEscTelemetry_calm hpast packet
    exact hspent.calm hs le_rfl hcalm (hcalm.aging (congrArg (·.status) he) (congrArg (·.commonCount) he))
      (legacyEscTelemetry_steers hpast packet) (congrArg (·.connected) he)
  | legacyRpm left right =>
    obtain ⟨_, _, he⟩ := legacyRpm_reports e left right hpast
    have hcalm := legacyRpm_calm hpast left right
    exact hspent.calm hs le_rfl hcalm (hcalm.aging (congrArg (·.status) he) (congrArg (·.commonCount) he))
      (legacyRpm_steers hpast left right) (congrArg (·.connected) he)
  | wheelDistance packet =>
    have hreports := wheelDistance_reports e packet hpast
    by_cases hsilent : e.SilentTakeover (.wheelDistance packet, now)
    · by_cases hidle : ¬ e.connected ∨ now ≤ 0
      · have hsame : e.wheelDistance packet now = (e, none) := if_pos hidle
        rw [step, hsame]
        exact hspent
      · push Not at hidle
        exact silentTakeover_spent h hs hsilent (Int.not_le.2 hidle.2) hidle.1
    · exact hspent.calm hs le_rfl (wheelDistance_calm h hsilent) (wheelDistance_aging h packet)
        (wheelDistance_steers h packet) (congrArg (·.connected) hreports)
  | poll =>
    exact hspent.calm_or_cleared hs le_rfl (poll_calm hs.timeout now) (poll_aging hs.timeout now) (poll_steers now)
      (congrArg (·.connected) hencoder)
  | connection connected => exact .of_unseen (fun _ => rfl) fun h => by cases h
  | replace config retain => exact replace_spent hs

/-! ### ESC_STATUS -/

theorem motion_stamps {motion : WheelMotionObservation}
    (hsynced : ∀ side, (e.commonMotorTicks.wheels side).valid = true → e.Synced side)
    (hmotion : e.commonMotorTicks.motion e.geometry.ticksPerMeter .escStatus = some motion) :
    motion.valid = true ∧ motion.source ≠ .none ∧
      motion.sampleStampNs = max ((e.wheelTime .left : Int) * 1000) (e.wheelTime .right * 1000) ∧
      motion.receiptStampNs = max (e.wheelStatus .left).data.stampNs (e.wheelStatus .right).data.stampNs := by
  obtain rfl := motion_synced hsynced hmotion
  refine ⟨rfl, ?_, rfl, rfl⟩
  show WheelSource.escStatus ≠ .none
  decide

/-- The core takes the motion of an available pair above the floors. -/
theorem fed_accepts {motion : WheelMotionObservation} (hw : e.Wired) (hfed : e.Fed) (hdrives : e.CommonDrives)
    (havailable : e.CommonAvailable receipt) (hfloors : ∀ side, e.published side < e.wheelTime side)
    (hsynced : ∀ side, (e.commonMotorTicks.wheels side).valid = true → e.Synced side)
    (hmotion : e.commonMotorTicks.motion e.geometry.ticksPerMeter .escStatus = some motion) :
    e.core.Accepts motion := by
  obtain ⟨hvalid, hsource, hsample, hreceipt⟩ := motion_stamps hsynced hmotion
  have hleft := hfloors .left
  have hright := hfloors .right
  have hfresh := havailable.2.1.2.2.1.1
  refine ⟨(hw.drives.1 hdrives).2.1.1, hvalid, hsource, ?_, by omega, ?_⟩
  · obtain ⟨side, hle⟩ := hfed.sample
    cases side <;> omega
  · rcases hfed.receipt with hzero | ⟨side, _, hle⟩
    · omega
    · cases side <;> omega

/-- An available pair that COMMON could drive with is published or barred. -/
theorem pairCommon_barred (hs : e.Steady receipt) (hw : e.Wired) (hfed : e.Fed) (hdrives : e.CommonDrives)
    (hesc : e.active = .escStatus) (havailable : e.CommonAvailable receipt) :
    ∃ side, (e.pairCommon receipt).1.Barred side := by
  unfold pairCommon
  rw [if_neg (by simp [hesc, havailable])]
  split
  · rename_i hconfiguration
    exact hconfiguration.elim (fun hle => ⟨.left, .inr (.inl hle)⟩) fun hle => ⟨.right, .inr (.inl hle)⟩
  · rename_i hconfiguration
    split
    · exact ⟨.left, .inr (.inr le_rfl)⟩
    · split
      · rename_i hfloors
        exact hfloors.elim (fun hle => ⟨.left, .inr (.inr hle)⟩) fun hle => ⟨.right, .inr (.inr hle)⟩
      · rename_i hfloors
        rw [not_or, Int.not_le, Int.not_le] at hconfiguration
        rw [not_or, Nat.not_le, Nat.not_le] at hfloors
        have hsynced := hs.synced havailable.1
        obtain ⟨hmap, ⟨hseen, hvalid, _⟩, ⟨hseen', hvalid', _⟩, _⟩ := id havailable
        have hleft := hs.ticking hmap .left hseen hvalid hconfiguration.1
        have hright := hs.ticking hmap .right hseen' hvalid' hconfiguration.2
        have hscale : ¬ e.geometry.ticksPerMeter ≤ 0 := not_le.2 (hw.drives.1 hdrives).2.2.2
        split
        · rename_i hnone
          unfold MotorTickIntegrator.motion at hnone
          rw [if_neg (by simp [hscale, hleft, hright])] at hnone
          cases hnone
        · rename_i motion hmotion
          have haccepts := fed_accepts hw hfed hdrives havailable (by rintro (_ | _); exacts [hfloors.1, hfloors.2])
            hsynced hmotion
          have hreceive : e.core.receiveMotion motion = _ := if_pos haccepts
          rw [hreceive]
          exact ⟨.left, .inr (.inr le_rfl)⟩

theorem pairCommon_fed (hs : e.Steady receipt) (hfed : e.Fed) : (e.pairCommon receipt).1.Fed := by
  unfold pairCommon
  split
  · exact hfed
  · rename_i havailable
    have havailable : e.CommonAvailable receipt := not_not.1 fun h => havailable (.inr h)
    split
    · exact hfed
    · split
      · rename_i hneeded
        refine ⟨⟨.left, ?_⟩, nofun, hfed.receipt⟩
        rw [show e.core.lastSampleNs = 0 from hfed.baseline hneeded]
        exact Int.mul_nonneg (Int.natCast_nonneg _) (by decide)
      · rename_i hneeded
        split
        · exact hfed
        · split
          · exact hfed
          · rename_i motion hmotion
            by_cases haccepts : e.core.Accepts motion
            · have hreceive : e.core.receiveMotion motion = _ := if_pos haccepts
              obtain ⟨_, _, hsample, hreceipt⟩ := motion_stamps (hs.synced havailable.1) hmotion
              rw [hreceive]
              refine ⟨?_, fun h => absurd h hneeded, .inr ?_⟩
              · rcases max_choice ((e.wheelTime .left : Int) * 1000) (e.wheelTime .right * 1000) with hmax | hmax
                · exact ⟨.left, (hsample.trans hmax).le⟩
                · exact ⟨.right, (hsample.trans hmax).le⟩
              · rcases max_choice (e.wheelStatus .left).data.stampNs (e.wheelStatus .right).data.stampNs with
                  hmax | hmax
                · exact ⟨.left, havailable.2.1.1, (hreceipt.trans hmax).le⟩
                · exact ⟨.right, havailable.2.2.1.1, (hreceipt.trans hmax).le⟩
            · have hreceive : e.core.receiveMotion motion = (e.core, none) := if_neg haccepts
              rw [hreceive]
              exact ⟨hfed.sample, hfed.baseline, hfed.receipt⟩

theorem selectAs_active (e : ObservationEngine) (next : WheelSource) (commonUpdate : Bool) (previous : Side → Nat) :
    (e.selectAs next commonUpdate previous).active = next := by
  obtain ⟨_, _, _, hframe⟩ := e.selectAs_frame next commonUpdate previous
  rw [hframe]

theorem Wired.select (h : e.Wired) (now : Int) (commonUpdate : Bool) (previous : Side → Nat) :
    (e.select now commonUpdate previous).Wired := by
  unfold ObservationEngine.select selectAs
  split
  · exact h
  · exact ⟨h.core, h.legacy, h.timeout⟩

/-- A pair with a barred wheel makes no observation. -/
theorem barred_silent (hbarred : e.Barred side) : (e.pairCommon receipt).2 = none := by
  unfold pairCommon
  split
  · rfl
  · split
    · rfl
    · rename_i hconfiguration
      split
      · rfl
      · rename_i hneeded
        split
        · rfl
        · rename_i hfloors
          rcases hbarred with hb | hb | hb
          · exact absurd hb hneeded
          · cases side
            exacts [absurd (.inl hb) hconfiguration, absurd (.inr hb) hconfiguration]
          · cases side
            exacts [absurd (.inl hb) hfloors, absurd (.inr hb) hfloors]

/-- Without a scale there is no motion. -/
theorem unscaled_silent (hscale : e.geometry.ticksPerMeter ≤ 0) : (e.pairCommon receipt).2 = none := by
  have hnone : e.commonMotorTicks.motion e.geometry.ticksPerMeter .escStatus = none := if_pos (.inl hscale)
  unfold pairCommon
  rw [hnone]
  dsimp only
  repeat' split
  all_goals rfl

/-- The pairing that ends ESC_STATUS spends the pair. -/
theorem pairCommon_spent (hs : e.Steady receipt) (hw : e.Wired) (hfed : e.active = .escStatus → e.Fed)
    (hselects : e.CommonDrives → e.CommonAvailable receipt → e.active = .wheelDistance ∨ e.active = .escStatus) :
    (e.pairCommon receipt).1.Spent receipt := by
  obtain ⟨_, _, _, hframe⟩ := e.pairCommon_frame receipt
  have hactive : (e.pairCommon receipt).1.active = e.active := by rw [hframe]
  refine ⟨fun hdrives hidle havailable => ?_, fun hesc => pairCommon_fed hs (hfed (hactive ▸ hesc))⟩
  have hdrives : e.CommonDrives := by rwa [hframe] at hdrives
  have havailable : e.CommonAvailable receipt := by rwa [hframe] at havailable
  rw [hactive] at hidle
  have hesc : e.active = .escStatus := by
    rcases hselects hdrives havailable with hdistance | hesc
    · rcases hidle with h | h <;> rw [hdistance] at h <;> cases h
    · exact hesc
  exact pairCommon_barred hs hw (hfed hesc) hdrives hesc havailable

section Status
variable {packet : CommonStatusPacket} {a b : ObservationEngine}

theorem Records.wired (hr : e.Records a b packet receipt) (h : e.Tracked receipt) (hpos : ¬ receipt ≤ 0) :
    (b.recordStatus packet receipt).Wired := by
  have ha := hr.accepts
  rw [h.clock hpos] at ha
  have hbeside := (acceptCommonStatus_beside ha).trans (a.restartCommon_beside packet)
  rw [hr.restarts] at hbeside
  exact (hbeside.trans (recordStatus_beside _ packet receipt)).wired h.received.wired

theorem Records.steers (hr : e.Records a b packet receipt) (h : e.Tracked receipt) (hs : e.Steady receipt)
    (hpos : ¬ receipt ≤ 0) : e.Steers ((b.recordStatus packet receipt).select receipt true a.mappedTime) := by
  have ha := hr.accepts
  rw [h.clock hpos] at ha
  have hrestart := restartCommon_steers ha
  rw [hr.restarts] at hrestart
  exact (((e.received_steers receipt).trans hrestart).trans (recordStatus_steers (hr.steady hs))).trans
    (selectAs_steers _ _ _ _)

theorem commonStatus_spent (h : e.Tracked receipt) (hs : e.Steady receipt) (hspent : e.Spent receipt)
    (packet : CommonStatusPacket) : (e.commonStatus packet receipt).1.Spent receipt := by
  rcases commonStatus_cases hs.timeout h.dated.past packet with heq | heq | ⟨hrefuse, a, b, hr, heq⟩ <;> rw [heq]
  · exact hspent
  · exact hspent.calm hs le_rfl (e.received_calm receipt) (e.received_aging receipt) (e.received_steers receipt) rfl
  · have hpos : ¬ receipt ≤ 0 := fun hp => hrefuse (.inr (.inl hp))
    have hwired := hr.wired h hpos
    have hsteers := hr.steers h hs hpos
    have hrecord := hr.record_steady hs hrefuse
    generalize b.recordStatus packet receipt = r at hwired hsteers hrecord
    have hsteady := (select_aging r receipt true a.mappedTime).steady hrecord
    refine pairCommon_spent hsteady (hwired.select receipt true a.mappedTime)
      (fun hesc => hsteers.fed hesc hspent.fed) fun hdrives havailable => ?_
    · obtain ⟨_, _, _, hframe⟩ := r.selectAs_frame (r.selected receipt) true a.mappedTime
      unfold select at hdrives havailable ⊢
      rw [selectAs_active]
      rw [hframe] at hdrives havailable
      exact selected_of_available hwired hdrives havailable

end Status

/-! ### A packet that repeats -/

theorem selected_escStatus (h : e.selected t = .escStatus) :
    e.connected = true ∧ e.WheelConfigured ∧ e.Configured .escStatus := by
  unfold selected at h
  split at h
  · cases h
  · rename_i hready
    rw [not_or, not_not, not_not] at hready
    repeat' split at h
    all_goals cases h
    rename_i hcommon
    exact ⟨hready.1, hready.2, hcommon.1⟩

/-- The packet brings no sample to a wheel. -/
def Repeats (e : ObservationEngine) (packet : CommonStatusPacket) : Prop :=
  ∀ side (i : Fin 4), e.slot side = packet.index + i → ¬ e.Renews packet i

/-- The call brings a sample to a wheel, later than the one that was there. -/
def Brings (e : ObservationEngine) (side : Side) (c : Call × Int) : Prop :=
  ((e.step c).1.status (e.slot side)).seen = true ∧ ((e.status (e.slot side)).seen = true →
    (e.status (e.slot side)).timeUs < ((e.step c).1.status (e.slot side)).timeUs)

theorem Repeats.fades {packet : CommonStatusPacket} (h : e.Repeats packet) (side : Side) :
    (e.wheelStatus side).Fades ((e.recordStatus packet receipt).wheelStatus side) := by
  unfold wheelStatus
  rw [(e.recordStatus_same packet receipt).slot]
  rcases e.recordStatus_slot packet receipt (e.slot side) with ⟨i, hslot, hrenews, _⟩ | ⟨_, hfades⟩
  · exact absurd hrenews (h side i hslot)
  · exact hfades

/-- In the engine that a packet is recorded in, a pair that it leaves to COMMON is barred. -/
theorem Restarted.barred {packet : CommonStatusPacket} {a b s : ObservationEngine} (hr : e.Restarted a b packet)
    (hcalm : e.Calm b) (heq : b = a) (hs : (b.recordStatus packet receipt).select receipt true a.mappedTime = s)
    (hrepeats : b.Repeats packet) (hspent : e.active = .none ∨ e.active = .escStatus → ∃ side, e.Barred side)
    (hmap : b.CommonMapping) (hesc : s.active = .escStatus) : ∃ side, s.Barred side := by
  have hsame := b.recordStatus_same packet receipt
  have hprevious : ∀ side, (b.recordStatus packet receipt).wheelTime side ≤ a.mappedTime side := fun side => by
    unfold mappedTime
    rw [← heq, if_pos hmap]
    exact (hrepeats.fades side).time.le
  unfold select at hs
  by_cases hother : e.active = .wheelDistance ∨ e.active = .ardupilotLegacy
  · have hactive : (b.recordStatus packet receipt).active = e.active := hsame.active.trans (hr.active hother)
    refine ⟨.left, hs ▸ selectAs_ends (hsame.mapping.2 hmap) (hactive ▸ hother) ?_ (hprevious .left)⟩
    rw [hs, hesc, hactive]
    rcases hother with h | h <;> rw [h] <;> nofun
  · have hidle : e.active = .none ∨ e.active = .escStatus := by
      cases ha : e.active <;> simp [ha] at hother ⊢
    obtain ⟨side, hbarred⟩ := hspent hidle
    refine ⟨side, hs ▸ selectAs_barred ?_ fun _ => hprevious side⟩
    exact (hsame.barred (hrepeats.fades side).revalues).2 (hcalm.barred hbarred)

/-- A packet of the epoch that brings no wheel a sample makes no observation. -/
theorem Records.silent {packet : CommonStatusPacket} {a b : ObservationEngine} (hr : e.Records a b packet receipt)
    (h : e.Tracked receipt) (hs : e.Steady receipt) (hspent : e.Spent receipt)
    (hrefuse : ¬ e.RefusesStatus packet receipt)
    (hstarts : ¬ e.StartsEpoch (.commonStatus packet, receipt)) (hrepeats : b.Repeats packet) :
    (((b.recordStatus packet receipt).select receipt true a.mappedTime).pairCommon receipt).2 = none := by
  have hpos : ¬ receipt ≤ 0 := fun hp => hrefuse (.inr (.inl hp))
  obtain ⟨haging, hba⟩ := hr.aged hrefuse hstarts
  have haccept := hr.accepts
  rw [h.clock hpos] at haccept
  have hrestarted := (restartCommon_restarted (e := e.received receipt) hs.timeout haccept).of_received
  rw [hr.restarts] at hrestarted
  have hcalm : e.Calm b := by
    rcases hrestarted.calm_or_cleared with ⟨hcalm, _⟩ | ⟨_, hepoch⟩
    · exact hcalm
    · exact absurd (congrArg (·.epoch) haging.ticks) hepoch
  generalize hsel : (b.recordStatus packet receipt).select receipt true a.mappedTime = s
  have hwired : s.Wired := hsel ▸ (hr.wired h hpos).select receipt true a.mappedTime
  by_cases hready : s.active ≠ .escStatus ∨ ¬ s.CommonAvailable receipt
  · unfold pairCommon
    rw [if_pos hready]
  · rw [not_or, not_not, not_not] at hready
    by_cases hscale : s.geometry.ticksPerMeter ≤ 0
    · exact unscaled_silent hscale
    · have hselects := select_aging (b.recordStatus packet receipt) receipt true a.mappedTime
      rw [hsel] at hselects
      have hsame := b.recordStatus_same packet receipt
      have hconfig : s.config = e.config := hselects.config.trans (hsame.config.trans haging.config)
      have hselected : (b.recordStatus packet receipt).selected receipt = .escStatus := by
        rw [← hready.1, ← hsel]
        exact (selectAs_active _ _ _ _).symm
      have hdrives : e.CommonDrives := by
        obtain ⟨hconnected, hconfigured, hesc⟩ := selected_escStatus hselected
        have hgeometry : (b.recordStatus packet receipt).geometry = s.geometry := by
          unfold geometry
          rw [hselects.config]
        have hdrives := (hr.wired h hpos).drives.2 ⟨hconnected, hconfigured, hesc, hgeometry ▸ not_le.1 hscale⟩
        unfold CommonDrives at hdrives ⊢
        rw [hsame.config, haging.config] at hdrives
        exact ⟨not_not.1 fun hoff => hrefuse (.inl hoff), hdrives.2⟩
      have hbefore : e.CommonAvailable receipt := hready.2.before hs le_rfl hconfig fun side =>
        ((haging.wheel side).trans (hrepeats.fades side)).trans (hselects.wheel side)
      obtain ⟨side, hbarred⟩ := hrestarted.barred hcalm hba hsel hrepeats
        (fun hidle => hspent.barred hdrives hidle hbefore)
        (haging.mapping.2 hbefore.1) hready.1
      exact barred_silent hbarred

/-- Within an epoch only a later measurement time of a wheel makes an observation. -/
theorem observation_brings {packet : CommonStatusPacket} (h : e.Tracked receipt) (hs : e.Steady receipt)
    (hspent : e.Spent receipt) (hstarts : ¬ e.StartsEpoch (.commonStatus packet, receipt))
    (hmade : (e.commonStatus packet receipt).2 ≠ none) : ∃ side, e.Brings side (.commonStatus packet, receipt) := by
  rcases commonStatus_cases hs.timeout h.dated.past packet with heq | heq | ⟨hrefuse, a, b, hr, heq⟩
  · exact absurd (congrArg (·.2) heq) hmade
  · exact absurd (congrArg (·.2) heq) hmade
  · by_contra hnone
    refine hmade ?_
    rw [heq]
    refine hr.silent h hs hspent hrefuse hstarts fun side i hslot hrenews => hnone ⟨side, ?_⟩
    have haging := (hr.aged hrefuse hstarts).1
    have hstatus := (commonStatus_status hrefuse hr.accepts).1
    rw [hr.restarts] at hstatus
    unfold Brings
    dsimp only [step]
    rw [← haging.slot side, hslot, hstatus, recordStatus_lane, recorded]
    dsimp only
    rw [if_pos hrenews]
    refine ⟨rfl, fun hseen => ?_⟩
    have hfades := haging.status (packet.index + i)
    have hlater := renews_later hr.follows hrenews (hfades.seen.trans hseen)
    rwa [hfades.time] at hlater

theorem step_spent (h : e.Tracked c.2) (hs : e.Steady c.2) (hspent : e.Spent c.2) : (e.step c).1.Spent c.2 := by
  by_cases hquiet : ∀ packet, c.1 ≠ .commonStatus packet
  · exact quiet_spent hquiet h hs hspent
  · push Not at hquiet
    obtain ⟨packet, hpacket⟩ := hquiet
    obtain ⟨call, receipt⟩ := c
    obtain rfl : call = .commonStatus packet := hpacket
    exact commonStatus_spent h hs hspent packet

theorem Spent.mono (h : e.Spent t) (hs : e.Steady t) (ht : t ≤ t') : e.Spent t' :=
  ⟨fun hdrives hidle havailable => h.barred hdrives hidle (havailable.before hs ht rfl fun _ => .refl _), h.fed⟩

end ObservationEngine

open ObservationEngine

theorem reach_spent {config : ValidConfig} {run : List (Call × Int)} {t : Int} (h : Clocked run)
    (ht : ∀ a ∈ run, a.2 ≤ t) : (reach config run).Spent t := by
  refine run_induction (P := fun run e => ∀ t, (∀ a ∈ run, a.2 ≤ t) → e.Spent t) config
    (fun _ _ => .of_unseen (fun _ => rfl) nofun) ?_ h t ht
  intro run c hclock _ ih t ht
  obtain ⟨hrun, hpast⟩ := clocked_snoc.1 hclock
  have htracked := reach_tracked config hrun hpast
  have hsteady := reach_steady config hrun hpast
  exact (step_spent htracked hsteady (ih c.2 hpast)).mono (step_steady htracked hsteady) (ht c (by simp))

/-- The law of replayed ESC_STATUS: stamps are those of the first packet, samples stay as they are or less valid
until a later one comes, a contradicted motor rests, and only a later sample of a wheel makes an observation. -/
theorem replayed_status (config : ValidConfig) (run : List (Call × Int)) (h : Clocked run) :
    (∀ slot, ((reach config run).status slot).seen = true →
      FirstCarried config run slot ((reach config run).status slot).timeUs
        ((reach config run).status slot).data.stampNs) ∧
    (∀ pre post slot, run = pre ++ post → SameEpoch (reach config pre) post →
      ((reach config pre).status slot).seen = true →
      ((reach config pre).status slot).Holds ((reach config run).status slot)) ∧
    (∀ pre c post side, run = pre ++ c :: post →
      machine.Along (fun e c => ¬ e.Restarts c) (reach config pre) (c :: post) → (reach config pre).CommonMapping →
      (reach config pre).Contradicted side c → (reach config pre).Rests side (reach config run)) ∧
    ∀ pre packet receipt, run = pre ++ [(.commonStatus packet, receipt)] →
      ¬ (reach config pre).StartsEpoch (.commonStatus packet, receipt) →
      ((reach config pre).commonStatus packet receipt).2 ≠ none →
      ∃ side, (reach config pre).Brings side (.commonStatus packet, receipt) := by
  refine ⟨first_carried h, ?_, ?_, ?_⟩
  · rintro pre post slot rfl hepoch hseen
    exact held_run h hepoch hseen
  · rintro pre c post side rfl halong hmap hcontra
    exact motor_rests h halong hmap hcontra
  · rintro pre packet receipt rfl hstarts hmade
    obtain ⟨hrun, hpast⟩ := clocked_snoc.1 h
    exact observation_brings (reach_tracked _ hrun hpast) (reach_steady _ hrun hpast)
      (reach_spent hrun hpast) hstarts hmade

/-- The first packet comes while no slot is counted, the same packet again when they are. -/
def uncountedRun : List (Call × Int) :=
  [(.connection true, 0), (.commonInfo { timeUs := 1000 }, 1000000), leftSample 2000,
    (.commonInfo { count := 8, timeUs := 3000 }, 3000000), (.commonStatus { timeUs := 2000 }, 4000000)]

theorem replayed_status_uncounted : Clocked uncountedRun ∧
    FirstCarried splitWheels uncountedRun 0 2000 4000000 := by
  have hclock : Clocked uncountedRun := by simp [Clocked, uncountedRun, leftSample]
  exact ⟨hclock, (replayed_status splitWheels uncountedRun hclock).1 0 (by decide +kernel)⟩

/-- A packet that is accepted before its slot is counted does not stamp the sample. -/
theorem uncounted_stamp : Clocked uncountedRun ∧
    SameEpoch (reach splitWheels (uncountedRun.take 2)) (leftSample 2000 :: uncountedRun.drop 3) ∧
    ((reach splitWheels (uncountedRun.take 2)).acceptCommonStatus 1 2000000).isSome = true ∧
    ((reach splitWheels uncountedRun).status 0).timeUs = 2000 ∧
    ((reach splitWheels uncountedRun).status 0).data.stampNs ≠ (leftSample 2000).2 :=
  ⟨by simp [Clocked, uncountedRun, leftSample], by unfold SameEpoch; decide +kernel, by decide +kernel,
    by decide +kernel, by decide +kernel⟩

end Odometry
end MowgliMavros
