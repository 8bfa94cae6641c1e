import Mathlib.Data.List.Induction
import MowgliMavros.ObservationRun

/-!
# What the parts of the observation engine change

Every part changes a few members only; the frame lemmas name these and leave their values open. The loop
over the lanes of an ESC_STATUS packet has a closed form (`recordStatus_lane`), because the lanes are
four different slots.
-/

namespace MowgliMavros
namespace Odometry
namespace ObservationEngine
variable {e : ObservationEngine} {packet : CommonStatusPacket} {receipt now : Int} {next : WheelSource} {slot : Nat}

/-! ### Acceptance -/

section Acceptance
variable {a : ObservationEngine} {component : UInt8}

/-- An accepted ESC_STATUS keeps the COMMON data of its component, or drops those of another one. -/
theorem acceptCommonStatus_cases (h : e.acceptCommonStatus component receipt = some a) :
    (¬ e.Foreign component ∧ a = { e with commonComponent := some component, commonStatusOwner := true }) ∨
      a = { e.resetCommon with commonComponent := some component, commonStatusOwner := true } := by
  unfold acceptCommonStatus at h
  split at h
  · cases h
  split at h
  · cases h
  have ha := Option.some.inj h
  by_cases hforeign : e.Foreign component
  · rw [if_pos hforeign] at ha
    exact .inr ha.symm
  · rw [if_neg hforeign] at ha
    exact .inl ⟨hforeign, ha.symm⟩

/-- ESC_INFO drops the data of another component only if no ESC_STATUS owns them. -/
theorem acceptCommonInfo_cases (h : e.acceptCommonInfo component = some a) :
    (¬ e.Foreign component ∧ a = { e with commonComponent := some component }) ∨
      e.commonStatusOwner = false ∧ a = { e.resetCommon with commonComponent := some component } := by
  unfold acceptCommonInfo at h
  split at h
  · cases h
  split at h
  · cases h
  rename_i howner
  have ha := Option.some.inj h
  by_cases hforeign : e.Foreign component
  · rw [if_pos hforeign] at ha
    exact .inr ⟨Bool.eq_false_iff.2 fun ho => howner ⟨hforeign, ho⟩, ha.symm⟩
  · rw [if_neg hforeign] at ha
    exact .inl ⟨hforeign, ha.symm⟩

/-- The engine that an accepted ESC_STATUS is recorded in: with the COMMON data, or in a new epoch. -/
theorem restartCommon_cases (h : e.acceptCommonStatus packet.componentId receipt = some a) :
    (¬ a.Regresses packet ∧ a.restartCommon packet = a ∧
      a = { e with commonComponent := some packet.componentId, commonStatusOwner := true }) ∨
      ∃ needed, a.restartCommon packet =
        { e.resetCommon with
          commonComponent := some packet.componentId, commonStatusOwner := true,
          commonEpochBaselineNeeded := needed } := by
  obtain ⟨-, rfl⟩ | rfl := acceptCommonStatus_cases h
  · unfold restartCommon
    split
    · exact .inr ⟨true, rfl⟩
    · exact .inl ⟨‹_›, rfl, rfl⟩
  · -- without samples no clock goes back
    unfold restartCommon
    rw [if_neg fun ⟨_, hseen, _⟩ => by cases hseen]
    exact .inr ⟨false, rfl⟩

/-- A new epoch has no samples that a packet could be older than. -/
theorem reset_regresses {needed : Bool} :
    ¬ ({ e.resetCommon with
      commonComponent := some component, commonStatusOwner := true,
      commonEpochBaselineNeeded := needed } : ObservationEngine).Regresses packet :=
  fun ⟨_, hseen, _⟩ => by cases hseen

end Acceptance

/-! ### Selection -/

theorem selectAs_frame (e : ObservationEngine) (next : WheelSource) (commonUpdate : Bool) (previous : Side → Nat) :
    ∃ core published baseline, e.selectAs next commonUpdate previous =
      { e with core := core, published := published, distanceBaseline := baseline, active := next } := by
  unfold selectAs
  split
  · rename_i h
    subst h
    exact ⟨_, _, _, rfl⟩
  · exact ⟨_, _, _, rfl⟩

theorem pairCommon_frame (e : ObservationEngine) (receipt : Int) : ∃ core published needed, (e.pairCommon receipt).1 =
    { e with core := core, published := published, commonEpochBaselineNeeded := needed } := by
  unfold pairCommon
  repeat' split
  all_goals exact ⟨_, _, _, rfl⟩

/-! ### ESC_STATUS -/

/-- What the lane leaves in its slot. -/
def recorded (e : ObservationEngine) (packet : CommonStatusPacket) (receipt : Int) (i : Fin 4) : Status :=
  let state := e.status (packet.index + i)
  if e.Renews packet i then { data := packet.data i receipt state.data, timeUs := packet.timeUs, seen := true }
  else if e.Counted (packet.index + i) ∧ packet.Contradicts i state.data then
    { state with data := { state.data with valid := false } }
  else state

theorem recordSlot_status (i : Fin 4) :
    (e.recordSlot packet receipt i).status = Function.update e.status (packet.index + i)
    (e.recorded packet receipt i) := by
  unfold recordSlot recorded
  dsimp only
  split
  · rfl
  · split
    · rfl
    · exact (Function.update_eq_self _ _).symm

theorem recordSlot_frame (packet : CommonStatusPacket) (receipt : Int) (i : Fin 4) :
    ∃ status ticks, e.recordSlot packet receipt i = { e with
    status := status, commonMotorTicks := ticks
    commonOwnerStampNs := if e.Renews packet i then receipt else e.commonOwnerStampNs } := by
  unfold recordSlot
  dsimp only
  split
  · exact ⟨_, _, rfl⟩
  · split
    · exact ⟨_, _, rfl⟩
    · exact ⟨_, _, rfl⟩

theorem lane_ne {index : Nat} {i j : Fin 4} (h : i ≠ j) : index + i.val ≠ index + j.val :=
  fun he => h (Fin.ext (by omega))

/-- The lanes do not see each other. -/
theorem recordSlot_other {i j : Fin 4} (h : j ≠ i) :
    ((e.recordSlot packet receipt i).Renews packet j ↔ e.Renews packet j) ∧
      (e.recordSlot packet receipt i).recorded packet receipt j = e.recorded packet receipt j := by
  have hstatus : (e.recordSlot packet receipt i).status (packet.index + j) = e.status (packet.index + j) := by
    rw [recordSlot_status, Function.update_of_ne (lane_ne h)]
  have hcount : (e.recordSlot packet receipt i).commonCount = e.commonCount := by
    obtain ⟨_, _, he⟩ := recordSlot_frame (e := e) packet receipt i
    rw [he]
  have hrenews : (e.recordSlot packet receipt i).Renews packet j ↔ e.Renews packet j := by
    simp only [Renews, Counted, hstatus, hcount]
  refine ⟨hrenews, ?_⟩
  simp only [recorded, Counted, hstatus, hcount]
  exact if_congr hrenews rfl (if_congr Iff.rfl rfl rfl)

/-- The loop over some of the lanes. -/
theorem recordLanes {is : List (Fin 4)} (hnodup : is.Nodup) (e : ObservationEngine) :
    let e' := is.foldl (fun e i => e.recordSlot packet receipt i) e
    (∀ i ∈ is, e'.status (packet.index + i) = e.recorded packet receipt i) ∧
      (∀ slot, (∀ i ∈ is, slot ≠ packet.index + i) → e'.status slot = e.status slot) ∧
      ∃ status ticks, e' = { e with
        status := status, commonMotorTicks := ticks
        commonOwnerStampNs := if ∃ i ∈ is, e.Renews packet i then receipt else e.commonOwnerStampNs } := by
  induction is generalizing e with
  | nil => exact ⟨by simp, fun _ _ => rfl, e.status, e.commonMotorTicks, by simp⟩
  | cons i is ih =>
    obtain ⟨hi, hrest⟩ := List.nodup_cons.1 hnodup
    obtain ⟨hin, hout, status, ticks, hframe⟩ := ih hrest (e.recordSlot packet receipt i)
    have hother : ∀ j ∈ is, j ≠ i := fun j hj he => hi (he ▸ hj)
    have hhead : (e.recordSlot packet receipt i).status (packet.index + i) = e.recorded packet receipt i := by
      rw [recordSlot_status, Function.update_self]
    refine ⟨fun j hj => ?_, fun slot hslot => ?_, status, ticks, ?_⟩
    · rcases List.mem_cons.1 hj with rfl | hj
      · exact (hout _ fun k hk he => hother k hk (Fin.ext (by omega))).trans hhead
      · exact (hin j hj).trans (recordSlot_other (hother j hj)).2
    · rw [List.foldl_cons, hout slot fun j hj => hslot j (List.mem_cons_of_mem _ hj), recordSlot_status,
        Function.update_of_ne (hslot i (by simp))]
    · have hrenews : (∃ j ∈ is, (e.recordSlot packet receipt i).Renews packet j) ↔ ∃ j ∈ is, e.Renews packet j :=
        exists_congr fun j => and_congr_right fun hj => (recordSlot_other (hother j hj)).1
      obtain ⟨_, _, he⟩ := recordSlot_frame (e := e) packet receipt i
      have hstamp : (if ∃ j ∈ is, (e.recordSlot packet receipt i).Renews packet j then receipt
            else (e.recordSlot packet receipt i).commonOwnerStampNs) =
          if ∃ j ∈ i :: is, e.Renews packet j then receipt else e.commonOwnerStampNs := by
        have hown : (e.recordSlot packet receipt i).commonOwnerStampNs =
            if e.Renews packet i then receipt else e.commonOwnerStampNs := by rw [he]
        simp only [hrenews, hown, List.mem_cons, exists_eq_or_imp]
        by_cases h : e.Renews packet i
        · simp only [h, true_or, if_true, ite_self]
        · simp only [h, false_or, if_false]
      rw [List.foldl_cons, hframe, hstamp, he]

/-- What ESC_STATUS leaves in the slots of its lanes. -/
theorem recordStatus_lane (i : Fin 4) :
    (e.recordStatus packet receipt).status (packet.index + i) = e.recorded packet receipt i :=
  (recordLanes (List.nodup_finRange 4) e).1 i (List.mem_finRange i)

theorem recordStatus_other (h : ∀ i : Fin 4, slot ≠ packet.index + i) :
    (e.recordStatus packet receipt).status slot = e.status slot :=
  (recordLanes (List.nodup_finRange 4) e).2.1 slot fun i _ => h i

theorem recordStatus_frame (e : ObservationEngine) (packet : CommonStatusPacket) (receipt : Int) :
    ∃ status ticks, e.recordStatus packet receipt = { e with
      status := status, commonMotorTicks := ticks
      commonOwnerStampNs := if ∃ i, e.Renews packet i then receipt else e.commonOwnerStampNs } := by
  obtain ⟨status, ticks, h⟩ := (recordLanes (List.nodup_finRange 4) e).2.2
  refine ⟨status, ticks, h.trans ?_⟩
  simp only [List.mem_finRange, true_and]

/-! ### The other messages -/

theorem restartInfo_frame (e : ObservationEngine) (packet : CommonInfoPacket) :
    ∃ info, e.restartInfo packet = { e with info := info } := by
  refine List.foldlRecOn _ _ (motive := fun e' => ∃ info, e' = { e with info := info }) ?_ ?_
  · exact ⟨_, rfl⟩
  · rintro _ ⟨_, rfl⟩ i -
    split
    · exact ⟨_, rfl⟩
    · exact ⟨_, rfl⟩

theorem recordInfo_frame (e : ObservationEngine) (packet : CommonInfoPacket) (receipt : Int) :
    ∃ info, e.recordInfo packet receipt = { e.trimCount packet.count with info := info } := by
  refine List.foldlRecOn _ _ (motive := fun e' => ∃ info, e' = { e.trimCount packet.count with info := info }) ?_ ?_
  · exact ⟨_, rfl⟩
  · rintro _ ⟨_, rfl⟩ i -
    dsimp only [recordInfoSlot]
    repeat' split
    all_goals exact ⟨_, rfl⟩

theorem receiveLegacy_frame (e : ObservationEngine) (rpm : Side → Rat) (receipt : Int) :
    ∃ legacy ticks, (e.receiveLegacy rpm receipt).1 = { e with legacy := legacy, legacyMotorTicks := ticks } := by
  unfold receiveLegacy
  dsimp only
  split
  · exact ⟨_, _, rfl⟩
  · split
    · exact ⟨_, _, rfl⟩
    · exact ⟨_, _, rfl⟩

theorem driveLegacy_frame (e : ObservationEngine) (motion : Option WheelMotionObservation) :
    ∃ core, (e.driveLegacy motion).1 = { e with core := core } := by
  unfold driveLegacy
  split
  · exact ⟨_, rfl⟩
  · split
    · exact ⟨_, rfl⟩
    · exact ⟨_, rfl⟩

/-! ### The data of the reports -/

/-- What the ESC reports and the motor ticks are made of, without the choice of a source. -/
def reports (e : ObservationEngine) : ObservationEngine :=
  { e with
    core := { geometry := e.geometry }
    lastReceiptNs := 0
    distance := {}
    distanceComponent := none
    distanceBaseline := none
    legacyMotion := none
    active := .none
    published := fun _ => 0
    commonEpochBaselineNeeded := false
    commonConfigurationNs := 0 }

/-- The two engines answer every query alike. -/
structure SameQueries (e e' : ObservationEngine) : Prop where
  esc : ∀ index now, e'.esc index now = e.esc index now
  touched : ∀ index, e'.touched index = e.touched index
  motorTicks : ∀ source now, e'.motorTicks source now = e.motorTicks source now

theorem esc_reports (e : ObservationEngine) (index : Nat) (now : Int) :
    e.reports.esc index now = e.esc index now := rfl

theorem touched_reports (e : ObservationEngine) (index : Nat) : e.reports.touched index = e.touched index := rfl

theorem motorTicks_reports (e : ObservationEngine) (source : WheelSource) (now : Int) :
    e.reports.motorTicks source now = e.motorTicks source now := rfl

theorem SameQueries.of_reports {e' : ObservationEngine} (h : e'.reports = e.reports) : e.SameQueries e' where
  esc index now := by rw [← esc_reports, h, esc_reports]
  touched index := by rw [← touched_reports, h, touched_reports]
  motorTicks source now := by rw [← motorTicks_reports, h, motorTicks_reports]

@[simp] theorem selectAs_reports (e : ObservationEngine) (next : WheelSource) (commonUpdate : Bool)
    (previous : Side → Nat) : (e.selectAs next commonUpdate previous).reports = e.reports := by
  obtain ⟨_, _, _, h⟩ := e.selectAs_frame next commonUpdate previous
  rw [h]
  rfl

@[simp] theorem select_reports (e : ObservationEngine) (now : Int) (commonUpdate : Bool) (previous : Side → Nat) :
    (e.select now commonUpdate previous).reports = e.reports := e.selectAs_reports _ _ _

@[simp] theorem reselect_reports (e : ObservationEngine) (now : Int) : (e.reselect now).reports = e.reports :=
  e.select_reports _ _ _

@[simp] theorem pairCommon_reports (e : ObservationEngine) (receipt : Int) :
    (e.pairCommon receipt).1.reports = e.reports := by
  obtain ⟨_, _, _, h⟩ := e.pairCommon_frame receipt
  rw [h]
  rfl

@[simp] theorem resetDistance_reports (e : ObservationEngine) : e.resetDistance.reports = e.reports := rfl

@[simp] theorem dropDistance_reports (e : ObservationEngine) : e.dropDistance.reports = e.reports := rfl

@[simp] theorem driveLegacy_reports (e : ObservationEngine) (motion : Option WheelMotionObservation) :
    (e.driveLegacy motion).1.reports = e.reports := by
  obtain ⟨_, h⟩ := e.driveLegacy_frame motion
  rw [h]
  rfl

theorem acceptDistance_reports {e' : ObservationEngine} {component : UInt8}
    (h : e.acceptDistance component receipt = some e') : e'.reports = e.reports := by
  unfold acceptDistance at h
  split at h
  · cases h
  · split at h
    · split at h
      · cases h
      · cases h
        rfl
    · cases h
      rfl

@[simp] theorem driveDistance_reports (e : ObservationEngine) (baseline next : Distance) (receipt : Int) :
    (e.driveDistance baseline next receipt).1.reports = e.reports := by
  unfold driveDistance
  split
  · simp
  · rfl

@[simp] theorem fromBaseline_reports (e : ObservationEngine) (next : Distance) (receipt : Int) :
    (e.fromBaseline next receipt).1.reports = e.reports := by
  unfold fromBaseline
  split
  · rfl
  · split
    · rfl
    · dsimp only
      split
      · rfl
      · exact driveDistance_reports _ _ _ _

@[simp] theorem renewDistance_reports (e : ObservationEngine) (next : Distance) (component : UInt8) (receipt : Int) :
    (e.renewDistance next component receipt).reports = e.reports := by
  unfold renewDistance
  dsimp only
  repeat' split
  all_goals rfl

@[simp] theorem receiveDistance_reports (e : ObservationEngine) (next : Distance) (component : UInt8)
    (receipt : Int) :
    (e.receiveDistance next component receipt).1.reports = e.reports := by
  unfold receiveDistance
  split
  · split
    · simp
    · rfl
  · simp

/-- A message does not come before the last receipt. -/
theorem clock_of_receipt {last : Int} (h : last ≤ max receipt 0) (hreceipt : ¬ receipt ≤ 0) :
    last ≤ receipt := by omega

/-- The reports do not see WHEEL_DISTANCE. -/
theorem wheelDistance_reports (e : ObservationEngine) (packet : DistancePacket)
    (h : e.lastReceiptNs ≤ max receipt 0) :
    (e.wheelDistance packet receipt).1.reports = e.reports := by
  unfold wheelDistance
  split
  · rfl
  · rw [receiveClock_eq (clock_of_receipt h (by tauto))]
    dsimp only
    split
    · rfl
    · rename_i haccept
      have haccept : _ = e.reports := (acceptDistance_reports haccept :)
      split
      · simpa using haccept
      · simpa using haccept

theorem recordLegacy_frame (e : ObservationEngine) (packet : LegacyEscPacket) (receipt : Int) :
    ∃ legacyEsc, (List.finRange 4).foldl (fun e i => e.recordLegacy packet receipt i) e =
      { e with legacyEsc := legacyEsc } := by
  refine List.foldlRecOn _ _ (motive := fun e' => ∃ legacyEsc, e' = { e with legacyEsc := legacyEsc }) ?_ ?_
  · exact ⟨_, rfl⟩
  · rintro _ ⟨_, rfl⟩ i -
    dsimp only [recordLegacy]
    split
    · exact ⟨_, rfl⟩
    · exact ⟨_, rfl⟩

theorem legacyEscTelemetry_reports (e : ObservationEngine) (packet : LegacyEscPacket)
    (h : e.lastReceiptNs ≤ max receipt 0) :
    ∃ legacy legacyEsc, (e.legacyEscTelemetry packet receipt).reports =
      { e.reports with legacy := legacy, legacyEsc := legacyEsc } := by
  unfold legacyEscTelemetry
  split
  · exact ⟨_, _, rfl⟩
  · rw [receiveClock_eq (clock_of_receipt h (by tauto))]
    obtain ⟨_, hfold⟩ := recordLegacy_frame _ packet receipt
    rw [hfold]
    exact ⟨_, _, rfl⟩

theorem legacyRpm_reports (e : ObservationEngine) (left right : Option Rat) (h : e.lastReceiptNs ≤ max receipt 0) :
    ∃ legacy ticks, (e.legacyRpm left right receipt).1.reports =
      { e.reports with legacy := legacy, legacyMotorTicks := ticks } := by
  unfold legacyRpm
  split
  · exact ⟨_, _, rfl⟩
  · rw [receiveClock_eq (clock_of_receipt h (by tauto))]
    dsimp only
    split
    · obtain ⟨legacy, ticks, hreceive⟩ := receiveLegacy_frame { e with lastReceiptNs := receipt } _ receipt
      rw [hreceive]
      exact ⟨legacy, ticks, by simp only [driveLegacy_reports, reselect_reports]; rfl⟩
    · exact ⟨_, _, by simp only [reselect_reports]; rfl⟩

/-! ### The last receipt -/

@[simp] theorem selectAs_last (e : ObservationEngine) (next : WheelSource) (commonUpdate : Bool)
    (previous : Side → Nat) : (e.selectAs next commonUpdate previous).lastReceiptNs = e.lastReceiptNs := by
  obtain ⟨_, _, _, h⟩ := e.selectAs_frame next commonUpdate previous
  rw [h]

@[simp] theorem select_last (e : ObservationEngine) (now : Int) (commonUpdate : Bool) (previous : Side → Nat) :
    (e.select now commonUpdate previous).lastReceiptNs = e.lastReceiptNs := e.selectAs_last _ _ _

@[simp] theorem reselect_last (e : ObservationEngine) (now : Int) :
    (e.reselect now).lastReceiptNs = e.lastReceiptNs := e.select_last _ _ _

@[simp] theorem pairCommon_last (e : ObservationEngine) (receipt : Int) :
    (e.pairCommon receipt).1.lastReceiptNs = e.lastReceiptNs := by
  obtain ⟨_, _, _, h⟩ := e.pairCommon_frame receipt
  rw [h]

@[simp] theorem recordStatus_last (e : ObservationEngine) (packet : CommonStatusPacket) (receipt : Int) :
    (e.recordStatus packet receipt).lastReceiptNs = e.lastReceiptNs := by
  obtain ⟨_, _, h⟩ := e.recordStatus_frame packet receipt
  rw [h]

@[simp] theorem restartCommon_last (e : ObservationEngine) (packet : CommonStatusPacket) :
    (e.restartCommon packet).lastReceiptNs = e.lastReceiptNs := by
  unfold restartCommon
  split
  · rfl
  · rfl

theorem acceptCommonStatus_last {e' : ObservationEngine} {component : UInt8}
    (h : e.acceptCommonStatus component receipt = some e') : e'.lastReceiptNs = e.lastReceiptNs := by
  obtain ⟨-, rfl⟩ | rfl := acceptCommonStatus_cases h
  · rfl
  · rfl

theorem acceptCommonInfo_last {e' : ObservationEngine} {component : UInt8}
    (h : e.acceptCommonInfo component = some e') : e'.lastReceiptNs = e.lastReceiptNs := by
  obtain ⟨-, rfl⟩ | ⟨-, rfl⟩ := acceptCommonInfo_cases h
  · rfl
  · rfl

@[simp] theorem restartInfo_last (e : ObservationEngine) (packet : CommonInfoPacket) :
    (e.restartInfo packet).lastReceiptNs = e.lastReceiptNs := by
  obtain ⟨_, h⟩ := e.restartInfo_frame packet
  rw [h]

@[simp] theorem recordInfo_last (e : ObservationEngine) (packet : CommonInfoPacket) (receipt : Int) :
    (e.recordInfo packet receipt).lastReceiptNs = e.lastReceiptNs := by
  obtain ⟨_, h⟩ := e.recordInfo_frame packet receipt
  rw [h]
  rfl

@[simp] theorem driveLegacy_last (e : ObservationEngine) (motion : Option WheelMotionObservation) :
    (e.driveLegacy motion).1.lastReceiptNs = e.lastReceiptNs := by
  obtain ⟨_, h⟩ := e.driveLegacy_frame motion
  rw [h]

@[simp] theorem receiveLegacy_last (e : ObservationEngine) (rpm : Side → Rat) (receipt : Int) :
    (e.receiveLegacy rpm receipt).1.lastReceiptNs = e.lastReceiptNs := by
  obtain ⟨_, _, h⟩ := e.receiveLegacy_frame rpm receipt
  rw [h]

theorem acceptDistance_last {e' : ObservationEngine} {component : UInt8}
    (h : e.acceptDistance component receipt = some e') : e'.lastReceiptNs = e.lastReceiptNs := by
  unfold acceptDistance at h
  repeat' split at h
  all_goals cases h
  all_goals rfl

@[simp] theorem dropDistance_last (e : ObservationEngine) : e.dropDistance.lastReceiptNs = e.lastReceiptNs := rfl

@[simp] theorem driveDistance_last (e : ObservationEngine) (baseline next : Distance) (receipt : Int) :
    (e.driveDistance baseline next receipt).1.lastReceiptNs = e.lastReceiptNs := by
  unfold driveDistance
  split
  · simp
  · rfl

@[simp] theorem fromBaseline_last (e : ObservationEngine) (next : Distance) (receipt : Int) :
    (e.fromBaseline next receipt).1.lastReceiptNs = e.lastReceiptNs := by
  unfold fromBaseline
  split
  · rfl
  · split
    · rfl
    · dsimp only
      split
      · rfl
      · exact driveDistance_last _ _ _ _

@[simp] theorem renewDistance_last (e : ObservationEngine) (next : Distance) (component : UInt8) (receipt : Int) :
    (e.renewDistance next component receipt).lastReceiptNs = e.lastReceiptNs := by
  unfold renewDistance
  dsimp only
  repeat' split
  all_goals rfl

@[simp] theorem receiveDistance_last (e : ObservationEngine) (next : Distance) (component : UInt8) (receipt : Int) :
    (e.receiveDistance next component receipt).1.lastReceiptNs = e.lastReceiptNs := by
  unfold receiveDistance
  split
  · split
    · simp
    · rfl
  · simp

/-- A call keeps the last receipt, forgets it or makes its own the last. -/
theorem step_last (e : ObservationEngine) (c : Call × Int) : (e.step c).1.lastReceiptNs = e.lastReceiptNs ∨
    (e.step c).1.lastReceiptNs = 0 ∨ (e.step c).1.lastReceiptNs = c.2 := by
  obtain ⟨call, t⟩ := c
  cases call with
  | commonStatus packet =>
    dsimp only [step, commonStatus]
    split
    · exact .inl rfl
    · split
      · exact .inr (.inr rfl)
      · rename_i h
        exact .inr (.inr (by simpa using acceptCommonStatus_last h))
  | commonInfo packet =>
    dsimp only [step, commonInfo]
    split
    · exact .inl rfl
    · split
      · exact .inr (.inr rfl)
      · rename_i h
        split
        · exact .inr (.inr (by simpa using acceptCommonInfo_last h))
        · exact .inr (.inr (by simpa using acceptCommonInfo_last h))
  | legacyEsc packet =>
    dsimp only [step, legacyEscTelemetry]
    split
    · exact .inl rfl
    · obtain ⟨_, h⟩ := recordLegacy_frame _ packet t
      rw [h]
      exact .inr (.inr rfl)
  | legacyRpm left right =>
    dsimp only [step, legacyRpm]
    split
    · exact .inl rfl
    · split
      · exact .inr (.inr (by simp))
      · exact .inr (.inr (by simp))
  | wheelDistance packet =>
    dsimp only [step, wheelDistance]
    split
    · exact .inl rfl
    · split
      · exact .inr (.inr rfl)
      · rename_i h
        split
        · exact .inr (.inr (by simpa using acceptDistance_last h))
        · exact .inr (.inr (by simpa using acceptDistance_last h))
  | poll => exact .inr (.inr (by simp [step, poll]))
  | connection connected => exact .inr (.inl rfl)
  | replace config retainLegacyTicks => exact .inl rfl

/-! ### Another last receipt -/

/-- The engine with another last receipt. -/
def received (e : ObservationEngine) (last : Int) : ObservationEngine := { e with lastReceiptNs := last }

/-- ESC_INFO is refused, or stops at the clock, or is recorded in the engine that accepts it. -/
theorem commonInfo_eq (h : e.lastReceiptNs ≤ max receipt 0) (packet : CommonInfoPacket) :
    e.commonInfo packet receipt = e ∨ e.commonInfo packet receipt = e.received receipt ∨
      ∃ a b, (e.received receipt).acceptCommonInfo packet.componentId = some a ∧
        (b = a.restartInfo packet ∨ b = a.recordInfo packet receipt) ∧
        e.commonInfo packet receipt = b.reselect receipt := by
  unfold commonInfo
  split
  · exact .inl rfl
  · rename_i hok
    rw [receiveClock_eq (clock_of_receipt h fun hr => hok (.inr (.inl hr)))]
    dsimp only
    split
    · exact .inr (.inl rfl)
    · rename_i a ha
      split
      · exact .inr (.inr ⟨a, _, ha, .inl rfl, rfl⟩)
      · exact .inr (.inr ⟨a, _, ha, .inr rfl, rfl⟩)

/-- The legacy telemetry writes the legacy members only. -/
theorem legacyEscTelemetry_eq (h : e.lastReceiptNs ≤ max receipt 0) (packet : LegacyEscPacket) :
    e.legacyEscTelemetry packet receipt = e ∨ ∃ legacyEsc, e.legacyEscTelemetry packet receipt =
      { e.received receipt with
        legacy := e.legacy.receiveEscCounts packet.index packet.counts receipt, legacyEsc := legacyEsc } := by
  unfold legacyEscTelemetry
  split
  · exact .inl rfl
  · rename_i hok
    rw [receiveClock_eq (clock_of_receipt h fun hr => hok (.inr (.inl hr)))]
    obtain ⟨legacyEsc, hfold⟩ := recordLegacy_frame _ packet receipt
    rw [hfold]
    exact .inr ⟨legacyEsc, rfl⟩

/-- A guard that does not look at what `f` changes: what it refuses keeps the change. -/
theorem ite_received {α : Type} (f : α → α) {p q : Prop} [Decidable p] [Decidable q] {a a' b b' : α} (hpq : q ↔ p)
    (ha : a' = f a) (hb : b' = b) :
    (if q then a' else b') = (if p then a else b) ∨ (if q then a' else b') = f (if p then a else b) := by
  by_cases hp : p
  · rw [if_pos hp, if_pos (hpq.2 hp)]
    exact .inr ha
  · rw [if_neg hp, if_neg fun hq => hp (hpq.1 hq)]
    exact .inl hb

/-- A last receipt that is not in the future makes no difference to a call. -/
theorem step_received {last : Int} {c : Call × Int} (hlast : last ≤ c.2) (h : e.lastReceiptNs ≤ c.2) :
    ((e.received last).step c).2 = (e.step c).2 ∧
      (((e.received last).step c).1 = (e.step c).1 ∨
        ((e.received last).step c).1 = (e.step c).1.received last) := by
  obtain ⟨call, t⟩ := c
  have hclock : (e.received last).receiveClock t = e.receiveClock t := by
    rw [receiveClock_eq h, receiveClock_eq (show (e.received last).lastReceiptNs ≤ t from hlast)]
    rfl
  let stale (r : ObservationEngine × Option WheelObservation) := (r.1.received last, r.2)
  have hpair : ∀ {r r'}, r' = r ∨ r' = stale r → r'.2 = r.2 ∧ (r'.1 = r.1 ∨ r'.1 = r.1.received last) := by
    rintro r r' (rfl | rfl)
    · exact ⟨rfl, .inl rfl⟩
    · exact ⟨rfl, .inr rfl⟩
  cases call with
  | commonStatus packet =>
    refine hpair ?_
    dsimp only [step, commonStatus]
    exact ite_received stale Iff.rfl rfl (by rw [hclock])
  | commonInfo packet =>
    refine ⟨rfl, ?_⟩
    dsimp only [step, commonInfo]
    exact ite_received (received · last) Iff.rfl rfl (by rw [hclock])
  | legacyEsc packet =>
    refine ⟨rfl, ?_⟩
    dsimp only [step, legacyEscTelemetry]
    exact ite_received (received · last) Iff.rfl rfl (by rw [hclock])
  | legacyRpm left right =>
    refine hpair ?_
    dsimp only [step, legacyRpm]
    exact ite_received stale Iff.rfl rfl (by rw [hclock])
  | wheelDistance packet =>
    refine hpair ?_
    dsimp only [step, wheelDistance]
    exact ite_received stale Iff.rfl rfl (by rw [hclock])
  | poll =>
    dsimp only [step, poll]
    rw [hclock]
    exact ⟨rfl, .inl rfl⟩
  | connection connected => exact ⟨rfl, .inl rfl⟩
  | replace config retainLegacyTicks => exact ⟨rfl, .inr rfl⟩

end ObservationEngine

/-! ### Runs -/

section Runs
open ObservationEngine
variable {config : ValidConfig} {run : List (Call × Int)} {c : Call × Int}

theorem reach_snoc (config : ValidConfig) (run : List (Call × Int)) (c : Call × Int) :
    reach config (run ++ [c]) = ((reach config run).step c).1 := by
  rw [reach, Machine.final_append]
  rfl

theorem clocked_snoc : Clocked (run ++ [c]) ↔ Clocked run ∧ ∀ a ∈ run, a.2 ≤ c.2 := by
  simp [Clocked, List.pairwise_append]

theorem reach_last {t : Int} (h : ∀ a ∈ run, a.2 ≤ t) : (reach config run).lastReceiptNs ≤ max t 0 := by
  induction run using List.reverseRecOn with
  | nil => exact Int.le_max_right t 0
  | append_singleton run c ih =>
    have := ih fun a ha => h a (by simp [ha])
    have := h c (by simp)
    rw [reach_snoc]
    rcases step_last (reach config run) c with h | h | h <;> rw [h] <;> omega

/-- An invariant of the calls so far and of the engine that they lead to. -/
theorem run_induction {P : List (Call × Int) → ObservationEngine → Prop} (config : ValidConfig)
    (nil : P [] (ofConfig config))
    (snoc : ∀ run c, Clocked (run ++ [c]) → (reach config run).lastReceiptNs ≤ max c.2 0 → P run (reach config run) →
      P (run ++ [c]) ((reach config run).step c).1)
    (h : Clocked run) : P run (reach config run) := by
  induction run using List.reverseRecOn with
  | nil => exact nil
  | append_singleton run c ih =>
    have hclock := clocked_snoc.1 h
    rw [reach_snoc]
    exact snoc run c h (reach_last hclock.2) (ih hclock.1)

/-- An invariant of the calls after `pre` that `A` allows. -/
theorem later_induction {A : ObservationEngine → Call × Int → Prop} {P : ObservationEngine → Prop}
    {pre post : List (Call × Int)} (h : Clocked (pre ++ post)) (halong : machine.Along A (reach config pre) post)
    (first : P (reach config pre))
    (snoc : ∀ run c, Clocked (run ++ [c]) → A (reach config run) c → P (reach config run) →
      P ((reach config run).step c).1) : P (reach config (pre ++ post)) := by
  induction post using List.reverseRecOn with
  | nil => rwa [List.append_nil]
  | append_singleton post c ih =>
    rw [← List.append_assoc] at h ⊢
    rw [Machine.along_append] at halong
    rw [reach_snoc]
    refine snoc (pre ++ post) c h ?_ (ih (clocked_snoc.1 h).1 halong.1)
    have hc := halong.2.1
    rwa [reach, ← Machine.final_append] at hc

end Runs
end Odometry
end MowgliMavros
