import MowgliMavros.ReplayedStatus

/-!
# The motors under replayed ESC_STATUS

`Steady` says what the samples, the announced count and the integrator of the motors have to do with each
other in every run. The motor of a wheel that a packet invalidates rests until a later sample begins
another segment (`Rests`).
-/

namespace MowgliMavros
namespace Odometry
namespace ObservationEngine
variable {e e' : ObservationEngine} {receipt t : Int} {side : Side} {c : Call × Int}

/-! ### The lanes -/

section Motor
variable {packet : CommonStatusPacket} {i : Fin 4}

/-- What the lane of a wheel's slot makes of its motor. -/
def laneMotor (e : ObservationEngine) (packet : CommonStatusPacket) (receipt : Int) (i : Fin 4) (side : Side) :
    MotorWheel :=
  if e.Renews packet i then
    (e.commonMotorTicks.observe side (packet.rpm i) (packet.timeUs * 1000) receipt).1.wheels side
  else if e.Counted (packet.index + i) ∧ packet.Contradicts i (e.status (packet.index + i)).data then
    { e.commonMotorTicks.wheels side with valid := false }
  else e.commonMotorTicks.wheels side

theorem recordSlot_motor (hmap : e.CommonMapping) (hslot : packet.index + i = e.slot side) :
    (e.recordSlot packet receipt i).commonMotorTicks.wheels side = e.laneMotor packet receipt i side := by
  unfold recordSlot laneMotor
  dsimp only
  split
  · dsimp only
    rw [hslot, onWheels_same hmap]
  · split
    · dsimp only
      rw [hslot, onWheels_same hmap]
      exact Function.update_self _ _ _
    · rfl

/-- What a sample makes of a motor does not depend on the other motor. -/
theorem observe_congr {m m' : MotorTickIntegrator} {rpm : Rat} {sample : Int}
    (hwheel : m'.wheels side = m.wheels side)
    (htimeout : m'.timeoutNs = m.timeoutNs) :
    (m'.observe side rpm sample receipt).1.wheels side = (m.observe side rpm sample receipt).1.wheels side := by
  have hadmits : m'.Admits side sample receipt ↔ m.Admits side sample receipt := by
    unfold MotorTickIntegrator.Admits
    rw [hwheel, htimeout]
  have hcontiguous : m'.Contiguous side sample receipt ↔ m.Contiguous side sample receipt := by
    unfold MotorTickIntegrator.Contiguous
    rw [hwheel, htimeout]
  by_cases h : m.Admits side sample receipt
  · rw [observe_wheel h, observe_wheel (hadmits.2 h)]
    simp only [MotorTickIntegrator.sampled, hcontiguous, hwheel]
  · unfold MotorTickIntegrator.observe
    rw [if_neg h, if_neg (mt hadmits.1 h)]
    exact hwheel

/-- The lane of another slot does not matter to the motor. -/
theorem laneMotor_other {j : Fin 4} (hmap : e.CommonMapping) (hj : i ≠ j) (hslot : packet.index + i = e.slot side) :
    (e.recordSlot packet receipt j).laneMotor packet receipt i side = e.laneMotor packet receipt i side := by
  have hne : packet.index + j ≠ e.slot side := hslot ▸ lane_ne hj.symm
  have hwheel := (recordSlot_wheel receipt hmap hne).2
  have hstatus : (e.recordSlot packet receipt j).status (packet.index + i) = e.status (packet.index + i) := by
    rw [recordSlot_status, Function.update_of_ne (lane_ne hj)]
  have hcount : (e.recordSlot packet receipt j).commonCount = e.commonCount := by
    obtain ⟨_, _, he⟩ := recordSlot_frame (e := e) packet receipt j
    rw [he]
  have htimeout := (recordSlot_keeps (e := e) packet receipt j).1
  have hcontradicts : (e.recordSlot packet receipt j).Counted (packet.index + i) ∧
        packet.Contradicts i ((e.recordSlot packet receipt j).status (packet.index + i)).data ↔
      e.Counted (packet.index + i) ∧ packet.Contradicts i (e.status (packet.index + i)).data := by
    unfold Counted
    rw [hstatus, hcount]
  refine if_congr (recordSlot_other hj).1 (observe_congr hwheel htimeout) (if_congr hcontradicts ?_ hwheel)
  rw [hwheel]

theorem recordLanes_motor (packet : CommonStatusPacket) (receipt : Int) (side : Side) {is : List (Fin 4)}
    (hnodup : is.Nodup) (e : ObservationEngine) (hmap : e.CommonMapping) :
    let e' := is.foldl (fun e i => e.recordSlot packet receipt i) e
    (∀ i ∈ is, packet.index + i = e.slot side →
        e'.commonMotorTicks.wheels side = e.laneMotor packet receipt i side) ∧
      ((∀ i ∈ is, packet.index + i ≠ e.slot side) →
        e'.commonMotorTicks.wheels side = e.commonMotorTicks.wheels side) := by
  induction is generalizing e with
  | nil => exact ⟨by simp, fun _ => rfl⟩
  | cons j is ih =>
    obtain ⟨hj, hrest⟩ := List.nodup_cons.1 hnodup
    obtain ⟨hin, hout⟩ := ih hrest (e.recordSlot packet receipt j) (recordSlot_mapping.2 hmap)
    rw [recordSlot_slot] at hin hout
    constructor
    · intro i hi hslot
      rcases List.mem_cons.1 hi with rfl | hi
      · refine (hout fun k hk he => hj ?_).trans (recordSlot_motor hmap hslot)
        rwa [show i = k from Fin.ext (by omega)]
      · exact (hin i hi hslot).trans (laneMotor_other hmap (fun he => hj (he ▸ hi)) hslot)
    · intro hother
      refine (hout fun k hk => hother k (List.mem_cons_of_mem _ hk)).trans ?_
      exact (recordSlot_wheel _ hmap (hother j (by simp))).2

/-- What ESC_STATUS makes of the motor of a wheel. -/
theorem recordStatus_motor (packet : CommonStatusPacket) (receipt : Int) (hmap : e.CommonMapping) (side : Side) :
    (∃ i : Fin 4, packet.index + i = e.slot side ∧
        (e.recordStatus packet receipt).commonMotorTicks.wheels side = e.laneMotor packet receipt i side) ∨
      (∀ i : Fin 4, packet.index + i ≠ e.slot side) ∧
        (e.recordStatus packet receipt).commonMotorTicks.wheels side = e.commonMotorTicks.wheels side := by
  obtain ⟨hin, hout⟩ := recordLanes_motor packet receipt side
    (List.nodup_finRange 4) e hmap
  by_cases hlane : ∃ i : Fin 4, packet.index + i = e.slot side
  · obtain ⟨i, hi⟩ := hlane
    exact .inl ⟨i, hi, hin i (List.mem_finRange i) hi⟩
  · have hno : ∀ i : Fin 4, packet.index + i ≠ e.slot side := fun i hi => hlane ⟨i, hi⟩
    exact .inr ⟨hno, hout fun i _ => hno i⟩

end Motor

/-! ### The cache -/

/-- The samples are the owner's, of the past and inside the count, and the integrator holds those that are
valid and came after the configuration. -/
structure Steady (t : Int) (e : ObservationEngine) : Prop where
  timeout : e.commonMotorTicks.timeoutNs = e.config.1.timeoutNs
  stored : ∀ slot, (e.status slot).seen = true → e.commonComponent ≠ none
  slots : ∀ slot, (e.status slot).seen = true → slot < 64
  stamped : ∀ slot, (e.status slot).seen = true → (e.status slot).data.stampNs ≤ t
  counted : ∀ slot, (e.status slot).seen = true → (e.status slot).data.valid = true → e.Counted slot
  synced : e.CommonMapping → ∀ side, (e.commonMotorTicks.wheels side).valid = true → e.Synced side
  ticking : e.CommonMapping → ∀ side, (e.wheelStatus side).seen = true → (e.wheelStatus side).data.valid = true →
    e.commonConfigurationNs < (e.wheelStatus side).data.stampNs → (e.commonMotorTicks.wheels side).valid = true

/-- From `e` to `e'` no sample comes, and no valid one leaves the count. -/
structure Aging (e e' : ObservationEngine) : Prop extends Fading e e' where
  config : e'.config = e.config
  component : e'.commonComponent = none → e.commonComponent = none
  configuration : e'.commonConfigurationNs = e.commonConfigurationNs
  counted : ∀ slot, slot < 64 → (e'.status slot).data.valid = true → e.Counted slot → e'.Counted slot

namespace Aging

theorem slot (h : e.Aging e') (side : Side) : e'.slot side = e.slot side := by
  unfold ObservationEngine.slot geometry
  rw [h.config]

theorem mapping (h : e.Aging e') : e'.CommonMapping ↔ e.CommonMapping := by
  unfold CommonMapping geometry
  rw [h.config]

theorem wheel (h : e.Aging e') (side : Side) : (e.wheelStatus side).Fades (e'.wheelStatus side) := by
  unfold wheelStatus
  rw [h.slot]
  exact h.status _

theorem steady (h : e.Aging e') (hs : e.Steady t) : e'.Steady t where
  timeout := by rw [h.ticks, h.config, hs.timeout]
  stored slot hseen hnone := hs.stored slot ((h.status slot).seen ▸ hseen) (h.component hnone)
  slots slot hseen := hs.slots slot ((h.status slot).seen ▸ hseen)
  stamped slot hseen := by
    rw [(h.status slot).stamp]
    exact hs.stamped slot ((h.status slot).seen ▸ hseen)
  counted slot hseen hvalid := by
    have hseen := (h.status slot).seen ▸ hseen
    exact h.counted slot (hs.slots slot hseen) hvalid (hs.counted slot hseen ((h.status slot).valid hvalid))
  synced hmap side hvalid := by
    have hsynced := hs.synced (h.mapping.1 hmap) side (h.ticks ▸ hvalid)
    have htime : e'.wheelTime side = e.wheelTime side := (h.wheel side).time
    exact ⟨(h.wheel side).seen.trans hsynced.seen, by rw [h.ticks, htime]; exact hsynced.sample,
      by rw [h.ticks, (h.wheel side).stamp]; exact hsynced.receipt,
      by rw [h.ticks, (h.wheel side).rpm]; exact hsynced.rate⟩
  ticking hmap side hseen hvalid hlater := by
    rw [h.ticks]
    rw [(h.wheel side).stamp, h.configuration] at hlater
    exact hs.ticking (h.mapping.1 hmap) side ((h.wheel side).seen ▸ hseen) ((h.wheel side).valid hvalid) hlater

end Aging

theorem Cleared.steady (h : e.Cleared) : e.Steady t where
  timeout := h.timeout
  stored slot hseen := absurd hseen (by simp [h.status slot])
  slots slot hseen := absurd hseen (by simp [h.status slot])
  stamped slot hseen := absurd hseen (by simp [h.status slot])
  counted slot hseen := absurd hseen (by simp [h.status slot])
  synced _ side hvalid := absurd hvalid (by simp [h.ticks side])
  ticking _ side hseen := absurd hseen (by simp [wheelStatus, h.status])

theorem Steady.mono {t' : Int} (h : e.Steady t) (htt' : t ≤ t') : e.Steady t' :=
  { h with stamped := fun slot hseen => (h.stamped slot hseen).trans htt' }

/-! ### Calls other than ESC_STATUS -/

theorem Calm.aging (h : e.Calm e') (hstatus : e'.status = e.status) (hcount : e'.commonCount = e.commonCount) :
    e.Aging e' where
  status slot := by
    rw [hstatus]
    exact .refl _
  ticks := h.ticks
  config := h.config
  component := h.component
  configuration := h.configuration
  counted slot _ _ := by
    unfold Counted
    rw [hcount]
    exact id

theorem Calm.aging_reports (h : e.Calm e') (hreports : e'.reports = e.reports) : e.Aging e' :=
  h.aging (congrArg (·.status) hreports) (congrArg (·.commonCount) hreports)

theorem Aging.trans {e'' : ObservationEngine} (h : e.Aging e') (h' : e'.Aging e'') : e.Aging e'' where
  toFading := h.toFading.trans h'.toFading
  config := h'.config.trans h.config
  component hnone := h.component (h'.component hnone)
  configuration := h'.configuration.trans h.configuration
  counted slot hslot hvalid hcounted :=
    h'.counted slot hslot hvalid (h.counted slot hslot ((h'.status slot).valid hvalid) hcounted)

theorem recordInfo_aging (e : ObservationEngine) (packet : CommonInfoPacket) (receipt : Int) :
    e.Aging (e.recordInfo packet receipt) := by
  have hcalm := e.recordInfo_calm packet receipt
  refine ⟨e.recordInfo_fading packet receipt, hcalm.config, hcalm.component, hcalm.configuration, ?_⟩
  obtain ⟨_, h⟩ := e.recordInfo_frame packet receipt
  rw [h]
  intro slot hslot hvalid _
  dsimp only [trimCount] at hvalid
  split at hvalid
  · cases hvalid
  · rename_i hin
    exact decide_eq_true (Nat.lt_of_not_le fun hle => hin ⟨hle, hslot⟩)

/-- Either no sample comes, or another epoch begins without any. -/
def AgingOrCleared (e e' : ObservationEngine) : Prop := e.Aging e' ∨ ∃ a : ObservationEngine, a.Cleared ∧ a.Aging e'

theorem AgingOrCleared.steady (h : e.AgingOrCleared e') (hs : e.Steady t) : e'.Steady t := by
  rcases h with haging | ⟨a, hcleared, haging⟩
  · exact haging.steady hs
  · exact haging.steady hcleared.steady

theorem reselect_aging (e : ObservationEngine) (now : Int) : e.Aging (e.reselect now) :=
  (e.reselect_calm now).aging_reports (reselect_reports _ _)

theorem received_aging (e : ObservationEngine) (last : Int) : e.Aging (e.received last) :=
  (e.received_calm last).aging_reports rfl

theorem acceptCommonInfo_aging {a : ObservationEngine} {component : UInt8}
    (htimeout : e.commonMotorTicks.timeoutNs = e.config.1.timeoutNs) (h : e.acceptCommonInfo component = some a) :
    e.Aging a ∨ a.Cleared := by
  obtain ⟨-, rfl⟩ | ⟨-, rfl⟩ := acceptCommonInfo_cases h
  · exact .inl ⟨⟨fun _ => .refl _, rfl⟩, rfl, nofun, rfl, fun _ _ _ => id⟩
  · exact .inr ⟨htimeout, fun _ => rfl, fun _ => rfl⟩

theorem commonInfo_aging (htimeout : e.commonMotorTicks.timeoutNs = e.config.1.timeoutNs)
    (h : e.lastReceiptNs ≤ max receipt 0) (packet : CommonInfoPacket) :
    e.AgingOrCleared (e.commonInfo packet receipt) := by
  obtain heq | heq | ⟨a, b, ha, hb, heq⟩ := commonInfo_eq h packet
  · rw [heq]
    exact .inl ((Calm.refl e).aging_reports rfl)
  · rw [heq]
    exact .inl (e.received_aging receipt)
  · have hrest : a.Aging (e.commonInfo packet receipt) := by
      rw [heq]
      rcases hb with rfl | rfl
      · refine .trans ?_ (reselect_aging _ _)
        obtain ⟨_, hframe⟩ := a.restartInfo_frame packet
        exact (a.restartInfo_calm packet).aging (by rw [hframe]) (by rw [hframe])
      · exact (a.recordInfo_aging packet receipt).trans (reselect_aging _ _)
    rcases acceptCommonInfo_aging (e := e.received receipt) htimeout ha with haging | hcleared
    · exact .inl (((e.received_aging receipt).trans haging).trans hrest)
    · exact .inr ⟨a, hcleared, hrest⟩

theorem poll_aging (htimeout : e.commonMotorTicks.timeoutNs = e.config.1.timeoutNs) (now : Int) :
    e.AgingOrCleared (e.poll now) := by
  unfold poll receiveClock
  split
  · exact .inr ⟨e.reset.received now, ⟨htimeout, fun _ => rfl, fun _ => rfl⟩, reselect_aging _ _⟩
  · exact .inl ((e.received_aging now).trans (reselect_aging _ _))

/-- A silent takeover resets the encoder and selects. -/
theorem silentTakeover_eq {packet : DistancePacket} (h : e.Tracked receipt)
    (hsilent : e.SilentTakeover (.wheelDistance packet, receipt)) (hpos : ¬ receipt ≤ 0)
    (hconnected : e.connected = true) :
    (e.wheelDistance packet receipt).1 = ((e.received receipt).resetDistance.dropDistance).reselect receipt := by
  have hsilent : (e.received receipt).SilentTakeover (.wheelDistance packet, receipt) := hsilent
  unfold wheelDistance
  rw [if_neg (by simp [hpos, hconnected]), h.clock hpos]
  dsimp only
  generalize e.received receipt = e at hsilent ⊢
  obtain ⟨_, hother, hexcludes, hlive, hread, _⟩ := hsilent
  unfold acceptDistance
  rw [if_neg hexcludes, if_pos hother, if_neg hlive]
  dsimp only
  rw [show e.resetDistance.readDistance packet receipt = none from hread]

theorem wheelDistance_aging (h : e.Tracked receipt) (packet : DistancePacket) :
    e.Aging (e.wheelDistance packet receipt).1 := by
  by_cases hsilent : e.SilentTakeover (.wheelDistance packet, receipt)
  · by_cases hidle : ¬ e.connected ∨ receipt ≤ 0
    · unfold wheelDistance
      rw [if_pos hidle]
      exact (Calm.refl e).aging_reports rfl
    · push Not at hidle
      rw [silentTakeover_eq h hsilent (Int.not_le.2 hidle.2) hidle.1]
      exact (show e.Aging (e.received receipt).resetDistance.dropDistance from
        ⟨⟨fun _ => .refl _, rfl⟩, rfl, id, rfl, fun _ _ _ => id⟩).trans (reselect_aging _ _)
  · exact (wheelDistance_calm h hsilent).aging_reports (wheelDistance_reports e packet h.dated.past)

theorem replace_count {config : ValidConfig} {retain : Bool} {slot : Nat}
    (hseen : ((e.replace config t retain).status slot).seen = true) :
    (e.replace config t retain).commonCount = e.commonCount := by
  unfold replace retainEscObservations at hseen ⊢
  dsimp only at hseen ⊢
  split at hseen
  · rename_i hkeeps
    exact if_pos hkeeps
  · cases hseen

theorem replace_steady {config : ValidConfig} {retain : Bool} (hs : e.Steady t) :
    (e.replace config t retain).Steady t := by
  have hpast : ∀ slot, ((e.replace config t retain).status slot).seen = true →
      ((e.replace config t retain).status slot).data.stampNs ≤ t := by
    intro slot hseen
    have hstatus := (replace_kept hseen).1
    rw [hstatus] at hseen ⊢
    exact hs.stamped slot hseen
  refine ⟨?_, fun slot hseen => ?_, fun slot hseen => ?_, hpast, fun slot hseen hvalid => ?_,
    fun hmap side hvalid => ?_,
    fun _ side hseen _ hlater => absurd (hpast _ hseen) (Int.not_le.2 hlater)⟩
  · exact e.replace_timeout config t retain
  · obtain ⟨hstatus, hcomponent⟩ := replace_kept hseen
    rw [hcomponent]
    exact hs.stored slot (hstatus ▸ hseen)
  · exact hs.slots slot ((replace_kept hseen).1 ▸ hseen)
  · have hcount := replace_count hseen
    have hstatus := (replace_kept hseen).1
    rw [hstatus] at hseen hvalid
    unfold Counted
    rw [hcount]
    exact hs.counted slot hseen hvalid
  · exact replace_synced hs.stored hs.synced hmap side hvalid

/-! ### ESC_STATUS -/

section Status
variable {packet : CommonStatusPacket} {a b : ObservationEngine}

/-- An accepted packet is recorded where no sample came since, or in a new epoch without any. -/
theorem restartCommon_aging (htimeout : e.commonMotorTicks.timeoutNs = e.config.1.timeoutNs)
    (h : e.acceptCommonStatus packet.componentId receipt = some a) :
    (a.restartCommon packet).commonComponent ≠ none ∧
      (e.Aging (a.restartCommon packet) ∧ a.restartCommon packet = a ∨
        (a.restartCommon packet).Cleared ∧
          (a.restartCommon packet).commonMotorTicks.epoch ≠ e.commonMotorTicks.epoch) := by
  obtain ⟨-, hsame, rfl⟩ | ⟨needed, hreset⟩ := restartCommon_cases h
  · rw [hsame]
    exact ⟨nofun, .inl ⟨⟨⟨fun _ => .refl _, rfl⟩, rfl, nofun, rfl, fun _ _ _ => id⟩, rfl⟩⟩
  · rw [hreset]
    exact ⟨nofun, .inr ⟨⟨htimeout, fun _ => rfl, fun _ => rfl⟩, Nat.succ_ne_self _⟩⟩

theorem Steady.following (hs : e.Steady receipt) (hregress : ¬ e.Regresses packet) : e.Following packet receipt where
  timeout := by
    rw [hs.timeout]
    exact e.config.timeout_pos
  times i hseen := Nat.not_lt.1 fun hlt => hregress ⟨i, hseen, hlt⟩
  stamps := hs.stamped
  synced := hs.synced

/-- A valid sample after the packet is in the integrator. -/
theorem record_ticking (hs : e.Steady receipt) (hregress : ¬ e.Regresses packet) (hpos : 0 < receipt)
    (htime : 0 < packet.timeUs) (hmap : e.CommonMapping)
    (hseen : ((e.recordStatus packet receipt).wheelStatus side).seen = true)
    (hvalid : ((e.recordStatus packet receipt).wheelStatus side).data.valid = true)
    (hlater : e.commonConfigurationNs < ((e.recordStatus packet receipt).wheelStatus side).data.stampNs) :
    ((e.recordStatus packet receipt).commonMotorTicks.wheels side).valid = true := by
  unfold wheelStatus at hseen hvalid hlater
  rw [(e.recordStatus_same packet receipt).slot] at hseen hvalid hlater
  rcases recordStatus_motor packet receipt hmap side with ⟨i, hslot, hmotor⟩ | ⟨hno, hmotor⟩
  · rw [← hslot, recordStatus_lane] at hseen hvalid hlater
    rw [hmotor]
    unfold laneMotor
    unfold recorded at hseen hvalid hlater
    dsimp only at hseen hvalid hlater
    by_cases hrenews : e.Renews packet i
    · rw [if_pos hrenews, observe_wheel (renews_admits (hs.following hregress) hpos htime hmap hrenews hslot)]
      rfl
    · rw [if_neg hrenews] at hseen hvalid hlater ⊢
      split at hvalid
      · cases hvalid
      · rename_i hsame
        rw [if_neg hsame] at hseen hlater ⊢
        rw [hslot] at hseen hvalid hlater
        exact hs.ticking hmap side hseen hvalid hlater
  · rw [recordStatus_other fun i hi => hno i hi.symm] at hseen hvalid hlater
    rw [hmotor]
    exact hs.ticking hmap side hseen hvalid hlater

theorem record_steady (hs : e.Steady receipt) (hregress : ¬ e.Regresses packet) (hstored : e.commonComponent ≠ none)
    (hpos : 0 < receipt) (htime : 0 < packet.timeUs) (hindex : packet.index ≤ 60) :
    (e.recordStatus packet receipt).Steady receipt := by
  have hfollow := recordStatus_following (hs.following hregress) hpos htime
  have hsame := e.recordStatus_same packet receipt
  have hcount : (e.recordStatus packet receipt).commonCount = e.commonCount := by
    obtain ⟨_, _, hframe⟩ := e.recordStatus_frame packet receipt
    rw [hframe]
  have hslots := e.recordStatus_slot packet receipt
  refine ⟨by rw [(e.recordStatus_keeps packet receipt).1, hs.timeout, hsame.config],
    fun _ _ => hsame.component ▸ hstored,
    fun slot hseen => ?_, hfollow.stamps, fun slot hseen hvalid => ?_, hfollow.synced,
    fun hmap side hseen hvalid hlater => ?_⟩
  · rcases hslots slot with ⟨i, hslot, _⟩ | ⟨_, hfades⟩
    · omega
    · exact hs.slots slot (hfades.seen ▸ hseen)
  · unfold Counted
    rw [hcount]
    rcases hslots slot with ⟨i, rfl, hrenews, _⟩ | ⟨_, hfades⟩
    · exact hrenews.1
    · exact hs.counted slot (hfades.seen ▸ hseen) (hfades.valid hvalid)
  · rw [hsame.configuration] at hlater
    exact record_ticking hs hregress hpos htime (hsame.mapping.1 hmap) hseen hvalid hlater

theorem select_aging (e : ObservationEngine) (now : Int) (commonUpdate : Bool) (previous : Side → Nat) :
    e.Aging (e.select now commonUpdate previous) := by
  obtain ⟨_, _, _, h⟩ := e.selectAs_frame (e.selected now) commonUpdate previous
  unfold select
  rw [h]
  exact ⟨⟨fun _ => .refl _, rfl⟩, rfl, id, rfl, fun _ _ _ => id⟩

theorem pairCommon_aging (e : ObservationEngine) (receipt : Int) : e.Aging (e.pairCommon receipt).1 := by
  obtain ⟨_, _, _, h⟩ := e.pairCommon_frame receipt
  rw [h]
  exact ⟨⟨fun _ => .refl _, rfl⟩, rfl, id, rfl, fun _ _ _ => id⟩

/-- What an accepted packet is recorded in. -/
structure Records (e a b : ObservationEngine) (packet : CommonStatusPacket) (receipt : Int) : Prop where
  accepts : (e.receiveClock receipt).acceptCommonStatus packet.componentId receipt = some a
  restarts : a.restartCommon packet = b
  follows : ¬ b.Regresses packet
  stored : b.commonComponent ≠ none
  aging : e.Aging b ∧ b = a ∨ b.Cleared ∧ b.commonMotorTicks.epoch ≠ e.commonMotorTicks.epoch

theorem records_of_accept (htimeout : e.commonMotorTicks.timeoutNs = e.config.1.timeoutNs)
    (h : e.lastReceiptNs ≤ max receipt 0) (hrefuse : ¬ e.RefusesStatus packet receipt)
    (ha : (e.receiveClock receipt).acceptCommonStatus packet.componentId receipt = some a) :
    e.Records a (a.restartCommon packet) packet receipt := by
  have hpos : ¬ receipt ≤ 0 := fun hr => hrefuse (.inr (.inl hr))
  have haccepted := ha
  rw [receiveClock_eq (clock_of_receipt h hpos)] at haccepted
  obtain ⟨hstored, haging⟩ := restartCommon_aging (e := e.received receipt) htimeout haccepted
  refine ⟨ha, rfl, (accepted_fading h hrefuse ha).1, hstored, ?_⟩
  exact haging.imp_left fun ⟨hag, heq⟩ => ⟨(e.received_aging receipt).trans hag, heq⟩

/-- ESC_STATUS is not accepted, or is recorded, selects and pairs. -/
theorem commonStatus_cases (htimeout : e.commonMotorTicks.timeoutNs = e.config.1.timeoutNs)
    (h : e.lastReceiptNs ≤ max receipt 0) (packet : CommonStatusPacket) :
    e.commonStatus packet receipt = (e, none) ∨ e.commonStatus packet receipt = (e.received receipt, none) ∨
      ¬ e.RefusesStatus packet receipt ∧ ∃ a b, e.Records a b packet receipt ∧ e.commonStatus packet receipt =
        ((b.recordStatus packet receipt).select receipt true a.mappedTime).pairCommon receipt := by
  by_cases hrefuse : e.RefusesStatus packet receipt
  · exact .inl (if_pos hrefuse)
  · cases ha : (e.receiveClock receipt).acceptCommonStatus packet.componentId receipt with
    | none => exact (commonStatus_refused h (.inr ha)).imp_right .inl
    | some a =>
      exact .inr (.inr ⟨hrefuse, a, _, records_of_accept htimeout h hrefuse ha, commonStatus_eq hrefuse ha⟩)

theorem Records.steady (hr : e.Records a b packet receipt) (hs : e.Steady receipt) : b.Steady receipt := by
  rcases hr.aging with ⟨haging, _⟩ | ⟨hcleared, _⟩
  · exact haging.steady hs
  · exact hcleared.steady

/-- The samples and the integrator after a packet is recorded. -/
theorem Records.record_steady (hr : e.Records a b packet receipt) (hs : e.Steady receipt)
    (hrefuse : ¬ e.RefusesStatus packet receipt) : (b.recordStatus packet receipt).Steady receipt := by
  have hpos : ¬ receipt ≤ 0 := fun h => hrefuse (.inr (.inl h))
  have hindex : ¬ packet.index > 60 := fun h => hrefuse (.inr (.inr (.inr (.inl h))))
  exact ObservationEngine.record_steady (hr.steady hs) hr.follows hr.stored (Int.not_le.1 hpos) (time_pos hrefuse)
    (Nat.not_lt.1 hindex)

theorem commonStatus_steady (h : e.lastReceiptNs ≤ max receipt 0) (hs : e.Steady receipt)
    (packet : CommonStatusPacket) :
    (e.commonStatus packet receipt).1.Steady receipt := by
  rcases commonStatus_cases hs.timeout h packet with heq | heq | ⟨hrefuse, a, b, hr, heq⟩ <;> rw [heq]
  · exact hs
  · exact (e.received_aging receipt).steady hs
  · have haging := (select_aging (b.recordStatus packet receipt) receipt true a.mappedTime).trans
      (pairCommon_aging _ receipt)
    exact haging.steady (hr.record_steady hs hrefuse)

end Status

theorem step_steady (h : e.Tracked c.2) (hs : e.Steady c.2) : (e.step c).1.Steady c.2 := by
  have hpast := h.dated.past
  obtain ⟨call, now⟩ := c
  cases call with
  | commonStatus packet => exact commonStatus_steady hpast hs packet
  | commonInfo packet => exact (commonInfo_aging hs.timeout hpast packet).steady hs
  | legacyEsc packet =>
    obtain ⟨_, _, he⟩ := legacyEscTelemetry_reports e packet hpast
    exact ((legacyEscTelemetry_calm hpast packet).aging (congrArg (·.status) he)
      (congrArg (·.commonCount) he)).steady hs
  | legacyRpm left right =>
    obtain ⟨_, _, he⟩ := legacyRpm_reports e left right hpast
    exact ((legacyRpm_calm hpast left right).aging (congrArg (·.status) he) (congrArg (·.commonCount) he)).steady hs
  | wheelDistance packet => exact (wheelDistance_aging h packet).steady hs
  | poll => exact (poll_aging hs.timeout now).steady hs
  | connection connected => exact (Cleared.steady ⟨hs.timeout, fun _ => rfl, fun _ => rfl⟩)
  | replace config retain => exact replace_steady hs

theorem ofConfig_steady (config : ValidConfig) (t : Int) : (ofConfig config).Steady t :=
  Cleared.steady ⟨rfl, fun _ => rfl, fun _ => rfl⟩

/-! ### A motor that rests -/

/-- Since `e` the motor has counted nothing, or counts in another segment since a later sample. -/
def Rests (e : ObservationEngine) (side : Side) (e' : ObservationEngine) : Prop :=
  (e'.wheelStatus side).seen = true ∧
    (e'.wheelTime side = e.wheelTime side ∧ (e'.commonMotorTicks.wheels side).valid = false ∧
        (e'.commonMotorTicks.wheels side).ticks = (e.commonMotorTicks.wheels side).ticks ∧
        (e'.commonMotorTicks.wheels side).segment = (e.commonMotorTicks.wheels side).segment ∨
      e.wheelTime side < e'.wheelTime side ∧
        (e.commonMotorTicks.wheels side).segment < (e'.commonMotorTicks.wheels side).segment)

/-- The packet repeats the measurement time of the wheel's sample with other values. -/
def Contradicted (e : ObservationEngine) (side : Side) : Call × Int → Prop
  | (.commonStatus packet, receipt) => e.Carries (e.slot side) (e.wheelTime side) (.commonStatus packet, receipt) ∧
      (e.wheelStatus side).seen = true ∧
      ∃ i : Fin 4, e.slot side = packet.index + i ∧ packet.Contradicts i (e.wheelStatus side).data
  | _ => False

/-- What a call makes of a wheel that has a sample: the motor stays, at best as valid, or a later sample
comes, which begins another segment if the motor was not valid. -/
structure MotorStep (e e' : ObservationEngine) (side : Side) : Prop where
  slot : e'.slot side = e.slot side
  mapping : e'.CommonMapping
  seen : (e'.wheelStatus side).seen = true
  motor : e'.wheelTime side = e.wheelTime side ∧
      (∃ valid, (valid = true → (e.commonMotorTicks.wheels side).valid = true) ∧
        e'.commonMotorTicks.wheels side = { e.commonMotorTicks.wheels side with valid := valid }) ∨
    e.wheelTime side < e'.wheelTime side ∧
      (e.commonMotorTicks.wheels side).segment ≤ (e'.commonMotorTicks.wheels side).segment ∧
      ((e.commonMotorTicks.wheels side).valid = false →
        (e.commonMotorTicks.wheels side).segment < (e'.commonMotorTicks.wheels side).segment)

theorem MotorStep.rests {e₀ : ObservationEngine} (h : e.MotorStep e' side) (hrests : e₀.Rests side e) :
    e₀.Rests side e' := by
  refine ⟨h.seen, ?_⟩
  rcases hrests.2 with ⟨htime, hvalid, hticks, hsegment⟩ | ⟨htime, hsegment⟩
  · rcases h.motor with ⟨htime', valid, hle, hmotor⟩ | ⟨htime', _, hnext⟩
    · rw [hmotor]
      refine .inl ⟨htime'.trans htime, ?_, hticks, hsegment⟩
      cases valid with
      | false => rfl
      | true => rw [hle rfl] at hvalid; cases hvalid
    · exact .inr ⟨htime ▸ htime', hsegment ▸ hnext hvalid⟩
  · rcases h.motor with ⟨htime', _, _, hmotor⟩ | ⟨htime', hnext, _⟩
    · rw [htime', hmotor]
      exact .inr ⟨htime, hsegment⟩
    · exact .inr ⟨htime.trans htime', hsegment.trans_le hnext⟩

theorem Aging.motorStep (h : e.Aging e') (hmap : e.CommonMapping) (hseen : (e.wheelStatus side).seen = true) :
    e.MotorStep e' side :=
  ⟨h.slot side, h.mapping.2 hmap, (h.wheel side).seen.trans hseen, .inl ⟨(h.wheel side).time, _, id, by rw [h.ticks]⟩⟩

theorem MotorStep.aging {e'' : ObservationEngine} (h : e.MotorStep e' side) (h' : e'.Aging e'') :
    e.MotorStep e'' side := by
  refine ⟨(h'.slot side).trans h.slot, h'.mapping.2 h.mapping, (h'.wheel side).seen.trans h.seen, ?_⟩
  have htime : e''.wheelTime side = e'.wheelTime side := (h'.wheel side).time
  rw [htime, h'.ticks]
  exact h.motor

theorem sampled_segment (m : MotorTickIntegrator) (side : Side) (rpm : Rat) (sample receipt : Int) :
    (m.wheels side).segment ≤ (m.sampled side rpm sample receipt).segment ∧
      ((m.wheels side).valid = false → (m.wheels side).segment < (m.sampled side rpm sample receipt).segment) := by
  unfold MotorTickIntegrator.sampled
  dsimp only
  by_cases h : m.Contiguous side sample receipt
  · refine ⟨by simp [h], fun hvalid => ?_⟩
    rw [h.1] at hvalid
    cases hvalid
  · simp [h]

theorem recordStatus_motorStep (packet : CommonStatusPacket) (hs : e.Steady receipt) (hregress : ¬ e.Regresses packet)
    (hpos : 0 < receipt) (htime : 0 < packet.timeUs) (hmap : e.CommonMapping)
    (hseen : (e.wheelStatus side).seen = true) :
    e.MotorStep (e.recordStatus packet receipt) side := by
  have hsame := e.recordStatus_same packet receipt
  have hslots := e.recordStatus_slot packet receipt (e.slot side)
  refine ⟨hsame.slot side, hsame.mapping.2 hmap, ?_, ?_⟩
  · unfold wheelStatus
    rw [hsame.slot]
    rcases hslots with ⟨_, _, _, heq⟩ | ⟨_, hfades⟩
    · rw [heq]
    · exact hfades.seen.trans hseen
  · unfold wheelTime wheelStatus
    rw [hsame.slot]
    rcases recordStatus_motor packet receipt hmap side with
      ⟨i, hslot, hmotor⟩ | ⟨hno, hmotor⟩
    · rw [hmotor]
      unfold laneMotor
      by_cases hrenews : e.Renews packet i
      · have hlater := renews_later hregress hrenews (hslot ▸ hseen)
        rw [if_pos hrenews, observe_wheel (renews_admits (hs.following hregress) hpos htime hmap hrenews hslot)]
        refine .inr ⟨?_, sampled_segment _ _ _ _ _⟩
        rw [← hslot, recordStatus_lane, recorded, if_pos hrenews]
        exact hlater
      · rw [if_neg hrenews]
        rcases hslots with ⟨j, hj, hnew, _⟩ | ⟨_, hfades⟩
        · rw [show j = i from Fin.ext (by omega)] at hnew
          exact absurd hnew hrenews
        · refine .inl ⟨hfades.time, ?_⟩
          split
          · exact ⟨false, (fun h => by cases h), rfl⟩
          · exact ⟨_, id, rfl⟩
    · rcases hslots with ⟨j, hj, _⟩ | ⟨_, hfades⟩
      · exact absurd hj.symm (hno j)
      · exact .inl ⟨hfades.time, _, id, by rw [hmotor]⟩

theorem AgingOrCleared.motorStep (h : e.AgingOrCleared e') (hmap : e.CommonMapping)
    (hseen : (e.wheelStatus side).seen = true) (hkept : (e'.status (e.slot side)).seen = true) :
    e.MotorStep e' side := by
  rcases h with haging | ⟨a, hcleared, haging⟩
  · exact haging.motorStep hmap hseen
  · rw [(haging.status _).seen, hcleared.status] at hkept
    cases hkept

/-- The engine that an accepted packet of the epoch is recorded in. -/
theorem Records.aged {packet : CommonStatusPacket} {a b : ObservationEngine} (hr : e.Records a b packet receipt)
    (hrefuse : ¬ e.RefusesStatus packet receipt) (hstarts : ¬ e.StartsEpoch (.commonStatus packet, receipt)) :
    e.Aging b ∧ b = a := by
  have hticks := (commonStatus_status hrefuse hr.accepts).2
  rw [hr.restarts] at hticks
  rcases hr.aging with haging | ⟨_, hepoch⟩
  · exact haging
  · refine absurd ?_ hstarts
    show (e.commonStatus packet receipt).1.commonMotorTicks.epoch ≠ _
    rw [hticks, (b.recordStatus_keeps packet receipt).2]
    exact hepoch

theorem commonStatus_motorStep {packet : CommonStatusPacket} (h : e.lastReceiptNs ≤ max receipt 0)
    (hs : e.Steady receipt)
    (hstarts : ¬ e.StartsEpoch (.commonStatus packet, receipt)) (hmap : e.CommonMapping)
    (hseen : (e.wheelStatus side).seen = true) : e.MotorStep (e.commonStatus packet receipt).1 side := by
  rcases commonStatus_cases hs.timeout h packet with heq | heq | ⟨hrefuse, a, b, hr, heq⟩
  · rw [heq]
    exact ((Calm.refl e).aging_reports rfl).motorStep hmap hseen
  · rw [heq]
    exact (e.received_aging receipt).motorStep hmap hseen
  · have haged := (hr.aged hrefuse hstarts).1
    have hpos : ¬ receipt ≤ 0 := fun hp => hrefuse (.inr (.inl hp))
    have hstep := haged.motorStep hmap hseen
    have hrecord := recordStatus_motorStep packet (hr.steady hs) hr.follows (Int.not_le.1 hpos)
      (time_pos hrefuse) hstep.mapping hstep.seen
    have htime : b.wheelTime side = e.wheelTime side := (haged.wheel side).time
    rw [heq]
    refine .aging (.aging ⟨hrecord.slot.trans hstep.slot, hrecord.mapping, hrecord.seen, ?_⟩ (select_aging _ _ _ _))
      (pairCommon_aging _ _)
    rw [← htime, ← haged.ticks]
    exact hrecord.motor

theorem replace_motorStep {config : ValidConfig} {retain : Bool} (hs : e.Steady t)
    (hrestarts : ¬ e.Restarts (.replace config retain, t)) (hmap : e.CommonMapping)
    (hseen : (e.wheelStatus side).seen = true) : e.MotorStep (e.replace config t retain) side := by
  obtain ⟨hmapping, hstatus, hwheels⟩ := replace_same hrestarts
  have hstatus := congrFun (hstatus (hs.stored _ hseen)) side
  obtain ⟨hleft, hright, _⟩ := not_not.1 hrestarts
  refine ⟨?_, hmapping.2 hmap, by rw [hstatus, hseen], .inl ⟨congrArg Status.timeUs hstatus, _, id, by rw [hwheels]⟩⟩
  cases side
  exacts [congrArg Int.toNat hleft, congrArg Int.toNat hright]

/-- What a call of the epoch makes of a wheel that has a sample. -/
theorem step_motor (h : e.Tracked c.2) (hs : e.Steady c.2) (hrestarts : ¬ e.Restarts c) (hmap : e.CommonMapping)
    (hseen : (e.wheelStatus side).seen = true) : e.MotorStep (e.step c).1 side := by
  have hpast := h.dated.past
  have hkept : ¬ e.StartsEpoch c → ((e.step c).1.status (e.slot side)).seen = true := fun hstarts => by
    cases step_slot hpast hs.stored (e.slot side) with
    | keeps _ fades => exact (fades (.inl hseen)).seen.trans hseen
    | empties starts _ => exact absurd starts hstarts
    | renews _ seen _ _ => exact seen
  obtain ⟨call, now⟩ := c
  cases call with
  | commonStatus packet => exact commonStatus_motorStep hpast hs hrestarts hmap hseen
  | commonInfo packet => exact (commonInfo_aging hs.timeout hpast packet).motorStep hmap hseen (hkept hrestarts)
  | legacyEsc packet =>
    obtain ⟨_, _, he⟩ := legacyEscTelemetry_reports e packet hpast
    have haging := (legacyEscTelemetry_calm hpast packet).aging (congrArg (·.status) he) (congrArg (·.commonCount) he)
    exact haging.motorStep hmap hseen
  | legacyRpm left right =>
    obtain ⟨_, _, he⟩ := legacyRpm_reports e left right hpast
    have haging := (legacyRpm_calm hpast left right).aging (congrArg (·.status) he) (congrArg (·.commonCount) he)
    exact haging.motorStep hmap hseen
  | wheelDistance packet => exact (wheelDistance_aging h packet).motorStep hmap hseen
  | poll => exact (poll_aging hs.timeout now).motorStep hmap hseen (hkept hrestarts)
  | connection connected => cases hkept hrestarts
  | replace config retain => exact replace_motorStep hs hrestarts hmap hseen

/-- The lane that contradicts a sample stops its motor. -/
theorem recordStatus_rests {packet : CommonStatusPacket} {i : Fin 4} (hmap : e.CommonMapping)
    (hseen : (e.wheelStatus side).seen = true) (hslot : packet.index + i = e.slot side)
    (htime : packet.timeUs = e.wheelTime side) (hcounted : e.Counted (e.slot side))
    (hcontra : packet.Contradicts i (e.wheelStatus side).data) : e.Rests side (e.recordStatus packet receipt) := by
  have hrepeats : ¬ e.Renews packet i := fun hrenews => hrenews.2 (by rw [hslot]; exact ⟨hseen, htime⟩)
  have hlane : (e.recordStatus packet receipt).status (packet.index + i) = e.recorded packet receipt i :=
    recordStatus_lane i
  unfold recorded at hlane
  dsimp only at hlane
  rw [if_neg hrepeats, hslot, if_pos ⟨hcounted, hcontra⟩] at hlane
  unfold Rests wheelTime wheelStatus
  rw [(e.recordStatus_same packet receipt).slot, hlane]
  refine ⟨hseen, .inl ⟨rfl, ?_⟩⟩
  rcases recordStatus_motor packet receipt hmap side with ⟨j, hj, hmotor⟩ | ⟨hno, _⟩
  · obtain rfl : j = i := Fin.ext (by omega)
    unfold laneMotor at hmotor
    rw [if_neg hrepeats, if_pos (by rw [hslot]; exact ⟨hcounted, hcontra⟩)] at hmotor
    rw [hmotor]
    exact ⟨rfl, rfl, rfl⟩
  · exact absurd hslot (hno i)

theorem contradicted_rests (h : e.lastReceiptNs ≤ max c.2 0) (hs : e.Steady c.2) (hrestarts : ¬ e.Restarts c)
    (hmap : e.CommonMapping) (hcontra : e.Contradicted side c) : e.Rests side (e.step c).1 := by
  obtain ⟨call, receipt⟩ := c
  cases call with
  | commonStatus packet =>
    obtain ⟨⟨hrefuse, htime, a, ha, _, _, hcounted⟩, hseen, i, hslot, hcontra⟩ := hcontra
    have hr := records_of_accept hs.timeout h hrefuse ha
    have haged := (hr.aged hrefuse hrestarts).1
    have heq := commonStatus_eq hrefuse ha
    generalize a.restartCommon packet = b at hr haged heq hcounted
    have hwheel := haged.wheel side
    have hrests : b.Rests side (b.recordStatus packet receipt) := by
      refine recordStatus_rests (haged.mapping.2 hmap) (hwheel.seen.trans hseen) (by rw [haged.slot, hslot])
        (htime.trans hwheel.time.symm) (by rwa [haged.slot]) ?_
      rw [hwheel.data]
      exact hcontra
    have hmap' : (b.recordStatus packet receipt).CommonMapping :=
      (b.recordStatus_same packet receipt).mapping.2 (haged.mapping.2 hmap)
    have haging := (select_aging (b.recordStatus packet receipt) receipt true a.mappedTime).trans
      (pairCommon_aging _ receipt)
    have hrests := (haging.motorStep hmap' hrests.1).rests hrests
    have htime : b.wheelTime side = e.wheelTime side := hwheel.time
    dsimp only [step]
    rw [heq]
    unfold Rests at hrests ⊢
    rwa [htime, haged.ticks] at hrests
  | _ => exact hcontra.elim

end ObservationEngine

open ObservationEngine

theorem reach_steady (config : ValidConfig) {run : List (Call × Int)} {t : Int} (h : Clocked run)
    (ht : ∀ a ∈ run, a.2 ≤ t) : (reach config run).Steady t := by
  refine run_induction (P := fun run e => ∀ t, (∀ a ∈ run, a.2 ≤ t) → e.Tracked t ∧ e.Steady t) config
    (fun t _ => ⟨ofConfig_tracked config t, ofConfig_steady config t⟩) ?_ h t ht |>.2
  intro run c hclock _ ih t ht
  obtain ⟨htracked, hsteady⟩ := ih c.2 (clocked_snoc.1 hclock).2
  have hc := ht c (by simp)
  exact ⟨(step_tracks htracked).1.mono hc, (step_steady htracked hsteady).mono hc⟩

/-- A motor whose sample is contradicted rests as long as no later sample comes in the epoch, and goes on in
another segment. -/
theorem motor_rests {config : ValidConfig} {pre post : List (Call × Int)} {c : Call × Int} {side : Side}
    (h : Clocked (pre ++ c :: post))
    (halong : machine.Along (fun e c => ¬ e.Restarts c) (reach config pre) (c :: post))
    (hmap : (reach config pre).CommonMapping) (hcontra : (reach config pre).Contradicted side c) :
    (reach config pre).Rests side (reach config (pre ++ c :: post)) := by
  have happend : pre ++ c :: post = pre ++ [c] ++ post := by simp
  rw [happend] at h ⊢
  have hfirst := (List.pairwise_append.1 h).1
  have hpast := (clocked_snoc.1 hfirst).2
  have hsteady := reach_steady config (clocked_snoc.1 hfirst).1 hpast
  have hkept : (reach config pre).MotorStep ((reach config pre).step c).1 side :=
    step_motor (reach_tracked _ (clocked_snoc.1 hfirst).1 hpast) hsteady halong.1 hmap ?_
  · have hstep : machine.Along (fun e c => ¬ e.Restarts c) (reach config (pre ++ [c])) post := by
      rw [reach_snoc]
      exact halong.2
    refine (later_induction (P := fun e => e.CommonMapping ∧ (reach config pre).Rests side e) h hstep ?_ ?_).2
    · rw [reach_snoc]
      exact ⟨hkept.mapping, contradicted_rests (reach_last hpast) hsteady halong.1 hmap hcontra⟩
    · rintro run c hclock hrestarts ⟨hmap, hrests⟩
      have hpast := (clocked_snoc.1 hclock).2
      have hmotor := step_motor (reach_tracked _ (clocked_snoc.1 hclock).1 hpast)
        (reach_steady _ (clocked_snoc.1 hclock).1 hpast) hrestarts hmap hrests.1
      exact ⟨hmotor.mapping, hmotor.rests hrests⟩
  · obtain ⟨call, receipt⟩ := c
    cases call with
    | commonStatus packet => exact hcontra.2.1
    | _ => exact hcontra.elim

end Odometry
end MowgliMavros
