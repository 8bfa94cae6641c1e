import MowgliMavros.ObservationPairing

/-!
# The law of COMMON pairing

`common_status` records the samples of a packet, selects and pairs. A wheel that the packet renews is
received and settled; another one stays barred if it was, and is barred when WHEEL_DISTANCE or the legacy
source ends. So no run without a silent takeover breaks the law (`pairing_law`).
-/

namespace MowgliMavros
namespace Odometry
namespace ObservationEngine
variable {e e' : ObservationEngine} {t receipt : Int} {x : PairMemory} {side : Side}

/-- The samples and the integrator apart, the engine is the same. -/
structure SameState (e e' : ObservationEngine) : Prop where
  config : e'.config = e.config
  component : e'.commonComponent = e.commonComponent
  needed : e'.commonEpochBaselineNeeded = e.commonEpochBaselineNeeded
  configuration : e'.commonConfigurationNs = e.commonConfigurationNs
  published : e'.published = e.published
  active : e'.active = e.active

theorem SameState.slot (h : e.SameState e') (side : Side) : e'.slot side = e.slot side := by
  unfold ObservationEngine.slot geometry
  rw [h.config]

theorem SameState.mapping (h : e.SameState e') : e'.CommonMapping ↔ e.CommonMapping := by
  unfold CommonMapping geometry
  rw [h.config]

/-- A wheel with the sample that it had is barred as it was. -/
theorem SameState.barred (h : e.SameState e') (hold : (e.wheelStatus side).Revalues (e'.wheelStatus side)) :
    e'.Barred side ↔ e.Barred side := by
  obtain ⟨_, heq⟩ := hold
  unfold Barred wheelTime
  rw [h.needed, h.configuration, h.published, heq]

/-! ### The lanes of ESC_STATUS -/

section Lanes
variable {packet : CommonStatusPacket} {i : Fin 4} {slot : Nat} {f : Side → MotorTickIntegrator → MotorTickIntegrator}

theorem slot_ne (h : e.CommonMapping) : e.slot .left ≠ e.slot .right := by
  have hne := h.2.2.2.2
  have hleft : e.slot .left = e.geometry.leftEscSlot := Int.toNat_of_nonneg h.1
  have hright : e.slot .right = e.geometry.rightEscSlot := Int.toNat_of_nonneg h.2.2.1
  intro heq
  exact hne (by rw [← hleft, ← hright, heq])

theorem onWheels_mapped (h : e.CommonMapping) : e.onWheels slot f =
    if slot = e.slot .left then f .left e.commonMotorTicks
    else if slot = e.slot .right then f .right e.commonMotorTicks else e.commonMotorTicks := by
  have hne := slot_ne h
  have hleft : e.geometry.leftEscSlot = e.slot .left := (Int.toNat_of_nonneg h.1).symm
  have hright : e.geometry.rightEscSlot = e.slot .right := (Int.toNat_of_nonneg h.2.2.1).symm
  unfold onWheels
  rw [hleft, hright]
  simp only [Nat.cast_inj]
  by_cases hl : slot = e.slot .left
  · rw [if_pos hl, if_pos hl, if_neg fun hr => hne (hl.symm.trans hr)]
  · rw [if_neg hl, if_neg hl]

theorem onWheels_same (h : e.CommonMapping) (side : Side) :
    e.onWheels (e.slot side) f = f side e.commonMotorTicks := by
  rw [onWheels_mapped h]
  cases side with
  | left => exact if_pos rfl
  | right => rw [if_neg (slot_ne h).symm, if_pos rfl]

theorem onWheels_other (h : e.CommonMapping) (hslot : slot ≠ e.slot side)
    (hf : ∀ m other, other ≠ side → (f other m).wheels side = m.wheels side) :
    (e.onWheels slot f).wheels side = e.commonMotorTicks.wheels side := by
  rw [onWheels_mapped h]
  cases side with
  | left =>
    rw [if_neg hslot]
    split
    · exact hf _ _ (by decide)
    · rfl
  | right =>
    rw [if_neg hslot]
    split
    · exact hf _ _ (by decide)
    · rfl

theorem observe_keeps (m : MotorTickIntegrator) (side : Side) (rpm : Rat) (sample receipt : Int) :
    (m.observe side rpm sample receipt).1.timeoutNs = m.timeoutNs ∧
      (m.observe side rpm sample receipt).1.epoch = m.epoch := by
  unfold MotorTickIntegrator.observe
  split
  · exact ⟨rfl, rfl⟩
  · exact ⟨rfl, rfl⟩

theorem onWheels_keeps (hf : ∀ side m, (f side m).timeoutNs = m.timeoutNs ∧ (f side m).epoch = m.epoch) :
    (e.onWheels slot f).timeoutNs = e.commonMotorTicks.timeoutNs ∧
      (e.onWheels slot f).epoch = e.commonMotorTicks.epoch := by
  unfold onWheels
  dsimp only
  split
  · split
    · rw [(hf _ _).1, (hf _ _).2]
      exact hf _ _
    · exact hf _ _
  · split
    · exact hf _ _
    · exact ⟨rfl, rfl⟩

theorem recordSlot_keeps (packet : CommonStatusPacket) (receipt : Int) (i : Fin 4) :
    (e.recordSlot packet receipt i).commonMotorTicks.timeoutNs = e.commonMotorTicks.timeoutNs ∧
      (e.recordSlot packet receipt i).commonMotorTicks.epoch = e.commonMotorTicks.epoch := by
  unfold recordSlot
  dsimp only
  split
  · exact onWheels_keeps fun side m => observe_keeps m side _ _ _
  · split
    · exact onWheels_keeps fun _ _ => ⟨rfl, rfl⟩
    · exact ⟨rfl, rfl⟩

/-- ESC_STATUS keeps the timeout and the epoch of the integrator. -/
theorem recordStatus_keeps (e : ObservationEngine) (packet : CommonStatusPacket) (receipt : Int) :
    (e.recordStatus packet receipt).commonMotorTicks.timeoutNs = e.commonMotorTicks.timeoutNs ∧
      (e.recordStatus packet receipt).commonMotorTicks.epoch = e.commonMotorTicks.epoch := by
  refine List.foldlRecOn _ _ (motive := fun (e' : ObservationEngine) =>
    e'.commonMotorTicks.timeoutNs = e.commonMotorTicks.timeoutNs ∧
      e'.commonMotorTicks.epoch = e.commonMotorTicks.epoch) ?_ ?_
  · exact ⟨rfl, rfl⟩
  · intro b hb i _
    have hkeeps := b.recordSlot_keeps packet receipt i
    exact ⟨hkeeps.1.trans hb.1, hkeeps.2.trans hb.2⟩

theorem observe_other {m : MotorTickIntegrator} {other : Side} {rpm : Rat} {sample receipt : Int} (h : other ≠ side) :
    (m.observe other rpm sample receipt).1.wheels side = m.wheels side := by
  unfold MotorTickIntegrator.observe
  split
  · exact Function.update_of_ne h.symm _ _
  · rfl

/-- The packet does not precede what its slots hold, and the integrator keeps up with the slots. -/
structure Following (e : ObservationEngine) (packet : CommonStatusPacket) (receipt : Int) : Prop where
  timeout : 0 < e.commonMotorTicks.timeoutNs
  times : ∀ i : Fin 4, (e.status (packet.index + i)).seen = true →
    (e.status (packet.index + i)).timeUs ≤ packet.timeUs
  stamps : ∀ slot, (e.status slot).seen = true → (e.status slot).data.stampNs ≤ receipt
  synced : e.CommonMapping → ∀ side, (e.commonMotorTicks.wheels side).valid = true → e.Synced side

/-- The integrator takes the new sample of its slot. -/
theorem renews_admits (hf : e.Following packet receipt) (hpos : 0 < receipt) (htime : 0 < packet.timeUs)
    (hmap : e.CommonMapping) (hrenews : e.Renews packet i) (hslot : packet.index + i = e.slot side) :
    e.commonMotorTicks.Admits side (packet.timeUs * 1000) receipt := by
  refine ⟨by omega, hpos, hf.timeout, fun ⟨hvalid, hold⟩ => ?_⟩
  have hs := hf.synced hmap side hvalid
  have hseen : (e.status (packet.index + i)).seen = true := by rw [hslot]; exact hs.seen
  have hle := hf.times i hseen
  have hne : packet.timeUs ≠ (e.status (packet.index + i)).timeUs := fun h => hrenews.2 ⟨hseen, h⟩
  have hstamp := hf.stamps _ hseen
  rw [hslot] at hle hne hstamp
  rw [hs.sample, hs.receipt] at hold
  unfold wheelTime wheelStatus at hold
  omega

theorem observe_wheel {m : MotorTickIntegrator} {rpm : Rat} {sample : Int} (h : m.Admits side sample receipt) :
    (m.observe side rpm sample receipt).1.wheels side = m.sampled side rpm sample receipt := by
  unfold MotorTickIntegrator.observe
  rw [if_pos h]
  exact Function.update_self _ _ _

theorem recordSlot_slot (side : Side) : (e.recordSlot packet receipt i).slot side = e.slot side := by
  obtain ⟨_, _, h⟩ := recordSlot_frame (e := e) packet receipt i
  rw [h]
  rfl

theorem recordSlot_mapping : (e.recordSlot packet receipt i).CommonMapping ↔ e.CommonMapping := by
  obtain ⟨_, _, h⟩ := recordSlot_frame (e := e) packet receipt i
  rw [h]
  rfl

/-- A lane keeps the wheel of another slot. -/
theorem recordSlot_wheel (receipt : Int) (hmap : e.CommonMapping) (hslot : packet.index + i ≠ e.slot side) :
    (e.recordSlot packet receipt i).wheelStatus side = e.wheelStatus side ∧
      (e.recordSlot packet receipt i).commonMotorTicks.wheels side = e.commonMotorTicks.wheels side := by
  constructor
  · unfold wheelStatus
    rw [recordSlot_slot, recordSlot_status, Function.update_of_ne hslot.symm]
  · unfold recordSlot
    dsimp only
    split
    · exact onWheels_other hmap hslot fun m other hother => observe_other hother
    · split
      · exact onWheels_other hmap hslot fun m other hother => Function.update_of_ne hother.symm _ _
      · rfl

/-- The wheel of a lane's slot. -/
theorem recordSlot_lane (receipt : Int) (hslot : packet.index + i = e.slot side) :
    (e.recordSlot packet receipt i).wheelStatus side = e.recorded packet receipt i := by
  unfold wheelStatus
  rw [recordSlot_slot, recordSlot_status, ← hslot]
  exact Function.update_self _ _ _

theorem renews_synced (hf : e.Following packet receipt) (hpos : 0 < receipt) (htime : 0 < packet.timeUs)
    (hmap : e.CommonMapping) (hrenews : e.Renews packet i) (hslot : packet.index + i = e.slot side) :
    (e.recordSlot packet receipt i).Synced side := by
  have hadmits := renews_admits hf hpos htime hmap hrenews hslot
  have hstatus := recordSlot_lane receipt hslot
  unfold recorded at hstatus
  rw [if_pos hrenews] at hstatus
  have hwheel : (e.recordSlot packet receipt i).commonMotorTicks.wheels side =
      e.commonMotorTicks.sampled side (packet.rpm i) (packet.timeUs * 1000) receipt := by
    unfold recordSlot
    dsimp only
    rw [if_pos hrenews]
    dsimp only
    rw [hslot, onWheels_same hmap]
    exact observe_wheel hadmits
  have htimes : (e.recordSlot packet receipt i).wheelTime side = packet.timeUs := congrArg Status.timeUs hstatus
  exact ⟨by rw [hstatus], by rw [hwheel, htimes]; rfl, by rw [hwheel, hstatus]; rfl, by rw [hwheel, hstatus]; rfl⟩

theorem recordSlot_synced (hf : e.Following packet receipt) (hpos : 0 < receipt) (htime : 0 < packet.timeUs)
    (hmap : e.CommonMapping) (hvalid : ((e.recordSlot packet receipt i).commonMotorTicks.wheels side).valid = true) :
    (e.recordSlot packet receipt i).Synced side := by
  by_cases hslot : packet.index + i = e.slot side
  · by_cases hrenews : e.Renews packet i
    · exact renews_synced hf hpos htime hmap hrenews hslot
    · unfold recordSlot at hvalid ⊢
      dsimp only at hvalid ⊢
      rw [if_neg hrenews] at hvalid ⊢
      split at hvalid
      · dsimp only at hvalid
        rw [hslot, onWheels_same hmap] at hvalid
        simp [MotorTickIntegrator.invalidate] at hvalid
      · rename_i hsame
        rw [if_neg hsame]
        exact hf.synced hmap side hvalid
  · obtain ⟨hstatus, hwheel⟩ := recordSlot_wheel receipt hmap hslot
    rw [hwheel] at hvalid
    exact (hf.synced hmap side hvalid).congr hstatus hwheel

/-- What a lane leaves: the packet's measurement, or what was there. -/
theorem recorded_cases (e : ObservationEngine) (packet : CommonStatusPacket) (receipt : Int) (i : Fin 4) :
    e.Renews packet i ∧ e.recorded packet receipt i =
        { data := packet.data i receipt (e.status (packet.index + i)).data, timeUs := packet.timeUs, seen := true } ∨
      ¬ e.Renews packet i ∧ (e.status (packet.index + i)).Revalues (e.recorded packet receipt i) := by
  unfold recorded
  dsimp only
  split
  · exact .inl ⟨‹_›, rfl⟩
  · refine .inr ⟨‹_›, ?_⟩
    split
    · exact ⟨false, rfl⟩
    · exact .refl _

theorem recordSlot_following (hf : e.Following packet receipt) (hpos : 0 < receipt) (htime : 0 < packet.timeUs)
    (i : Fin 4) : (e.recordSlot packet receipt i).Following packet receipt where
  timeout := (recordSlot_keeps _ _ i).1.symm ▸ hf.timeout
  times j hseen := by
    rw [recordSlot_status] at hseen ⊢
    by_cases hj : j = i
    · subst hj
      rw [Function.update_self] at hseen ⊢
      rcases e.recorded_cases packet receipt j with ⟨_, h⟩ | ⟨_, _, h⟩
      · rw [h]
      · rw [h] at hseen ⊢
        exact hf.times j hseen
    · rw [Function.update_of_ne (lane_ne hj)] at hseen ⊢
      exact hf.times j hseen
  stamps slot hseen := by
    rw [recordSlot_status] at hseen ⊢
    by_cases hslot : slot = packet.index + i
    · subst hslot
      rw [Function.update_self] at hseen ⊢
      rcases e.recorded_cases packet receipt i with ⟨_, h⟩ | ⟨_, _, h⟩
      · rw [h]
        rfl
      · rw [h] at hseen ⊢
        exact hf.stamps _ hseen
    · rw [Function.update_of_ne hslot] at hseen ⊢
      exact hf.stamps slot hseen
  synced hmap _ hvalid := recordSlot_synced hf hpos htime (recordSlot_mapping.1 hmap) hvalid

/-- The integrator keeps up with the slots over the whole packet. -/
theorem recordStatus_following (hf : e.Following packet receipt) (hpos : 0 < receipt) (htime : 0 < packet.timeUs) :
    (e.recordStatus packet receipt).Following packet receipt := by
  refine List.foldlRecOn _ _ (motive := fun (e' : ObservationEngine) => e'.Following packet receipt) ?_ ?_
  · exact hf
  · intro b hb i _
    exact recordSlot_following hb hpos htime i

/-- What the packet leaves in a slot: its sample, or what was there. -/
theorem recordStatus_cases (e : ObservationEngine) (packet : CommonStatusPacket) (receipt : Int) (slot : Nat) :
    (e.newSamples packet receipt slot = some ((e.recordStatus packet receipt).status slot).sample ∧
        ((e.recordStatus packet receipt).status slot).timeUs = packet.timeUs ∧
        ((e.recordStatus packet receipt).status slot).seen = true ∧
        ∃ i : Fin 4, slot = packet.index + i ∧ e.Renews packet i) ∨
      e.newSamples packet receipt slot = none ∧
        (e.status slot).Revalues ((e.recordStatus packet receipt).status slot) := by
  unfold newSamples
  by_cases hlane : packet.index ≤ slot ∧ slot - packet.index < 4
  · have hslot : slot = packet.index + (⟨slot - packet.index, hlane.2⟩ : Fin 4).val :=
      (Nat.add_sub_of_le hlane.1).symm
    rw [dif_pos hlane]
    generalize (⟨slot - packet.index, hlane.2⟩ : Fin 4) = i at hslot ⊢
    subst hslot
    rw [recordStatus_lane]
    rcases e.recorded_cases packet receipt i with ⟨hrenews, h⟩ | ⟨hrenews, h⟩
    · rw [if_pos hrenews, h]
      exact .inl ⟨rfl, rfl, rfl, i, rfl, hrenews⟩
    · exact .inr ⟨if_neg hrenews, h⟩
  · rw [dif_neg hlane, recordStatus_other fun i hi => hlane (by omega)]
    exact .inr ⟨rfl, .refl _⟩

/-- A renewed wheel is newer than what was cached. -/
theorem wheelTime_lt (hregress : ¬ e.Regresses packet) (hslot : e.slot side = packet.index + i)
    (hrenews : e.Renews packet i)
    (hseen : (e.wheelStatus side).seen = true) : e.wheelTime side < packet.timeUs := by
  have hnot : ¬ packet.timeUs < e.wheelTime side := fun hlt => by
    unfold wheelTime wheelStatus at hlt
    unfold wheelStatus at hseen
    rw [hslot] at hlt hseen
    exact hregress ⟨i, hseen, hlt⟩
  have hne : packet.timeUs ≠ e.wheelTime side := fun heq => by
    unfold wheelTime wheelStatus at heq
    unfold wheelStatus at hseen
    rw [hslot] at heq hseen
    exact hrenews.2 ⟨hseen, heq⟩
  omega

theorem Fenced.following (hf : Fenced receipt x e) (hregress : ¬ e.Regresses packet) :
    e.Following packet receipt where
  timeout := by
    rw [hf.timeout]
    exact e.config.timeout_pos
  times i hseen := Nat.not_lt.1 fun hlt => hregress ⟨i, hseen, hlt⟩
  stamps := hf.stamped
  synced := hf.synced

theorem recordStatus_same (e : ObservationEngine) (packet : CommonStatusPacket) (receipt : Int) :
    e.SameState (e.recordStatus packet receipt) := by
  obtain ⟨_, _, hframe⟩ := e.recordStatus_frame packet receipt
  rw [hframe]
  exact ⟨rfl, rfl, rfl, rfl, rfl, rfl⟩

/-- What the packet leaves for a wheel: a new sample, or what was there. -/
theorem recordStatus_wheel (e : ObservationEngine) (packet : CommonStatusPacket) (receipt : Int) (side : Side) :
    (e.newSamples packet receipt (e.slot side)).isSome = true ∧
        (e.recordStatus packet receipt).wheelTime side = packet.timeUs ∧
        ((e.recordStatus packet receipt).wheelStatus side).seen = true ∧
        (∃ i : Fin 4, e.slot side = packet.index + i ∧ e.Renews packet i) ∨
      e.newSamples packet receipt (e.slot side) = none ∧
        (e.wheelStatus side).Revalues ((e.recordStatus packet receipt).wheelStatus side) := by
  have hcases := e.recordStatus_cases packet receipt (e.slot side)
  unfold wheelTime wheelStatus
  rw [(e.recordStatus_same packet receipt).slot]
  rcases hcases with ⟨hnew, h⟩ | h
  · exact .inl ⟨by rw [hnew]; rfl, h⟩
  · exact .inr h

/-- What the packet leaves in the slots is fenced, and its samples are the last ones received. -/
theorem Fenced.record (hf : Fenced receipt x e) (hregress : ¬ e.Regresses packet) (hstored : e.commonComponent ≠ none)
    (hpos : 0 < receipt) (htime : 0 < packet.timeUs) :
    Fenced receipt (x.observe (.received (e.newSamples packet receipt))) (e.recordStatus packet receipt) := by
  have hcases := e.recordStatus_cases packet receipt
  have hwheel := e.recordStatus_wheel packet receipt
  have hkeeps := e.recordStatus_keeps packet receipt
  have hsame := e.recordStatus_same packet receipt
  have hfollow := recordStatus_following (hf.following hregress) hpos htime
  generalize e.recordStatus packet receipt = r at hcases hwheel hkeeps hsame hfollow ⊢
  refine ⟨by rw [hkeeps.1, hf.timeout, hsame.config], fun _ _ => hsame.component ▸ hstored, fun slot hseen => ?_,
    hfollow.stamps, fun slot hseen => ?_, fun hmap side hseen => ?_, fun hmap times htimes side => ?_, hfollow.synced⟩
  · dsimp only [PairMemory.observe]
    rcases hcases slot with ⟨hnew, _⟩ | ⟨hnew, hold⟩
    · rw [hnew]
      rfl
    · rw [hnew, Option.none_or, hf.sample slot (hold.seen ▸ hseen)]
      obtain ⟨_, heq⟩ := hold
      rw [heq]
      rfl
  · dsimp only [PairMemory.observe]
    rcases hcases slot with ⟨hnew, _⟩ | ⟨hnew, hold⟩
    · rw [hnew]
      exact .inl rfl
    · have := hf.configured slot (hold.seen ▸ hseen)
      obtain ⟨_, heq⟩ := hold
      rwa [hnew, heq, hsame.configuration]
  · dsimp only [PairMemory.observe]
    rw [hsame.slot]
    rcases hwheel side with ⟨hnew, _⟩ | ⟨hnew, hold⟩
    · exact .inl (by rw [hnew]; rfl)
    · rw [hnew, hsame.barred hold]
      exact hf.settled (hsame.mapping.1 hmap) side (hold.seen ▸ hseen)
  · obtain ⟨hseen, hold⟩ := hf.previous (hsame.mapping.1 hmap) times htimes side
    rcases hwheel side with ⟨_, hnewtime, hnewseen, i, hslot, hrenews⟩ | ⟨_, hkept⟩
    · have hlt := wheelTime_lt hregress hslot hrenews hseen
      have hle : times side ≤ e.wheelTime side := hold.elim le_of_lt And.left
      exact ⟨hnewseen, .inl (hnewtime ▸ hle.trans_lt hlt)⟩
    · have hsametime : r.wheelTime side = e.wheelTime side := by
        obtain ⟨_, heq⟩ := hkept
        unfold wheelTime
        rw [heq]
      rw [hkept.seen, hsametime, hsame.barred hkept]
      exact ⟨hseen, hold⟩

end Lanes

/-! ### Selection and pairing -/

/-- A wheel without a new sample stays barred, whatever is selected. -/
theorem selectAs_barred {next : WheelSource} {previous : Side → Nat} (hb : e.Barred side)
    (hprevious : e.CommonMapping → e.wheelTime side ≤ previous side) :
    (e.selectAs next true previous).Barred side := by
  unfold selectAs
  split
  · exact hb
  · rcases hb with hb | hb | hb
    · exact .inl hb
    · exact .inr (.inl hb)
    · rcases e.floors_cases next true previous with hf | hf | ⟨hmap, _, hf⟩
      · exact .inr (.inr (hb.trans (congrFun hf side).ge))
      · exact .inr (.inr (congrFun hf side).ge)
      · exact .inr (.inr ((hprevious hmap).trans (congrFun hf side).ge))

/-- A wheel without a new sample is barred when WHEEL_DISTANCE or the legacy source ends. -/
theorem selectAs_ends {next : WheelSource} {previous : Side → Nat} (hmap : e.CommonMapping)
    (hactive : e.active = .wheelDistance ∨ e.active = .ardupilotLegacy)
    (hends : (e.selectAs next true previous).active ≠ e.active) (hprevious : e.wheelTime side ≤ previous side) :
    (e.selectAs next true previous).Barred side := by
  unfold selectAs at hends ⊢
  split at hends
  · exact absurd rfl hends
  · rename_i hne
    rw [if_neg hne]
    rcases floors_ends next true previous hmap hactive with hf | ⟨_, hf⟩
    · exact .inr (.inr (congrFun hf side).ge)
    · exact .inr (.inr (hprevious.trans (congrFun hf side).ge))

theorem select_keeps (e : ObservationEngine) (now : Int) (previous : Side → Nat) :
    (e.select now true previous).config = e.config ∧
      (e.select now true previous).commonMotorTicks = e.commonMotorTicks := by
  obtain ⟨_, _, _, h⟩ := e.selectAs_frame (e.selected now) true previous
  unfold select
  rw [h]
  exact ⟨rfl, rfl⟩

/-- The selection after a packet keeps the invariant, also when it ends another source. -/
theorem Fenced.selects {samples : Nat → Option Sample} {next : WheelSource} {previous : Side → Nat}
    {settled : Nat → Bool} (hf : Fenced t (x.observe (.received samples)) e)
    (hnew : e.CommonMapping → ∀ side, (samples (e.slot side)).isSome = true → ∀ times ∈ x.previous,
      times side < e.wheelTime side)
    (hold : e.CommonMapping → ∀ side, (e.wheelStatus side).seen = true → samples (e.slot side) = none →
      e.wheelTime side ≤ previous side)
    (hsettled : settled = x.settled ∨ (e.active = .wheelDistance ∨ e.active = .ardupilotLegacy) ∧
      (e.selectAs next true previous).active ≠ e.active) :
    Fenced t ({ x with settled := settled }.observe (.received samples)) (e.selectAs next true previous) := by
  have hbarred : e.CommonMapping → ∀ side, (e.wheelStatus side).seen = true → samples (e.slot side) = none →
      e.Barred side → (e.selectAs next true previous).Barred side := fun hmap side hseen hnone hb =>
    selectAs_barred hb fun hmap => hold hmap side hseen hnone
  have hends : settled = x.settled ∨ (e.CommonMapping → ∀ side, (e.wheelStatus side).seen = true →
      samples (e.slot side) = none → (e.selectAs next true previous).Barred side) :=
    hsettled.imp_right fun h hmap side hseen hnone => selectAs_ends hmap h.1 h.2 (hold hmap side hseen hnone)
  obtain ⟨core, published, baseline, hframe⟩ := e.selectAs_frame next true previous
  rw [hframe] at hbarred hends ⊢
  refine ⟨hf.timeout, hf.stored, hf.sample, hf.stamped, hf.configured, fun hmap side hseen => ?_,
    fun hmap times htimes side => ?_, fun hmap side hvalid => ?_⟩
  · have hs := hf.settled hmap side hseen
    dsimp only [PairMemory.observe] at hs
    show ((samples (e.slot side)).isSome || settled (e.slot side)) = true ∨ _
    cases hsample : samples (e.slot side) with
    | some _ => exact .inl rfl
    | none =>
      rw [hsample] at hs
      rcases hends with rfl | hends
      · exact hs.imp_right (hbarred hmap side hseen hsample)
      · exact .inr (hends hmap side hseen hsample)
  · obtain ⟨hseen, hlast⟩ := hf.previous hmap times htimes side
    refine ⟨hseen, ?_⟩
    cases hsample : samples (e.slot side) with
    | some _ => exact .inl (hnew hmap side (by rw [hsample]; rfl) times htimes)
    | none => exact hlast.imp_right (And.imp_right (hbarred hmap side hseen hsample))
  · have hs := hf.synced hmap side hvalid
    exact ⟨hs.seen, hs.sample, hs.receipt, hs.rate⟩

/-- Floors at the cached samples bar both wheels. -/
theorem Fenced.raised (hf : Fenced t x e) (core : WheelOdometryCore) (needed : Bool) {previous : Option (Side → Nat)}
    (hprevious : e.CommonMapping → ∀ times ∈ previous, ∀ side, (e.wheelStatus side).seen = true ∧
      times side ≤ e.wheelTime side) :
    Fenced t { x with previous := previous }
      { e with core := core, commonEpochBaselineNeeded := needed, published := e.wheelTime } where
  timeout := hf.timeout
  stored := hf.stored
  sample := hf.sample
  stamped := hf.stamped
  configured := hf.configured
  settled _ _ _ := .inr (.inr (.inr le_rfl))
  previous hmap times htimes side := by
    obtain ⟨hseen, hle⟩ := hprevious hmap times htimes side
    exact ⟨hseen, .inr ⟨hle, .inr (.inr le_rfl)⟩⟩
  synced hmap side hvalid :=
    have hs := hf.synced hmap side hvalid
    ⟨hs.seen, hs.sample, hs.receipt, hs.rate⟩

/-- The motion of two wheels that hold their samples. -/
theorem motion_synced {motion : WheelMotionObservation}
    (hsynced : ∀ side, (e.commonMotorTicks.wheels side).valid = true → e.Synced side)
    (hmotion : e.commonMotorTicks.motion e.geometry.ticksPerMeter .escStatus = some motion) :
    motion = {
      leftMps := (e.wheelStatus .left).data.rpm / 60 / e.geometry.ticksPerMeter
      rightMps := (e.wheelStatus .right).data.rpm / 60 / e.geometry.ticksPerMeter
      sampleStampNs := max ((e.wheelTime .left : Int) * 1000) (e.wheelTime .right * 1000)
      receiptStampNs := max (e.wheelStatus .left).data.stampNs (e.wheelStatus .right).data.stampNs
      source := .escStatus
      valid := true } := by
  unfold MotorTickIntegrator.motion at hmotion
  split at hmotion
  · cases hmotion
  · rename_i hvalid
    have hleft := hsynced .left (not_not.1 fun h => hvalid (.inr (.inl h)))
    have hright := hsynced .right (not_not.1 fun h => hvalid (.inr (.inr h)))
    rw [hleft.sample, hleft.receipt, hleft.rate, hright.sample, hright.receipt, hright.rate] at hmotion
    exact (Option.some.inj hmotion).symm

theorem motion_pairs {o : WheelObservation} {core : WheelOdometryCore} {motion : WheelMotionObservation}
    (hsynced : ∀ side, (e.commonMotorTicks.wheels side).valid = true → e.Synced side)
    (hmotion : e.commonMotorTicks.motion e.geometry.ticksPerMeter .escStatus = some motion)
    (hgeometry : e.core.geometry = e.geometry) (hreceive : e.core.receiveMotion motion = (core, some o)) :
    o = pairObservation e.config fun side => (e.wheelStatus side).sample := by
  obtain rfl := motion_synced hsynced hmotion
  unfold WheelOdometryCore.receiveMotion at hreceive
  split at hreceive
  · obtain rfl := Option.some.inj (Prod.mk.inj hreceive).2
    unfold WheelOdometryCore.drive pairObservation
    rw [hgeometry]
    rfl
  · cases (Prod.mk.inj hreceive).2

theorem usable_of_available (hf : Fenced t x e) (hmap : e.CommonMapping) (h : e.WheelAvailable receipt side)
    (hopen : ¬ e.Barred side) : x.Usable e.config receipt (e.slot side) (e.wheelStatus side).sample := by
  obtain ⟨hseen, _, hfresh, _⟩ := h
  have hconfigured := (hf.configured _ hseen).resolve_right fun hle => hopen (.inr (.inl hle))
  have hsettled := (hf.settled hmap side hseen).resolve_right hopen
  exact ⟨hf.sample _ hseen, hconfigured, hsettled, hfresh.1, hfresh.2.1, hfresh.2.2⟩

/-- What `pairCommon` returns is allowed. -/
theorem pairCommon_law (receipt : Int) (hf : Fenced t x e) (hgeometry : e.core.geometry = e.geometry) :
    let events : List PairEvent := ((e.pairCommon receipt).2.map fun o =>
      .paired e.config receipt (fun side => ((e.pairCommon receipt).1.wheelStatus side).sample) o).toList
    pairLaw.Accepts x events ∧ Fenced t (pairLaw.after x events) (e.pairCommon receipt).1 := by
  unfold pairCommon
  split
  · exact ⟨trivial, hf⟩
  · rename_i havailable
    have havailable : e.CommonAvailable receipt := not_not.1 fun h => havailable (.inr h)
    split
    · exact ⟨trivial, hf⟩
    · rename_i hconfiguration
      split
      · exact ⟨trivial, hf.raised e.core false fun hmap times htimes side =>
          (hf.previous hmap times htimes side).imp_right fun h => h.elim le_of_lt And.left⟩
      · rename_i hneeded
        split
        · exact ⟨trivial, hf⟩
        · rename_i hfloors
          have hopen : ∀ side, ¬ e.Barred side := by
            rintro (_ | _) (h | h | h)
            · exact hneeded h
            · exact hconfiguration (.inl h)
            · exact hfloors (.inl h)
            · exact hneeded h
            · exact hconfiguration (.inr h)
            · exact hfloors (.inr h)
          split
          · exact ⟨trivial, hf⟩
          · rename_i motion hmotion
            split
            · exact ⟨trivial, hf.timeout, hf.stored, hf.sample, hf.stamped, hf.configured, hf.settled, hf.previous,
                fun hmap side hvalid =>
                  have hs := hf.synced hmap side hvalid
                  ⟨hs.seen, hs.sample, hs.receipt, hs.rate⟩⟩
            · rename_i core o hreceive
              have hmap := havailable.1
              have hwheel : ∀ side, e.WheelAvailable receipt side := by
                rintro (_ | _)
                exacts [havailable.2.1, havailable.2.2.1]
              refine ⟨⟨⟨fun times htimes side => ?_, havailable.2.2.2, fun side => ?_,
                motion_pairs (hf.synced hmap) hmotion hgeometry hreceive⟩, trivial⟩, ?_⟩
              · exact (hf.previous hmap times htimes side).2.resolve_right fun h => hopen side h.2
              · exact usable_of_available hf hmap (hwheel side) (hopen side)
              · refine hf.raised core e.commonEpochBaselineNeeded fun _ times htimes side => ?_
                obtain rfl := Option.mem_some.1 htimes
                exact ⟨(hwheel side).1, le_rfl⟩

/-! ### `common_status` -/

/-- The engine that an accepted packet is recorded in: calm, or with a new epoch and no samples. -/
structure Restarted (e a b : ObservationEngine) (packet : CommonStatusPacket) : Prop where
  follows : ¬ b.Regresses packet
  stored : b.commonComponent ≠ none
  config : b.config = e.config
  active : e.active = .wheelDistance ∨ e.active = .ardupilotLegacy → b.active = e.active
  calm_or_cleared : e.Calm b ∧ b = a ∨ b.Cleared ∧ b.commonMotorTicks.epoch ≠ e.commonMotorTicks.epoch

theorem resetCommon_active (h : e.active = .wheelDistance ∨ e.active = .ardupilotLegacy) :
    e.resetCommon.active = e.active := by
  unfold resetCommon
  exact if_neg (by rcases h with h | h <;> simp [h])

theorem restartCommon_restarted {a : ObservationEngine} {packet : CommonStatusPacket}
    (htimeout : e.commonMotorTicks.timeoutNs = e.config.1.timeoutNs)
    (h : e.acceptCommonStatus packet.componentId receipt = some a) :
    e.Restarted a (a.restartCommon packet) packet := by
  obtain ⟨hfollows, hsame, rfl⟩ | ⟨needed, hreset⟩ := restartCommon_cases h
  · rw [hsame]
    exact ⟨hfollows, nofun, rfl, fun _ => rfl, .inl ⟨⟨rfl, fun _ => .refl _, nofun, rfl, rfl, rfl,
      fun _ => .inl rfl, fun _ _ h => absurd rfl h⟩, rfl⟩⟩
  · rw [hreset]
    exact ⟨reset_regresses, nofun, rfl, fun hactive => resetCommon_active (e := e) hactive,
      .inr ⟨⟨htimeout, fun _ => rfl, fun _ => rfl⟩, Nat.succ_ne_self _⟩⟩

theorem Restarted.of_received {a b : ObservationEngine} {packet : CommonStatusPacket}
    (h : (e.received receipt).Restarted a b packet) : e.Restarted a b packet :=
  ⟨h.follows, h.stored, h.config, h.active, h.calm_or_cleared.imp_left (And.imp_left (e.received_calm receipt).trans)⟩

theorem time_pos {packet : CommonStatusPacket} (h : ¬ e.RefusesStatus packet receipt) : 0 < packet.timeUs := by
  have hvalid : sampleTimeValid packet.timeUs = true := not_not.1 fun hinvalid => h (.inr (.inr (.inl hinvalid)))
  unfold sampleTimeValid at hvalid
  exact of_decide_eq_true (Bool.and_eq_true_iff.1 hvalid).1

theorem pairCommon_keeps (e : ObservationEngine) (receipt : Int) :
    (e.pairCommon receipt).1.commonMotorTicks = e.commonMotorTicks ∧ (e.pairCommon receipt).1.active = e.active := by
  obtain ⟨_, _, _, h⟩ := e.pairCommon_frame receipt
  rw [h]
  exact ⟨rfl, rfl⟩

section Status
variable {packet : CommonStatusPacket} {a b : ObservationEngine}

/-- A new sample is newer than the last pair. -/
theorem record_newer (hf : Fenced receipt x b) (hregress : ¬ b.Regresses packet) (hmap : b.CommonMapping)
    (hnew : (b.newSamples packet receipt (b.slot side)).isSome = true) :
    ∀ times ∈ x.previous, times side < (b.recordStatus packet receipt).wheelTime side := by
  intro times htimes
  obtain ⟨hseen, hold⟩ := hf.previous hmap times htimes side
  rcases b.recordStatus_wheel packet receipt side with ⟨_, htime, _, i, hslot, hrenews⟩ | ⟨hnone, _⟩
  · rw [htime]
    exact (hold.elim le_of_lt And.left).trans_lt (wheelTime_lt hregress hslot hrenews hseen)
  · rw [hnone] at hnew
    cases hnew

/-- A wheel without a new sample holds what it held before the packet. -/
theorem record_older (hr : e.Restarted a b packet) (hmap : b.CommonMapping)
    (hseen : ((b.recordStatus packet receipt).wheelStatus side).seen = true)
    (hnone : b.newSamples packet receipt (b.slot side) = none) :
    (b.recordStatus packet receipt).wheelTime side ≤ a.mappedTime side := by
  rcases b.recordStatus_wheel packet receipt side with ⟨hnew, _⟩ | ⟨_, hold⟩
  · rw [hnone] at hnew
    cases hnew
  · rcases hr.calm_or_cleared with ⟨_, rfl⟩ | ⟨hcleared, _⟩
    · obtain ⟨_, heq⟩ := hold
      unfold mappedTime
      rw [if_pos hmap]
      unfold wheelTime
      rw [heq]
    · rw [hold.seen] at hseen
      exact absurd (hseen.symm.trans (hcleared.status (b.slot side))) (by decide)

theorem Restarted.fenced (hr : e.Restarted a b packet) (hf : Fenced t x e) {c : Call × Int}
    (hrestarts : b.commonMotorTicks.epoch ≠ e.commonMotorTicks.epoch → e.Restarts c) :
    Fenced t { x with previous := if e.Restarts c then none else x.previous } b := by
  rcases hr.calm_or_cleared with ⟨hcalm, _⟩ | ⟨hcleared, hepoch⟩
  · exact (hcalm.fenced hf).epoch _ (ite_eq_or_eq _ _ _)
  · rw [if_pos (hrestarts hepoch)]
    exact hcleared.fenced rfl

theorem commonStatus_wired (h : e.Tracked receipt) (hpos : ¬ receipt ≤ 0)
    (ha : (e.receiveClock receipt).acceptCommonStatus packet.componentId receipt = some a) (commonUpdate : Bool)
    (previous : Side → Nat) :
    (((a.restartCommon packet).recordStatus packet receipt).select receipt commonUpdate previous).Wired := by
  rw [h.clock hpos] at ha
  have hbeside := ((acceptCommonStatus_beside ha).trans (a.restartCommon_beside packet)).trans
    (recordStatus_beside _ packet receipt)
  exact (h.received.select hbeside commonUpdate previous).1.wired

/-- A call that is calm, or that starts a new epoch without samples, keeps the law. -/
theorem quiet_law {c : Call × Int} (hf : Fenced t x e) (h : e.CalmOrCleared (e.step c).1)
    (hrestarts : (e.step c).1.commonMotorTicks.epoch ≠ e.commonMotorTicks.epoch → e.Restarts c)
    (hevents : e.pairEvents c = e.notices c) :
    pairLaw.Accepts x (e.pairEvents c) ∧ Fenced t (pairLaw.after x (e.pairEvents c)) (e.step c).1 := by
  rw [hevents]
  exact ⟨accepts_notices e c x, hf.noticed h hrestarts⟩

/-- After the packet is recorded and a source is selected, the log so far is fenced. -/
theorem Restarted.selects (hr : e.Restarted a b packet) (next : WheelSource) (hf : Fenced receipt x e)
    (hpos : 0 < receipt) (htime : 0 < packet.timeUs) {c : Call × Int}
    (hrestarts : b.commonMotorTicks.epoch ≠ e.commonMotorTicks.epoch → e.Restarts c)
    (hactive : (e.step c).1.active = ((b.recordStatus packet receipt).selectAs next true a.mappedTime).active) :
    Fenced receipt ((pairLaw.after x (e.notices c)).observe (.received (b.newSamples packet receipt)))
      ((b.recordStatus packet receipt).selectAs next true a.mappedTime) := by
  have hfenced := hr.fenced hf hrestarts
  have hsame := b.recordStatus_same packet receipt
  rw [after_notices]
  refine (hfenced.record hr.follows hr.stored hpos htime).selects (fun hmap side hnew => ?_)
    (fun hmap side hseen hnone => ?_) ?_
  · rw [hsame.slot] at hnew
    exact record_newer hfenced hr.follows (hsame.mapping.1 hmap) hnew
  · rw [hsame.slot] at hnone
    exact record_older hr (hsame.mapping.1 hmap) hseen hnone
  · by_cases hends : e.Ends c
    · have hkept := hsame.active.trans (hr.active hends.1)
      rw [hkept, ← hactive]
      exact .inr hends
    · exact .inl (if_neg hends)

/-- `common_status` keeps the law. -/
theorem commonStatus_law (h : e.Tracked receipt) (hf : Fenced receipt x e) (packet : CommonStatusPacket) :
    pairLaw.Accepts x (e.pairEvents (.commonStatus packet, receipt)) ∧
      Fenced receipt (pairLaw.after x (e.pairEvents (.commonStatus packet, receipt)))
        (e.step (.commonStatus packet, receipt)).1 := by
  by_cases hrefuse : e.RefusesStatus packet receipt
  · have hstep : e.commonStatus packet receipt = (e, none) := if_pos hrefuse
    refine quiet_law hf (.inl (by rw [step, hstep]; exact .refl e)) id ?_
    unfold pairEvents
    dsimp only
    rw [receives, if_pos hrefuse, pairs, hstep]
    exact List.append_nil _
  · have hpos : ¬ receipt ≤ 0 := fun hr => hrefuse (.inr (.inl hr))
    cases ha : (e.receiveClock receipt).acceptCommonStatus packet.componentId receipt with
    | none =>
      have hstep : e.commonStatus packet receipt = (e.receiveClock receipt, none) := by
        unfold commonStatus
        rw [if_neg hrefuse]
        dsimp only
        rw [ha]
      refine quiet_law hf (.inl (by rw [step, hstep, h.clock hpos]; exact e.received_calm receipt)) id ?_
      unfold pairEvents
      dsimp only
      rw [receives, if_neg hrefuse, ha, pairs, hstep]
      exact List.append_nil _
    | some a =>
      have hstep : e.commonStatus packet receipt =
          (((a.restartCommon packet).recordStatus packet receipt).select receipt true a.mappedTime).pairCommon
            receipt := by
        unfold commonStatus
        rw [if_neg hrefuse]
        dsimp only
        rw [ha]
      have hreceives : e.receives packet receipt =
          [.received ((a.restartCommon packet).newSamples packet receipt)] := by
        rw [receives, if_neg hrefuse, ha]
      have hwired := commonStatus_wired h hpos ha true a.mappedTime
      rw [h.clock hpos] at ha
      have hr := (restartCommon_restarted (e := e.received receipt) hf.timeout ha).of_received
      generalize hb : a.restartCommon packet = b at hstep hreceives hwired hr
      generalize hs : (b.recordStatus packet receipt).select receipt true a.mappedTime = s at hstep hwired
      have hstate := (b.recordStatus packet receipt).select_keeps receipt a.mappedTime
      have hselects := hr.selects (c := (.commonStatus packet, receipt))
        ((b.recordStatus packet receipt).selected receipt) hf (Int.not_le.1 hpos) (time_pos hrefuse) ?_ ?_
      · change Fenced receipt _ ((b.recordStatus packet receipt).select receipt true a.mappedTime) at hselects
        rw [hs] at hselects
        have hlaw := pairCommon_law receipt hselects hwired.core
        have hconfig : e.config = s.config := by
          rw [← hs]
          exact (hstate.1.trans ((b.recordStatus_same packet receipt).config.trans hr.config)).symm
        unfold pairEvents
        dsimp only
        rw [Monitor.accepts_append, Monitor.after_append, hreceives, pairs, hstep, hconfig]
        exact ⟨⟨accepts_notices e _ x, trivial, hlaw.1⟩, by rw [step, hstep]; exact hlaw.2⟩
      · intro hepoch
        change (e.step (.commonStatus packet, receipt)).1.commonMotorTicks.epoch ≠ e.commonMotorTicks.epoch
        rw [step, hstep, (pairCommon_keeps s receipt).1, ← hs, hstate.2, (b.recordStatus_keeps packet receipt).2]
        exact hepoch
      · rw [step, hstep, (pairCommon_keeps s receipt).2, ← hs]
        rfl

end Status

/-! ### Runs -/

theorem step_law {c : Call × Int} (h : e.Tracked c.2) (hf : Fenced c.2 x e) (hloud : ¬ e.SilentTakeover c) :
    pairLaw.Accepts x (e.pairEvents c) ∧ Fenced c.2 (pairLaw.after x (e.pairEvents c)) (e.step c).1 := by
  have hpast := h.dated.past
  obtain ⟨call, now⟩ := c
  cases call with
  | commonStatus packet => exact commonStatus_law h hf packet
  | commonInfo packet => exact quiet_law hf (commonInfo_calm hf.timeout hpast packet) id (List.append_nil _)
  | legacyEsc packet => exact quiet_law hf (.inl (legacyEscTelemetry_calm hpast packet)) id (List.append_nil _)
  | legacyRpm left right => exact quiet_law hf (.inl (legacyRpm_calm hpast left right)) id (List.append_nil _)
  | wheelDistance packet => exact quiet_law hf (.inl (wheelDistance_calm h hloud)) id (List.append_nil _)
  | poll => exact quiet_law hf (poll_calm hf.timeout now) id (List.append_nil _)
  | connection connected => exact quiet_law hf (connection_calm hf.timeout connected) id (List.append_nil _)
  | replace config retainLegacyTicks =>
    refine ⟨?_, replace_fenced hf⟩
    unfold pairEvents
    exact (Monitor.accepts_append _ _).2 ⟨accepts_notices e _ x, trivial, trivial⟩

end ObservationEngine

open ObservationEngine

/-- Every run without a silent takeover keeps the law of COMMON pairing. -/
theorem pairing_law (config : ValidConfig) (run : List (Call × Int)) (h : Clocked run)
    (hloud : pairing.Along (fun e c => ¬ e.SilentTakeover c) (ofConfig config) run) :
    pairLaw.Accepts {} (pairing.log (ofConfig config) run) := by
  have hcleared : Cleared (ofConfig config) := ⟨rfl, fun _ => rfl, fun _ => rfl⟩
  cases run with
  | nil => trivial
  | cons first later =>
    have hsorted := List.pairwise_cons.1 h
    refine Monitor.accepts_run (R := fun t x e => e.Tracked t ∧ Fenced t x e) (fun c : Call × Int => c.2) ?_
      (t := first.2) ⟨ofConfig_tracked config _, hcleared.fenced rfl⟩ ?_ h hloud
    · rintro t x e c htc hc ⟨htracked, hfenced⟩
      have htracked := htracked.mono htc
      obtain ⟨haccepts, hafter⟩ := step_law htracked (hfenced.mono htc) hc
      exact ⟨haccepts, (step_tracks htracked).1, hafter⟩
    · intro a ha
      rcases List.mem_cons.1 ha with rfl | ha
      · exact le_rfl
      · exact hsorted.1 a ha

/-- The two motors in different groups of slots. -/
def splitWheels : ValidConfig :=
  ⟨{ geometry := { leftEscSlot := 0, rightEscSlot := 4, trackWidthM := 1, ticksPerMeter := 1 }
     leftWheelIndex := 0, rightWheelIndex := 1 }, by decide +kernel⟩

def leftSample (timeUs : Nat) : Call × Int := (.commonStatus { index := 0, timeUs := timeUs }, timeUs * 1000)

def rightSample (timeUs : Nat) : Call × Int := (.commonStatus { index := 4, timeUs := timeUs }, timeUs * 1000)

/-- An encoder drives until it is stale; the left sample comes just before. -/
def staleEncoder : List (Call × Int) :=
  [(.connection true, 0), (.wheelDistance { timeUs := 1000000, count := 2, componentId := 1 }, 1000000000),
    leftSample 3900000]

/-- A poll ends the encoder, and the right sample waits for another left one. -/
def polledRun : List (Call × Int) :=
  staleEncoder ++ [(.poll, 4010000000), rightSample 4020000, leftSample 4030000]

theorem pairing_law_polled : pairLaw.Accepts {} (pairing.log (ofConfig splitWheels) polledRun) ∧
    (trace splitWheels polledRun).map (·.2.isSome) = [false, false, false, false, false, true] :=
  ⟨pairing_law splitWheels polledRun (by simp [Clocked, polledRun, staleEncoder, leftSample, rightSample])
    (by decide +kernel), by decide +kernel⟩

/-- A packet of another encoder that is no distance ends the stale one, and the right sample is paired with
the left one from before. -/
def silentRun : List (Call × Int) :=
  staleEncoder ++ [(.wheelDistance { timeUs := 4010000, count := 0, componentId := 2 }, 4010000000),
    rightSample 4020000]

theorem silent_takeover_pairs : Clocked silentRun ∧
    ¬ pairLaw.Accepts {} (pairing.log (ofConfig splitWheels) silentRun) :=
  ⟨by simp [Clocked, silentRun, staleEncoder, leftSample, rightSample], by decide +kernel⟩

end Odometry
end MowgliMavros
