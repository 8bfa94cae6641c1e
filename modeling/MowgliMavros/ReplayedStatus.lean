import MowgliMavros.PairingStatus

/-!
# Replayed ESC_STATUS

Within a COMMON epoch a slot keeps its sample, and does not turn valid, until a packet brings a later
measurement time (`Holds`). A call either leaves the sample of a slot (`Fades`) or carries a new one
(`Carries`), so the stamp of a slot is the receipt of the first packet of its measurement time
(`FirstCarried`).
-/

namespace MowgliMavros
namespace Odometry

/-- The same sample, at best as valid. -/
structure Status.Fades (s s' : Status) : Prop where
  seen : s'.seen = s.seen
  time : s'.timeUs = s.timeUs
  data : s'.data = { s.data with valid := s'.data.valid }
  valid : s'.data.valid = true → s.data.valid = true

namespace Status.Fades
variable {s s' s'' : Status}

theorem refl (s : Status) : s.Fades s := ⟨rfl, rfl, rfl, id⟩

theorem trans (h : s.Fades s') (h' : s'.Fades s'') : s.Fades s'' :=
  ⟨h'.seen.trans h.seen, h'.time.trans h.time, h'.data.trans (by rw [h.data]), fun hv => h.valid (h'.valid hv)⟩

theorem stamp (h : s.Fades s') : s'.data.stampNs = s.data.stampNs := by rw [h.data]

theorem rpm (h : s.Fades s') : s'.data.rpm = s.data.rpm := by rw [h.data]

theorem revalues (h : s.Fades s') : s.Revalues s' := by
  obtain ⟨seen, time, data, _⟩ := h
  cases s'
  cases seen
  cases time
  exact ⟨_, congrArg (Status.mk · _ _) data⟩

theorem withdraw (s : Status) : s.Fades { s with data := { s.data with valid := false } } := ⟨rfl, rfl, rfl, nofun⟩

end Status.Fades

namespace ObservationEngine
variable {e e' e'' : ObservationEngine} {slot timeUs : Nat} {receipt t : Int} {side : Side} {c : Call × Int}

/-! ### Epochs -/

/-- The call starts a COMMON epoch. -/
def StartsEpoch (e : ObservationEngine) (c : Call × Int) : Prop :=
  match c.1 with
  | .replace _ _ => (e.step c).1.commonComponent ≠ e.commonComponent
  | _ => (e.step c).1.commonMotorTicks.epoch ≠ e.commonMotorTicks.epoch

instance (c : Call × Int) : Decidable (e.StartsEpoch c) :=
  match c with
  | (.replace .., _) => inferInstanceAs (Decidable (_ ≠ _))
  | (.commonStatus _, _) | (.commonInfo _, _) | (.legacyEsc _, _) | (.legacyRpm .., _) | (.wheelDistance _, _)
  | (.poll, _) | (.connection _, _) => inferInstanceAs (Decidable (_ ≠ _))

/-- The call is an accepted ESC_STATUS with this measurement time and with a lane of the slot inside the
count. -/
def Carries (e : ObservationEngine) (slot timeUs : Nat) : Call × Int → Prop
  | (.commonStatus packet, receipt) => ¬ e.RefusesStatus packet receipt ∧ packet.timeUs = timeUs ∧
      ∃ a, (e.receiveClock receipt).acceptCommonStatus packet.componentId receipt = some a ∧
        ∃ i : Fin 4, slot = packet.index + i ∧ (a.restartCommon packet).Counted slot
  | _ => False

/-! ### Calls other than ESC_STATUS -/

/-- The samples fade and the integrator stays. -/
structure Fading (e e' : ObservationEngine) : Prop where
  status : ∀ slot, (e.status slot).Fades (e'.status slot)
  ticks : e'.commonMotorTicks = e.commonMotorTicks

/-- Another epoch has begun, without samples. -/
structure Emptied (e e' : ObservationEngine) : Prop where
  status : ∀ slot, (e'.status slot).seen = false
  epoch : e'.commonMotorTicks.epoch ≠ e.commonMotorTicks.epoch

theorem Fading.of_reports (h : e'.reports = e.reports) : e.Fading e' where
  status slot := by
    rw [show e'.status = e.status from congrArg (·.status) h]
    exact .refl _
  ticks := congrArg (·.commonMotorTicks) h

theorem Fading.trans (h : e.Fading e') (h' : e'.Fading e'') : e.Fading e'' :=
  ⟨fun slot => (h.status slot).trans (h'.status slot), h'.ticks.trans h.ticks⟩

theorem Emptied.fading (h : e.Emptied e') (h' : e'.Fading e'') : e.Emptied e'' :=
  ⟨fun slot => (h'.status slot).seen.trans (h.status slot), by rw [h'.ticks]; exact h.epoch⟩

theorem restartInfo_fading (e : ObservationEngine) (packet : CommonInfoPacket) : e.Fading (e.restartInfo packet) := by
  obtain ⟨_, h⟩ := e.restartInfo_frame packet
  rw [h]
  exact ⟨fun _ => .refl _, rfl⟩

theorem recordInfo_fading (e : ObservationEngine) (packet : CommonInfoPacket) (receipt : Int) :
    e.Fading (e.recordInfo packet receipt) := by
  obtain ⟨_, h⟩ := e.recordInfo_frame packet receipt
  rw [h]
  refine ⟨fun slot => ?_, rfl⟩
  dsimp only [trimCount]
  split
  · exact .withdraw _
  · exact .refl _

theorem acceptCommonInfo_fading {a : ObservationEngine} {component : UInt8}
    (h : e.acceptCommonInfo component = some a) : e.Fading a ∨ e.Emptied a := by
  obtain ⟨-, rfl⟩ | ⟨-, rfl⟩ := acceptCommonInfo_cases h
  · exact .inl ⟨fun _ => .refl _, rfl⟩
  · exact .inr ⟨fun _ => rfl, Nat.succ_ne_self _⟩

theorem commonInfo_fading (packet : CommonInfoPacket) (h : e.lastReceiptNs ≤ max receipt 0) :
    e.Fading (e.commonInfo packet receipt) ∨ e.Emptied (e.commonInfo packet receipt) := by
  obtain heq | heq | ⟨a, b, ha, hb, heq⟩ := commonInfo_eq h packet
  · rw [heq]
    exact .inl (.of_reports rfl)
  · rw [heq]
    exact .inl (.of_reports rfl)
  · have hrest : a.Fading (e.commonInfo packet receipt) := by
      rw [heq]
      rcases hb with rfl | rfl
      · exact (a.restartInfo_fading packet).trans (.of_reports (reselect_reports _ _))
      · exact (a.recordInfo_fading packet receipt).trans (.of_reports (reselect_reports _ _))
    rcases acceptCommonInfo_fading ha with hfading | hemptied
    · exact .inl (.trans ⟨hfading.status, hfading.ticks⟩ hrest)
    · exact .inr (.fading ⟨hemptied.status, hemptied.epoch⟩ hrest)

theorem replace_fading (config : ValidConfig) (retain : Bool) :
    (∀ slot, (e.status slot).Fades ((e.replace config t retain).status slot)) ∧
        (e.replace config t retain).commonComponent = e.commonComponent ∨
      (∀ slot, ((e.replace config t retain).status slot).seen = false) ∧
        (e.replace config t retain).commonComponent = none := by
  unfold replace retainEscObservations
  dsimp only
  split
  · exact .inl ⟨fun _ => .refl _, rfl⟩
  · exact .inr ⟨fun _ => rfl, rfl⟩

/-- The call leaves the samples, or starts an epoch without any. -/
def Quiet (e : ObservationEngine) (c : Call × Int) : Prop :=
  ¬ e.StartsEpoch c ∧ (∀ slot, (e.status slot).seen = true → (e.status slot).Fades ((e.step c).1.status slot)) ∧
      (∀ slot, ((e.step c).1.status slot).seen = true → (e.status slot).seen = true) ∨
    e.StartsEpoch c ∧ ∀ slot, ((e.step c).1.status slot).seen = false

theorem quiet_of_fading (hcall : ∀ config retain, c.1 ≠ .replace config retain)
    (h : e.Fading (e.step c).1 ∨ e.Emptied (e.step c).1) : e.Quiet c := by
  have hstarts : e.StartsEpoch c ↔ (e.step c).1.commonMotorTicks.epoch ≠ e.commonMotorTicks.epoch := by
    unfold StartsEpoch
    split
    · exact absurd ‹_› (hcall _ _)
    · exact Iff.rfl
  rcases h with hfading | hemptied
  · exact .inl ⟨fun hs => hstarts.1 hs (by rw [hfading.ticks]), fun slot _ => hfading.status slot,
      fun slot hseen => (hfading.status slot).seen ▸ hseen⟩
  · exact .inr ⟨hstarts.2 hemptied.epoch, hemptied.status⟩

theorem poll_fading (now : Int) : e.Fading (e.poll now) ∨ e.Emptied (e.poll now) := by
  unfold poll receiveClock
  split
  · exact .inr (.fading ⟨fun _ => rfl, Nat.succ_ne_self _⟩ (.of_reports (reselect_reports _ _)))
  · exact .inl (.trans (.of_reports rfl) (.of_reports (reselect_reports _ _)))

theorem replace_quiet {config : ValidConfig} {retain : Bool}
    (hstored : ∀ slot, (e.status slot).seen = true → e.commonComponent ≠ none) :
    e.Quiet (.replace config retain, t) := by
  unfold Quiet StartsEpoch
  dsimp only [step]
  rcases e.replace_fading (t := t) config retain with ⟨hfades, hcomponent⟩ | ⟨hunseen, hnone⟩
  · exact .inl ⟨not_not.2 hcomponent, fun slot _ => hfades slot, fun slot hseen => (hfades slot).seen ▸ hseen⟩
  · rw [hnone]
    by_cases hold : e.commonComponent = none
    · refine .inl ⟨not_not.2 hold.symm, fun slot hseen => absurd hold (hstored slot hseen), fun slot hseen => ?_⟩
      rw [hunseen slot] at hseen
      cases hseen
    · exact .inr ⟨Ne.symm hold, hunseen⟩

/-- Only ESC_STATUS brings samples. -/
theorem quiet_step (hquiet : ∀ packet, c.1 ≠ .commonStatus packet) (h : e.lastReceiptNs ≤ max c.2 0)
    (hstored : ∀ slot, (e.status slot).seen = true → e.commonComponent ≠ none) : e.Quiet c := by
  obtain ⟨call, now⟩ := c
  cases call with
  | commonStatus packet => exact absurd rfl (hquiet packet)
  | commonInfo packet => exact quiet_of_fading (fun _ _ => by simp) (commonInfo_fading packet h)
  | legacyEsc packet =>
    obtain ⟨_, _, he⟩ := legacyEscTelemetry_reports e packet h
    have hstatus : (e.legacyEscTelemetry packet now).status = e.status := congrArg (·.status) he
    exact quiet_of_fading (fun _ _ => by simp)
      (.inl ⟨fun slot => by rw [step, hstatus]; exact .refl _, congrArg (·.commonMotorTicks) he⟩)
  | legacyRpm left right =>
    obtain ⟨_, _, he⟩ := legacyRpm_reports e left right h
    have hstatus : (e.legacyRpm left right now).1.status = e.status := congrArg (·.status) he
    exact quiet_of_fading (fun _ _ => by simp)
      (.inl ⟨fun slot => by rw [step, hstatus]; exact .refl _, congrArg (·.commonMotorTicks) he⟩)
  | wheelDistance packet =>
    exact quiet_of_fading (fun _ _ => by simp) (.inl (.of_reports (wheelDistance_reports e packet h)))
  | poll => exact quiet_of_fading (fun _ _ => by simp) (poll_fading now)
  | connection connected => exact quiet_of_fading (fun _ _ => by simp) (.inr ⟨fun _ => rfl, Nat.succ_ne_self _⟩)
  | replace config retain => exact replace_quiet hstored

/-! ### ESC_STATUS -/

section Status
variable {packet : CommonStatusPacket} {a b : ObservationEngine}

/-- What the packet leaves in a slot: a new sample, or the one that was there. -/
theorem recordStatus_slot (e : ObservationEngine) (packet : CommonStatusPacket) (receipt : Int) (slot : Nat) :
    (∃ i : Fin 4, slot = packet.index + i ∧ e.Renews packet i ∧
        (e.recordStatus packet receipt).status slot =
          { data := packet.data i receipt (e.status slot).data, timeUs := packet.timeUs, seen := true }) ∨
      (∀ i : Fin 4, slot = packet.index + i → ¬ e.Renews packet i) ∧
        (e.status slot).Fades ((e.recordStatus packet receipt).status slot) := by
  by_cases hlane : ∃ i : Fin 4, slot = packet.index + i
  · obtain ⟨i, rfl⟩ := hlane
    rw [recordStatus_lane]
    unfold recorded
    dsimp only
    by_cases hrenews : e.Renews packet i
    · rw [if_pos hrenews]
      exact .inl ⟨i, rfl, hrenews, rfl⟩
    · rw [if_neg hrenews]
      refine .inr ⟨fun j hj => ?_, ?_⟩
      · rwa [← show i = j from Fin.ext (by omega)]
      · split
        · exact .withdraw _
        · exact .refl _
  · rw [recordStatus_other fun i hi => hlane ⟨i, hi⟩]
    exact .inr ⟨fun i hi => absurd ⟨i, hi⟩ hlane, .refl _⟩

/-- The engine that an accepted packet is recorded in: with the samples as they were, or in a new epoch. -/
theorem restartCommon_fading (h : e.acceptCommonStatus packet.componentId receipt = some a) :
    ¬ (a.restartCommon packet).Regresses packet ∧
      (e.Fading (a.restartCommon packet) ∨ e.Emptied (a.restartCommon packet)) := by
  obtain ⟨hfollows, hsame, rfl⟩ | ⟨needed, hreset⟩ := restartCommon_cases h
  · rw [hsame]
    exact ⟨hfollows, .inl ⟨fun _ => .refl _, rfl⟩⟩
  · rw [hreset]
    exact ⟨reset_regresses, .inr ⟨fun _ => rfl, Nat.succ_ne_self _⟩⟩

theorem accepted_fading (h : e.lastReceiptNs ≤ max receipt 0) (hrefuse : ¬ e.RefusesStatus packet receipt)
    (ha : (e.receiveClock receipt).acceptCommonStatus packet.componentId receipt = some a) :
    ¬ (a.restartCommon packet).Regresses packet ∧
      (e.Fading (a.restartCommon packet) ∨ e.Emptied (a.restartCommon packet)) := by
  have hpos : ¬ receipt ≤ 0 := fun hr => hrefuse (.inr (.inl hr))
  rw [receiveClock_eq (clock_of_receipt h hpos)] at ha
  obtain ⟨hregress, hfading | hemptied⟩ := restartCommon_fading ha
  · exact ⟨hregress, .inl ⟨hfading.status, hfading.ticks⟩⟩
  · exact ⟨hregress, .inr ⟨hemptied.status, hemptied.epoch⟩⟩

/-- An accepted packet is recorded, then selects and pairs. -/
theorem commonStatus_eq (hrefuse : ¬ e.RefusesStatus packet receipt)
    (ha : (e.receiveClock receipt).acceptCommonStatus packet.componentId receipt = some a) :
    e.commonStatus packet receipt =
      (((a.restartCommon packet).recordStatus packet receipt).select receipt true
        a.mappedTime).pairCommon receipt := by
  unfold commonStatus
  rw [if_neg hrefuse]
  dsimp only
  rw [ha]

theorem commonStatus_status (hrefuse : ¬ e.RefusesStatus packet receipt)
    (ha : (e.receiveClock receipt).acceptCommonStatus packet.componentId receipt = some a) :
    (e.commonStatus packet receipt).1.status = ((a.restartCommon packet).recordStatus packet receipt).status ∧
      (e.commonStatus packet receipt).1.commonMotorTicks =
        ((a.restartCommon packet).recordStatus packet receipt).commonMotorTicks := by
  have hreports : (e.commonStatus packet receipt).1.reports =
      ((a.restartCommon packet).recordStatus packet receipt).reports := by
    rw [commonStatus_eq hrefuse ha]
    simp
  exact ⟨congrArg (·.status) hreports, congrArg (·.commonMotorTicks) hreports⟩

/-- A packet that is not accepted changes nothing but the clock. -/
theorem commonStatus_refused (h : e.lastReceiptNs ≤ max receipt 0)
    (hrefused : e.RefusesStatus packet receipt ∨
      (e.receiveClock receipt).acceptCommonStatus packet.componentId receipt = none) :
    e.commonStatus packet receipt = (e, none) ∨ e.commonStatus packet receipt = (e.received receipt, none) := by
  unfold commonStatus
  by_cases hrefuse : e.RefusesStatus packet receipt
  · exact .inl (if_pos hrefuse)
  · have hnone := hrefused.resolve_left hrefuse
    have hpos : ¬ receipt ≤ 0 := fun hr => hrefuse (.inr (.inl hr))
    rw [receiveClock_eq (clock_of_receipt h hpos)] at hnone ⊢
    rw [if_neg hrefuse]
    dsimp only
    rw [hnone]
    exact .inr rfl

end Status

/-- What a call does to a slot. -/
inductive SlotStep (e : ObservationEngine) (c : Call × Int) (slot : Nat) : Prop
  | keeps (starts : ¬ e.StartsEpoch c) (fades : (e.status slot).seen = true ∨ ((e.step c).1.status slot).seen = true →
      (e.status slot).Fades ((e.step c).1.status slot))
  | empties (starts : e.StartsEpoch c) (unseen : ((e.step c).1.status slot).seen = false)
  | renews (carries : e.Carries slot ((e.step c).1.status slot).timeUs c)
      (seen : ((e.step c).1.status slot).seen = true) (stamp : ((e.step c).1.status slot).data.stampNs = c.2)
      (later : ¬ e.StartsEpoch c → (e.status slot).seen = true →
        (e.status slot).timeUs < ((e.step c).1.status slot).timeUs)

/-- A new sample of a slot is later than the one before. -/
theorem renews_later {b : ObservationEngine} {packet : CommonStatusPacket} {i : Fin 4}
    (hregress : ¬ b.Regresses packet)
    (hrenews : b.Renews packet i) (hseen : (b.status (packet.index + i)).seen = true) :
    (b.status (packet.index + i)).timeUs < packet.timeUs := by
  have hle : ¬ packet.timeUs < (b.status (packet.index + i)).timeUs := fun hlt => hregress ⟨i, hseen, hlt⟩
  have hne : packet.timeUs ≠ (b.status (packet.index + i)).timeUs := fun heq => hrenews.2 ⟨hseen, heq⟩
  omega

theorem commonStatus_slot (packet : CommonStatusPacket) (h : e.lastReceiptNs ≤ max receipt 0) (slot : Nat) :
    e.SlotStep (.commonStatus packet, receipt) slot := by
  by_cases hrefused : e.RefusesStatus packet receipt ∨
      (e.receiveClock receipt).acceptCommonStatus packet.componentId receipt = none
  · have hstarts : ¬ e.StartsEpoch (.commonStatus packet, receipt) ∧
        ((e.step (.commonStatus packet, receipt)).1.status slot) = e.status slot := by
      unfold StartsEpoch
      dsimp only [step]
      rcases commonStatus_refused h hrefused with heq | heq <;> rw [heq]
      · exact ⟨not_not.2 rfl, rfl⟩
      · exact ⟨not_not.2 rfl, rfl⟩
    exact .keeps hstarts.1 fun _ => by rw [hstarts.2]; exact .refl _
  · rw [not_or] at hrefused
    obtain ⟨hrefuse, haccept⟩ := hrefused
    obtain ⟨a, ha⟩ := Option.ne_none_iff_exists'.1 haccept
    obtain ⟨hstatus, hticks⟩ := commonStatus_status hrefuse ha
    have hepoch : (e.commonStatus packet receipt).1.commonMotorTicks.epoch =
        (a.restartCommon packet).commonMotorTicks.epoch := by
      rw [hticks]
      exact (recordStatus_keeps _ packet receipt).2
    obtain ⟨hregress, hfrom⟩ := accepted_fading h hrefuse ha
    have hcases := (a.restartCommon packet).recordStatus_slot packet receipt slot
    have hcarries : ∀ i : Fin 4, slot = packet.index + i → (a.restartCommon packet).Renews packet i →
        e.Carries slot packet.timeUs (.commonStatus packet, receipt) := fun i hslot hrenews =>
      ⟨hrefuse, rfl, a, ha, i, hslot, hslot ▸ hrenews.1⟩
    rw [← hstatus] at hcases
    generalize a.restartCommon packet = b at hepoch hregress hfrom hcases hcarries
    rcases hcases with ⟨i, hslot, hrenews, heq⟩ | ⟨_, hfades⟩
    · refine .renews ?_ ?_ ?_ ?_ <;> dsimp only [step] <;> rw [heq]
      · exact hcarries i hslot hrenews
      · rfl
      · intro hstarts hseen
        rcases hfrom with hfading | hemptied
        · subst hslot
          have hlater := renews_later hregress hrenews ((hfading.status _).seen.trans hseen)
          rwa [(hfading.status _).time] at hlater
        · exact absurd (show (e.commonStatus packet receipt).1.commonMotorTicks.epoch ≠ _ from
            hepoch ▸ hemptied.epoch)
            hstarts
    · rcases hfrom with hfading | hemptied
      · exact .keeps (fun hstarts => hstarts (by dsimp only [step]; rw [hepoch, hfading.ticks]))
          fun _ => (hfading.status slot).trans hfades
      · exact .empties (show (e.commonStatus packet receipt).1.commonMotorTicks.epoch ≠ _ from
          hepoch ▸ hemptied.epoch)
          (hfades.seen.trans (hemptied.status slot))

/-- A call leaves the sample of a slot, drops it with the epoch, or carries a new one. -/
theorem step_slot (h : e.lastReceiptNs ≤ max c.2 0)
    (hstored : ∀ slot, (e.status slot).seen = true → e.commonComponent ≠ none) (slot : Nat) : e.SlotStep c slot := by
  by_cases hquiet : ∀ packet, c.1 ≠ .commonStatus packet
  · rcases quiet_step hquiet h hstored with ⟨hstarts, hfades, hseen⟩ | ⟨hstarts, hunseen⟩
    · exact .keeps hstarts fun hor => hfades slot (hor.elim id (hseen slot))
    · exact .empties hstarts (hunseen slot)
  · push Not at hquiet
    obtain ⟨packet, hpacket⟩ := hquiet
    obtain ⟨call, receipt⟩ := c
    obtain rfl : call = .commonStatus packet := hpacket
    exact commonStatus_slot packet h slot

/-- A packet leaves its measurement time in the slots that it carries. -/
theorem Carries.leaves (h : e.Carries slot timeUs c) :
    ((e.step c).1.status slot).seen = true ∧ ((e.step c).1.status slot).timeUs = timeUs := by
  obtain ⟨call, receipt⟩ := c
  cases call with
  | commonStatus packet =>
    obtain ⟨hrefuse, rfl, a, ha, i, rfl, hcounted⟩ := h
    have hstatus := (commonStatus_status hrefuse ha).1
    dsimp only [step]
    rw [hstatus]
    rcases (a.restartCommon packet).recordStatus_slot packet receipt (packet.index + i) with
      ⟨j, hj, _, heq⟩ | ⟨hold, hfades⟩
    · rw [heq]
      exact ⟨rfl, rfl⟩
    · have hrepeats := not_not.1 fun hnew => hold i rfl ⟨hcounted, hnew⟩
      exact ⟨hfades.seen.trans hrepeats.1, hfades.time.trans hrepeats.2.symm⟩
  | _ => exact h.elim

end ObservationEngine

/-! ### Runs -/

open ObservationEngine

/-- The slot still holds the sample, at best as valid, or a later one. -/
def Status.Holds (s s' : Status) : Prop := s'.seen = true ∧ (s.timeUs < s'.timeUs ∨ s.Fades s')

/-- No call of `calls` starts an epoch. -/
def SameEpoch (e : ObservationEngine) (calls : List (Call × Int)) : Prop :=
  machine.Along (fun e c => ¬ e.StartsEpoch c) e calls

/-- The first call of the epoch that carries this measurement time came at `stampNs`. -/
def FirstCarried (config : ValidConfig) (run : List (Call × Int)) (slot timeUs : Nat) (stampNs : Int) : Prop :=
  ∃ pre c post, run = pre ++ c :: post ∧ (reach config pre).Carries slot timeUs c ∧ stampNs = c.2 ∧
    SameEpoch (reach config (pre ++ [c])) post ∧
    ∀ pre' c' mid, pre = pre' ++ c' :: mid → SameEpoch (reach config (pre' ++ [c'])) (mid ++ [c]) →
      ¬ (reach config pre').Carries slot timeUs c'

section Runs
variable {config : ValidConfig} {run pre post : List (Call × Int)} {c : Call × Int} {slot : Nat}

theorem reach_stored (h : Clocked run) (slot : Nat) (hseen : ((reach config run).status slot).seen = true) :
    (reach config run).commonComponent ≠ none := by
  obtain ⟨_, _, _, hcomponent, _⟩ := (owned_reach h).status slot hseen
  rw [hcomponent]
  nofun

theorem reach_slot (config : ValidConfig) (h : Clocked (run ++ [c])) (slot : Nat) :
    (reach config run).SlotStep c slot :=
  step_slot (reach_last (clocked_snoc.1 h).2) (reach_stored (clocked_snoc.1 h).1) slot

/-- Within an epoch a sample stays as it is until a later one comes. -/
theorem held_run (h : Clocked (pre ++ post)) (hepoch : SameEpoch (reach config pre) post)
    (hseen : ((reach config pre).status slot).seen = true) :
    ((reach config pre).status slot).Holds ((reach config (pre ++ post)).status slot) := by
  refine later_induction (P := fun e => ((reach config pre).status slot).Holds (e.status slot)) h hepoch
    ⟨hseen, .inr (.refl _)⟩ ?_
  intro run c hclock hstarts hholds
  cases reach_slot config hclock slot with
  | keeps _ fades =>
    have hfades := fades (.inl hholds.1)
    refine ⟨hfades.seen.trans hholds.1, hholds.2.imp (fun hlater => ?_) fun hold => hold.trans hfades⟩
    rwa [hfades.time]
  | empties starts _ => exact absurd starts hstarts
  | renews _ seen _ later =>
    have hlater := later hstarts hholds.1
    exact ⟨seen, .inl (hholds.2.elim (fun hlt => hlt.trans hlater) fun hold => hold.time ▸ hlater)⟩

/-- What the epoch has carried it still holds, or something later. -/
theorem carried_before (h : Clocked (pre ++ c :: post)) {timeUs : Nat}
    (hcarries : (reach config pre).Carries slot timeUs c)
    (hepoch : SameEpoch (reach config (pre ++ [c])) post) :
    ((reach config (pre ++ c :: post)).status slot).seen = true ∧
      timeUs ≤ ((reach config (pre ++ c :: post)).status slot).timeUs := by
  have hleaves := hcarries.leaves
  rw [← reach_snoc] at hleaves
  have happend : pre ++ c :: post = pre ++ [c] ++ post := by simp
  rw [happend] at h ⊢
  have hholds := held_run h hepoch hleaves.1
  rw [Status.Holds, hleaves.2] at hholds
  exact ⟨hholds.1, hholds.2.elim le_of_lt fun hfades => by rw [hfades.time, hleaves.2]⟩

/-- The stamp of a sample is the receipt of the first packet of its measurement time. -/
theorem first_carried (h : Clocked run) : ∀ slot, ((reach config run).status slot).seen = true →
    FirstCarried config run slot ((reach config run).status slot).timeUs
      ((reach config run).status slot).data.stampNs := by
  refine run_induction (P := fun run e => ∀ slot, (e.status slot).seen = true →
    FirstCarried config run slot (e.status slot).timeUs (e.status slot).data.stampNs) config (fun _ => nofun) ?_ h
  intro run c hclock _ ih slot hseen
  cases reach_slot config hclock slot with
  | keeps starts fades =>
    have hfades := fades (.inr hseen)
    obtain ⟨pre, first, post, hrun, hcarries, hstamp, hepoch, hfirst⟩ := ih slot (hfades.seen ▸ hseen)
    rw [hfades.time, hfades.stamp]
    refine ⟨pre, first, post ++ [c], by rw [hrun]; simp, hcarries, hstamp, ?_, hfirst⟩
    refine (Machine.along_append post [c]).2 ⟨hepoch, ?_, trivial⟩
    rw [reach, ← Machine.final_append]
    rwa [hrun, ← List.singleton_append, ← List.append_assoc] at starts
  | empties _ unseen => rw [unseen] at hseen; cases hseen
  | renews carries seen stamp later =>
    refine ⟨run, c, [], rfl, carries, stamp, trivial, ?_⟩
    intro pre' c' mid hpre hepoch hcarries
    obtain ⟨hmid, hlast⟩ := (Machine.along_append mid [c]).1 hepoch
    have hbefore := carried_before (hpre ▸ (clocked_snoc.1 hclock).1) hcarries hmid
    rw [← hpre] at hbefore
    have hstarts : ¬ (reach config run).StartsEpoch c := by
      have hc := hlast.1
      rwa [reach, ← Machine.final_append, List.append_assoc, List.singleton_append, ← hpre] at hc
    have hlater := later hstarts hbefore.1
    omega

end Runs
end Odometry
end MowgliMavros
