import MowgliMavros.ReplayedMotor

/-!
# Replayed ESC_INFO

An INFO entry keeps its measurement time or takes a later one, until the epoch ends, the clock of its
group goes back or the announced count leaves it out (`Forgets`). A packet that is not later than the
entry brings the slot no metadata (`Withholds`), so its report does not get fresher (`replayed_info`).
-/

namespace MowgliMavros
namespace Odometry

/-! ### The lanes of INFO -/

def CommonInfoPacket.entry (packet : CommonInfoPacket) (stampNs : Int) (valid : Bool) (i : Fin 4) : Info where
  timeUs := packet.timeUs
  stampNs := stampNs
  temperature := packet.temperature i
  failureFlags := packet.failureFlags i
  errorCount := packet.errorCount i
  seen := true
  valid := valid

/-- What `restartInfo` leaves in a lane. -/
def CommonInfoPacket.restarted (packet : CommonInfoPacket) (i : Fin 4) (s : Info) : Info :=
  if packet.index + i < packet.count then packet.entry 0 false i else s

/-- What `recordInfo` leaves in a lane. -/
def CommonInfoPacket.recorded (packet : CommonInfoPacket) (receipt : Int) (i : Fin 4) (s : Info) : Info :=
  if packet.index + i ≥ packet.count then s
  else if s.seen ∧ packet.timeUs = s.timeUs then
    if s.temperature ≠ packet.temperature i ∨ s.failureFlags ≠ packet.failureFlags i ∨
        s.errorCount ≠ packet.errorCount i then { s with valid := false }
    else s
  else packet.entry receipt true i

/-- The packet has a lane of the slot inside its count. -/
def CommonInfoPacket.Covers (packet : CommonInfoPacket) (slot : Nat) : Prop :=
  ∃ i : Fin 4, slot = packet.index + i ∧ slot < packet.count

instance (packet : CommonInfoPacket) (slot : Nat) : Decidable (packet.Covers slot) :=
  inferInstanceAs (Decidable (∃ _, _))

/-! ### Metadata -/

/-- The observation has no metadata. -/
structure EscObservationData.Plain (d : EscObservationData) : Prop where
  stamp : d.metadataStampNs = 0
  temperature : d.temperatureValid = false
  failureFlags : d.failureFlagsValid = false
  errorCount : d.errorCountValid = false

/-- The metadata of `d'` are not fresher than those of `d`. -/
structure EscObservationData.NoFresher (d d' : EscObservationData) : Prop where
  stamp : d'.metadataStampNs ≤ d.metadataStampNs
  temperature : d'.temperatureValid = true → d.temperatureValid = true
  failureFlags : d'.failureFlagsValid = true → d.failureFlagsValid = true
  errorCount : d'.errorCountValid = true → d.errorCountValid = true

namespace EscObservationData
variable {d d' : EscObservationData}

theorem NoFresher.refl (d : EscObservationData) : d.NoFresher d := ⟨le_rfl, id, id, id⟩

theorem Plain.noFresher (h : d'.Plain) (hstamp : 0 ≤ d.metadataStampNs) : d.NoFresher d' :=
  ⟨h.stamp ▸ hstamp, by simp [h.temperature], by simp [h.failureFlags], by simp [h.errorCount]⟩

theorem Plain.settle (h : d.Plain) : d.settle.Plain := by
  unfold EscObservationData.settle
  split
  · exact h
  · exact ⟨h.stamp, rfl, rfl, rfl⟩

end EscObservationData

namespace ObservationEngine
variable {e e' a : ObservationEngine} {packet : CommonInfoPacket} {receipt t now : Int} {slot timeUs : Nat}
  {component : UInt8} {c : Call × Int}

/-- A loop over the lanes that does the same to each entry. -/
theorem foldl_lanes (index : Nat) {f : ObservationEngine → Fin 4 → ObservationEngine} {g : Fin 4 → Info → Info}
    (hf : ∀ e i, (f e i).info = Function.update e.info (index + i) (g i (e.info (index + i)))) {is : List (Fin 4)}
    (hnodup : is.Nodup) (e : ObservationEngine) :
    (∀ i ∈ is, (is.foldl f e).info (index + i) = g i (e.info (index + i))) ∧
      ∀ slot, (∀ i ∈ is, slot ≠ index + i) → (is.foldl f e).info slot = e.info slot := by
  induction is generalizing e with
  | nil => exact ⟨by simp, fun _ _ => rfl⟩
  | cons j is ih =>
    obtain ⟨hj, hrest⟩ := List.nodup_cons.1 hnodup
    obtain ⟨hin, hout⟩ := ih hrest (f e j)
    rw [List.foldl_cons]
    constructor
    · intro i hi
      rcases List.mem_cons.1 hi with rfl | hi
      · rw [hout _ fun k hk he => hj (by rwa [show i = k from Fin.ext (by omega)]), hf, Function.update_self]
      · rw [hin i hi, hf, Function.update_of_ne (lane_ne fun he : i = j => hj (he ▸ hi))]
    · intro slot hslot
      rw [hout slot fun i hi => hslot i (List.mem_cons_of_mem _ hi), hf, Function.update_of_ne (hslot j (by simp))]

theorem restartInfo_info (e : ObservationEngine) (packet : CommonInfoPacket) :
    (∀ i : Fin 4, (e.restartInfo packet).info (packet.index + i) = packet.restarted i (e.info (packet.index + i))) ∧
      ∀ slot, (∀ i : Fin 4, slot ≠ packet.index + i) → (e.restartInfo packet).info slot = e.info slot := by
  obtain ⟨hin, hout⟩ := foldl_lanes (g := packet.restarted)
    (f := fun e i => if packet.index + i < packet.count then e.setInfo packet 0 false i else e) packet.index
    (fun e i => by
      unfold CommonInfoPacket.restarted
      split
      · rfl
      · exact (Function.update_eq_self _ _).symm) (List.nodup_finRange 4) e
  exact ⟨fun i => hin i (List.mem_finRange i), fun slot hslot => hout slot fun i _ => hslot i⟩

theorem recordInfo_info (e : ObservationEngine) (packet : CommonInfoPacket) (receipt : Int) :
    (∀ i : Fin 4, (e.recordInfo packet receipt).info (packet.index + i) =
        packet.recorded receipt i ((e.trimCount packet.count).info (packet.index + i))) ∧
      ∀ slot, (∀ i : Fin 4, slot ≠ packet.index + i) →
        (e.recordInfo packet receipt).info slot = (e.trimCount packet.count).info slot := by
  obtain ⟨hin, hout⟩ := foldl_lanes (g := packet.recorded receipt)
    (f := fun e i => e.recordInfoSlot packet receipt i) packet.index
    (fun e i => by
      unfold recordInfoSlot CommonInfoPacket.recorded
      dsimp only
      split
      · exact (Function.update_eq_self _ _).symm
      · split
        · split
          · rfl
          · exact (Function.update_eq_self _ _).symm
        · rfl) (List.nodup_finRange 4) (e.trimCount packet.count)
  exact ⟨fun i => hin i (List.mem_finRange i), fun slot hslot => hout slot fun i _ => hslot i⟩

/-- A regress restarts the entries that the packet covers. -/
theorem restartInfo_slot (e : ObservationEngine) (packet : CommonInfoPacket) (slot : Nat) :
    (packet.Covers slot ∧ ∃ i, (e.restartInfo packet).info slot = packet.entry 0 false i) ∨
      ¬ packet.Covers slot ∧ (e.restartInfo packet).info slot = e.info slot := by
  obtain ⟨hin, hout⟩ := e.restartInfo_info packet
  by_cases hlane : ∃ i : Fin 4, slot = packet.index + i
  · obtain ⟨i, rfl⟩ := hlane
    rw [hin i]
    unfold CommonInfoPacket.restarted
    split
    · exact .inl ⟨⟨i, rfl, ‹_›⟩, i, rfl⟩
    · rename_i hcount
      exact .inr ⟨fun ⟨_, _, hlt⟩ => hcount hlt, rfl⟩
  · exact .inr ⟨fun ⟨i, hi, _⟩ => hlane ⟨i, hi⟩, hout slot fun i hi => hlane ⟨i, hi⟩⟩

/-- What the record of INFO leaves in a slot: a new entry, the same measurement time at best as valid, or
what the count leaves. -/
theorem recordInfo_slot (e : ObservationEngine) (packet : CommonInfoPacket) (receipt : Int) (slot : Nat) :
    (packet.Covers slot ∧ ¬ ((e.info slot).seen ∧ packet.timeUs = (e.info slot).timeUs) ∧
        ∃ i, (e.recordInfo packet receipt).info slot = packet.entry receipt true i) ∨
      (packet.Covers slot ∧ (e.info slot).seen = true ∧ packet.timeUs = (e.info slot).timeUs ∧
        ∃ valid, (valid = true → (e.info slot).valid = true) ∧
          (e.recordInfo packet receipt).info slot = { e.info slot with valid := valid }) ∨
      ¬ packet.Covers slot ∧ (e.recordInfo packet receipt).info slot = (e.trimCount packet.count).info slot := by
  obtain ⟨hin, hout⟩ := e.recordInfo_info packet receipt
  by_cases hlane : ∃ i : Fin 4, slot = packet.index + i
  · obtain ⟨i, rfl⟩ := hlane
    rw [hin i]
    unfold CommonInfoPacket.recorded
    by_cases hcount : packet.index + i ≥ packet.count
    · rw [if_pos hcount]
      exact .inr (.inr ⟨fun ⟨_, _, hlt⟩ => by omega, rfl⟩)
    · have hsame : (e.trimCount packet.count).info (packet.index + i) = e.info (packet.index + i) :=
        if_neg fun h => hcount h.1
      have hcovers : packet.Covers (packet.index + i) := ⟨i, rfl, Nat.not_le.1 hcount⟩
      rw [if_neg hcount, hsame]
      split
      · rename_i hold
        refine .inr (.inl ⟨hcovers, hold.1, hold.2, ?_⟩)
        split
        · exact ⟨false, nofun, rfl⟩
        · exact ⟨_, id, rfl⟩
      · exact .inl ⟨hcovers, ‹_›, i, rfl⟩
  · exact .inr (.inr ⟨fun ⟨i, hi, _⟩ => hlane ⟨i, hi⟩, hout slot fun i hi => hlane ⟨i, hi⟩⟩)

/-! ### What a call does to the entries -/

def AcceptsInfo (e a : ObservationEngine) (packet : CommonInfoPacket) (receipt : Int) : Prop :=
  ¬ e.RefusesInfo packet receipt ∧ a ∈ (e.receiveClock receipt).acceptCommonInfo packet.componentId

/-- What an accepted packet does to the entries. -/
def inform (a : ObservationEngine) (packet : CommonInfoPacket) (receipt : Int) : ObservationEngine :=
  if a.InfoRegresses packet then a.restartInfo packet else a.recordInfo packet receipt

/-- The call is an accepted INFO with this measurement time for the slot. -/
def CarriesInfo (e : ObservationEngine) (slot timeUs : Nat) : Call × Int → Prop
  | (.commonInfo packet, receipt) => packet.timeUs = timeUs ∧ packet.Covers slot ∧ ∃ a, e.AcceptsInfo a packet receipt
  | _ => False

/-- An accepted INFO restarts the clock of the slot's group, or leaves the slot out of its count. -/
def Forgets (e : ObservationEngine) (slot : Nat) : Call × Int → Prop
  | (.commonInfo packet, receipt) => ¬ e.RefusesInfo packet receipt ∧
      ∃ a ∈ (e.receiveClock receipt).acceptCommonInfo packet.componentId,
        if a.InfoRegresses packet then packet.Covers slot else packet.count ≤ slot
  | _ => False

instance (slot : Nat) (c : Call × Int) : Decidable (e.Forgets slot c) := by
  unfold Forgets
  split <;> infer_instance

/-- The packet is recorded with the entries as they were, or in a new epoch without any. -/
theorem AcceptsInfo.cases (ha : e.AcceptsInfo a packet receipt) (h : e.lastReceiptNs ≤ max receipt 0) :
    (∃ component, a.reports = { e.reports with commonComponent := component }) ∨
      a.info = (fun _ => {}) ∧ a.commonMotorTicks.epoch ≠ e.commonMotorTicks.epoch := by
  obtain ⟨hok, haccept⟩ := ha
  rw [receiveClock_eq (clock_of_receipt h fun hr => hok (.inr (.inl hr)))] at haccept
  obtain ⟨-, rfl⟩ | ⟨-, rfl⟩ := acceptCommonInfo_cases haccept
  · exact .inl ⟨_, rfl⟩
  · exact .inr ⟨rfl, Nat.succ_ne_self _⟩

theorem AcceptsInfo.reports (ha : e.AcceptsInfo a packet receipt) :
    (e.commonInfo packet receipt).reports = (a.inform packet receipt).reports := by
  unfold commonInfo inform
  rw [if_neg ha.1]
  dsimp only
  rw [show (e.receiveClock receipt).acceptCommonInfo packet.componentId = some a from ha.2]
  dsimp only
  split
  · exact reselect_reports _ _
  · exact reselect_reports _ _

theorem commonInfo_cases (h : e.lastReceiptNs ≤ max receipt 0) (packet : CommonInfoPacket) :
    (e.commonInfo packet receipt).reports = e.reports ∨ ∃ a, e.AcceptsInfo a packet receipt := by
  by_cases hrefuse : e.RefusesInfo packet receipt
  · exact .inl (by unfold commonInfo; rw [if_pos hrefuse])
  · cases ha : (e.receiveClock receipt).acceptCommonInfo packet.componentId with
    | none =>
      unfold commonInfo
      rw [if_neg hrefuse]
      dsimp only
      rw [ha, receiveClock_eq (clock_of_receipt h fun hr => hrefuse (.inr (.inl hr)))]
      exact .inl rfl
    | some a => exact .inr ⟨a, hrefuse, ha⟩

/-- What a call does to the INFO entries and to the count. -/
inductive InfoStep (e : ObservationEngine) (c : Call × Int) : Prop
  | same (info : (e.step c).1.info = e.info) (count : (e.step c).1.commonCount = e.commonCount)
  | drops (starts : e.StartsEpoch c ∨ e.commonComponent = none) (info : (e.step c).1.info = fun _ => {})
  | informs (packet : CommonInfoPacket) (receipt : Int) (a : ObservationEngine)
      (call : c = (.commonInfo packet, receipt)) (accepts : e.AcceptsInfo a packet receipt)

theorem InfoStep.of_reports (h : (e.step c).1.reports = e.reports) : e.InfoStep c :=
  .same (congrArg (·.info) h) (congrArg (·.commonCount) h)

theorem restartCommon_info {packet : CommonStatusPacket}
    (h : e.acceptCommonStatus packet.componentId receipt = some a) :
    (a.restartCommon packet).info = e.info ∧ (a.restartCommon packet).commonCount = e.commonCount ∨
      (a.restartCommon packet).info = (fun _ => {}) ∧
        (a.restartCommon packet).commonMotorTicks.epoch ≠ e.commonMotorTicks.epoch := by
  obtain ⟨-, hsame, rfl⟩ | ⟨needed, hreset⟩ := restartCommon_cases h
  · rw [hsame]
    exact .inl ⟨rfl, rfl⟩
  · rw [hreset]
    exact .inr ⟨rfl, Nat.succ_ne_self _⟩

theorem commonStatus_info {packet : CommonStatusPacket} (h : e.lastReceiptNs ≤ max receipt 0) :
    e.InfoStep (.commonStatus packet, receipt) := by
  by_cases hrefused : e.RefusesStatus packet receipt ∨
      (e.receiveClock receipt).acceptCommonStatus packet.componentId receipt = none
  · refine .of_reports ?_
    dsimp only [step]
    rcases commonStatus_refused h hrefused with heq | heq
    · rw [heq]
    · rw [heq]
      rfl
  · rw [not_or] at hrefused
    obtain ⟨hrefuse, haccept⟩ := hrefused
    obtain ⟨a, ha⟩ := Option.ne_none_iff_exists'.1 haccept
    have hreports : (e.commonStatus packet receipt).1.reports =
        ((a.restartCommon packet).recordStatus packet receipt).reports := by
      rw [commonStatus_eq hrefuse ha]
      simp
    have hepoch := ((a.restartCommon packet).recordStatus_keeps packet receipt).2
    obtain ⟨_, _, hframe⟩ := (a.restartCommon packet).recordStatus_frame packet receipt
    have hinfo : (e.commonStatus packet receipt).1.info = (a.restartCommon packet).info :=
      (congrArg (·.info) hreports).trans (by rw [hframe]; rfl)
    have hcount : (e.commonStatus packet receipt).1.commonCount = (a.restartCommon packet).commonCount :=
      (congrArg (·.commonCount) hreports).trans (by rw [hframe]; rfl)
    have hpos : ¬ receipt ≤ 0 := fun hr => hrefuse (.inr (.inl hr))
    rw [receiveClock_eq (clock_of_receipt h hpos)] at ha
    rcases restartCommon_info ha with ⟨hsame, hsamecount⟩ | ⟨hnone, hstarts⟩
    · exact .same (hinfo.trans hsame) (hcount.trans hsamecount)
    · refine .drops (.inl ?_) (hinfo.trans hnone)
      show (e.commonStatus packet receipt).1.commonMotorTicks.epoch ≠ _
      rw [show (e.commonStatus packet receipt).1.commonMotorTicks = _ from congrArg (·.commonMotorTicks) hreports]
      exact hepoch ▸ hstarts

theorem poll_info (now : Int) : e.InfoStep (.poll, now) := by
  by_cases hback : now < e.lastReceiptNs
  · have hreports : (e.poll now).reports = ({ e.reset with lastReceiptNs := now }).reports := by
      unfold poll receiveClock
      rw [if_pos hback]
      exact reselect_reports _ _
    refine .drops (.inl ?_) (congrArg (·.info) hreports)
    show (e.poll now).commonMotorTicks.epoch ≠ _
    rw [show (e.poll now).commonMotorTicks = _ from congrArg (·.commonMotorTicks) hreports]
    exact Nat.succ_ne_self _
  · refine .of_reports ?_
    dsimp only [step]
    unfold poll receiveClock
    rw [if_neg hback]
    exact reselect_reports _ _

theorem replace_info {config : ValidConfig} {retain : Bool} : e.InfoStep (.replace config retain, t) := by
  by_cases hkeeps : (ofConfig config).config.1.escComponentId < 0 ∨ e.commonComponent.any fun component =>
      (component.toNat : Int) = (ofConfig config).config.1.escComponentId
  · refine .same ?_ ?_
    · exact if_pos hkeeps
    · exact if_pos hkeeps
  · refine .drops ?_ (if_neg hkeeps)
    have hnone : (e.replace config t retain).commonComponent = none := if_neg hkeeps
    by_cases hold : e.commonComponent = none
    · exact .inr hold
    · exact .inl fun heq => hold (heq ▸ hnone)

theorem info_step (h : e.lastReceiptNs ≤ max c.2 0) : e.InfoStep c := by
  obtain ⟨call, now⟩ := c
  cases call with
  | commonStatus packet => exact commonStatus_info h
  | commonInfo packet =>
    rcases commonInfo_cases h packet with hsame | ⟨a, haccepts⟩
    · exact .of_reports hsame
    · exact .informs packet now a rfl haccepts
  | legacyEsc packet =>
    obtain ⟨_, _, he⟩ := legacyEscTelemetry_reports e packet h
    exact .same (congrArg (·.info) he) (congrArg (·.commonCount) he)
  | legacyRpm left right =>
    obtain ⟨_, _, he⟩ := legacyRpm_reports e left right h
    exact .same (congrArg (·.info) he) (congrArg (·.commonCount) he)
  | wheelDistance packet => exact .of_reports (wheelDistance_reports e packet h)
  | poll => exact poll_info now
  | connection connected => exact .drops (.inl (Nat.succ_ne_self _)) rfl
  | replace config retain => exact replace_info

theorem inform_frame (a : ObservationEngine) (packet : CommonInfoPacket) (receipt : Int) :
    (a.inform packet receipt).commonMotorTicks = a.commonMotorTicks ∧ (a.inform packet receipt).config = a.config ∧
      (a.inform packet receipt).connected = a.connected ∧ (a.inform packet receipt).legacyEsc = a.legacyEsc := by
  unfold inform
  split
  · obtain ⟨_, hframe⟩ := a.restartInfo_frame packet
    rw [hframe]
    exact ⟨rfl, rfl, rfl, rfl⟩
  · obtain ⟨_, hframe⟩ := a.recordInfo_frame packet receipt
    rw [hframe]
    exact ⟨rfl, rfl, rfl, rfl⟩

/-- A packet that starts no epoch finds the entries as they were. -/
theorem AcceptsInfo.continues (ha : e.AcceptsInfo a packet receipt) (h : e.lastReceiptNs ≤ max receipt 0)
    (hstarts : ¬ e.StartsEpoch (.commonInfo packet, receipt)) :
    ∃ component, a.reports = { e.reports with commonComponent := component } := by
  refine (ha.cases h).resolve_right fun ⟨_, hepoch⟩ => hstarts ?_
  show (e.commonInfo packet receipt).commonMotorTicks.epoch ≠ _
  rw [show (e.commonInfo packet receipt).commonMotorTicks = _ from congrArg (·.commonMotorTicks) ha.reports]
  exact (a.inform_frame packet receipt).1 ▸ hepoch

theorem covers_later (hregress : ¬ a.InfoRegresses packet) (hcovers : packet.Covers slot)
    (hseen : (a.info slot).seen = true) : (a.info slot).timeUs ≤ packet.timeUs := by
  obtain ⟨i, rfl, hcount⟩ := hcovers
  exact Nat.not_lt.1 fun hlt => hregress ⟨i, hcount, hseen, hlt⟩

/-- A call that does not forget the slot leaves its entry, or a later one. -/
theorem info_later (h : e.lastReceiptNs ≤ max c.2 0) (hstored : e.commonComponent ≠ none)
    (hstarts : ¬ e.StartsEpoch c) (hforgets : ¬ e.Forgets slot c) (hseen : (e.info slot).seen = true) :
    ((e.step c).1.info slot).seen = true ∧ (e.info slot).timeUs ≤ ((e.step c).1.info slot).timeUs := by
  cases info_step h with
  | same info _ => rw [info]; exact ⟨hseen, le_rfl⟩
  | drops starts _ => exact absurd starts (not_or.2 ⟨hstarts, hstored⟩)
  | informs packet receipt a call accepts =>
    subst call
    obtain ⟨_, ha⟩ := accepts.continues h hstarts
    have hold : a.info = e.info := congrArg (·.info) ha
    have hinfo : (e.step (.commonInfo packet, receipt)).1.info = (a.inform packet receipt).info :=
      congrArg (·.info) accepts.reports
    have hforgets : ¬ if a.InfoRegresses packet then packet.Covers slot else packet.count ≤ slot :=
      fun hf => hforgets ⟨accepts.1, a, accepts.2, hf⟩
    rw [hinfo]
    unfold inform
    by_cases hregress : a.InfoRegresses packet
    · rw [if_pos hregress] at hforgets ⊢
      rcases a.restartInfo_slot packet slot with ⟨hcovers, _⟩ | ⟨_, hsame⟩
      · exact absurd hcovers hforgets
      · rw [hsame, hold]
        exact ⟨hseen, le_rfl⟩
    · rw [if_neg hregress] at hforgets ⊢
      rcases a.recordInfo_slot packet receipt slot with
        ⟨hcovers, _, i, hnew⟩ | ⟨_, _, _, valid, _, hsame⟩ | ⟨_, hsame⟩
      · rw [hnew]
        exact ⟨rfl, hold ▸ covers_later hregress hcovers (hold ▸ hseen)⟩
      · rw [hsame, hold]
        exact ⟨hseen, le_rfl⟩
      · have htrim : (a.trimCount packet.count).info slot = a.info slot := if_neg fun hout => hforgets hout.1
        rw [hsame, htrim, hold]
        exact ⟨hseen, le_rfl⟩

/-- A packet leaves its measurement time in the slots that it covers. -/
theorem CarriesInfo.leaves (hc : e.CarriesInfo slot timeUs c) :
    ((e.step c).1.info slot).seen = true ∧ ((e.step c).1.info slot).timeUs = timeUs := by
  obtain ⟨call, receipt⟩ := c
  cases call with
  | commonInfo packet =>
    obtain ⟨rfl, hcovers, a, ha⟩ := hc
    have hinfo : (e.commonInfo packet receipt).info = (a.inform packet receipt).info :=
      congrArg (·.info) ha.reports
    dsimp only [step]
    rw [hinfo]
    unfold inform
    split
    · rcases a.restartInfo_slot packet slot with ⟨_, i, hnew⟩ | ⟨hno, _⟩
      · rw [hnew]
        exact ⟨rfl, rfl⟩
      · exact absurd hcovers hno
    · rcases a.recordInfo_slot packet receipt slot with
        ⟨_, _, i, hnew⟩ | ⟨_, hseen, htime, valid, _, hsame⟩ | ⟨hno, _⟩
      · rw [hnew]
        exact ⟨rfl, rfl⟩
      · rw [hsame]
        exact ⟨hseen, htime.symm⟩
      · exact absurd hcovers hno
  | _ => exact hc.elim

/-! ### The invariant -/

/-- The STATUS samples have no metadata, and a valid entry is inside the count. -/
structure Informed (e : ObservationEngine) : Prop where
  plain : ∀ slot, (e.status slot).data.Plain
  inside : ∀ slot, (e.info slot).seen = true → slot < 64
  counted : ∀ slot, (e.info slot).seen = true → (e.info slot).valid = true → e.Counted slot

theorem recordStatus_plain {packet : CommonStatusPacket} (h : ∀ slot, (e.status slot).data.Plain) (slot : Nat) :
    ((e.recordStatus packet receipt).status slot).data.Plain := by
  have hplain := h slot
  rcases e.recordStatus_slot packet receipt slot with ⟨_, _, _, hnew⟩ | ⟨_, hfades⟩
  · rw [hnew]
    exact ⟨hplain.stamp, hplain.temperature, hplain.failureFlags, hplain.errorCount⟩
  · rw [hfades.data]
    exact ⟨hplain.stamp, hplain.temperature, hplain.failureFlags, hplain.errorCount⟩

theorem Takes.plain {b : ObservationEngine} (ht : e.Takes b component) (h : ∀ slot, (e.status slot).data.Plain)
    (slot : Nat) : (b.status slot).data.Plain := by
  rcases ht.entries with ⟨hstatus, _⟩ | ⟨hstatus, _⟩
  · rw [hstatus]
    exact h slot
  · rw [hstatus]
    exact ⟨rfl, rfl, rfl, rfl⟩

theorem step_plain (hpast : e.lastReceiptNs ≤ max c.2 0) (h : ∀ slot, (e.status slot).data.Plain) (slot : Nat) :
    ((e.step c).1.status slot).data.Plain := by
  cases step_common c hpast with
  | keep same _ => rw [same.status]; exact h slot
  | drop none => rw [none.status]; exact ⟨rfl, rfl, rfl, rfl⟩
  | status b takes _ same _ => rw [same.status]; exact recordStatus_plain (takes.plain h) slot
  | info b d takes _ informs same =>
    have hplain := takes.plain h slot
    obtain ⟨_, heq⟩ := informs.status slot
    rw [same.status, heq]
    exact ⟨hplain.stamp, hplain.temperature, hplain.failureFlags, hplain.errorCount⟩

/-- What an accepted packet leaves is inside its count. -/
theorem inform_counted (receipt : Int) (hindex : packet.index ≤ 60)
    (hinside : ∀ slot, (a.info slot).seen = true → slot < 64)
    (hcounted : ∀ slot, (a.info slot).seen = true → (a.info slot).valid = true → a.Counted slot) (slot : Nat)
    (hseen : ((a.inform packet receipt).info slot).seen = true) :
    slot < 64 ∧ (((a.inform packet receipt).info slot).valid = true → (a.inform packet receipt).Counted slot) := by
  have hlane : packet.Covers slot → slot < 64 := fun ⟨i, hi, _⟩ => by omega
  unfold inform at hseen ⊢
  split at hseen
  · rename_i hregress
    rw [if_pos hregress]
    rcases a.restartInfo_slot packet slot with ⟨hcovers, i, hnew⟩ | ⟨_, hsame⟩
    · rw [hnew]
      exact ⟨hlane hcovers, nofun⟩
    · obtain ⟨_, hframe⟩ := a.restartInfo_frame packet
      rw [hsame] at hseen ⊢
      rw [hframe]
      exact ⟨hinside slot hseen, hcounted slot hseen⟩
  · rename_i hregress
    rw [if_neg hregress]
    have hcount : (a.recordInfo packet receipt).commonCount = some packet.count := by
      obtain ⟨_, hframe⟩ := a.recordInfo_frame packet receipt
      rw [hframe]
      rfl
    have hbelow : slot < packet.count → (a.recordInfo packet receipt).Counted slot := fun hlt => by
      unfold Counted
      rw [hcount]
      exact decide_eq_true hlt
    rcases a.recordInfo_slot packet receipt slot with ⟨hcovers, _⟩ | ⟨hcovers, _⟩ | ⟨_, hsame⟩
    · exact ⟨hlane hcovers, fun _ => hbelow hcovers.choose_spec.2⟩
    · exact ⟨hlane hcovers, fun _ => hbelow hcovers.choose_spec.2⟩
    · rw [hsame] at hseen
      dsimp only [trimCount] at hseen
      split at hseen
      · cases hseen
      · rename_i hin
        have hslot := hinside slot hseen
        exact ⟨hslot, fun _ => hbelow (Nat.lt_of_not_le fun hle => hin ⟨hle, hslot⟩)⟩

theorem step_informed (hpast : e.lastReceiptNs ≤ max c.2 0) (h : e.Informed) : (e.step c).1.Informed := by
  have hplain := step_plain hpast h.plain
  cases info_step hpast with
  | same info count =>
    refine ⟨hplain, ?_, ?_⟩
    · rw [info]
      exact h.inside
    · unfold Counted
      rw [info, count]
      exact h.counted
  | drops _ info =>
    refine ⟨hplain, ?_, ?_⟩
    · rw [info]
      nofun
    · rw [info]
      nofun
  | informs packet receipt a call accepts =>
    subst call
    have hindex : packet.index ≤ 60 := Nat.not_lt.1 fun hlt => accepts.1 (.inr (.inr (.inr (.inl hlt))))
    have hinfo : (e.step (.commonInfo packet, receipt)).1.info = (a.inform packet receipt).info :=
      congrArg (·.info) accepts.reports
    have hcount : (e.step (.commonInfo packet, receipt)).1.commonCount = (a.inform packet receipt).commonCount :=
      congrArg (·.commonCount) accepts.reports
    have hfound : (∀ slot, (a.info slot).seen = true → slot < 64) ∧
        ∀ slot, (a.info slot).seen = true → (a.info slot).valid = true → a.Counted slot := by
      rcases accepts.cases hpast with ⟨_, ha⟩ | ⟨hnone, _⟩
      · have hold : a.info = e.info := congrArg (·.info) ha
        have holdcount : a.commonCount = e.commonCount := congrArg (·.commonCount) ha
        unfold Counted
        rw [hold, holdcount]
        exact ⟨h.inside, h.counted⟩
      · rw [hnone]
        exact ⟨nofun, nofun⟩
    have hleft := fun slot => inform_counted receipt hindex hfound.1 hfound.2 slot
    unfold Counted at hleft
    refine ⟨hplain, fun slot hseen => ?_, fun slot hseen => ?_⟩
    · rw [hinfo] at hseen
      exact (hleft slot hseen).1
    · unfold Counted
      rw [hinfo] at hseen ⊢
      rw [hcount]
      exact (hleft slot hseen).2

/-! ### The report of a slot -/

def sampleDelta (e : ObservationEngine) (slot : Nat) : Nat :=
  max (e.status slot).timeUs (e.info slot).timeUs - min (e.status slot).timeUs (e.info slot).timeUs

def liveEsc (e : ObservationEngine) (slot : Nat) (now : Int) : EscObservationData :=
  if e.InfoFresh slot now ∧ e.sampleDelta slot ≤ (e.config.1.timeoutNs / 1000).toNat then
    (e.info slot).annotate (e.status slot).data
  else (e.status slot).data

/-- The last sample of a slot, or of the legacy telemetry. -/
def lastEsc (e : ObservationEngine) (slot : Nat) (now : Int) : EscObservationData :=
  let legacy := (e.legacyEsc slot).data
  if e.HasLegacy slot then { legacy with valid := legacy.valid && e.Fresh legacy.stampNs now }
  else if (e.status slot).seen then { (e.status slot).data with valid := false }
  else { index := slot }

def otherEsc (e : ObservationEngine) (slot : Nat) (now : Int) : EscObservationData :=
  if ¬ (e.status slot).seen ∧ e.InfoFresh slot now ∧ e.Counted slot ∧ ¬ e.HasLegacy slot then
    (e.info slot).annotate { e.lastEsc slot now with source := .common }
  else (e.lastEsc slot now).settle

theorem esc_eq (e : ObservationEngine) (slot : Nat) (now : Int) : e.esc slot now =
    if ¬ e.connected ∨ slot ≥ 64 then { index := slot }
    else if (e.status slot).seen ∧ (e.status slot).data.valid ∧ e.Counted slot ∧
        e.Fresh (e.status slot).data.stampNs now then e.liveEsc slot now
    else e.otherEsc slot now := rfl

/-- The engines report the same of the slot, but for metadata that `e'` has lost. -/
structure Withholds (e : ObservationEngine) (slot : Nat) (e' : ObservationEngine) : Prop where
  config : e'.config = e.config
  connected : e'.connected = e.connected
  status : e'.status slot = e.status slot
  legacy : e'.legacyEsc = e.legacyEsc
  counted : e.Counted slot → e'.Counted slot
  info : (e'.info slot).seen = true → (e'.info slot).valid = true → e'.info slot = e.info slot

namespace Withholds

theorem trans {e'' : ObservationEngine} (h : e.Withholds slot e') (h' : e'.Withholds slot e'') :
    e.Withholds slot e'' where
  config := h'.config.trans h.config
  connected := h'.connected.trans h.connected
  status := h'.status.trans h.status
  legacy := h'.legacy.trans h.legacy
  counted hcounted := h'.counted (h.counted hcounted)
  info hseen hvalid := by
    have heq := h'.info hseen hvalid
    rw [heq] at hseen hvalid ⊢
    exact h.info hseen hvalid

theorem of_reports (h : e'.reports = e.reports) : e.Withholds slot e' where
  config := congrArg (·.config) h
  connected := congrArg (·.connected) h
  status := congrFun (congrArg (·.status) h) slot
  legacy := congrArg (·.legacyEsc) h
  counted hcounted := by
    unfold Counted
    rwa [show e'.commonCount = e.commonCount from congrArg (·.commonCount) h]
  info _ _ := congrFun (congrArg (·.info) h) slot

theorem fresh (h : e.Withholds slot e') (stamp : Int) : e'.Fresh stamp now ↔ e.Fresh stamp now := by
  unfold Fresh
  rw [h.config]

theorem infoFresh (h : e.Withholds slot e') (hfresh : e'.InfoFresh slot now) :
    e'.info slot = e.info slot ∧ e.InfoFresh slot now := by
  obtain ⟨hseen, hvalid, hstamp⟩ := hfresh
  have heq := h.info hseen hvalid
  rw [heq] at hseen hvalid hstamp
  exact ⟨heq, hseen, hvalid, (h.fresh _).1 hstamp⟩

/-- The report with a live sample. -/
theorem liveEsc (h : e.Withholds slot e') (hi : e.Informed) :
    (e.liveEsc slot now).NoFresher (e'.liveEsc slot now) := by
  have hplain := hi.plain slot
  unfold ObservationEngine.liveEsc
  rw [h.status, h.config]
  by_cases hnew : e'.InfoFresh slot now ∧ (e'.sampleDelta slot ≤ (e.config.1.timeoutNs / 1000).toNat)
  · obtain ⟨heq, hfresh⟩ := h.infoFresh hnew.1
    have hdelta : e'.sampleDelta slot = e.sampleDelta slot := by
      unfold sampleDelta
      rw [h.status, heq]
    rw [if_pos hnew, if_pos ⟨hfresh, hdelta ▸ hnew.2⟩, heq]
    exact .refl _
  · rw [if_neg hnew]
    refine hplain.noFresher ?_
    split
    · rename_i hold
      exact hold.1.2.2.1.le
    · exact hplain.stamp.ge

/-- The report without a live sample. -/
theorem otherEsc (h : e.Withholds slot e') (hi : e.Informed) :
    (e.otherEsc slot now).NoFresher (e'.otherEsc slot now) := by
  have hlegacy : e'.HasLegacy slot ↔ e.HasLegacy slot := by
    unfold HasLegacy
    rw [h.legacy]
  have hlast : e'.lastEsc slot now = e.lastEsc slot now := by
    unfold lastEsc
    simp only [hlegacy, h.legacy, h.status, h.fresh]
  unfold ObservationEngine.otherEsc
  rw [h.status, hlast]
  by_cases hnew : ¬ (e.status slot).seen ∧ e'.InfoFresh slot now ∧ e'.Counted slot ∧ ¬ e'.HasLegacy slot
  · obtain ⟨hunseen, hfresh, _, hno⟩ := id hnew
    obtain ⟨heq, hold⟩ := h.infoFresh hfresh
    rw [if_pos hnew, if_pos ⟨hunseen, hold, hi.counted slot hold.1 hold.2.1, mt hlegacy.2 hno⟩, heq]
    exact .refl _
  · rw [if_neg hnew]
    split
    · rename_i hold
      obtain ⟨hunseen, hfresh, _, hno⟩ := hold
      have hempty : e.lastEsc slot now = { index := slot } := by
        unfold lastEsc
        rw [if_neg hno, if_neg hunseen]
      rw [hempty]
      refine EscObservationData.Plain.noFresher (.settle ⟨rfl, rfl, rfl, rfl⟩) hfresh.2.2.1.le
    · exact .refl _

end Withholds

/-- A slot whose metadata are not replaced is not reported fresher. -/
theorem esc_noFresher (h : e.Withholds slot e') (hi : e.Informed) (hs : e.Steady t) (now : Int) :
    (e.esc slot now).NoFresher (e'.esc slot now) := by
  rw [esc_eq, esc_eq, h.connected, h.status]
  by_cases hoff : ¬ e.connected ∨ slot ≥ 64
  · rw [if_pos hoff, if_pos hoff]
    exact .refl _
  · rw [if_neg hoff, if_neg hoff]
    have hlive : (e.status slot).seen ∧ (e.status slot).data.valid ∧ e'.Counted slot ∧
          e'.Fresh (e.status slot).data.stampNs now ↔
        (e.status slot).seen ∧ (e.status slot).data.valid ∧ e.Counted slot ∧
          e.Fresh (e.status slot).data.stampNs now := by
      rw [h.fresh]
      exact ⟨fun ⟨hseen, hvalid, _, hfresh⟩ => ⟨hseen, hvalid, hs.counted slot hseen hvalid, hfresh⟩,
        fun ⟨hseen, hvalid, hcounted, hfresh⟩ => ⟨hseen, hvalid, h.counted hcounted, hfresh⟩⟩
    by_cases hsample : (e.status slot).seen ∧ (e.status slot).data.valid ∧ e.Counted slot ∧
      e.Fresh (e.status slot).data.stampNs now
    · rw [if_pos hsample, if_pos (hlive.2 hsample)]
      exact h.liveEsc hi
    · rw [if_neg hsample, if_neg (mt hlive.1 hsample)]
      exact h.otherEsc hi

/-- A packet that covers the slot and is not later than its entry. -/
theorem inform_withholds (hcovers : packet.Covers slot) (hseen : (a.info slot).seen = true)
    (htime : packet.timeUs ≤ (a.info slot).timeUs) : a.Withholds slot (a.inform packet receipt) := by
  obtain ⟨_, hlt⟩ := hcovers.choose_spec
  obtain ⟨_, hconfig, hconnected, hlegacy⟩ := a.inform_frame packet receipt
  refine ⟨hconfig, hconnected, ?_, hlegacy, ?_, ?_⟩ <;> unfold inform <;> by_cases hregress : a.InfoRegresses packet
  · obtain ⟨_, hframe⟩ := a.restartInfo_frame packet
    rw [if_pos hregress, hframe]
  · obtain ⟨_, hframe⟩ := a.recordInfo_frame packet receipt
    rw [if_neg hregress, hframe]
    exact if_neg fun hout => Nat.not_le.2 hlt hout.1
  · obtain ⟨_, hframe⟩ := a.restartInfo_frame packet
    rw [if_pos hregress, hframe]
    exact id
  · obtain ⟨_, hframe⟩ := a.recordInfo_frame packet receipt
    rw [if_neg hregress, hframe]
    exact fun _ => decide_eq_true hlt
  · rw [if_pos hregress]
    rcases a.restartInfo_slot packet slot with ⟨_, i, hnew⟩ | ⟨hno, _⟩
    · rw [hnew]
      nofun
    · exact absurd hcovers hno
  · rw [if_neg hregress]
    have hsame : packet.timeUs = (a.info slot).timeUs := htime.antisymm (covers_later hregress hcovers hseen)
    rcases a.recordInfo_slot packet receipt slot with ⟨_, hnew, _⟩ | ⟨_, _, _, valid, hvalid, heq⟩ | ⟨hno, _⟩
    · exact absurd ⟨hseen, hsame⟩ hnew
    · rw [heq]
      rintro _ rfl
      rw [← hvalid rfl]
    · exact absurd hcovers hno

theorem commonInfo_withholds (hpast : e.lastReceiptNs ≤ max receipt 0)
    (hstarts : ¬ e.StartsEpoch (.commonInfo packet, receipt)) (hcovers : packet.Covers slot)
    (hseen : (e.info slot).seen = true) (htime : packet.timeUs ≤ (e.info slot).timeUs) :
    e.Withholds slot (e.commonInfo packet receipt) := by
  rcases commonInfo_cases hpast packet with hsame | ⟨a, haccepts⟩
  · exact .of_reports hsame
  · obtain ⟨_, ha⟩ := haccepts.continues hpast hstarts
    have hfound : e.Withholds slot a := by
      refine ⟨congrArg (·.config) ha, congrArg (·.connected) ha, congrFun (congrArg (·.status) ha) slot,
        congrArg (·.legacyEsc) ha, ?_, fun _ _ => congrFun (congrArg (·.info) ha) slot⟩
      unfold Counted
      rw [show a.commonCount = e.commonCount from congrArg (·.commonCount) ha]
      exact id
    have hinfo : a.info slot = e.info slot := congrFun (congrArg (·.info) ha) slot
    exact (hfound.trans (inform_withholds hcovers (hinfo ▸ hseen) (hinfo ▸ htime))).trans
      (.of_reports haccepts.reports)

end ObservationEngine

/-! ### Runs -/

open ObservationEngine

section Runs
variable {config : ValidConfig} {run pre : List (Call × Int)} {slot timeUs : Nat}

theorem reach_informed (h : Clocked run) : (reach config run).Informed :=
  run_induction (P := fun _ e => e.Informed) config ⟨fun _ => ⟨rfl, rfl, rfl, rfl⟩, nofun, nofun⟩
    (fun _ _ hclock _ hinformed => step_informed (reach_last (clocked_snoc.1 hclock).2) hinformed) h

theorem reach_info_stored (h : Clocked run) (hseen : ((reach config run).info slot).seen = true) :
    (reach config run).commonComponent ≠ none := by
  obtain ⟨_, _, _, hcomponent, _⟩ := (owned_reach h).info slot hseen
  rw [hcomponent]
  nofun

/-- The entry of a slot is at least as late as what a packet brought, if no call since forgets it. -/
theorem informed_since {c : Call × Int} {mid : List (Call × Int)} (h : Clocked (pre ++ c :: mid))
    (hcarries : (reach config pre).CarriesInfo slot timeUs c)
    (hkept : machine.Along (fun e c => ¬ e.StartsEpoch c ∧ ¬ e.Forgets slot c) (reach config (pre ++ [c])) mid) :
    ((reach config (pre ++ c :: mid)).info slot).seen = true ∧
      timeUs ≤ ((reach config (pre ++ c :: mid)).info slot).timeUs := by
  have hleaves := hcarries.leaves
  rw [← reach_snoc] at hleaves
  have happend : pre ++ c :: mid = pre ++ [c] ++ mid := by simp
  rw [happend] at h ⊢
  refine later_induction (P := fun e => (e.info slot).seen = true ∧ timeUs ≤ (e.info slot).timeUs) h hkept
    ⟨hleaves.1, hleaves.2.ge⟩ ?_
  rintro run c hclock ⟨hstarts, hforgets⟩ ⟨hseen, htime⟩
  have hrun := (clocked_snoc.1 hclock).1
  obtain ⟨hseen', hlater⟩ := info_later (reach_last (clocked_snoc.1 hclock).2) (reach_info_stored hrun hseen) hstarts
    hforgets hseen
  exact ⟨hseen', htime.trans hlater⟩

end Runs

/-- Within an epoch an INFO packet that is not later than one that the slot has had since its group's clock
last went back does not make the slot's metadata fresher. -/
theorem replayed_info (config : ValidConfig) (pre mid : List (Call × Int)) (c : Call × Int)
    (packet : CommonInfoPacket) (receipt : Int) (slot timeUs : Nat)
    (h : Clocked (pre ++ c :: mid ++ [(.commonInfo packet, receipt)]))
    (hcarries : (reach config pre).CarriesInfo slot timeUs c)
    (hkept : machine.Along (fun e c => ¬ e.StartsEpoch c ∧ ¬ e.Forgets slot c) (reach config (pre ++ [c])) mid)
    (hstarts : ¬ (reach config (pre ++ c :: mid)).StartsEpoch (.commonInfo packet, receipt))
    (hcovers : packet.Covers slot) (htime : packet.timeUs ≤ timeUs) (now : Int) :
    ((reach config (pre ++ c :: mid)).esc slot now).NoFresher
      ((reach config (pre ++ c :: mid ++ [(.commonInfo packet, receipt)])).esc slot now) := by
  obtain ⟨hrun, hpast⟩ := clocked_snoc.1 h
  obtain ⟨hseen, hlater⟩ := informed_since hrun hcarries hkept
  rw [reach_snoc]
  exact esc_noFresher (commonInfo_withholds (reach_last hpast) hstarts hcovers hseen (htime.trans hlater))
    (reach_informed hrun) (reach_steady _ hrun hpast) now

def infoPacket (timeUs count : Nat) (temperature : Int16) : Call :=
  .commonInfo { timeUs := timeUs, count := count, temperature := fun _ => temperature }

/-- INFO of both groups, and a sample. -/
def informedRun : List (Call × Int) :=
  [(.connection true, 0), (infoPacket 2000 8 2500, 2000000), leftSample 3000,
    (.commonInfo { index := 4, count := 8, timeUs := 3000 }, 4000000)]

theorem replayed_info_repeated :
    ((reach splitWheels informedRun).esc 0 5000000).NoFresher
      ((reach splitWheels (informedRun ++ [(infoPacket 2000 4 2600, 5000000)])).esc 0 5000000) :=
  replayed_info splitWheels [(.connection true, 0)] (informedRun.drop 2) (infoPacket 2000 8 2500, 2000000)
    { timeUs := 2000, count := 4, temperature := fun _ => 2600 } 5000000 0 2000
    (by simp [Clocked, informedRun, infoPacket, leftSample])
    ⟨rfl, ⟨0, rfl, by decide⟩, _, by decide +kernel, rfl⟩ (by decide +kernel) (by decide +kernel) ⟨0, rfl, by decide⟩
    le_rfl 5000000

/-- The call turns the temperature of slot 0 valid. -/
def Refreshes (run : List (Call × Int)) (c : Call × Int) : Prop :=
  Clocked (run ++ [c]) ∧ ((reach splitWheels run).esc 0 c.2).temperatureValid = false ∧
    ((reach splitWheels (run ++ [c])).esc 0 c.2).temperatureValid = true

/-- The clock of INFO has gone back to 100 us when a packet comes that is later, but not later than the
first one; the first packet comes again after the count was 0, or after the clock of STATUS has gone back. -/
theorem earlier_info_refreshes :
    Refreshes [(.connection true, 0), (infoPacket 2000000 4 2500, 1), (infoPacket 100 4 2500, 2)]
        (infoPacket 1000100 4 2500, 3) ∧
      Refreshes [(.connection true, 0), (infoPacket 2000000 4 2500, 1), (infoPacket 2000001 0 2500, 2)]
        (infoPacket 2000000 4 2500, 3) ∧
      Refreshes [(.connection true, 0), (infoPacket 2000000 4 2500, 1), leftSample 2000,
          ((leftSample 1000).1, 2000001)]
        (infoPacket 2000000 4 2500, 2000002) := by
  refine ⟨⟨by simp [Clocked, infoPacket], ?_⟩, ⟨by simp [Clocked, infoPacket], ?_⟩,
    by simp [Clocked, infoPacket, leftSample], ?_⟩
  all_goals decide +kernel

end Odometry
end MowgliMavros
