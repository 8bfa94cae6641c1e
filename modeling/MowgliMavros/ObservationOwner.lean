import MowgliMavros.ObservationSpec

/-!
# The owner of the COMMON data

One component owns the ESC_STATUS and ESC_INFO entries. What a call does to them is said once
(`step_common`): it keeps them, drops them, or records a packet of the component that it then stores.
-/

namespace MowgliMavros
namespace Odometry

/-- The lane of the packet that the entry repeats, up to a contradiction since. -/
def Status.CarriedBy (s : Status) (slot : Nat) (packet : CommonStatusPacket) (receipt : Int) : Prop :=
  ∃ (i : Fin 4) (d : EscObservationData) (valid : Bool), slot = packet.index + i ∧ s.timeUs = packet.timeUs ∧
    s.data = { packet.data i receipt d with valid := valid }

/-- `stampNs` is zero after a regress of the INFO clock. -/
def Info.CarriedBy (s : Info) (slot : Nat) (packet : CommonInfoPacket) (receipt : Int) : Prop :=
  ∃ (i : Fin 4), slot = packet.index + i ∧ slot < packet.count ∧ s.timeUs = packet.timeUs ∧
    (s.stampNs = receipt ∨ s.stampNs = 0) ∧ s.temperature = packet.temperature i ∧
    s.failureFlags = packet.failureFlags i ∧ s.errorCount = packet.errorCount i

/-- The same sample, perhaps of another validity. -/
def Status.Revalues (s s' : Status) : Prop := ∃ valid, s' = { s with data := { s.data with valid := valid } }

/-- The same sample, seen before, perhaps of another validity. -/
def Info.Revalues (s s' : Info) : Prop := s.seen = true ∧ ∃ valid, s' = { s with valid := valid }

section Entries
variable {slot : Nat} {receipt : Int}

theorem Status.Revalues.refl (s : Status) : s.Revalues s := ⟨s.data.valid, rfl⟩

theorem Status.Revalues.seen {s s' : Status} (h : s.Revalues s') : s'.seen = s.seen := by
  obtain ⟨_, rfl⟩ := h
  rfl

theorem Status.Revalues.carriedBy {s s' : Status} {packet : CommonStatusPacket} (h : s.Revalues s')
    (hs : s.CarriedBy slot packet receipt) : s'.CarriedBy slot packet receipt := by
  obtain ⟨valid, rfl⟩ := h
  obtain ⟨i, d, _, hslot, htime, hdata⟩ := hs
  exact ⟨i, d, valid, hslot, htime, by rw [hdata]⟩

theorem Info.Revalues.refl {s : Info} (h : s.seen = true) : s.Revalues s := ⟨h, s.valid, rfl⟩

theorem Info.Revalues.carriedBy {s s' : Info} {packet : CommonInfoPacket} (h : s.Revalues s')
    (hs : s.CarriedBy slot packet receipt) : s'.CarriedBy slot packet receipt := by
  obtain ⟨_, valid, rfl⟩ := h
  exact hs

end Entries

namespace ObservationEngine
variable {e a e' : ObservationEngine} {slot : Nat} {receipt : Int} {component : UInt8}

/-! ### What a packet records -/

section Records
variable {packet : CommonStatusPacket}

theorem recorded_from (i : Fin 4) : (e.recorded packet receipt i).CarriedBy (packet.index + i) packet receipt ∨
    (e.status (packet.index + i)).Revalues (e.recorded packet receipt i) := by
  unfold recorded
  dsimp only
  split
  · exact .inl ⟨i, _, true, rfl, rfl, rfl⟩
  · split
    · exact .inr ⟨false, rfl⟩
    · exact .inr (.refl _)

theorem recordStatus_from (e : ObservationEngine) (packet : CommonStatusPacket) (receipt : Int) (slot : Nat) :
    ((e.recordStatus packet receipt).status slot).CarriedBy slot packet receipt ∨
      (e.status slot).Revalues ((e.recordStatus packet receipt).status slot) := by
  by_cases hlane : ∃ i : Fin 4, slot = packet.index + i
  · obtain ⟨i, rfl⟩ := hlane
    rw [recordStatus_lane]
    exact recorded_from i
  · rw [recordStatus_other fun i hi => hlane ⟨i, hi⟩]
    exact .inr (.refl _)

end Records

section Informs
variable {packet : CommonInfoPacket}

/-- The seen INFO entries are the packet's or those of before. -/
def InfoFrom (e : ObservationEngine) (packet : CommonInfoPacket) (receipt : Int) (e' : ObservationEngine) : Prop :=
  ∀ slot, (e'.info slot).seen = true →
    (e'.info slot).CarriedBy slot packet receipt ∨ (e.info slot).Revalues (e'.info slot)

theorem InfoFrom.refl (e : ObservationEngine) : e.InfoFrom packet receipt e := fun _ h => .inr (.refl h)

theorem InfoFrom.trans {e'' : ObservationEngine} (h : e.InfoFrom packet receipt e')
    (h' : e'.InfoFrom packet receipt e'') : e.InfoFrom packet receipt e'' := by
  intro slot hseen
  rcases h' slot hseen with hs | hs
  · exact .inl hs
  · rcases h slot hs.1 with hold | ⟨hold, valid, heq⟩
    · exact .inl (hs.carriedBy hold)
    · obtain ⟨_, valid', heq'⟩ := hs
      exact .inr ⟨hold, valid', by rw [heq', heq]⟩

theorem setInfo_from {stampNs : Int} {valid : Bool} {i : Fin 4} (hi : packet.index + i < packet.count)
    (hstamp : stampNs = receipt ∨ stampNs = 0) : e.InfoFrom packet receipt (e.setInfo packet stampNs valid i) := by
  intro slot hseen
  by_cases hslot : slot = packet.index + i
  · subst hslot
    refine .inl ?_
    simp only [setInfo, Function.update_self]
    exact ⟨i, rfl, hi, rfl, hstamp, rfl, rfl, rfl⟩
  · have hsame : (e.setInfo packet stampNs valid i).info slot = e.info slot := Function.update_of_ne hslot _ _
    rw [hsame] at hseen ⊢
    exact .inr (.refl hseen)

theorem recordInfoSlot_from (i : Fin 4) : e.InfoFrom packet receipt (e.recordInfoSlot packet receipt i) := by
  unfold recordInfoSlot
  dsimp only
  split
  · exact .refl e
  · rename_i hi
    split
    · rename_i hold
      split
      · intro slot hseen
        by_cases hslot : slot = packet.index + i
        · subst hslot
          dsimp only at hseen ⊢
          rw [Function.update_self] at hseen ⊢
          exact .inr ⟨hseen, false, rfl⟩
        · dsimp only at hseen ⊢
          rw [Function.update_of_ne hslot] at hseen ⊢
          exact .inr (.refl hseen)
      · exact .refl e
    · exact setInfo_from (by omega) (.inl rfl)

theorem trimCount_from (count : Nat) : e.InfoFrom packet receipt (e.trimCount count) := by
  intro slot hseen
  dsimp only [trimCount] at hseen ⊢
  split
  · rename_i h
    rw [if_pos h] at hseen
    cases hseen
  · rename_i h
    rw [if_neg h] at hseen
    exact .inr (.refl hseen)

theorem restartInfo_from : e.InfoFrom packet receipt (e.restartInfo packet) := by
  refine List.foldlRecOn _ _ (motive := e.InfoFrom packet receipt) (.refl e) ?_
  intro e' h i _
  split
  · rename_i hi
    exact h.trans (setInfo_from hi (.inr rfl))
  · exact h

theorem recordInfo_from : e.InfoFrom packet receipt (e.recordInfo packet receipt) :=
  List.foldlRecOn _ _ (motive := e.InfoFrom packet receipt) (trimCount_from packet.count)
    fun _ h i _ => h.trans (recordInfoSlot_from i)

theorem trimCount_status (count : Nat) (slot : Nat) : (e.status slot).Revalues ((e.trimCount count).status slot) := by
  dsimp only [trimCount]
  split
  · exact ⟨false, rfl⟩
  · exact .refl _

end Informs

/-! ### What a call does to the COMMON data -/

/-- The two engines agree in the COMMON data. -/
structure SameCommon (e e' : ObservationEngine) : Prop where
  status : e'.status = e.status
  info : e'.info = e.info
  component : e'.commonComponent = e.commonComponent
  owner : e'.commonStatusOwner = e.commonStatusOwner
  stamp : e'.commonOwnerStampNs = e.commonOwnerStampNs

/-- No entry and no owner. -/
structure NoCommon (e : ObservationEngine) : Prop where
  status : e.status = fun _ => {}
  info : e.info = fun _ => {}
  component : e.commonComponent = none
  owner : e.commonStatusOwner = false
  stamp : e.commonOwnerStampNs = 0

theorem SameCommon.of_reports (h : e'.reports = e.reports) : e.SameCommon e' where
  status := congrArg (·.status) h
  info := congrArg (·.info) h
  component := congrArg (·.commonComponent) h
  owner := congrArg (·.commonStatusOwner) h
  stamp := congrArg (·.commonOwnerStampNs) h

/-- `a` is `e` after a packet of the component was accepted: it goes on with the entries of `e`, which
are no other component's, or starts without any. -/
structure Takes (e a : ObservationEngine) (component : UInt8) : Prop where
  stored : a.commonComponent = some component
  entries : (a.status = e.status ∧ a.info = e.info ∧ a.commonOwnerStampNs = e.commonOwnerStampNs ∧
      ¬ e.Foreign component) ∨
    a.status = (fun _ => {}) ∧ a.info = (fun _ => {}) ∧ a.commonOwnerStampNs = 0

theorem acceptCommonStatus_takes (h : e.acceptCommonStatus component receipt = some a) :
    e.Takes a component ∧ a.commonStatusOwner = true := by
  obtain ⟨hforeign, rfl⟩ | rfl := acceptCommonStatus_cases h
  · exact ⟨⟨rfl, .inl ⟨rfl, rfl, rfl, hforeign⟩⟩, rfl⟩
  · exact ⟨⟨rfl, .inr ⟨rfl, rfl, rfl⟩⟩, rfl⟩

theorem acceptCommonInfo_takes (h : e.acceptCommonInfo component = some a) :
    e.Takes a component ∧ a.commonStatusOwner = e.commonStatusOwner := by
  obtain ⟨hforeign, rfl⟩ | ⟨howner, rfl⟩ := acceptCommonInfo_cases h
  · exact ⟨⟨rfl, .inl ⟨rfl, rfl, rfl, hforeign⟩⟩, rfl⟩
  · exact ⟨⟨rfl, .inr ⟨rfl, rfl, rfl⟩⟩, howner.symm⟩

/-- A regress of the measurement clock drops the entries and keeps the component. -/
theorem restartCommon_takes {packet : CommonStatusPacket} (h : e.Takes a packet.componentId) :
    e.Takes (a.restartCommon packet) packet.componentId := by
  unfold restartCommon
  split
  · exact ⟨rfl, .inr ⟨rfl, rfl, rfl⟩⟩
  · exact h

/-- ESC_INFO leaves the ownership and the STATUS samples. -/
structure Informs (a : ObservationEngine) (packet : CommonInfoPacket) (receipt : Int) (b : ObservationEngine) :
    Prop where
  component : b.commonComponent = a.commonComponent
  owner : b.commonStatusOwner = a.commonStatusOwner
  stamp : b.commonOwnerStampNs = a.commonOwnerStampNs
  status : ∀ slot, (a.status slot).Revalues (b.status slot)
  info : a.InfoFrom packet receipt b

theorem restartInfo_informs (a : ObservationEngine) (packet : CommonInfoPacket) (receipt : Int) :
    a.Informs packet receipt (a.restartInfo packet) := by
  have hfrom : a.InfoFrom packet receipt (a.restartInfo packet) := restartInfo_from
  obtain ⟨info, h⟩ := a.restartInfo_frame packet
  rw [h] at hfrom ⊢
  exact ⟨rfl, rfl, rfl, fun _ => .refl _, hfrom⟩

theorem recordInfo_informs (a : ObservationEngine) (packet : CommonInfoPacket) (receipt : Int) :
    a.Informs packet receipt (a.recordInfo packet receipt) := by
  have hfrom : a.InfoFrom packet receipt (a.recordInfo packet receipt) := recordInfo_from
  obtain ⟨info, h⟩ := a.recordInfo_frame packet receipt
  rw [h] at hfrom ⊢
  exact ⟨rfl, rfl, rfl, trimCount_status packet.count, hfrom⟩

/-- The packet is accepted and brings a new measurement time to a slot that is recorded. -/
def Renewing (e : ObservationEngine) (packet : CommonStatusPacket) (receipt : Int) : Prop :=
  ¬ e.RefusesStatus packet receipt ∧
    ∃ a, (e.receiveClock receipt).acceptCommonStatus packet.componentId receipt = some a ∧
    ∃ i, (a.restartCommon packet).Renews packet i

/-- The call renews the owner's lease. -/
def Renewal (e : ObservationEngine) : Call × Int → Prop
  | (.commonStatus packet, receipt) => e.Renewing packet receipt
  | _ => False

/-- A call keeps the COMMON data, drops them, or lets the component of an accepted packet record. -/
inductive CommonStep (e : ObservationEngine) (e' : ObservationEngine) : Call × Int → Prop
  | keep {c} (same : e.SameCommon e') (renews : ¬ e.Renewal c) : CommonStep e e' c
  | drop {c} (none : e'.NoCommon) : CommonStep e e' c
  | status {packet receipt} (a) (takes : e.Takes a packet.componentId) (owner : a.commonStatusOwner = true)
      (same : (a.recordStatus packet receipt).SameCommon e')
      (renews : e.Renewing packet receipt ↔ ∃ i, a.Renews packet i) :
      CommonStep e e' (.commonStatus packet, receipt)
  | info {packet receipt} (a b) (takes : e.Takes a packet.componentId)
      (owner : a.commonStatusOwner = e.commonStatusOwner) (informs : a.Informs packet receipt b)
      (same : b.SameCommon e') : CommonStep e e' (.commonInfo packet, receipt)

theorem commonStatus_step (packet : CommonStatusPacket) (h : e.lastReceiptNs ≤ max receipt 0) :
    CommonStep e (e.commonStatus packet receipt).1 (.commonStatus packet, receipt) := by
  unfold commonStatus
  split
  · rename_i hrefuse
    exact .keep ⟨rfl, rfl, rfl, rfl, rfl⟩ fun hrenew => hrenew.1 hrefuse
  · rename_i hok
    have hclock : e.lastReceiptNs ≤ receipt :=
      clock_of_receipt h fun hreceipt => hok (.inr (.inl hreceipt))
    rw [receiveClock_eq hclock]
    dsimp only
    split
    · rename_i hnone
      refine .keep ⟨rfl, rfl, rfl, rfl, rfl⟩ ?_
      rintro ⟨_, a, ha, _⟩
      rw [receiveClock_eq hclock, hnone] at ha
      cases ha
    · rename_i a ha
      obtain ⟨htakes, howner⟩ := acceptCommonStatus_takes ha
      refine .status (a.restartCommon packet) (restartCommon_takes ⟨htakes.stored, htakes.entries⟩) ?_
        (.of_reports (by simp)) ?_
      · unfold restartCommon
        split
        · rfl
        · exact howner
      · unfold Renewing
        rw [receiveClock_eq hclock]
        simp only [hok, ha, not_false_eq_true, true_and, Option.some.injEq, exists_eq_left']

theorem commonInfo_step (packet : CommonInfoPacket) (h : e.lastReceiptNs ≤ max receipt 0) :
    CommonStep e (e.commonInfo packet receipt) (.commonInfo packet, receipt) := by
  obtain heq | heq | ⟨a, b, ha, hb, heq⟩ := commonInfo_eq h packet
  · rw [heq]
    exact .keep ⟨rfl, rfl, rfl, rfl, rfl⟩ id
  · rw [heq]
    exact .keep ⟨rfl, rfl, rfl, rfl, rfl⟩ id
  · obtain ⟨htakes, howner⟩ := acceptCommonInfo_takes ha
    have hinforms : a.Informs packet receipt b := by
      rcases hb with rfl | rfl
      · exact restartInfo_informs a packet receipt
      · exact recordInfo_informs a packet receipt
    rw [heq]
    exact .info a b ⟨htakes.stored, htakes.entries⟩ howner hinforms (.of_reports (by simp))

theorem NoCommon.of_reports (h : e'.reports = e.reports) (hnone : e.NoCommon) : e'.NoCommon where
  status := (congrArg (·.status) h).trans hnone.status
  info := (congrArg (·.info) h).trans hnone.info
  component := (congrArg (·.commonComponent) h).trans hnone.component
  owner := (congrArg (·.commonStatusOwner) h).trans hnone.owner
  stamp := (congrArg (·.commonOwnerStampNs) h).trans hnone.stamp

theorem poll_step (now : Int) : CommonStep e (e.poll now) (.poll, now) := by
  unfold poll receiveClock
  split
  · refine .drop (.of_reports (e := { e.reset with lastReceiptNs := now }) (by simp) ⟨rfl, rfl, rfl, rfl, rfl⟩)
  · exact .keep (.of_reports (by simp; rfl)) id

theorem replace_step (config : ValidConfig) (configurationNs : Int) (retainLegacyTicks : Bool) :
    CommonStep e (e.replace config configurationNs retainLegacyTicks)
    (.replace config retainLegacyTicks, configurationNs) := by
  unfold replace retainEscObservations
  dsimp only
  by_cases hkeeps : (ofConfig config).config.1.escComponentId < 0 ∨ e.commonComponent.any fun component =>
      (component.toNat : Int) = (ofConfig config).config.1.escComponentId
  · simp only [if_pos hkeeps]
    exact .keep ⟨rfl, rfl, rfl, rfl, rfl⟩ id
  · simp only [if_neg hkeeps]
    exact .drop ⟨rfl, rfl, rfl, rfl, rfl⟩

theorem step_common (c : Call × Int) (h : e.lastReceiptNs ≤ max c.2 0) : CommonStep e (e.step c).1 c := by
  obtain ⟨call, t⟩ := c
  cases call with
  | commonStatus packet => exact commonStatus_step packet h
  | commonInfo packet => exact commonInfo_step packet h
  | legacyEsc packet =>
    obtain ⟨_, _, he⟩ := legacyEscTelemetry_reports e packet h
    exact .keep ⟨congrArg (·.status) he, congrArg (·.info) he, congrArg (·.commonComponent) he,
      congrArg (·.commonStatusOwner) he, congrArg (·.commonOwnerStampNs) he⟩ id
  | legacyRpm left right =>
    obtain ⟨_, _, he⟩ := legacyRpm_reports e left right h
    exact .keep ⟨congrArg (·.status) he, congrArg (·.info) he, congrArg (·.commonComponent) he,
      congrArg (·.commonStatusOwner) he, congrArg (·.commonOwnerStampNs) he⟩ id
  | wheelDistance packet => exact .keep (.of_reports (wheelDistance_reports e packet h)) id
  | poll => exact poll_step t
  | connection connected => exact .drop ⟨rfl, rfl, rfl, rfl, rfl⟩
  | replace config retainLegacyTicks => exact replace_step config t retainLegacyTicks

end ObservationEngine

/-! ### Ownership along a run -/

open ObservationEngine

/-- The lease stamp is the receipt of the last renewal, which was a packet of the owner; without a
STATUS entry it is zero. -/
def Leased (config : ValidConfig) (run : List (Call × Int)) (e : ObservationEngine) : Prop :=
  (e.commonOwnerStampNs = 0 ∧ ∀ slot, (e.status slot).seen = false) ∨
    ∃ pre packet receipt post, run = pre ++ (.commonStatus packet, receipt) :: post ∧
      (reach config pre).Renewing packet receipt ∧
      machine.Along (fun e c => ¬ e.Renewal c) (reach config (pre ++ [(.commonStatus packet, receipt)])) post ∧
      e.commonComponent = some packet.componentId ∧ e.commonStatusOwner = true ∧ e.commonOwnerStampNs = receipt

structure Owned (config : ValidConfig) (run : List (Call × Int)) (e : ObservationEngine) : Prop where
  status : ∀ slot, (e.status slot).seen = true → ∃ packet receipt, (.commonStatus packet, receipt) ∈ run ∧
    e.commonComponent = some packet.componentId ∧ (e.status slot).CarriedBy slot packet receipt
  info : ∀ slot, (e.info slot).seen = true → ∃ packet receipt, (.commonInfo packet, receipt) ∈ run ∧
    e.commonComponent = some packet.componentId ∧ (e.info slot).CarriedBy slot packet receipt
  lease : Leased config run e

section Owned
variable {config : ValidConfig} {run : List (Call × Int)} {c : Call × Int} {e e' a : ObservationEngine}

theorem Owned.of_none (h : e.NoCommon) : Owned config run e where
  status slot hseen := by
    rw [h.status] at hseen
    cases hseen
  info slot hseen := by
    rw [h.info] at hseen
    cases hseen
  lease := .inl ⟨h.stamp, fun slot => by rw [h.status]⟩

theorem Owned.same (h : Owned config run e) (hsame : e.SameCommon e') : Owned config run e' where
  status := by
    rw [hsame.status, hsame.component]
    exact h.status
  info := by
    rw [hsame.info, hsame.component]
    exact h.info
  lease := by
    unfold Leased
    rw [hsame.status, hsame.component, hsame.owner, hsame.stamp]
    exact h.lease

/-- A call that does not renew leaves what the run says of the entries. -/
theorem Owned.extend (h : Owned config run (reach config run)) (hrenews : ¬ (reach config run).Renewal c) :
    Owned config (run ++ [c]) (reach config run) where
  status slot hseen := by
    obtain ⟨packet, receipt, hmem, hrest⟩ := h.status slot hseen
    exact ⟨packet, receipt, List.mem_append_left _ hmem, hrest⟩
  info slot hseen := by
    obtain ⟨packet, receipt, hmem, hrest⟩ := h.info slot hseen
    exact ⟨packet, receipt, List.mem_append_left _ hmem, hrest⟩
  lease := by
    rcases h.lease with hnone | ⟨pre, packet, receipt, post, hrun, hrenew, halong, hrest⟩
    · exact .inl hnone
    · refine .inr ⟨pre, packet, receipt, post ++ [c], by rw [hrun]; simp, hrenew, ?_, hrest⟩
      refine (Machine.along_append post [c]).2 ⟨halong, ?_, trivial⟩
      rw [hrun] at hrenews
      rwa [reach, ← Machine.final_append, List.append_assoc]

theorem eq_of_not_foreign {component component' : UInt8} (h : e.commonComponent = some component')
    (hforeign : ¬ e.Foreign component) : component' = component := by
  unfold Foreign at hforeign
  simpa [h] using hforeign

/-- The STATUS entries that an accepted packet finds are its component's. -/
theorem Owned.takes_status {component : UInt8} (h : Owned config run e) (ht : e.Takes a component) {slot : Nat}
    (hseen : (a.status slot).seen = true) : ∃ packet receipt, (.commonStatus packet, receipt) ∈ run ∧
      packet.componentId = component ∧ (a.status slot).CarriedBy slot packet receipt := by
  rcases ht.entries with ⟨hstatus, _, _, hforeign⟩ | ⟨hstatus, _, _⟩
  · rw [hstatus] at hseen ⊢
    obtain ⟨packet, receipt, hmem, hcomponent, hcarried⟩ := h.status slot hseen
    exact ⟨packet, receipt, hmem, eq_of_not_foreign hcomponent hforeign, hcarried⟩
  · rw [hstatus] at hseen
    cases hseen

theorem Owned.takes_info {component : UInt8} (h : Owned config run e) (ht : e.Takes a component) {slot : Nat}
    (hseen : (a.info slot).seen = true) : ∃ packet receipt, (.commonInfo packet, receipt) ∈ run ∧
      packet.componentId = component ∧ (a.info slot).CarriedBy slot packet receipt := by
  rcases ht.entries with ⟨_, hinfo, _, hforeign⟩ | ⟨_, hinfo, _⟩
  · rw [hinfo] at hseen ⊢
    obtain ⟨packet, receipt, hmem, hcomponent, hcarried⟩ := h.info slot hseen
    exact ⟨packet, receipt, hmem, eq_of_not_foreign hcomponent hforeign, hcarried⟩
  · rw [hinfo] at hseen
    cases hseen

/-- The lease that an accepted packet finds is its component's. -/
theorem Owned.takes_lease {component : UInt8} (h : Owned config run e) (ht : e.Takes a component)
    (howner : e.commonStatusOwner = true → a.commonStatusOwner = true) : Leased config run a := by
  rcases ht.entries with ⟨hstatus, _, hstamp, hforeign⟩ | ⟨hstatus, _, hstamp⟩
  · unfold Leased
    rw [hstatus, hstamp]
    rcases h.lease with hnone | ⟨pre, packet, receipt, post, hrun, hrenew, halong, hcomponent, ho, hreceipt⟩
    · exact .inl hnone
    · refine .inr ⟨pre, packet, receipt, post, hrun, hrenew, halong, ?_, howner ho, hreceipt⟩
      rw [ht.stored, eq_of_not_foreign hcomponent hforeign]
  · exact .inl ⟨hstamp, fun slot => by rw [hstatus]⟩

theorem recordStatus_revalues {packet : CommonStatusPacket} {receipt : Int} (h : ¬ ∃ i, a.Renews packet i)
    (slot : Nat) :
    (a.status slot).Revalues ((a.recordStatus packet receipt).status slot) := by
  by_cases hlane : ∃ i : Fin 4, slot = packet.index + i
  · obtain ⟨i, rfl⟩ := hlane
    rw [recordStatus_lane]
    unfold recorded
    dsimp only
    rw [if_neg fun hi => h ⟨i, hi⟩]
    split
    · exact ⟨false, rfl⟩
    · exact .refl _
  · rw [recordStatus_other fun i hi => hlane ⟨i, hi⟩]
    exact .refl _

theorem Leased.revalues (h : Leased config run e) (hstatus : ∀ slot, (e.status slot).Revalues (e'.status slot))
    (hcomponent : e'.commonComponent = e.commonComponent) (howner : e'.commonStatusOwner = e.commonStatusOwner)
    (hstamp : e'.commonOwnerStampNs = e.commonOwnerStampNs) : Leased config run e' := by
  unfold Leased
  rw [hcomponent, howner, hstamp]
  rcases h with ⟨hzero, hnone⟩ | hlease
  · exact .inl ⟨hzero, fun slot => (hstatus slot).seen.trans (hnone slot)⟩
  · exact .inr hlease

/-- Every entry that a packet of the owner leaves is its own or one of those that it found. -/
theorem Owned.record {packet : CommonStatusPacket} {receipt : Int} (h : Owned config run (reach config run))
    (ht : (reach config run).Takes a packet.componentId) (howner : a.commonStatusOwner = true)
    (hrenew : (reach config run).Renewing packet receipt ↔ ∃ i, a.Renews packet i) :
    Owned config (run ++ [(.commonStatus packet, receipt)]) (a.recordStatus packet receipt) := by
  obtain ⟨status, ticks, hframe⟩ := a.recordStatus_frame packet receipt
  have hcomponent : (a.recordStatus packet receipt).commonComponent = some packet.componentId := by
    rw [hframe]
    exact ht.stored
  refine ⟨fun slot hseen => ?_, fun slot hseen => ?_, ?_⟩
  · rcases a.recordStatus_from packet receipt slot with hown | hold
    · exact ⟨packet, receipt, by simp, hcomponent, hown⟩
    · obtain ⟨packet', receipt', hmem, hsame, hcarried⟩ := h.takes_status ht (hold.seen ▸ hseen)
      exact ⟨packet', receipt', List.mem_append_left _ hmem, by rw [hcomponent, hsame], hold.carriedBy hcarried⟩
  · have hinfo : (a.recordStatus packet receipt).info = a.info := by rw [hframe]
    rw [hinfo] at hseen ⊢
    obtain ⟨packet', receipt', hmem, hsame, hcarried⟩ := h.takes_info ht hseen
    exact ⟨packet', receipt', List.mem_append_left _ hmem, by rw [hcomponent, hsame], hcarried⟩
  · by_cases hrenews : ∃ i, a.Renews packet i
    · refine .inr ⟨run, packet, receipt, [], rfl, hrenew.2 hrenews, trivial, hcomponent, ?_, ?_⟩
      · rw [hframe]
        exact howner
      · rw [hframe]
        exact if_pos hrenews
    · have hext := h.extend (c := (.commonStatus packet, receipt)) fun hr => hrenews (hrenew.1 hr)
      refine (hext.takes_lease ht fun _ => howner).revalues (recordStatus_revalues hrenews) ?_ ?_ ?_
      · rw [hframe]
      · rw [hframe]
      · rw [hframe]
        exact if_neg hrenews

theorem Owned.inform {packet : CommonInfoPacket} {receipt : Int} {b : ObservationEngine}
    (h : Owned config run (reach config run)) (ht : (reach config run).Takes a packet.componentId)
    (howner : a.commonStatusOwner = (reach config run).commonStatusOwner) (hb : a.Informs packet receipt b) :
    Owned config (run ++ [(.commonInfo packet, receipt)]) b := by
  have hcomponent : b.commonComponent = some packet.componentId := hb.component.trans ht.stored
  refine ⟨fun slot hseen => ?_, fun slot hseen => ?_, ?_⟩
  · obtain ⟨packet', receipt', hmem, hsame, hcarried⟩ := h.takes_status ht ((hb.status slot).seen ▸ hseen)
    exact ⟨packet', receipt', List.mem_append_left _ hmem, by rw [hcomponent, hsame],
      (hb.status slot).carriedBy hcarried⟩
  · rcases hb.info slot hseen with hown | hold
    · exact ⟨packet, receipt, by simp, hcomponent, hown⟩
    · obtain ⟨packet', receipt', hmem, hsame, hcarried⟩ := h.takes_info ht hold.1
      exact ⟨packet', receipt', List.mem_append_left _ hmem, by rw [hcomponent, hsame], hold.carriedBy hcarried⟩
  · have hext := h.extend (c := (.commonInfo packet, receipt)) id
    exact (hext.takes_lease ht fun ho => howner.trans ho).revalues hb.status hb.component hb.owner hb.stamp

theorem owned_reach (h : Clocked run) : Owned config run (reach config run) := by
  refine run_induction config (.of_none ⟨rfl, rfl, rfl, rfl, rfl⟩) ?_ h
  intro run c _ hlast hrun
  cases step_common c hlast with
  | keep hsame hrenews => exact (hrun.extend hrenews).same hsame
  | drop hnone => exact .of_none hnone
  | status a ht howner hsame hrenew => exact (hrun.record ht howner hrenew).same hsame
  | info a b ht howner hb hsame => exact (hrun.inform ht howner hb).same hsame

end Owned

/-! ### Other components -/

namespace ObservationEngine
variable {e e' : ObservationEngine} {c : Call × Int}

/-- A packet of another component that the owner's lease keeps out. -/
def Outside (e : ObservationEngine) : Call × Int → Prop
  | (.commonInfo packet, _) => e.Foreign packet.componentId
  | (.commonStatus packet, receipt) => e.Foreign packet.componentId ∧ e.Fresh e.commonOwnerStampNs receipt
  | _ => False

instance (e : ObservationEngine) (c : Call × Int) : Decidable (e.Outside c) := by
  obtain ⟨call, receipt⟩ := c
  cases call <;> (unfold Outside; infer_instance)

theorem Foreign.refused {component : UInt8} (h : e.Foreign component) (howner : e.commonStatusOwner = true) :
    e.acceptCommonInfo component = none := by
  unfold acceptCommonInfo
  split
  · rfl
  · exact if_pos ⟨h, howner⟩

theorem Foreign.fenced {component : UInt8} {receipt : Int} (h : e.Foreign component)
    (howner : e.commonStatusOwner = true) (hfresh : e.Fresh e.commonOwnerStampNs receipt) :
    e.acceptCommonStatus component receipt = none := by
  unfold acceptCommonStatus
  split
  · rfl
  · exact if_pos ⟨h, howner, hfresh⟩

theorem step_outside (howner : e.commonStatusOwner = true) (hout : e.Outside c) (h : e.lastReceiptNs ≤ max c.2 0) :
    e.step c = (e, none) ∨ 0 < c.2 ∧ e.step c = (e.received c.2, none) := by
  obtain ⟨call, receipt⟩ := c
  cases call with
  | commonStatus packet =>
    dsimp only [step, commonStatus]
    split
    · exact .inl rfl
    · rename_i hok
      have hreceipt : ¬ receipt ≤ 0 := fun hr => hok (.inr (.inl hr))
      have hclock : e.receiveClock receipt = e.received receipt := receiveClock_eq (clock_of_receipt h hreceipt)
      refine .inr ⟨Int.not_le.1 hreceipt, ?_⟩
      rw [hclock, Foreign.fenced (e := e.received receipt) hout.1 howner hout.2]
  | commonInfo packet =>
    dsimp only [step, commonInfo]
    split
    · exact .inl rfl
    · rename_i hok
      have hreceipt : ¬ receipt ≤ 0 := fun hr => hok (.inr (.inl hr))
      have hclock : e.receiveClock receipt = e.received receipt := receiveClock_eq (clock_of_receipt h hreceipt)
      refine .inr ⟨Int.not_le.1 hreceipt, ?_⟩
      rw [hclock, Foreign.refused (e := e.received receipt) hout howner]
  | legacyEsc packet => exact hout.elim
  | legacyRpm left right => exact hout.elim
  | wheelDistance packet => exact hout.elim
  | poll => exact hout.elim
  | connection connected => exact hout.elim
  | replace config retainLegacyTicks => exact hout.elim

/-- The engines differ in nothing but a last receipt that is past. -/
def Alike (t : Int) (e e' : ObservationEngine) : Prop :=
  0 < t ∧ e.lastReceiptNs ≤ t ∧ ∃ last ≤ t, e' = e.received last

theorem Alike.step {t : Int} (ht : t ≤ c.2) (h : e.Alike t e') :
    (e'.step c).2 = (e.step c).2 ∧ (e.step c).1.Alike c.2 (e'.step c).1 := by
  obtain ⟨hpos, he, last, hlast, rfl⟩ := h
  obtain ⟨hout, hstep⟩ := step_received (hlast.trans ht) (he.trans ht)
  have hbound : (e.step c).1.lastReceiptNs ≤ c.2 := by
    rcases step_last e c with h | h | h <;> omega
  refine ⟨hout, by omega, hbound, ?_⟩
  rcases hstep with hstep | hstep
  · exact ⟨_, hbound, hstep⟩
  · exact ⟨last, hlast.trans ht, hstep⟩

theorem Alike.sameQueries {t : Int} (h : e.Alike t e') : e.SameQueries e' ∧ e'.active = e.active := by
  obtain ⟨_, _, last, _, rfl⟩ := h
  exact ⟨.of_reports rfl, rfl⟩

end ObservationEngine

/-- Deleting a packet that the owner keeps out from a run changes nothing that comes later. -/
theorem outside_run {config : ValidConfig} {run later : List (Call × Int)} {c : Call × Int}
    (h : Clocked (run ++ c :: later)) (howner : (reach config run).commonStatusOwner = true)
    (hout : (reach config run).Outside c) :
    trace config (run ++ c :: later) = trace config run ++ (c, none) :: machine.log (reach config run) later ∧
      (reach config (run ++ later)).SameQueries (reach config (run ++ c :: later)) ∧
      (reach config (run ++ c :: later)).active = (reach config (run ++ later)).active := by
  obtain ⟨_, hlater, hcross⟩ := List.pairwise_append.1 h
  have hlast : (reach config run).lastReceiptNs ≤ max c.2 0 := reach_last fun a ha => hcross a ha c (by simp)
  have hfinal (as : List (Call × Int)) : reach config (run ++ as) = machine.final (reach config run) as :=
    Machine.final_append run as
  have htrace : trace config (run ++ c :: later) =
      trace config run ++ (c, ((reach config run).step c).2) :: machine.log ((reach config run).step c).1 later :=
    Machine.log_append run (c :: later)
  rw [htrace, hfinal, hfinal, Machine.final_cons]
  change _ ∧ (machine.final (reach config run) later).SameQueries
    (machine.final ((reach config run).step c).1 later) ∧
      (machine.final ((reach config run).step c).1 later).active = _
  rcases step_outside howner hout hlast with hstep | ⟨hpos, hstep⟩
  · rw [hstep]
    exact ⟨rfl, .of_reports rfl, rfl⟩
  · rw [hstep]
    have halike : (reach config run).Alike c.2 ((reach config run).received c.2) := ⟨hpos, by omega, c.2, le_rfl, rfl⟩
    obtain ⟨hfirst, hsorted⟩ := List.pairwise_cons.1 hlater
    obtain ⟨hlog, _, hend⟩ := machine.sim_filter Prod.snd (fun _ => true) (fun _ => true)
      (fun t s s' a _ hta hR => by
        obtain ⟨hout, hR⟩ := hR.step hta
        exact ⟨by simp only [machine, hout], hR⟩)
      (fun _ _ _ _ hkeep => by cases hkeep) halike hfirst hsorted
    simp only [List.filter_true] at hlog hend
    exact ⟨by rw [hlog], hend.sameQueries⟩

/-- After expiry, or before there is an owner, a STATUS packet of another component starts without entries. -/
theorem takeover {config : ValidConfig} {run : List (Call × Int)} {e : ObservationEngine}
    {packet : CommonStatusPacket} {receipt : Int} (h : Owned config run e) (hlast : e.lastReceiptNs ≤ max receipt 0)
    (hok : ¬ e.RefusesStatus packet receipt) (hallowed : ¬ e.Excludes packet.componentId)
    (hother : e.commonComponent ≠ some packet.componentId)
    (hexpired : e.commonStatusOwner = false ∨ ¬ e.Fresh e.commonOwnerStampNs receipt) :
    (e.commonStatus packet receipt).1.commonComponent = some packet.componentId ∧
      (∀ slot, ((e.commonStatus packet receipt).1.info slot).seen = false) ∧
      ∀ slot, ((e.commonStatus packet receipt).1.status slot).seen = true →
        ((e.commonStatus packet receipt).1.status slot).CarriedBy slot packet receipt := by
  have hclock := receiveClock_eq (clock_of_receipt hlast fun hr => hok (.inr (.inl hr)))
  obtain ⟨a, ha⟩ : ∃ a, (e.receiveClock receipt).acceptCommonStatus packet.componentId receipt = some a := by
    rw [hclock]
    refine ⟨_, (if_neg hallowed).trans (if_neg ?_)⟩
    rintro ⟨_, ho, hfresh⟩
    rcases hexpired with hexpired | hexpired
    · exact Bool.false_ne_true (hexpired.symm.trans ho)
    · exact hexpired hfresh
  have hsame : ((a.restartCommon packet).recordStatus packet receipt).SameCommon
    (e.commonStatus packet receipt).1 := by
    refine .of_reports ?_
    unfold commonStatus
    rw [if_neg hok]
    simp only [ha, pairCommon_reports, select_reports]
  rw [hclock] at ha
  have ht : e.Takes (a.restartCommon packet) packet.componentId :=
    restartCommon_takes ⟨(acceptCommonStatus_takes ha).1.stored, (acceptCommonStatus_takes ha).1.entries⟩
  obtain ⟨_, _, hframe⟩ := (a.restartCommon packet).recordStatus_frame packet receipt
  have hstatus (slot : Nat) : ((a.restartCommon packet).status slot).seen = false := by
    refine Bool.eq_false_iff.2 fun hseen => ?_
    rcases ht.entries with ⟨hkept, _, _, hforeign⟩ | ⟨hnone, _, _⟩
    · rw [hkept] at hseen
      obtain ⟨packet', _, _, hcomponent, _⟩ := h.status slot hseen
      exact hother (by rw [hcomponent, eq_of_not_foreign hcomponent hforeign])
    · rw [hnone] at hseen
      cases hseen
  have hinfo (slot : Nat) : ((a.restartCommon packet).info slot).seen = false := by
    refine Bool.eq_false_iff.2 fun hseen => ?_
    rcases ht.entries with ⟨_, hkept, _, hforeign⟩ | ⟨_, hnone, _⟩
    · rw [hkept] at hseen
      obtain ⟨packet', _, _, hcomponent, _⟩ := h.info slot hseen
      exact hother (by rw [hcomponent, eq_of_not_foreign hcomponent hforeign])
    · rw [hnone] at hseen
      cases hseen
  refine ⟨?_, fun slot => ?_, fun slot hseen => ?_⟩
  · rw [hsame.component, hframe]
    exact ht.stored
  · rw [hsame.info, hframe]
    exact hinfo slot
  · rw [hsame.status] at hseen ⊢
    rcases (a.restartCommon packet).recordStatus_from packet receipt slot with hown | hold
    · exact hown
    · rw [hold.seen, hstatus] at hseen
      cases hseen

/-- The rules of COMMON ownership, at every point of every run. -/
theorem common_ownership (config : ValidConfig) (run : List (Call × Int)) (h : Clocked run) :
    let e := reach config run
    (∀ slot, (e.status slot).seen = true → ∃ packet receipt, (.commonStatus packet, receipt) ∈ run ∧
      e.commonComponent = some packet.componentId ∧ (e.status slot).CarriedBy slot packet receipt) ∧
    (∀ slot, (e.info slot).seen = true → ∃ packet receipt, (.commonInfo packet, receipt) ∈ run ∧
      e.commonComponent = some packet.componentId ∧ (e.info slot).CarriedBy slot packet receipt) ∧
    Leased config run e ∧
    (e.commonStatusOwner = true → ∀ c later, Clocked (run ++ c :: later) → e.Outside c →
      trace config (run ++ c :: later) = trace config run ++ (c, none) :: machine.log e later ∧
      (reach config (run ++ later)).SameQueries (reach config (run ++ c :: later)) ∧
      (reach config (run ++ c :: later)).active = (reach config (run ++ later)).active) ∧
    ∀ packet receipt, Clocked (run ++ [(.commonStatus packet, receipt)]) → ¬ e.RefusesStatus packet receipt →
      ¬ e.Excludes packet.componentId → e.commonComponent ≠ some packet.componentId →
      (e.commonStatusOwner = false ∨ ¬ e.Fresh e.commonOwnerStampNs receipt) →
      let e' := reach config (run ++ [(.commonStatus packet, receipt)])
      e'.commonComponent = some packet.componentId ∧ (∀ slot, (e'.info slot).seen = false) ∧
      ∀ slot, (e'.status slot).seen = true → (e'.status slot).CarriedBy slot packet receipt := by
  have howned : Owned config run (reach config run) := owned_reach h
  refine ⟨howned.status, howned.info, howned.lease,
    fun howner c later hclock hout => outside_run hclock howner hout, ?_⟩
  intro packet receipt hclock hok hallowed hother hexpired
  have hlast : (reach config run).lastReceiptNs ≤ max receipt 0 := reach_last (clocked_snoc.1 hclock).2
  rw [reach_snoc]
  exact takeover howned hlast hok hallowed hother hexpired

/-- The first component sends at one second, the second one at two and, after the lease, at five. -/
def ownedRun : List (Call × Int) :=
  [(.connection true, 0), (.commonStatus { timeUs := 1000000, componentId := 1 }, 1000000000)]

def intruder (receipt : Int) : Call × Int := (.commonStatus { timeUs := 2000000, componentId := 2 }, receipt)

theorem common_ownership_intruder :
    trace bothWheels (ownedRun ++ [intruder 2000000000, (.poll, 2500000000)]) =
      trace bothWheels ownedRun ++ [(intruder 2000000000, none), ((.poll, 2500000000), none)] ∧
    (reach bothWheels (ownedRun ++ [intruder 5000000000])).commonComponent = some 2 := by
  have hclock : Clocked ownedRun := by simp [Clocked, ownedRun]
  obtain ⟨_, _, _, hkept, htaken⟩ := common_ownership bothWheels ownedRun hclock
  refine ⟨(hkept (by decide +kernel) (intruder 2000000000) [(.poll, 2500000000)] ?_ (by decide +kernel)).1,
    (htaken { timeUs := 2000000, componentId := 2 } 5000000000 ?_ (by decide +kernel) (by decide +kernel)
      (by decide +kernel) (by decide +kernel)).1⟩
  · simp [Clocked, ownedRun, intruder]
  · simp [Clocked, ownedRun]

end Odometry
end MowgliMavros
