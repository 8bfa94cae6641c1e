import MowgliMavros.Encoder

/-!
# The producers do not disturb each other

The reports and the motor ticks do not depend on WHEEL_DISTANCE: `Reporting` is the simulation between a
run and the run without it. WHEEL_DISTANCE does not depend on the ESC messages: its answers are those of
the encoder by itself (`log_encoder`).
-/

namespace MowgliMavros
namespace Odometry
namespace ObservationEngine
variable {e e' : ObservationEngine} {receipt : Int}

/-! ### The reports depend on the reports -/

/-- A choice on equivalent conditions between values that `f` sees alike. -/
theorem ite_alike {α β : Type*} (f : α → β) {p q : Prop} [Decidable p] [Decidable q] (h : p ↔ q) {x x' y y' : α}
    (hx : f x = f x') (hy : f y = f y') : f (if p then x else y) = f (if q then x' else y') := by
  by_cases hp : p
  · rwa [if_pos hp, if_pos (h.1 hp)]
  · rwa [if_neg hp, if_neg fun hq => hp (h.2 hq)]

theorem acceptCommonStatus_reports (e : ObservationEngine) (component : UInt8) (receipt : Int) :
    (e.acceptCommonStatus component receipt).map reports =
    (e.reports.acceptCommonStatus component receipt).map reports := by
  refine ite_alike (Option.map reports) Iff.rfl rfl (ite_alike (Option.map reports) Iff.rfl rfl ?_)
  by_cases hforeign : e.Foreign component
  · rw [if_pos hforeign, if_pos (show e.reports.Foreign component from hforeign)]
    rfl
  · rw [if_neg hforeign, if_neg (show ¬ e.reports.Foreign component from hforeign)]
    rfl

theorem acceptCommonInfo_reports (e : ObservationEngine) (component : UInt8) :
    (e.acceptCommonInfo component).map reports = (e.reports.acceptCommonInfo component).map reports := by
  refine ite_alike (Option.map reports) Iff.rfl rfl (ite_alike (Option.map reports) Iff.rfl rfl ?_)
  by_cases hforeign : e.Foreign component
  · rw [if_pos hforeign, if_pos (show e.reports.Foreign component from hforeign)]
    rfl
  · rw [if_neg hforeign, if_neg (show ¬ e.reports.Foreign component from hforeign)]
    rfl

theorem restartCommon_reports (e : ObservationEngine) (packet : CommonStatusPacket) :
    (e.restartCommon packet).reports = (e.reports.restartCommon packet).reports :=
  ite_alike reports Iff.rfl rfl rfl

theorem recordSlot_reports (e : ObservationEngine) (packet : CommonStatusPacket) (receipt : Int) (i : Fin 4) :
    (e.recordSlot packet receipt i).reports = (e.reports.recordSlot packet receipt i).reports :=
  ite_alike reports Iff.rfl rfl (ite_alike reports Iff.rfl rfl rfl)

/-- A loop whose body sees the reports only. -/
theorem foldl_reports {ι : Type} {f : ObservationEngine → ι → ObservationEngine}
    (hf : ∀ e i, (f e i).reports = (f e.reports i).reports) (is : List ι) (h : e'.reports = e.reports) :
    (is.foldl f e').reports = (is.foldl f e).reports := by
  induction is generalizing e e' with
  | nil => exact h
  | cons i is ih => exact ih (by rw [hf e', hf e, h])

theorem recordStatus_reports (packet : CommonStatusPacket) (receipt : Int) (h : e'.reports = e.reports) :
    (e'.recordStatus packet receipt).reports = (e.recordStatus packet receipt).reports :=
  foldl_reports (fun e i => e.recordSlot_reports packet receipt i) _ h

theorem restartInfo_reports (packet : CommonInfoPacket) (h : e'.reports = e.reports) :
    (e'.restartInfo packet).reports = (e.restartInfo packet).reports := by
  refine foldl_reports (fun e i => ?_) _ h
  split
  · rfl
  · rfl

theorem recordInfoSlot_reports (e : ObservationEngine) (packet : CommonInfoPacket) (receipt : Int) (i : Fin 4) :
    (e.recordInfoSlot packet receipt i).reports = (e.reports.recordInfoSlot packet receipt i).reports := by
  have hinfo : e.reports.info = e.info := rfl
  unfold recordInfoSlot
  dsimp only
  rw [hinfo]
  repeat' split
  all_goals rfl

theorem recordInfo_reports (packet : CommonInfoPacket) (receipt : Int) (h : e'.reports = e.reports) :
    (e'.recordInfo packet receipt).reports = (e.recordInfo packet receipt).reports := by
  refine foldl_reports (fun e i => e.recordInfoSlot_reports packet receipt i) _ ?_
  change (e'.reports.trimCount _).reports = (e.reports.trimCount _).reports
  rw [h]

theorem recordLegacy_reports (e : ObservationEngine) (packet : LegacyEscPacket) (receipt : Int) (i : Fin 4) :
    (e.recordLegacy packet receipt i).reports = (e.reports.recordLegacy packet receipt i).reports :=
  ite_alike reports Iff.rfl rfl rfl

theorem receiveLegacy_reports (e : ObservationEngine) (rpm : Side → Rat) (receipt : Int) :
    (e.receiveLegacy rpm receipt).1.reports = (e.reports.receiveLegacy rpm receipt).1.reports := by
  have hlegacy : e.reports.legacy = e.legacy := rfl
  unfold receiveLegacy
  dsimp only
  rw [hlegacy]
  split
  · rfl
  · exact ite_alike (fun r : ObservationEngine × Option WheelMotionObservation => r.1.reports) Iff.rfl rfl rfl

/-- The engines agree in the reports, and an old last receipt is all that keeps their clocks apart. -/
structure Reporting (t : Int) (e e' : ObservationEngine) : Prop where
  reports : e'.reports = e.reports
  past : e.lastReceiptNs ≤ max t 0
  clock : e'.lastReceiptNs = e.lastReceiptNs ∨ 0 < t ∧ e.lastReceiptNs ≤ t ∧ e'.lastReceiptNs ≤ t

theorem Reporting.past' {t : Int} (h : e.Reporting t e') : e'.lastReceiptNs ≤ max t 0 := by
  rcases h.clock with hc | hc
  · rw [hc]
    exact h.past
  · omega

theorem Reporting.received (h : e.Reporting receipt e') (hreceipt : ¬ receipt ≤ 0) :
    e.receiveClock receipt = e.received receipt ∧ e'.receiveClock receipt = e'.received receipt ∧
      (e'.received receipt).reports = (e.received receipt).reports :=
  ⟨receiveClock_eq (clock_of_receipt h.past hreceipt), receiveClock_eq (clock_of_receipt h.past' hreceipt), h.reports⟩

/-- Both packets are refused, or both are accepted by engines that agree in the reports. -/
theorem accepts_alike {o o' : Option ObservationEngine} (h : o'.map reports = o.map reports) :
    (o = none ∧ o' = none) ∨ ∃ a a', o = some a ∧ o' = some a' ∧ a'.reports = a.reports := by
  cases o with
  | none =>
    cases o' with
    | none => exact .inl ⟨rfl, rfl⟩
    | some a' => cases h
  | some a =>
    cases o' with
    | none => cases h
    | some a' => exact .inr ⟨a, a', rfl, rfl, Option.some.inj h⟩

theorem Reporting.commonStatus (h : e.Reporting receipt e') (packet : CommonStatusPacket) :
    (e'.commonStatus packet receipt).1.reports = (e.commonStatus packet receipt).1.reports := by
  unfold ObservationEngine.commonStatus
  by_cases hrefuse : e.RefusesStatus packet receipt
  · have hrefuse' : e'.reports.RefusesStatus packet receipt := h.reports ▸ hrefuse
    rw [if_pos hrefuse, if_pos (show e'.RefusesStatus packet receipt from hrefuse')]
    exact h.reports
  · have hrefuse' : ¬ e'.reports.RefusesStatus packet receipt := h.reports ▸ hrefuse
    obtain ⟨hclock, hclock', hsame⟩ := h.received fun hr => hrefuse (.inr (.inl hr))
    rw [if_neg hrefuse, if_neg (show ¬ e'.RefusesStatus packet receipt from hrefuse'), hclock, hclock']
    have haccept : ((e'.received receipt).acceptCommonStatus packet.componentId receipt).map ObservationEngine.reports =
        ((e.received receipt).acceptCommonStatus packet.componentId receipt).map ObservationEngine.reports := by
      rw [acceptCommonStatus_reports, hsame, ← acceptCommonStatus_reports]
    dsimp only
    rcases accepts_alike haccept with ⟨ho, ho'⟩ | ⟨a, a', ho, ho', ha⟩
    · rw [ho, ho']
      exact hsame
    · rw [ho, ho']
      simp only [pairCommon_reports, select_reports]
      exact recordStatus_reports packet receipt (by rw [restartCommon_reports, ha, ← restartCommon_reports])

theorem Reporting.commonInfo (h : e.Reporting receipt e') (packet : CommonInfoPacket) :
    (e'.commonInfo packet receipt).reports = (e.commonInfo packet receipt).reports := by
  unfold ObservationEngine.commonInfo
  by_cases hrefuse : e.RefusesInfo packet receipt
  · have hrefuse' : e'.reports.RefusesInfo packet receipt := h.reports ▸ hrefuse
    rw [if_pos hrefuse, if_pos (show e'.RefusesInfo packet receipt from hrefuse')]
    exact h.reports
  · have hrefuse' : ¬ e'.reports.RefusesInfo packet receipt := h.reports ▸ hrefuse
    obtain ⟨hclock, hclock', hsame⟩ := h.received fun hr => hrefuse (.inr (.inl hr))
    rw [if_neg hrefuse, if_neg (show ¬ e'.RefusesInfo packet receipt from hrefuse'), hclock, hclock']
    have haccept : ((e'.received receipt).acceptCommonInfo packet.componentId).map ObservationEngine.reports =
        ((e.received receipt).acceptCommonInfo packet.componentId).map ObservationEngine.reports := by
      rw [acceptCommonInfo_reports, hsame, ← acceptCommonInfo_reports]
    dsimp only
    rcases accepts_alike haccept with ⟨ho, ho'⟩ | ⟨a, a', ho, ho', ha⟩
    · rw [ho, ho']
      exact hsame
    · rw [ho, ho']
      have hinfo : a'.info = a.info := congrArg (·.info) ha
      refine ite_alike ObservationEngine.reports ?_ ?_ ?_
      · unfold InfoRegresses
        rw [hinfo]
      · simp only [reselect_reports]
        exact restartInfo_reports packet ha
      · simp only [reselect_reports]
        exact recordInfo_reports packet receipt ha

theorem Reporting.legacyEscTelemetry (h : e.Reporting receipt e') (packet : LegacyEscPacket) :
    (e'.legacyEscTelemetry packet receipt).reports = (e.legacyEscTelemetry packet receipt).reports := by
  have hconnected : e'.connected = e.connected := congrArg (·.connected) h.reports
  unfold ObservationEngine.legacyEscTelemetry
  rw [hconnected]
  split
  · exact h.reports
  · rename_i hok
    obtain ⟨hclock, hclock', hsame⟩ := h.received fun hr => hok (.inr (.inl hr))
    rw [hclock, hclock']
    refine foldl_reports (fun e i => e.recordLegacy_reports packet receipt i) _ ?_
    change { e'.reports with legacy := e'.reports.legacy.receiveEscCounts packet.index packet.counts receipt } =
      { e.reports with legacy := e.reports.legacy.receiveEscCounts packet.index packet.counts receipt }
    rw [h.reports]

theorem Reporting.legacyRpm (h : e.Reporting receipt e') (left right : Option Rat) :
    (e'.legacyRpm left right receipt).1.reports = (e.legacyRpm left right receipt).1.reports := by
  have hconnected : e'.connected = e.connected := congrArg (·.connected) h.reports
  unfold ObservationEngine.legacyRpm
  rw [hconnected]
  split
  · exact h.reports
  · rename_i hok
    obtain ⟨hclock, hclock', hsame⟩ := h.received fun hr => hok (.inr hr)
    rw [hclock, hclock']
    dsimp only
    split
    · simp only [driveLegacy_reports, reselect_reports]
      change ((e'.received receipt).receiveLegacy _ receipt).1.reports =
        ((e.received receipt).receiveLegacy _ receipt).1.reports
      rw [receiveLegacy_reports, hsame, ← receiveLegacy_reports]
    · simp only [reselect_reports]
      change { e'.reports with legacyMotorTicks := e'.reports.legacyMotorTicks.resetReferences } = _
      rw [h.reports]
      rfl

theorem Reporting.poll {now : Int} (h : e.Reporting now e') : (e'.poll now).reports = (e.poll now).reports := by
  unfold ObservationEngine.poll receiveClock
  simp only [reselect_reports]
  have hclock : now < e'.lastReceiptNs ↔ now < e.lastReceiptNs := by
    rcases h.clock with hc | hc
    · rw [hc]
    · omega
  by_cases hback : now < e.lastReceiptNs
  · rw [if_pos hback, if_pos (hclock.2 hback)]
    change e'.reports.reset.reports = e.reports.reset.reports
    rw [h.reports]
  · rw [if_neg hback, if_neg fun hb => hback (hclock.1 hb)]
    exact h.reports

/-- A call other than `wheelDistance` changes the reports alike. -/
theorem Reporting.step {c : Call × Int} (h : e.Reporting c.2 e') (hc : ∀ packet, c.1 ≠ .wheelDistance packet) :
    (e'.step c).1.reports = (e.step c).1.reports := by
  obtain ⟨call, t⟩ := c
  cases call with
  | commonStatus packet => exact h.commonStatus packet
  | commonInfo packet => exact h.commonInfo packet
  | legacyEsc packet => exact h.legacyEscTelemetry packet
  | legacyRpm left right => exact h.legacyRpm left right
  | wheelDistance packet => exact absurd rfl (hc packet)
  | poll => exact h.poll
  | connection connected =>
    change { e'.reports.reset with connected := connected }.reports =
      { e.reports.reset with connected := connected }.reports
    rw [h.reports]
  | replace config retainLegacyTicks =>
    change (e'.reports.replace config t retainLegacyTicks).reports =
      (e.reports.replace config t retainLegacyTicks).reports
    rw [h.reports]

/-- No message is taken before the clock is positive. -/
theorem step_early {c : Call × Int} (hc : c.2 ≤ 0) : (e.step c).1.lastReceiptNs =
    match c.1 with
    | .poll => c.2
    | .connection _ => 0
    | _ => e.lastReceiptNs := by
  obtain ⟨call, t⟩ := c
  cases call with
  | commonStatus packet =>
    dsimp only [ObservationEngine.step, ObservationEngine.commonStatus]
    rw [if_pos (.inr (.inl hc))]
  | commonInfo packet =>
    dsimp only [ObservationEngine.step, ObservationEngine.commonInfo]
    rw [if_pos (.inr (.inl hc))]
  | legacyEsc packet =>
    dsimp only [ObservationEngine.step, ObservationEngine.legacyEscTelemetry]
    rw [if_pos (.inr (.inl hc))]
  | legacyRpm left right =>
    dsimp only [ObservationEngine.step, ObservationEngine.legacyRpm]
    rw [if_pos (.inr hc)]
  | wheelDistance packet =>
    dsimp only [ObservationEngine.step, ObservationEngine.wheelDistance]
    rw [if_pos (.inr hc)]
  | poll => simp [ObservationEngine.step, ObservationEngine.poll]
  | connection connected => rfl
  | replace config retainLegacyTicks => rfl

theorem Reporting.kept {t : Int} {c : Call × Int} (ht : t ≤ c.2) (h : e.Reporting t e')
    (hc : ∀ packet, c.1 ≠ .wheelDistance packet) : (e.step c).1.Reporting c.2 (e'.step c).1 := by
  have hpast : e.lastReceiptNs ≤ max c.2 0 := h.past.trans (by omega)
  have hpast' : e'.lastReceiptNs ≤ max c.2 0 := h.past'.trans (by omega)
  have hnow : e.Reporting c.2 e' := ⟨h.reports, hpast, h.clock.imp_right fun hclock => by omega⟩
  refine ⟨hnow.step hc, ?_, ?_⟩
  · rcases step_last e c with hs | hs | hs <;> omega
  · by_cases hpos : 0 < c.2
    · right
      rcases step_last e c with hs | hs | hs <;> rcases step_last e' c with hs' | hs' | hs' <;> omega
    · left
      have hsame : e'.lastReceiptNs = e.lastReceiptNs := by
        rcases h.clock with hclock | hclock <;> omega
      rw [step_early (Int.not_lt.1 hpos), step_early (Int.not_lt.1 hpos), hsame]

theorem Reporting.deleted {t : Int} {packet : DistancePacket} (ht : t ≤ receipt) (h : e.Reporting t e') :
    (e.wheelDistance packet receipt).1.Reporting receipt e' := by
  have hpast : e.lastReceiptNs ≤ max receipt 0 := h.past.trans (by omega)
  have hpast' : e'.lastReceiptNs ≤ max receipt 0 := h.past'.trans (by omega)
  have hlast : (e.wheelDistance packet receipt).1.lastReceiptNs = e.lastReceiptNs ∨
      0 < receipt ∧ (e.wheelDistance packet receipt).1.lastReceiptNs ≤ receipt := by
    by_cases hpos : 0 < receipt
    · right
      rcases step_last e (.wheelDistance packet, receipt) with hs | hs | hs <;>
        dsimp only [ObservationEngine.step] at hs <;> omega
    · exact .inl (step_early (c := (.wheelDistance packet, receipt)) (Int.not_lt.1 hpos))
  refine ⟨h.reports.trans (wheelDistance_reports e packet hpast).symm, ?_, ?_⟩
  · rcases hlast with hlast | hlast <;> omega
  · rcases hlast with hlast | hlast
    · exact (h.clock.imp_left fun hclock => hclock.trans hlast.symm).imp_right fun hclock => by omega
    · exact .inr (by omega)

end ObservationEngine

/-- The reports of a run are those of the run without WHEEL_DISTANCE. -/
theorem reports_isolated {e : ObservationEngine} {t : Int} {later : List (Call × Int)} (h : e.lastReceiptNs ≤ max t 0)
    (hfirst : ∀ a ∈ later, t ≤ a.2) (hsorted : Clocked later) :
    (machine.final e later).SameQueries (machine.final e (later.filter fun c => !c.1.isDistance)) := by
  obtain ⟨_, _, hend⟩ := machine.sim_filter Prod.snd (fun c => !c.1.isDistance) (fun _ => false)
    (R := fun t e e' => e.Reporting t e')
    (fun t e e' c hkeep ht hR => by
      refine ⟨by simp, hR.kept ht fun packet hc => ?_⟩
      rw [hc] at hkeep
      cases hkeep)
    (fun t e e' c hdelete ht hR => by
      obtain ⟨call, now⟩ := c
      cases call with
      | wheelDistance packet => exact ⟨by simp, hR.deleted ht⟩
      | _ => cases hdelete)
    ⟨rfl, h, .inl rfl⟩ hfirst hsorted
  exact .of_reports hend.reports

/-- No producer disturbs the data or the motion references of the other. -/
theorem source_isolation (config : ValidConfig) (run later : List (Call × Int)) (h : Clocked (run ++ later)) :
    (machine.final (reach config run) later).SameQueries
      (machine.final (reach config run) (later.filter fun c => !c.1.isDistance)) ∧
    (machine.log (reach config run) (later.filter fun c => !c.1.isEsc)).filter (·.1.1.isDistance) =
      (machine.log (reach config run) later).filter (·.1.1.isDistance) := by
  rcases later with _ | ⟨c, later⟩
  · exact ⟨.of_reports rfl, rfl⟩
  · obtain ⟨hrun, hlater, hcross⟩ := List.pairwise_append.1 h
    have hpast : ∀ a ∈ run, a.2 ≤ c.2 := fun a ha => hcross a ha c (by simp)
    have hfirst : ∀ a ∈ c :: later, c.2 ≤ a.2 := by
      intro a ha
      rcases List.mem_cons.1 ha with rfl | ha
      · exact le_rfl
      · exact (List.pairwise_cons.1 hlater).1 a ha
    have htracked : (reach config run).Tracked c.2 := reach_tracked _ hrun hpast
    refine ⟨reports_isolated (reach_last hpast) hfirst hlater, ?_⟩
    rw [log_encoder htracked (fun a ha => hfirst a (List.mem_of_mem_filter ha)) (hlater.filter _),
      log_encoder htracked hfirst hlater, encoder_ignores]

/-- Both producers at work: the motors, then the encoder twice. -/
def mixedRun : List (Call × Int) :=
  [(.commonStatus { timeUs := 1000000 }, 1000000000),
    (.wheelDistance { timeUs := 1000000, count := 2 }, 1100000000),
    (.wheelDistance { timeUs := 1100000, count := 2, distance := fun _ => some 1 }, 1200000000), (.poll, 1300000000)]

theorem source_isolation_mixed :
    (machine.final (reach bothWheels [(.connection true, 0)]) mixedRun).SameQueries
      (machine.final (reach bothWheels [(.connection true, 0)]) (mixedRun.filter fun c => !c.1.isDistance)) ∧
    (machine.log (reach bothWheels [(.connection true, 0)]) (mixedRun.filter fun c => !c.1.isEsc)).filter
    (·.1.1.isDistance) =
      (machine.log (reach bothWheels [(.connection true, 0)]) mixedRun).filter (·.1.1.isDistance) ∧
    ((machine.log (reach bothWheels [(.connection true, 0)]) mixedRun).map fun a => a.2.map (·.linearXMps)) =
      [some 0, none, some 10, none] := by
  obtain ⟨hqueries, hanswers⟩ := source_isolation bothWheels [(.connection true, 0)] mixedRun
    (by simp [Clocked, mixedRun])
  exact ⟨hqueries, hanswers, by decide +kernel⟩

end Odometry
end MowgliMavros
