import Mathlib.Data.List.Chain
import Mathlib.Data.List.Induction
import MowgliMavros.PowerState

/-!
# Charger presence along a run

The plugin projects when a message comes, and only a projection withdraws a presence that has gone
stale. A published presence is supported by the dock samples of the run exactly when no step `Carries`
it over a gap in which nothing was projected (`charger_presence`).
-/

namespace MowgliMavros

/-- The sample has a finite voltage with `P`. -/
def BatterySample.Volts (sample : BatterySample) (P : Rat → Prop) : Prop := ∃ v, sample.voltage = some (some v) ∧ P v

namespace PowerState
variable {s : PowerState} {samples : List BatterySample} {sample : BatterySample} {now : Int}

/-- The samples come in one unbroken run since one exceeded the ON threshold, and none fell below the OFF
threshold. -/
def Supported (s : PowerState) (samples : List BatterySample) : Prop :=
  ∃ pre first later, samples = pre ++ first :: later ∧ first.Volts (s.chargerOnVoltage < ·) ∧
    (∀ sample ∈ later, sample.Volts (s.chargerOffVoltage ≤ ·)) ∧
    (first :: later).IsChain fun a b => b.receiptNs - a.receiptNs ≤ s.staleAfterNs

theorem supported_now (h : sample.Volts (s.chargerOnVoltage < ·)) : s.Supported (samples ++ [sample]) :=
  ⟨samples, sample, [], rfl, h, by simp, List.isChain_singleton _⟩

/-- The next sample of an unbroken run. -/
theorem Supported.next (h : s.Supported samples) (hv : sample.Volts (s.chargerOffVoltage ≤ ·))
    (hgap : ∀ last ∈ samples.getLast?, sample.receiptNs - last.receiptNs ≤ s.staleAfterNs) :
    s.Supported (samples ++ [sample]) := by
  obtain ⟨pre, first, later, rfl, hfirst, hlater, hchain⟩ := h
  refine ⟨pre, first, later ++ [sample], by simp, hfirst, fun a ha => ?_, ?_⟩
  · rcases List.mem_append.1 ha with ha | ha
    · exact hlater a ha
    · rw [List.mem_singleton.1 ha]
      exact hv
  · refine List.isChain_append.2 ⟨hchain, List.isChain_singleton _, fun last hlast next hnext => ?_⟩
    obtain rfl : sample = next := by simpa using hnext
    exact hgap last (by rw [List.getLast?_append_of_ne_nil _ (List.cons_ne_nil _ _)]; exact hlast)

/-- A sample after a gap, not above the ON threshold, supports nothing. -/
theorem not_supported (samples : List BatterySample)
    (hgap : ∀ last ∈ samples.getLast?, s.staleAfterNs < sample.receiptNs - last.receiptNs)
    (hv : ¬ sample.Volts (s.chargerOnVoltage < ·)) : ¬ s.Supported (samples ++ [sample]) := by
  rintro ⟨pre, first, later, heq, hfirst, -, hchain⟩
  rcases List.eq_nil_or_concat later with rfl | ⟨later, last, rfl⟩
  · obtain ⟨rfl, hlast⟩ := List.append_inj' heq rfl
    obtain rfl : sample = first := by simpa using hlast
    exact hv hfirst
  · have heq : samples ++ [sample] = (pre ++ first :: later) ++ [last] := by simpa using heq
    obtain ⟨rfl, hlast⟩ := List.append_inj' heq rfl
    obtain rfl : sample = last := by simpa using hlast
    rw [List.concat_eq_append, ← List.cons_append] at hchain
    obtain ⟨-, -, hjoin⟩ := List.isChain_append.1 hchain
    obtain ⟨old, hold⟩ := Option.isSome_iff_exists.1 (show (first :: later).getLast?.isSome = true by simp)
    have hle := hjoin old hold sample (by simp)
    have hlt := hgap old (by rw [List.getLast?_append_of_ne_nil _ (List.cons_ne_nil _ _)]; exact hold)
    omega

/-! ### One projection -/

/-- A presence rests on a fresh dock sample that holds it. -/
theorem present_iff : s.present now = true ↔
    ∃ sample, s.dock = some sample ∧ s.fresh s.dock now = true ∧ sample.Volts (s.holds · = true) := by
  unfold present BatterySample.Volts
  cases hdock : s.dock with
  | none => simp
  | some sample =>
    cases hv : sample.voltage with
    | none => simp [hv]
    | some v => cases v <;> simp [hv]

theorem holds_cases {v : Rat} (h : s.holds v = true) :
    s.chargerOnVoltage < v ∨ s.chargerPresent = true ∧ s.chargerOffVoltage ≤ v := by
  unfold holds at h
  split at h
  · exact .inr ⟨‹_›, by simpa using h⟩
  · exact .inl (by simpa using h)

theorem fresh_iff : s.fresh (some sample) now = true ↔
    sample.receiptNs ≤ now ∧ now - sample.receiptNs ≤ s.staleAfterNs := by
  simp [fresh]

end PowerState

namespace BatteryObserver
variable {b : BatteryObserver} {run : List (BatteryStatus × Int)} {m : BatteryStatus × Int}

def ofDock (b : BatteryObserver) (m : BatteryStatus × Int) : Prop :=
  b.enabled = true ∧ m.1.id.toNat = b.dockBatteryInstance

instance (b : BatteryObserver) (m : BatteryStatus × Int) : Decidable (b.ofDock m) :=
  inferInstanceAs (Decidable (_ ∧ _))

def sample (m : BatteryStatus × Int) : BatterySample := ⟨m.1.voltage, m.1.current, m.2⟩

/-- The dock samples of a run. -/
def dockSamples (b : BatteryObserver) (run : List (BatteryStatus × Int)) : List BatterySample :=
  (run.filter fun m => b.ofDock m).map sample

/-- The dock reports again after a gap in which nothing was projected, with a voltage that would keep a
present charger and would not make an absent one present. -/
def Carries (b : BatteryObserver) (m : BatteryStatus × Int) : Prop :=
  b.ofDock m ∧ b.state.chargerPresent = true ∧ b.state.fresh b.state.dock m.2 = false ∧
    (m.1.voltage.join.any fun v => b.state.chargerOffVoltage ≤ v && v ≤ b.state.chargerOnVoltage) = true

instance (b : BatteryObserver) (m : BatteryStatus × Int) : Decidable (b.Carries m) :=
  inferInstanceAs (Decidable (_ ∧ _))

end BatteryObserver

def BatteryOutput.chargerEnabled : BatteryOutput → Bool
  | .power _ _ _ _ chargerEnabled _ => chargerEnabled
  | .batteryState _ _ _ _ => false

namespace BatteryObserver
variable {b : BatteryObserver} {run : List (BatteryStatus × Int)} {m : BatteryStatus × Int}
  {samples : List BatterySample} {battery : Option BatterySample} {present : Bool} {out : BatteryOutput}

/-- The observer that has seen these dock samples. -/
def after (b : BatteryObserver) (samples : List BatterySample) (battery : Option BatterySample) (present : Bool) :
    BatteryObserver :=
  { b with state := { b.state with dock := samples.getLast?, battery := battery, chargerPresent := present } }

/-- What a projected presence rests on: the presence before, or a sample above the ON threshold. -/
def Rests (b : BatteryObserver) (samples : List BatterySample) (present : Bool) : Prop :=
  present = true ∨ ∃ sample ∈ samples.getLast?, sample.Volts (b.state.chargerOnVoltage < ·)

theorem rests_of_present (samples : List BatterySample) (battery : Option BatterySample) (present : Bool) (now : Int)
    (h : (b.after samples battery present).state.present now = true) :
    b.state.fresh samples.getLast? now = true ∧ b.Rests samples present := by
  obtain ⟨sample, hdock, hfresh, v, hv, hholds⟩ := PowerState.present_iff.1 h
  refine ⟨hfresh, ?_⟩
  rcases PowerState.holds_cases hholds with hon | ⟨hpresent, -⟩
  · exact .inr ⟨sample, hdock, v, hv, hon⟩
  · exact .inl hpresent

theorem after_dock (samples : List BatterySample) (battery : Option BatterySample) (present : Bool)
    (h : b.ofDock m) :
    let s := (b.after (samples ++ [sample m]) battery present).state
    ((b.after samples battery present).handleBatteryStatus m.1 m.2).1 =
        b.after (samples ++ [sample m]) battery (s.present m.2) ∧
      ∃ out, ((b.after samples battery present).handleBatteryStatus m.1 m.2).2 = [out] ∧
        out.chargerEnabled = s.present m.2 := by
  have hstate : (b.after samples battery present).state.observeDock (sample m) =
      (b.after (samples ++ [sample m]) battery present).state := by
    unfold PowerState.observeDock after
    rw [List.getLast?_concat]
  unfold handleBatteryStatus
  rw [if_neg (not_not.2 (show (b.after samples battery present).enabled = true from h.1))]
  rw [if_pos (show (m.1.id.toNat : Int) = (b.after samples battery present).dockBatteryInstance from h.2)]
  dsimp only [publishPower]
  rw [show (⟨m.1.voltage, m.1.current, m.2⟩ : BatterySample) = sample m from rfl, hstate]
  exact ⟨rfl, _, rfl, rfl⟩

theorem after_other (samples : List BatterySample) (battery : Option BatterySample) (present : Bool)
    (h : ¬ b.ofDock m) : ∃ battery' present',
    ((b.after samples battery present).handleBatteryStatus m.1 m.2).1 = b.after samples battery' present' ∧
      (present' = true → b.Rests samples present) ∧
      ∀ out ∈ ((b.after samples battery present).handleBatteryStatus m.1 m.2).2, out.chargerEnabled = true →
        b.state.fresh samples.getLast? m.2 = true ∧ b.Rests samples present := by
  unfold handleBatteryStatus
  split
  · exact ⟨battery, present, rfl, .inl, fun out hout => by cases hout⟩
  · rename_i henabled
    have hother : ¬ (m.1.id.toNat : Int) = (b.after samples battery present).dockBatteryInstance := fun hid =>
      h ⟨not_not.1 henabled, hid⟩
    dsimp only
    rw [if_neg hother]
    split
    · have hfirst := rests_of_present (b := b) samples (some (sample m)) present m.2
      refine ⟨some (sample m), _, rfl, fun hpresent => ?_, fun out hout hcharger => ?_⟩
      · rcases (rests_of_present (b := b) samples (some (sample m)) _ _ hpresent).2 with hbefore | hon
        · exact (hfirst hbefore).2
        · exact .inr hon
      · rcases List.mem_cons.1 hout with rfl | hout
        · exact hfirst hcharger
        · rw [List.mem_singleton.1 hout] at hcharger
          cases hcharger
    · exact ⟨battery, present, rfl, .inl, fun out hout => by cases hout⟩

/-! ### Runs -/

theorem dockSamples_snoc (b : BatteryObserver) (run : List (BatteryStatus × Int)) (m : BatteryStatus × Int) :
    b.dockSamples (run ++ [m]) = if b.ofDock m then b.dockSamples run ++ [sample m] else b.dockSamples run := by
  unfold dockSamples
  rw [List.filter_append, List.map_append]
  split
  · rw [List.filter_cons_of_pos (by simpa using ‹b.ofDock m›)]
    rfl
  · rw [List.filter_cons_of_neg (by simpa using ‹¬ b.ofDock m›)]
    simp

/-- The samples of a run came before its end. -/
theorem sample_past {now : Int} (h : ∀ a ∈ run, a.2 ≤ now) :
    ∀ last ∈ (b.dockSamples run).getLast?, last.receiptNs ≤ now := by
  intro last hlast
  obtain ⟨a, ha, rfl⟩ := List.mem_map.1 (List.mem_of_getLast? hlast)
  exact h a (List.mem_of_mem_filter ha)

theorem Rests.supported (h : b.Rests samples present) (hpresent : present = true → b.state.Supported samples) :
    b.state.Supported samples := by
  rcases h with hbefore | ⟨last, hlast, hon⟩
  · exact hpresent hbefore
  · obtain ⟨before, rfl⟩ := List.getLast?_eq_some_iff.1 hlast
    exact PowerState.supported_now hon

/-- A dock message that carries nothing over leaves a supported presence. -/
theorem dock_supported (hpresent : present = true → b.state.Supported samples) (hdock : b.ofDock m)
    (hcarries : ¬ (b.after samples battery present).Carries m)
    (h : (b.after (samples ++ [sample m]) battery present).state.present m.2 = true) :
    b.state.Supported (samples ++ [sample m]) := by
  obtain ⟨_, hlast, _, v, hv, hholds⟩ := PowerState.present_iff.1 h
  obtain rfl : sample m = _ := by simpa [after] using hlast
  by_cases hon : b.state.chargerOnVoltage < v
  · exact PowerState.supported_now ⟨v, hv, hon⟩
  · obtain ⟨hbefore, hoff⟩ := (PowerState.holds_cases hholds).resolve_left hon
    refine (hpresent hbefore).next ⟨v, hv, hoff⟩ fun last hlast => ?_
    -- otherwise the last sample is stale and its presence would be carried over
    by_contra hgap
    refine hcarries ⟨hdock, hbefore, ?_, ?_⟩
    · have hstale : b.state.fresh (some last) m.2 = false := by
        rw [Bool.eq_false_iff, Ne, PowerState.fresh_iff]
        intro hfresh
        exact hgap hfresh.2
      rw [← hstale]
      exact congrArg (b.state.fresh · m.2) hlast
    · have hv : m.1.voltage = some (some v) := hv
      rw [hv]
      exact Bool.and_eq_true_iff.2 ⟨decide_eq_true hoff, decide_eq_true (le_of_not_gt hon)⟩

/-- Where a run leads; the presence is supported if nothing was carried over. -/
theorem reached (b : BatteryObserver) (hnew : b = b.after [] none false) (run : List (BatteryStatus × Int))
    (hsorted : run.Pairwise fun a b => a.2 ≤ b.2) : ∃ battery present,
      machine.final b run = b.after (b.dockSamples run) battery present ∧
      (machine.Along (fun b m => ¬ b.Carries m) b run → present = true → b.state.Supported (b.dockSamples run)) := by
  induction run using List.reverseRecOn with
  | nil => exact ⟨none, false, hnew, fun _ h => by cases h⟩
  | append_singleton run m ih =>
    obtain ⟨hrun, -, hpast⟩ := List.pairwise_append.1 hsorted
    obtain ⟨battery, present, hfinal, hsupported⟩ := ih hrun
    have hpast : ∀ a ∈ run, a.2 ≤ m.2 := fun a ha => hpast a ha m (by simp)
    rw [Machine.final_append, hfinal, Machine.along_append, hfinal, dockSamples_snoc]
    by_cases hdock : b.ofDock m
    · rw [if_pos hdock]
      exact ⟨battery, _, (after_dock _ _ _ hdock).1, fun ⟨halong, hcarries, _⟩ hpresent =>
        dock_supported (hsupported halong) hdock hcarries hpresent⟩
    · rw [if_neg hdock]
      obtain ⟨battery', present', hstep, hrests, -⟩ := after_other (b.dockSamples run)
        battery present hdock
      exact ⟨battery', present', hstep, fun ⟨halong, _⟩ hpresent => (hrests hpresent).supported (hsupported halong)⟩

/-- A presence that is carried over a gap is published without support. -/
theorem carried_unsupported (hpast : ∀ last ∈ samples.getLast?, last.receiptNs ≤ m.2) (hdock : b.ofDock m)
    (hbefore : present = true) (hstale : b.state.fresh samples.getLast? m.2 = false)
    (hvolts : (m.1.voltage.join.any fun v => b.state.chargerOffVoltage ≤ v && v ≤ b.state.chargerOnVoltage) = true)
    (hlaw : ∀ out ∈ (machine.step (b.after samples battery present) m).2, out.chargerEnabled = true →
      b.state.fresh (samples ++ [sample m]).getLast? m.2 = true ∧ b.state.Supported (samples ++ [sample m])) :
      False := by
  obtain ⟨v, hv, hrange⟩ : ∃ v, m.1.voltage = some (some v) ∧ b.state.chargerOffVoltage ≤ v ∧
    v ≤ b.state.chargerOnVoltage := by
    cases hvoltage : m.1.voltage.join with
    | none => simp [hvoltage] at hvolts
    | some v => exact ⟨v, Option.join_eq_some_iff.1 hvoltage, by simpa [hvoltage] using hvolts⟩
  have hpos : 0 < b.state.staleAfterNs := by
    have henabled := hdock.1
    simp only [enabled, PowerState.valid, Bool.and_eq_true, decide_eq_true_eq] at henabled
    exact henabled.2.1.1
  have hpresent : (b.after (samples ++ [sample m]) battery present).state.present m.2 = true := by
    refine PowerState.present_iff.2 ⟨sample m, List.getLast?_concat, ?_, v, hv, ?_⟩
    · rw [show (b.after (samples ++ [sample m]) battery present).state.dock = some (sample m) from
        List.getLast?_concat]
      exact PowerState.fresh_iff.2
        ⟨le_rfl, by rw [show m.2 - (sample m).receiptNs = 0 from sub_self _]; exact hpos.le⟩
    · change PowerState.holds _ v = true
      unfold PowerState.holds
      rw [if_pos (show (b.after (samples ++ [sample m]) battery present).state.chargerPresent = true from hbefore)]
      exact decide_eq_true (not_lt_of_ge hrange.1)
  obtain ⟨out, hsent, hcharger⟩ := (after_dock samples battery present hdock).2
  have hsupported := (hlaw out (by rw [show (machine.step _ m).2 = _ from hsent]; simp) (hcharger.trans hpresent)).2
  refine PowerState.not_supported _ (fun last hlast => ?_) ?_ hsupported
  · have hnot : ¬ (last.receiptNs ≤ m.2 ∧ m.2 - last.receiptNs ≤ b.state.staleAfterNs) := by
      rw [← PowerState.fresh_iff, ← hlast, hstale]
      decide
    have hle := hpast last hlast
    have hreceipt : (sample m).receiptNs = m.2 := rfl
    omega
  · rintro ⟨v', hv', hon⟩
    obtain rfl : v = v' := by simpa [hv] using (show m.1.voltage = some (some v') from hv')
    exact absurd hon (not_lt_of_ge hrange.2)

/-- A charger that the plugin publishes as enabled is fresh and supported by the dock samples so far. -/
def PresenceLaw (b : BatteryObserver) (run : List (BatteryStatus × Int)) : Prop :=
  ∀ pre m post, run = pre ++ m :: post → ∀ out ∈ (machine.step (machine.final b pre) m).2,
    out.chargerEnabled = true → b.state.fresh (b.dockSamples (pre ++ [m])).getLast? m.2 = true ∧
      b.state.Supported (b.dockSamples (pre ++ [m]))

/-- What the plugin publishes of the charger keeps the law exactly when no dock message of the run carries a
presence over a gap. -/
theorem charger_presence (dockBatteryInstance tractionBatteryInstance : Int)
    (observationTimeoutS chargerOnVoltage chargerOffVoltage : Rat) (run : List (BatteryStatus × Int))
    (h : run.Pairwise fun a b => a.2 ≤ b.2) :
    let b := ofParameters dockBatteryInstance tractionBatteryInstance observationTimeoutS chargerOnVoltage
      chargerOffVoltage
    b.PresenceLaw run ↔ machine.Along (fun b m => ¬ b.Carries m) b run := by
  intro b
  have hreached := fun pre hsorted => reached b rfl pre hsorted
  rw [Machine.along_iff]
  constructor
  · rintro hlaw pre m post rfl hcarries
    obtain ⟨hpre, -, hpast⟩ := List.pairwise_append.1 h
    obtain ⟨battery, present, hfinal, -⟩ := hreached pre hpre
    rw [hfinal] at hcarries
    obtain ⟨hdock, hbefore, hstale, hvolts⟩ := hcarries
    have hlaw := hlaw pre m post rfl
    rw [hfinal, dockSamples_snoc, if_pos (show b.ofDock m from hdock)] at hlaw
    exact carried_unsupported (sample_past fun a ha => hpast a ha m (by simp)) hdock hbefore hstale hvolts hlaw
  · rintro hcarries pre m post rfl out hout hcharger
    obtain ⟨hpre, -, hpast⟩ := List.pairwise_append.1 h
    obtain ⟨battery, present, hfinal, hsupported⟩ := hreached pre hpre
    have halong : machine.Along (fun b m => ¬ b.Carries m) b pre := Machine.along_iff.2 fun before a later heq =>
      hcarries before a (later ++ m :: post) (by rw [heq, List.append_assoc, List.cons_append])
    have hcarries := hcarries pre m post rfl
    rw [hfinal] at hout hcarries
    rw [dockSamples_snoc]
    by_cases hdock : b.ofDock m
    · rw [if_pos hdock]
      obtain ⟨_, hsent, hpresent⟩ := (after_dock (b.dockSamples pre) battery present hdock).2
      rw [show (machine.step _ m).2 = _ from hsent, List.mem_singleton] at hout
      rw [← hout, hcharger] at hpresent
      have hpresent := hpresent.symm
      exact ⟨(rests_of_present _ _ _ _ hpresent).1, dock_supported (hsupported halong) hdock hcarries hpresent⟩
    · rw [if_neg hdock]
      obtain ⟨_, _, _, _, hrests⟩ := after_other _ battery present hdock
      obtain ⟨hfresh, hrests⟩ := hrests out hout hcharger
      exact ⟨hfresh, hrests.supported (hsupported halong)⟩

/-- A battery of one cell with this voltage. -/
def volts (id : UInt8) (millivolts : UInt16) (stamp : Int) : BatteryStatus × Int :=
  ({ id := id, voltages := [millivolts] }, stamp)

/-- The traction battery reports while the dock is silent. -/
def watchedGap : List (BatteryStatus × Int) :=
  [volts 0 14100 1000000000, volts 1 28000 7000000000, volts 0 13500 7100000000, volts 0 14200 7200000000]

theorem charger_presence_watched :
    let b := ofParameters 0 1 5 14 13
    b.PresenceLaw watchedGap ∧
      (machine.log b watchedGap).map (·.chargerEnabled) = [true, false, false, false, true] :=
  ⟨(charger_presence 0 1 5 14 13 watchedGap (by simp [watchedGap, volts])).2 (by decide +kernel), by decide +kernel⟩

/-- Nobody reports for six seconds. -/
def silentGap : List (BatteryStatus × Int) := [volts 0 14100 1000000000, volts 0 13500 7000000000]

theorem silent_gap_carries :
    silentGap.Pairwise (fun a b => a.2 ≤ b.2) ∧ ¬ (ofParameters 0 1 5 14 13).PresenceLaw silentGap := by
  refine ⟨by simp [silentGap, volts], fun hlaw => ?_⟩
  have hany : (machine.step (machine.final (ofParameters 0 1 5 14 13) [volts 0 14100 1000000000])
      (volts 0 13500 7000000000)).2.any (·.chargerEnabled) = true := by decide +kernel
  obtain ⟨out, hout, hcharger⟩ := List.any_eq_true.1 hany
  have hsupported := (hlaw [volts 0 14100 1000000000] (volts 0 13500 7000000000) [] rfl out hout hcharger).2
  rw [show dockSamples _ _ = [sample (volts 0 14100 1000000000)] ++ [sample (volts 0 13500 7000000000)] by
    decide +kernel]
    at hsupported
  refine PowerState.not_supported [sample (volts 0 14100 1000000000)] ?_ ?_ hsupported
  · decide +kernel
  · rintro ⟨v, hv, hon⟩
    obtain rfl : (27 / 2 : Rat) = v := by
      have hvolts : (sample (volts 0 13500 7000000000)).voltage = some (some (27 / 2)) := by decide +kernel
      exact Option.some.inj (Option.some.inj (hvolts.symm.trans hv))
    exact absurd hon (by decide +kernel)

end BatteryObserver
end MowgliMavros
