import Mathlib.Data.Int.Order.Basic
import MowgliMavros.EscTelemetry
import MowgliMavros.Lib.Past

/-!
# What the ESC tracker remembers

The tracker keeps one sample a slot, and compares the stamp of an observation with it only when both are
of one source. Over a whole run this refuses exactly the observations that are `Outdated`: an accepted one
of the same source is later, and since then neither the other source nor an unset stamp has taken the slot
(`regresses_iff`). Every other one is shown whole (`tracker_outdated`).
-/

namespace MowgliMavros
namespace EscTelemetryTracker
open Past

/-- The arguments that `observe` refuses whatever the slot holds. -/
def Refused (timeoutNs : Int) (o : EscObservation) (nowNs : Int) : Prop :=
  o.escIndex ≥ 64 ∨ nowNs ≤ 0 ∨ timeoutNs ≤ 0 ∨ (o.source ≠ 1 ∧ o.source ≠ 2) ∨ o.stamp.ns > nowNs

/-- The slot holds a later sample of the same source. -/
def Regresses (t : EscTelemetryTracker) (o : EscObservation) : Prop :=
  (t.states o.escIndex.toNat).sample.source = o.source ∧ 0 < o.stamp.ns ∧
    o.stamp.ns < (t.states o.escIndex.toNat).lastUpdateNs

instance (timeoutNs : Int) (o : EscObservation) (nowNs : Int) : Decidable (Refused timeoutNs o nowNs) :=
  inferInstanceAs (Decidable (_ ∨ _))

instance (t : EscTelemetryTracker) (o : EscObservation) : Decidable (t.Regresses o) :=
  inferInstanceAs (Decidable (_ ∧ _))

def Accepts (t : EscTelemetryTracker) (o : EscObservation) (nowNs : Int) : Prop :=
  ¬ Refused t.timeoutNs o nowNs ∧ ¬ t.Regresses o

instance (t : EscTelemetryTracker) (o : EscObservation) (nowNs : Int) : Decidable (t.Accepts o nowNs) :=
  inferInstanceAs (Decidable (_ ∧ _))

/-- Observations without a reset; it tells which of them were accepted. -/
def machine : Machine EscTelemetryTracker (EscObservation × Int) EscObservation where
  step t x := (t.observe x.1 x.2, if t.Accepts x.1 x.2 then [x.1] else [])

def reach (timeoutNs : Int) (run : List (EscObservation × Int)) : EscTelemetryTracker :=
  machine.final { timeoutNs := timeoutNs } run

def accepted (timeoutNs : Int) (run : List (EscObservation × Int)) : List EscObservation :=
  machine.log { timeoutNs := timeoutNs } run

/-- A later observation of its source was accepted, and since then no observation of the other source and
none with an unset stamp. -/
def Outdated (log : List EscObservation) (o : EscObservation) : Prop :=
  0 < o.stamp.ns ∧ Was
    (fun _ a => a.escIndex = o.escIndex ∧ a.source = o.source ∧ o.stamp.ns < a.stamp.ns)
    (fun _ c => c.escIndex = o.escIndex ∧ ¬ (c.source = o.source ∧ 0 < c.stamp.ns)) log

/-- The stamp is set and within the timeout. -/
def Recent (timeoutNs nowNs stampNs : Int) : Prop := 0 < stampNs ∧ stampNs ≤ nowNs ∧ nowNs - stampNs ≤ timeoutNs

instance (timeoutNs nowNs stampNs : Int) : Decidable (Recent timeoutNs nowNs stampNs) :=
  inferInstanceAs (Decidable (_ ∧ _))

/-- The observation of the slot reports something. -/
def marks (slot : Nat) (o : EscObservation) : Bool :=
  o.escIndex.toNat = slot && (o.valid || o.temperatureValid || o.failureFlagsValid || o.errorCountValid)

/-- The slot with this observation for its sample: the values as they came, and every flag that was set as long
as its stamp is recent and its number finite. -/
def shown (timeoutNs : Int) (observed : Bool) (o : EscObservation) (atNs : Int) : EscState :=
  let online := o.valid && Recent timeoutNs atNs o.stamp.ns
  let metadata : Bool := Recent timeoutNs atNs o.metadataStamp.ns
  { sample := {
      source := o.source
      rpm := o.rpm
      voltage := o.voltage
      current := o.current
      totalcurrent := o.totalcurrent
      temperature := o.temperature
      count := o.count
      failureFlags := o.failureFlags
      errorCount := o.errorCount
      rpmValid := o.rpmValid && online
      voltageValid := o.voltageValid && o.voltage.isSome && online
      currentValid := o.currentValid && o.current.isSome && online
      totalcurrentValid := o.totalcurrentValid && o.totalcurrent.isSome && online
      countValid := o.countValid && online
      temperatureValid := o.temperatureValid && o.temperature.isSome && metadata
      failureFlagsValid := o.failureFlagsValid && metadata
      errorCountValid := o.errorCountValid && metadata }
    observed
    valid := o.valid && 0 < o.stamp.ns
    online
    stale := observed && !online
    ageMs := if 0 < o.stamp.ns ∧ o.stamp.ns ≤ atNs then (atNs - o.stamp.ns) / 1000000 else -1
    lastUpdateNs := o.stamp.ns
    metadataNs := o.metadataStamp.ns }

variable {t : EscTelemetryTracker} {o c : EscObservation} {nowNs : Int}

/-! ### One observation -/

theorem observe_accepted (h : t.Accepts o nowNs) : t.observe o nowNs =
    { t with
      states := fun i => if i = o.escIndex.toNat then record (t.states o.escIndex.toNat) o else t.states i } := by
  obtain ⟨hrefused, hregresses⟩ := h
  simp only [Refused, not_or] at hrefused
  obtain ⟨hindex, hnow, htimeout, hsource, hstamp⟩ := hrefused
  unfold observe
  rw [if_neg (by simp only [not_or]; exact ⟨hindex, hnow, htimeout, hsource⟩)]
  exact if_neg (by simp only [not_or]; exact ⟨hstamp, hregresses⟩)

theorem observe_not_accepted (h : ¬ t.Accepts o nowNs) : t.observe o nowNs = t := by
  unfold observe
  split
  · rfl
  · rename_i hargs
    refine if_pos ?_
    by_contra hno
    rw [not_or] at hno hargs
    refine h ⟨?_, hno.2⟩
    simp only [not_or] at hargs
    simp only [Refused, not_or]
    exact ⟨hargs.1, hargs.2.1, hargs.2.2.1, hargs.2.2.2, hno.1⟩

theorem observe_timeoutNs : (t.observe o nowNs).timeoutNs = t.timeoutNs := by
  by_cases h : t.Accepts o nowNs
  · rw [observe_accepted h]
  · rw [observe_not_accepted h]

/-- What comes after an accepted observation of the slot. -/
theorem regresses_accepted (h : t.Accepts c nowNs) : (t.observe c nowNs).Regresses o ↔
    if c.escIndex = o.escIndex then c.source = o.source ∧ 0 < o.stamp.ns ∧ o.stamp.ns < c.stamp.ns
    else t.Regresses o := by
  rw [observe_accepted h]
  by_cases hslot : c.escIndex = o.escIndex
  · rw [if_pos hslot]
    unfold Regresses
    rw [hslot]
    simp [record]
  · have hother : o.escIndex.toNat ≠ c.escIndex.toNat := fun he => hslot (UInt8.toNat_inj.1 he.symm)
    rw [if_neg hslot]
    unfold Regresses
    simp only [if_neg hother]

/-! ### Runs -/

theorem reach_timeoutNs (timeoutNs : Int) (run : List (EscObservation × Int)) :
    (reach timeoutNs run).timeoutNs = timeoutNs :=
  Machine.inv_final (m := machine) (A := fun _ _ => True) (I := fun t => t.timeoutNs = timeoutNs)
    (fun _ _ h _ => observe_timeoutNs.trans h) rfl (Machine.along_of_forall fun _ _ => trivial)

/-- One more accepted observation. The guard keeps the stamps of a source from falling while nothing
else takes the slot. -/
theorem outdated_snoc {log : List EscObservation} (hguard : ∀ o, t.Regresses o ↔ Outdated log o)
    (h : t.Accepts c nowNs) : Outdated (log ++ [c]) o ↔
      if c.escIndex = o.escIndex then c.source = o.source ∧ 0 < o.stamp.ns ∧ o.stamp.ns < c.stamp.ns
      else t.Regresses o := by
  rw [hguard o]
  unfold Outdated
  rw [was_snoc]
  by_cases hslot : c.escIndex = o.escIndex
  · rw [if_pos hslot]
    constructor
    · rintro ⟨hpos, ⟨-, hsource, hlater⟩ | ⟨hkept, hwas⟩⟩
      · exact ⟨hsource, hpos, hlater⟩
      · have hkept' : c.source = o.source ∧ 0 < c.stamp.ns := by
          by_contra hno
          exact hkept ⟨hslot, hno⟩
        obtain ⟨hsource, -, hlater⟩ := (hguard o).2 ⟨hpos, hwas⟩
        refine ⟨hkept'.1, hpos, ?_⟩
        by_contra hno
        have hback : c.stamp.ns < (t.states o.escIndex.toNat).lastUpdateNs := by omega
        refine h.2 ⟨?_, hkept'.2, ?_⟩
        · rw [hslot, hsource, hkept'.1]
        · rw [hslot]
          exact hback
    · rintro ⟨hsource, hpos, hlater⟩
      exact ⟨hpos, .inl ⟨hslot, hsource, hlater⟩⟩
  · simp [hslot]

theorem regresses_iff (timeoutNs : Int) (run : List (EscObservation × Int)) (o : EscObservation) :
    (reach timeoutNs run).Regresses o ↔ Outdated (accepted timeoutNs run) o := by
  have hstart : ∀ o, ({ timeoutNs := timeoutNs } : EscTelemetryTracker).Regresses o ↔ Outdated [] o := by
    intro o
    refine iff_of_false ?_ ?_
    · rintro ⟨-, hpos, hback⟩
      exact absurd hback (Int.not_lt.2 (Int.le_of_lt hpos))
    · rintro ⟨-, hwas⟩
      exact not_was_nil hwas
  have halong : machine.Along (fun _ _ => True) { timeoutNs := timeoutNs } run :=
    Machine.along_of_forall fun _ _ => trivial
  have hrun := Machine.history (m := machine) (A := fun _ _ => True)
    (H := fun log t => ∀ o, Regresses t o ↔ Outdated log o) ?_ hstart
    halong
  · exact hrun o
  intro log t x hguard _ o
  show (t.observe x.1 x.2).Regresses o ↔ Outdated (log ++ if t.Accepts x.1 x.2 then [x.1] else []) o
  by_cases haccepts : t.Accepts x.1 x.2
  · rw [if_pos haccepts, regresses_accepted haccepts, outdated_snoc hguard haccepts]
  · rw [if_neg haccepts, observe_not_accepted haccepts, List.append_nil]
    exact hguard o

/-- A slot has been observed once an accepted observation of it reported something. -/
theorem observed_iff (timeoutNs : Int) (run : List (EscObservation × Int)) (slot : Nat) :
    ((reach timeoutNs run).states slot).observed = (accepted timeoutNs run).any (marks slot) := by
  refine Machine.history (m := machine) (A := fun _ _ => True) (l := [])
    (H := fun log t => (t.states slot).observed = log.any (marks slot)) ?_ rfl
    (Machine.along_of_forall fun _ _ => trivial)
  intro log t x h _
  show ((t.observe x.1 x.2).states slot).observed = (log ++ if t.Accepts x.1 x.2 then [x.1] else []).any (marks slot)
  by_cases haccepts : t.Accepts x.1 x.2
  · rw [if_pos haccepts, observe_accepted haccepts, List.any_append, ← h]
    by_cases hslot : slot = x.1.escIndex.toNat
    · simp [marks, record, hslot, Bool.or_assoc]
    · simp [marks, hslot, Ne.symm hslot]
  · rw [if_neg haccepts, observe_not_accepted haccepts, List.append_nil]
    exact h

theorem fresh_eq (stampNs atNs : Int) : t.fresh stampNs atNs = decide (Recent t.timeoutNs atNs stampNs) := by
  rw [Bool.eq_iff_iff, decide_eq_true_iff]
  simp [fresh, Recent, and_assoc]

theorem project_record {slot : Nat} (hslot : slot < 64) (state : EscState) (o : EscObservation) (atNs : Int)
    (hstate : t.states slot = record state o) :
    t.project slot atNs = shown t.timeoutNs
      (state.observed || (o.valid || o.temperatureValid || o.failureFlagsValid || o.errorCountValid)) o atNs := by
  have honline : (o.valid && decide (o.stamp.ns > 0) && decide (Recent t.timeoutNs atNs o.stamp.ns)) =
      (o.valid && decide (Recent t.timeoutNs atNs o.stamp.ns)) := by
    by_cases hrecent : Recent t.timeoutNs atNs o.stamp.ns
    · simp [hrecent, hrecent.1]
    · simp [hrecent]
  unfold project
  rw [if_neg (Nat.not_le.2 hslot), hstate]
  simp only [record, fresh_eq, honline, shown, Bool.or_assoc, gt_iff_lt, ge_iff_le]

/-- An outdated observation changes nothing; every other one that is not refused outright is from then on what its
slot shows, and the other slots stay. -/
theorem tracker_outdated (timeoutNs : Int) (run : List (EscObservation × Int)) (o : EscObservation) (nowNs : Int) :
    (Outdated (accepted timeoutNs run) o → (reach timeoutNs run).observe o nowNs = reach timeoutNs run) ∧
      (¬ Outdated (accepted timeoutNs run) o → ¬ Refused timeoutNs o nowNs → ∀ atNs,
        ((reach timeoutNs run).observe o nowNs).project o.escIndex.toNat atNs =
            shown timeoutNs ((accepted timeoutNs run ++ [o]).any (marks o.escIndex.toNat)) o atNs ∧
          ∀ slot, slot ≠ o.escIndex.toNat → ((reach timeoutNs run).observe o nowNs).project slot atNs =
            (reach timeoutNs run).project slot atNs) := by
  rw [← regresses_iff]
  constructor
  · intro hback
    exact observe_not_accepted fun haccepts => haccepts.2 hback
  · intro hfresh hargs atNs
    have haccepts : (reach timeoutNs run).Accepts o nowNs := by
      refine ⟨?_, hfresh⟩
      rwa [reach_timeoutNs]
    have hslot : o.escIndex.toNat < 64 := by
      rw [← Nat.not_le]
      intro hslot
      exact hargs (.inl (UInt8.le_iff_toNat_le.2 hslot))
    rw [observe_accepted haccepts]
    constructor
    · rw [project_record hslot _ o atNs (if_pos rfl), observed_iff, List.any_append]
      simp [marks, reach_timeoutNs]
    · intro slot hother
      simp [project, fresh, hother]

def common (sec : Int) : EscObservation where
  escIndex := 2
  stamp := ⟨sec, 0⟩
  metadataStamp := ⟨0, 0⟩
  valid := true
  source := 1

theorem tracker_outdated_common :
    (reach 3000000000 [(common 2, 3000000000)]).observe (common 1) 3000000000 =
      reach 3000000000 [(common 2, 3000000000)] := by
  refine (tracker_outdated 3000000000 [(common 2, 3000000000)] (common 1) 3000000000).1 ⟨by decide, common 2, ?_⟩
  have haccepted : accepted 3000000000 [(common 2, 3000000000)] = [common 2] := by decide
  rw [haccepted]
  exact ⟨[], [], rfl, by decide, Machine.throughout_nil⟩

/-- An unset stamp forgets the second second, and the first one is shown again. -/
theorem unset_stamp_forgets :
    common 2 ∈ accepted 3000000000 [(common 2, 3000000000), (common 0, 3000000000)] ∧
      (((reach 3000000000 [(common 2, 3000000000), (common 0, 3000000000)]).observe (common 1) 3000000000).project 2
        3000000000).lastUpdateNs = (common 1).stamp.ns := by
  decide

end EscTelemetryTracker
end MowgliMavros
