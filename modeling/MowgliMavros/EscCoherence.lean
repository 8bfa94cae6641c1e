import MowgliMavros.Lib.Past
import MowgliMavros.ObservationSpec

/-!
# The validity flags of the ESC reports

`esc` takes a report from one of three stores, and `settle` clears the flags of a report that is not
valid, except for `rpmDirectionValid`. Every handler keeps what it is about: each stamp in the stores is
that of a message of the connection (`Sourced`). The flags of a report are coherent but for a COMMON
sample that is no longer good and has no legacy sample beside it (`esc_coherent_iff`).
-/

namespace MowgliMavros
namespace Odometry
open Past

/-- The message has a sample of the slot. -/
def Call.Feeds (source : EscSource) (slot : Nat) : Call → Prop
  | .commonStatus packet => source = .common ∧ ∃ i : Fin 4, slot = packet.index + i
  | .legacyEsc packet => source = .ardupilotLegacy ∧ ∃ i : Fin 4, slot = packet.index + i
  | _ => False

def Call.isConnection : Call → Bool
  | .connection _ => true
  | _ => false

/-- The run has a message with a sample of the slot at this time, and the connection did not change since. -/
def Sampled (run : List (Call × Int)) (source : EscSource) (slot : Nat) (stampNs : Int) : Prop :=
  ∃ c, Since (fun _ c => c.1.Feeds source slot) (fun _ c => c.1.isConnection = true) run (c, stampNs)

section Sampled
variable {run : List (Call × Int)} {c : Call × Int} {source : EscSource} {slot : Nat} {stampNs : Int}

theorem Sampled.snoc (h : Sampled run source slot stampNs) (hc : c.1.isConnection = false) :
    Sampled (run ++ [c]) source slot stampNs := by
  obtain ⟨d, hd⟩ := h
  exact ⟨d, since_snoc.2 (.inr ⟨by simp [hc], hd⟩)⟩

theorem Sampled.last (h : c.1.Feeds source slot) : Sampled (run ++ [c]) source slot c.2 :=
  ⟨c.1, since_snoc.2 (.inl ⟨rfl, h⟩)⟩

end Sampled

namespace ObservationEngine
variable {e e' : ObservationEngine} {P P' : EscSource → Nat → Int → Prop} {receipt now : Int}

/-! ### What the handlers keep -/

/-- A COMMON sample has a direction, and its stamp has the property. -/
def Measured (P : Int → Prop) (s : Status) : Prop :=
  s.seen = true → s.data.source = .common ∧ s.data.rpmDirectionValid = true ∧ P s.data.stampNs

/-- The stamps of the stores have the property, and the sources and directions are those of the store. -/
structure Sourced (P : EscSource → Nat → Int → Prop) (e : ObservationEngine) : Prop where
  common : ∀ slot, Measured (P .common slot) (e.status slot)
  direction : ∀ slot, (e.legacyEsc slot).data.rpmDirectionValid = false
  legacy : ∀ slot, (e.legacyEsc slot).data.valid = true → (e.legacyEsc slot).data.source = .ardupilotLegacy ∧
    P .ardupilotLegacy slot (e.legacyEsc slot).data.stampNs

namespace Sourced

theorem mono (h : e.Sourced P) (hP : ∀ source slot stampNs, P source slot stampNs → P' source slot stampNs) :
    e.Sourced P' where
  common slot hseen := (h.common slot hseen).imp_right fun hslot => hslot.imp_right (hP _ _ _)
  direction := h.direction
  legacy slot hvalid := (h.legacy slot hvalid).imp_right (hP _ _ _)

/-- Only the two stores matter. -/
theorem congr (h : e.Sourced P) (hstatus : e'.status = e.status) (hlegacy : e'.legacyEsc = e.legacyEsc) :
    e'.Sourced P where
  common := by
    rw [hstatus]
    exact h.common
  direction := by
    rw [hlegacy]
    exact h.direction
  legacy := by
    rw [hlegacy]
    exact h.legacy

theorem of_reports (h : e.Sourced P) (hreports : e'.reports = e.reports) : e'.Sourced P :=
  h.congr (congrArg (·.status) hreports) (congrArg (·.legacyEsc) hreports)

/-- Without COMMON samples. -/
theorem dropped (h : e.Sourced P) (hstatus : e'.status = fun _ => {}) (hlegacy : e'.legacyEsc = e.legacyEsc) :
    e'.Sourced P where
  common slot hseen := by
    rw [hstatus] at hseen
    cases hseen
  direction := by
    rw [hlegacy]
    exact h.direction
  legacy := by
    rw [hlegacy]
    exact h.legacy

theorem fresh (hstatus : e.status = fun _ => {}) (hlegacy : e.legacyEsc = fun _ => {}) : e.Sourced P where
  common slot hseen := by
    rw [hstatus] at hseen
    cases hseen
  direction slot := by
    rw [hlegacy]
  legacy slot hvalid := by
    rw [hlegacy] at hvalid
    cases hvalid

end Sourced

theorem receiveClock_sourced (h : e.Sourced P) (receipt : Int) : (e.receiveClock receipt).Sourced P := by
  unfold receiveClock
  split
  · exact .fresh rfl rfl
  · exact h.congr rfl rfl

theorem acceptCommonStatus_sourced {a : ObservationEngine} {component : UInt8} (h : e.Sourced P)
    (haccept : e.acceptCommonStatus component receipt = some a) : a.Sourced P := by
  obtain ⟨-, rfl⟩ | rfl := acceptCommonStatus_cases haccept
  · exact h.congr rfl rfl
  · exact h.dropped rfl rfl

theorem acceptCommonInfo_sourced {a : ObservationEngine} {component : UInt8} (h : e.Sourced P)
    (haccept : e.acceptCommonInfo component = some a) : a.Sourced P := by
  obtain ⟨-, rfl⟩ | ⟨-, rfl⟩ := acceptCommonInfo_cases haccept
  · exact h.congr rfl rfl
  · exact h.dropped rfl rfl

theorem restartCommon_sourced (h : e.Sourced P) (packet : CommonStatusPacket) :
    (e.restartCommon packet).Sourced P := by
  unfold restartCommon
  split
  · exact h.dropped rfl rfl
  · exact h

theorem recordSlot_sourced {packet : CommonStatusPacket} {i : Fin 4} (h : e.Sourced P)
    (hP : P .common (packet.index + i) receipt) : (e.recordSlot packet receipt i).Sourced P := by
  obtain ⟨_, _, hframe⟩ := recordSlot_frame (e := e) packet receipt i
  have hlegacy : (e.recordSlot packet receipt i).legacyEsc = e.legacyEsc := by rw [hframe]
  refine ⟨?_, by rw [hlegacy]; exact h.direction, by rw [hlegacy]; exact h.legacy⟩
  intro slot
  rw [recordSlot_status]
  by_cases hslot : slot = packet.index + i
  · subst hslot
    rw [Function.update_self]
    unfold recorded
    dsimp only
    split
    · exact fun _ => ⟨rfl, rfl, hP⟩
    · split
      · exact h.common (packet.index + i)
      · exact h.common (packet.index + i)
  · rw [Function.update_of_ne hslot]
    exact h.common slot

theorem recordStatus_sourced {packet : CommonStatusPacket} (h : e.Sourced P)
    (hP : ∀ i : Fin 4, P .common (packet.index + i) receipt) : (e.recordStatus packet receipt).Sourced P := by
  refine List.foldlRecOn _ _ (motive := fun (e' : ObservationEngine) => e'.Sourced P) h ?_
  intro e' h' i _
  exact recordSlot_sourced h' (hP i)

theorem trimCount_sourced (h : e.Sourced P) (count : Nat) : (e.trimCount count).Sourced P := by
  refine ⟨?_, h.direction, h.legacy⟩
  intro slot
  unfold trimCount
  dsimp only
  split
  · exact h.common slot
  · exact h.common slot

theorem recordLegacy_sourced {packet : LegacyEscPacket} {i : Fin 4} (h : e.Sourced P)
    (hP : P .ardupilotLegacy (packet.index + i) receipt) : (e.recordLegacy packet receipt i).Sourced P := by
  unfold recordLegacy
  dsimp only
  split
  · exact h
  · refine ⟨h.common, ?_, ?_⟩
    · intro slot
      by_cases hslot : slot = packet.index + i
      · subst hslot
        simp [LegacyEscPacket.data]
      · simpa [Function.update_of_ne hslot] using h.direction slot
    · intro slot hvalid
      by_cases hslot : slot = packet.index + i
      · subst hslot
        simp only [Function.update_self, LegacyEscPacket.data, Bool.or_eq_true] at hvalid ⊢
        refine ⟨trivial, ?_⟩
        split
        · exact hP
        · rename_i hstill
          exact (h.legacy _ (hvalid.resolve_left hstill)).2
      · simp only [Function.update_of_ne hslot] at hvalid ⊢
        exact h.legacy slot hvalid

theorem commonStatus_sourced {packet : CommonStatusPacket} (h : e.Sourced P)
    (hP : ∀ i : Fin 4, P .common (packet.index + i) receipt) : (e.commonStatus packet receipt).1.Sourced P := by
  unfold commonStatus
  split
  · exact h
  · have hclock := receiveClock_sourced h receipt
    dsimp only
    split
    · exact hclock
    · rename_i a haccept
      have hrestart := restartCommon_sourced (acceptCommonStatus_sourced hclock haccept) packet
      exact (recordStatus_sourced hrestart hP).of_reports (by simp)

theorem commonInfo_sourced (h : e.Sourced P) (packet : CommonInfoPacket) (receipt : Int) :
    (e.commonInfo packet receipt).Sourced P := by
  unfold commonInfo
  split
  · exact h
  · have hclock := receiveClock_sourced h receipt
    dsimp only
    split
    · exact hclock
    · rename_i a haccept
      have ha := acceptCommonInfo_sourced hclock haccept
      split
      · obtain ⟨_, hframe⟩ := a.restartInfo_frame packet
        have hrestarted : (a.restartInfo packet).Sourced P := ha.congr (by rw [hframe]) (by rw [hframe])
        exact hrestarted.of_reports (by simp)
      · obtain ⟨_, hframe⟩ := a.recordInfo_frame packet receipt
        have hrecorded : (a.recordInfo packet receipt).Sourced P :=
          (trimCount_sourced ha packet.count).congr (by rw [hframe]) (by rw [hframe])
        exact hrecorded.of_reports (by simp)

theorem legacyEscTelemetry_sourced {packet : LegacyEscPacket} (h : e.Sourced P)
    (hP : ∀ i : Fin 4, P .ardupilotLegacy (packet.index + i) receipt) :
    (e.legacyEscTelemetry packet receipt).Sourced P := by
  unfold legacyEscTelemetry
  split
  · exact h
  · refine List.foldlRecOn _ _ (motive := fun (e' : ObservationEngine) => e'.Sourced P) ?_ ?_
    · exact (receiveClock_sourced h receipt).congr rfl rfl
    · intro e' h' i _
      exact recordLegacy_sourced h' (hP i)

theorem legacyRpm_sourced (h : e.Sourced P) (left right : Option Rat) (receipt : Int) :
    (e.legacyRpm left right receipt).1.Sourced P := by
  unfold legacyRpm
  split
  · exact h
  · have hclock := receiveClock_sourced h receipt
    dsimp only
    split
    · obtain ⟨_, _, hframe⟩ := (e.receiveClock receipt).receiveLegacy_frame _ receipt
      rw [hframe]
      refine Sourced.of_reports ?_ ((driveLegacy_reports _ _).trans (reselect_reports _ _))
      exact hclock.congr rfl rfl
    · refine Sourced.of_reports ?_ (reselect_reports _ _)
      exact hclock.congr rfl rfl

theorem wheelDistance_sourced (h : e.Sourced P) (packet : DistancePacket) (receipt : Int) :
    (e.wheelDistance packet receipt).1.Sourced P := by
  unfold wheelDistance
  split
  · exact h
  · have hclock := receiveClock_sourced h receipt
    dsimp only
    split
    · exact hclock
    · rename_i a haccept
      have ha := hclock.of_reports (acceptDistance_reports haccept)
      split
      · exact ha.of_reports (by simp)
      · exact ha.of_reports (by simp)

theorem replace_sourced (h : e.Sourced P) (config : ValidConfig) (t : Int) (retain : Bool) :
    (e.replace config t retain).Sourced P := by
  unfold replace retainEscObservations
  dsimp only
  refine ⟨?_, h.direction, h.legacy⟩
  intro slot
  dsimp only
  split
  · exact h.common slot
  · intro hseen
    cases hseen

/-- Every call keeps the sources of the stamps; its own are of its message. -/
theorem step_sourced {run : List (Call × Int)} (h : e.Sourced (Sampled run)) (c : Call × Int) :
    (e.step c).1.Sourced (Sampled (run ++ [c])) := by
  have hmono (hc : c.1.isConnection = false) : e.Sourced (Sampled (run ++ [c])) :=
    h.mono fun _ _ _ hs => hs.snoc hc
  obtain ⟨call, t⟩ := c
  cases call with
  | commonStatus packet =>
    exact commonStatus_sourced (hmono rfl) fun i => .last (c := (.commonStatus packet, t)) ⟨rfl, i, rfl⟩
  | commonInfo packet => exact commonInfo_sourced (hmono rfl) packet t
  | legacyEsc packet =>
    exact legacyEscTelemetry_sourced (hmono rfl) fun i => .last (c := (.legacyEsc packet, t)) ⟨rfl, i, rfl⟩
  | legacyRpm left right => exact legacyRpm_sourced (hmono rfl) left right t
  | wheelDistance packet => exact wheelDistance_sourced (hmono rfl) packet t
  | poll => exact (receiveClock_sourced (hmono rfl) t).of_reports (reselect_reports _ t)
  | connection connected => exact .fresh rfl rfl
  | replace config retain => exact replace_sourced (hmono rfl) config t retain

end ObservationEngine

section Runs
open ObservationEngine

theorem reach_sourced (config : ValidConfig) (run : List (Call × Int)) :
    (reach config run).Sourced (Sampled run) := by
  induction run using List.reverseRecOn with
  | nil => exact .fresh rfl rfl
  | append_singleton run c ih =>
    rw [reach_snoc]
    exact step_sourced ih c

/-! ### The reports -/

/-- The report is of an ESC_INFO that is fresh, not contradicted and inside the announced count. -/
def InfoOnly (e : ObservationEngine) (index : Nat) (now : Int) : Prop :=
  e.connected = true ∧ index < 64 ∧ (e.status index).seen = false ∧ ¬ e.HasLegacy index ∧ e.InfoFresh index now ∧
    e.Counted index

/-- The slot has a COMMON sample that is stale, contradicted or outside the announced count, and no legacy one. -/
def StaleCommon (e : ObservationEngine) (index : Nat) (now : Int) : Prop :=
  e.connected = true ∧ index < 64 ∧ (e.status index).seen = true ∧ ¬ e.HasLegacy index ∧
    ¬ ((e.status index).data.valid = true ∧ e.Counted index ∧ e.Fresh (e.status index).data.stampNs now)

/-- The flags of a report of a slot. -/
structure Coherent (run : List (Call × Int)) (e : ObservationEngine) (index : Nat) (now : Int)
    (d : EscObservationData) : Prop where
  invalid : d.valid = false → d.rpmValid = false ∧ d.rpmDirectionValid = false ∧ d.voltageValid = false ∧
    d.currentValid = false ∧ d.totalcurrentValid = false ∧ d.countValid = false
  informed : d.valid = false → d.temperatureValid = true ∨ d.failureFlagsValid = true ∨ d.errorCountValid = true →
    InfoOnly e index now
  valid : d.valid = true → e.connected = true ∧ e.Fresh d.stampNs now ∧ Sampled run d.source index d.stampNs

section Report
variable {e : ObservationEngine} {index : Nat} {now : Int} {P : EscSource → Nat → Int → Prop}

theorem Coherent.of_valid {run : List (Call × Int)} {d : EscObservationData} (hvalid : d.valid = true)
    (h : e.connected = true ∧ e.Fresh d.stampNs now ∧ Sampled run d.source index d.stampNs) :
    Coherent run e index now d := by
  have hno (h : d.valid = false) : False := by
    rw [hvalid] at h
    cases h
  exact ⟨fun h => (hno h).elim, fun h => (hno h).elim, fun _ => h⟩

theorem Coherent.none (run : List (Call × Int)) : Coherent run e index now { index := index } := by
  constructor
  · intro _
    exact ⟨rfl, rfl, rfl, rfl, rfl, rfl⟩
  · rintro _ (h | h | h) <;> cases h
  · intro h
    cases h

/-- A report without a direction is coherent once it is settled. -/
theorem Coherent.settle {run : List (Call × Int)} {d : EscObservationData} (hdirection : d.rpmDirectionValid = false)
    (hvalid : d.valid = true → e.connected = true ∧ e.Fresh d.stampNs now ∧ Sampled run d.source index d.stampNs) :
    Coherent run e index now d.settle := by
  unfold EscObservationData.settle
  split
  · rename_i hd
    exact .of_valid hd (hvalid hd)
  · rename_i hd
    constructor
    · intro _
      exact ⟨rfl, hdirection, rfl, rfl, rfl, rfl⟩
    · rintro _ (h | h | h) <;> cases h
    · intro h
      exact absurd h hd

/-- A fresh COMMON sample. -/
theorem esc_common (hconnected : e.connected = true) (hindex : index < 64)
    (h : (e.status index).seen = true ∧ (e.status index).data.valid = true ∧ e.Counted index ∧
      e.Fresh (e.status index).data.stampNs now) :
    (e.esc index now).valid = true ∧ (e.esc index now).stampNs = (e.status index).data.stampNs ∧
      (e.esc index now).source = (e.status index).data.source := by
  unfold esc
  rw [if_neg (by simp [hconnected, hindex])]
  dsimp only
  rw [if_pos h]
  split
  · exact ⟨h.2.1, rfl, rfl⟩
  · exact ⟨h.2.1, rfl, rfl⟩

/-- The stores without a fresh COMMON sample. -/
theorem esc_rest (hconnected : e.connected = true) (hindex : index < 64)
    (h : ¬ ((e.status index).seen = true ∧ (e.status index).data.valid = true ∧ e.Counted index ∧
      e.Fresh (e.status index).data.stampNs now)) :
    (e.HasLegacy index ∧ e.esc index now = ({ (e.legacyEsc index).data with
        valid := (e.legacyEsc index).data.valid && e.Fresh (e.legacyEsc index).data.stampNs now } :
        EscObservationData).settle) ∨
      ¬ e.HasLegacy index ∧ (e.status index).seen = true ∧
        e.esc index now = ({ (e.status index).data with valid := false } : EscObservationData).settle ∨
      ¬ e.HasLegacy index ∧ (e.status index).seen = false ∧ e.InfoFresh index now ∧ e.Counted index ∧
        e.esc index now = (e.info index).annotate { index := index, source := .common } ∨
      ¬ e.HasLegacy index ∧ (e.status index).seen = false ∧ ¬ (e.InfoFresh index now ∧ e.Counted index) ∧
        e.esc index now = ({ index := index } : EscObservationData).settle := by
  unfold esc
  rw [if_neg (by simp [hconnected, hindex])]
  dsimp only
  rw [if_neg h]
  by_cases hlegacy : e.HasLegacy index
  · rw [if_pos hlegacy, if_neg (fun hinfo => hinfo.2.2.2 hlegacy)]
    exact .inl ⟨hlegacy, rfl⟩
  · rw [if_neg hlegacy]
    by_cases hseen : (e.status index).seen = true
    · rw [if_pos hseen, if_neg (fun hinfo => hinfo.1 hseen)]
      exact .inr (.inl ⟨hlegacy, hseen, rfl⟩)
    · have hunseen : (e.status index).seen = false := by simpa using hseen
      rw [if_neg hseen]
      by_cases hinfo : e.InfoFresh index now ∧ e.Counted index
      · rw [if_pos ⟨hseen, hinfo.1, hinfo.2, hlegacy⟩]
        exact .inr (.inr (.inl ⟨hlegacy, hunseen, hinfo.1, hinfo.2, rfl⟩))
      · rw [if_neg (fun hall => hinfo ⟨hall.2.1, hall.2.2.1⟩)]
        exact .inr (.inr (.inr ⟨hlegacy, hunseen, hinfo, rfl⟩))

/-- Without a connection, or from slot 64 on, there is no report. -/
theorem esc_none (h : ¬ (e.connected = true ∧ index < 64)) : e.esc index now = { index := index } := by
  unfold esc
  rw [if_pos]
  by_contra hno
  push Not at hno
  exact h ⟨by simpa using hno.1, hno.2⟩

/-- A COMMON sample that is no longer good keeps the flag of its direction. -/
theorem esc_stale (hsourced : e.Sourced P) (h : StaleCommon e index now) :
    (e.esc index now).valid = false ∧ (e.esc index now).rpmDirectionValid = true := by
  obtain ⟨hconnected, hindex, hseen, hlegacy, hbad⟩ := h
  rcases esc_rest hconnected hindex (fun hgood => hbad hgood.2) with
    ⟨hhas, -⟩ | ⟨-, -, heq⟩ | ⟨-, hunseen, -⟩ | ⟨-, hunseen, -⟩
  · exact absurd hhas hlegacy
  · rw [heq]
    exact ⟨rfl, (hsourced.common index hseen).2.1⟩
  · rw [hseen] at hunseen
    cases hunseen
  · rw [hseen] at hunseen
    cases hunseen

/-- Every other report is coherent. -/
theorem esc_coherent {run : List (Call × Int)} (hsourced : e.Sourced (Sampled run))
    (hstale : ¬ StaleCommon e index now) : Coherent run e index now (e.esc index now) := by
  by_cases hthere : e.connected = true ∧ index < 64
  · obtain ⟨hconnected, hindex⟩ := hthere
    by_cases hgood : (e.status index).seen = true ∧ (e.status index).data.valid = true ∧ e.Counted index ∧
        e.Fresh (e.status index).data.stampNs now
    · obtain ⟨hvalid, hstamp, hsource⟩ := esc_common hconnected hindex hgood
      obtain ⟨hcommon, -, hsampled⟩ := hsourced.common index hgood.1
      refine .of_valid hvalid ?_
      rw [hstamp, hsource, hcommon]
      exact ⟨hconnected, hgood.2.2.2, hsampled⟩
    · rcases esc_rest hconnected hindex hgood with
        ⟨-, heq⟩ | ⟨hlegacy, hseen, -⟩ | ⟨hlegacy, hunseen, hinfo, hcounted, heq⟩ | ⟨-, -, -, heq⟩
      · rw [heq]
        refine .settle (hsourced.direction index) ?_
        intro h
        obtain ⟨hvalid, hfresh⟩ := Bool.and_eq_true_iff.1 h
        obtain ⟨hsource, hsampled⟩ := hsourced.legacy index hvalid
        dsimp only
        rw [hsource]
        exact ⟨hconnected, of_decide_eq_true hfresh, hsampled⟩
      · exact absurd ⟨hconnected, hindex, hseen, hlegacy, fun hall => hgood ⟨hseen, hall⟩⟩ hstale
      · rw [heq]
        constructor
        · intro _
          exact ⟨rfl, rfl, rfl, rfl, rfl, rfl⟩
        · intro _ _
          exact ⟨hconnected, hindex, hunseen, hlegacy, hinfo, hcounted⟩
        · intro h
          cases h
      · rw [heq]
        exact .settle rfl (by simp)
  · rw [esc_none hthere]
    exact .none run

end Report

/-- The report of every slot is coherent, unless it is of a COMMON sample that is no longer good. -/
theorem esc_coherent_iff (config : ValidConfig) (run : List (Call × Int)) (index : Nat) (now : Int) :
    Coherent run (reach config run) index now ((reach config run).esc index now) ↔
      ¬ StaleCommon (reach config run) index now := by
  have hsourced := reach_sourced config run
  constructor
  · intro h hstale
    obtain ⟨hvalid, hdirection⟩ := esc_stale hsourced hstale
    rw [(h.invalid hvalid).2.1] at hdirection
    cases hdirection
  · intro hstale
    exact esc_coherent hsourced hstale

/-- An ESC_STATUS of the first four slots at 60 revolutions a minute. -/
def turning : CommonStatusPacket where
  timeUs := 1000000
  componentId := 1
  index := 0
  rpm := fun _ => 60
  voltage := fun _ => some 25
  current := fun _ => some 1

/-- A COMMON sample of a minute ago: the report is not valid, but its direction is. -/
theorem stale_direction_stays_valid :
    ((reach bothWheels [(.connection true, 1), (.commonStatus turning, 1000000000)]).esc 0 60000000000).valid =
    false ∧
      ((reach bothWheels [(.connection true, 1), (.commonStatus turning, 1000000000)]).esc 0
        60000000000).rpmDirectionValid = true := by
  decide +kernel

end Runs
end Odometry
end MowgliMavros
