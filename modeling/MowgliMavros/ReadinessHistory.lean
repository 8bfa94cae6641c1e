import MowgliMavros.Lib.Past
import MowgliMavros.ReadinessState

/-!
# The readiness as a function of what was received

A report counts while the FCU is connected; a change of the connection forgets every report. Of the GNSS
statuses one counts that is of another incarnation than the last one that did, of a later sequence, or late
enough for that one to have expired. What is projected is determined by the last report of each source that
counts (`readiness_shown`).
-/

namespace MowgliMavros
namespace ReadinessHistory
open Past

def IsConnection : ReadinessCall → Prop
  | .connection _ => True
  | _ => False

def IsImu : ReadinessCall → Prop
  | .imu _ => True
  | _ => False

def IsGnss : ReadinessCall → Prop
  | .gnss _ _ _ _ => True
  | _ => False

def IsWheel : ReadinessCall → Prop
  | .wheel _ => True
  | _ => False

def IsTraction : ReadinessCall → Prop
  | .traction _ _ => True
  | _ => False

/-- The time of a report. -/
def receiptNs : ReadinessCall → Int
  | .connection _ => 0
  | .imu receiptNs | .gnss receiptNs _ _ _ | .wheel receiptNs | .traction receiptNs _ => receiptNs

def Valid : ReadinessCall → Prop
  | .gnss _ _ _ valid | .traction _ valid => valid = true
  | _ => True

section History
variable {kind : ReadinessCall → Prop} {log : List ReadinessCall} {a e : ReadinessCall} {timeoutNs now : Int}

/-- The last report of a source since the connection changed. -/
def Last (kind : ReadinessCall → Prop) : List ReadinessCall → ReadinessCall → Prop :=
  Since (fun _ => kind) fun _ e => kind e ∨ IsConnection e

def Connected : List ReadinessCall → Prop := Was (fun _ e => e = .connection true) fun _ => IsConnection

/-- What counts after the calls that did. -/
def Takes (timeoutNs : Int) (log : List ReadinessCall) : ReadinessCall → Prop
  | .connection connected => ¬ (Connected log ↔ connected = true)
  | .imu receiptNs | .wheel receiptNs | .traction receiptNs _ => Connected log ∧ 0 < receiptNs
  | .gnss receiptNs sequence incarnation _ =>
    Connected log ∧ 0 < receiptNs ∧ sequence ≠ 0 ∧ incarnation ≠ "" ∧
      ∀ receiptNs' sequence' valid', Last IsGnss log (.gnss receiptNs' sequence' incarnation valid') →
        sequence' < sequence ∨ timeoutNs < receiptNs - receiptNs'

def Recent (timeoutNs now : Int) (e : ReadinessCall) : Prop := receiptNs e ≤ now ∧ now - receiptNs e ≤ timeoutNs

/-- The last report of the source is recent. -/
def Fresh (timeoutNs now : Int) (kind : ReadinessCall → Prop) (log : List ReadinessCall) : Prop :=
  ∃ e, Last kind log e ∧ Recent timeoutNs now e

/-- The last report of the source says that it is valid. -/
def LastValid (kind : ReadinessCall → Prop) (log : List ReadinessCall) : Prop := ∃ e, Last kind log e ∧ Valid e

/-- The last report of any source since the connection changed. -/
def statusNs (log : List ReadinessCall) : Int := (log.getLast?.map receiptNs).getD 0

theorem last_snoc : Last kind (log ++ [a]) e ↔ a = e ∧ kind a ∨ ¬ (kind a ∨ IsConnection a) ∧ Last kind log e :=
  since_snoc

theorem connected_snoc : Connected (log ++ [a]) ↔ a = .connection true ∨ ¬ IsConnection a ∧ Connected log := was_snoc

theorem last_kind (h : Last kind log e) : kind e := by
  obtain ⟨-, -, -, hkind, -⟩ := h
  exact hkind

theorem connected_report (ha : ¬ IsConnection a) : Connected (log ++ [a]) ↔ Connected log := by
  have hno : a ≠ .connection true := by
    rintro rfl
    exact ha trivial
  simp [connected_snoc, hno, ha]

/-- What the readiness says of what counted. -/
structure Shown (timeoutNs now : Int) (gnssRequired wheelOdometryRequired : Bool) (log : List ReadinessCall)
    (p : Readiness) : Prop where
  connected : p.connected = true ↔ Connected log
  imuFresh : p.imuFresh = true ↔ Fresh timeoutNs now IsImu log
  gnssFresh : p.gnssFresh = true ↔ Fresh timeoutNs now IsGnss log
  gnssValid : p.gnssValid = true ↔ LastValid IsGnss log
  wheelFresh : p.wheelFresh = true ↔ Fresh timeoutNs now IsWheel log
  tractionFresh : p.tractionFresh = true ↔ Fresh timeoutNs now IsTraction log
  tractionValid : p.tractionValid = true ↔ LastValid IsTraction log
  ready : p.ready = true ↔ Connected log ∧ Fresh timeoutNs now IsImu log ∧ Fresh timeoutNs now IsTraction log ∧
    LastValid IsTraction log ∧
    (gnssRequired = true → Fresh timeoutNs now IsGnss log ∧ LastValid IsGnss log) ∧
    (wheelOdometryRequired = true → Fresh timeoutNs now IsWheel log)

/-! ### What is remembered of a source -/

/-- A memory of the last report of a source. -/
def Remembers (kind : ReadinessCall → Prop) (log : List ReadinessCall) (memory : Option ReadinessCall) : Prop :=
  ∀ e, memory = some e ↔ Last kind log e

namespace Remembers
variable {memory memory' : Option ReadinessCall}

theorem nil : Remembers kind [] none := fun _ => iff_of_false nofun not_since_nil

theorem report (ha : kind a) : Remembers kind (log ++ [a]) (some a) := by
  intro e
  rw [last_snoc, Option.some.injEq]
  constructor
  · intro he
    exact .inl ⟨he, ha⟩
  · rintro (⟨he, -⟩ | ⟨hno, -⟩)
    · exact he
    · exact absurd (.inl ha) hno

theorem forget (ha : IsConnection a) (hkind : ¬ kind a) : Remembers kind (log ++ [a]) none := by
  intro e
  rw [last_snoc]
  refine iff_of_false nofun ?_
  rintro (⟨-, hno⟩ | ⟨hno, -⟩)
  · exact hkind hno
  · exact hno (.inr ha)

theorem other (h : Remembers kind log memory) (hkind : ¬ kind a) (ha : ¬ IsConnection a) (hm : memory' = memory) :
    Remembers kind (log ++ [a]) memory' := by
  intro e
  rw [last_snoc, hm, h e]
  simp [hkind, ha]

theorem fresh_iff (h : Remembers kind log memory) :
    Fresh timeoutNs now kind log ↔ ∃ e ∈ memory, Recent timeoutNs now e := by
  simp only [Fresh, Option.mem_def, h _]

theorem valid_iff (h : Remembers kind log memory) : LastValid kind log ↔ ∃ e ∈ memory, Valid e := by
  simp only [LastValid, Option.mem_def, h _]

end Remembers

/-! ### The link -/

theorem connected_heard (timeoutNs : Int) (calls : List ReadinessCall) :
    Connected (heard (Takes timeoutNs) calls) ↔ Connected calls := by
  induction calls using List.reverseRecOn with
  | nil => rfl
  | append_singleton calls a ih =>
    by_cases htakes : Takes timeoutNs (heard (Takes timeoutNs) calls) a
    · rw [heard_taken htakes, connected_snoc, connected_snoc, ih]
    rw [heard_refused htakes]
    by_cases hconnection : IsConnection a
    · cases a with
      | connection connected =>
        rw [not_not.1 htakes, connected_snoc]
        simp [hconnection]
      | _ => exact absurd hconnection not_false
    · rw [connected_report hconnection, ih]

variable {ι : Type*} {call : ι → ReadinessCall} {inputs : List ι}

/-- The input came while the FCU was connected, and the FCU was not reported disconnected since. -/
def OverLink (call : ι → ReadinessCall) (inputs : List ι) (x : ι) : Prop :=
  ∃ before after, inputs = before ++ x :: after ∧ Connected (before.map call) ∧
    ∀ y ∈ after, call y ≠ .connection false

theorem OverLink.mem {x : ι} (h : OverLink call inputs x) : x ∈ inputs := by
  obtain ⟨before, after, rfl, -⟩ := h
  simp

theorem OverLink.snoc {x y : ι} (h : OverLink call inputs x) (hy : call y ≠ .connection false) :
    OverLink call (inputs ++ [y]) x := by
  obtain ⟨before, after, rfl, hconnected, hafter⟩ := h
  refine ⟨before, after ++ [y], by simp, hconnected, fun z hz => ?_⟩
  rcases List.mem_append.1 hz with hz | hz
  · exact hafter z hz
  · rwa [List.mem_singleton.1 hz]

/-- The FCU is still connected. -/
theorem OverLink.connected {x : ι} (h : OverLink call inputs x) (hx : ¬ IsConnection (call x)) :
    Connected (inputs.map call) := by
  obtain ⟨before, after, rfl, hconnected, hafter⟩ := h
  rw [List.map_append, List.map_cons]
  induction after using List.reverseRecOn with
  | nil => exact (connected_report hx).2 hconnected
  | append_singleton after y ih =>
    have hbefore := ih fun z hz => hafter z (List.mem_append_left _ hz)
    rw [List.map_append, List.map_singleton, ← List.cons_append, ← List.append_assoc, connected_snoc]
    have hy := hafter y (by simp)
    cases hcall : call y with
    | connection connected =>
      rw [hcall] at hy
      cases connected with
      | true => exact .inl rfl
      | false => exact absurd rfl hy
    | imu _ | gnss _ _ _ _ | wheel _ | traction _ _ => exact .inr ⟨not_false, hbefore⟩

/-- A last report of a source that counts came over the link. -/
theorem overLink_of_last (hkind : ∀ a, kind a → ¬ IsConnection a)
    (h : Last kind (heard (Takes timeoutNs) (inputs.map call)) e) : ∃ x, call x = e ∧ OverLink call inputs x := by
  induction inputs using List.reverseRecOn with
  | nil => exact absurd h not_since_nil
  | append_singleton inputs y ih =>
    rw [List.map_append, List.map_singleton] at h
    by_cases htakes : Takes timeoutNs (heard (Takes timeoutNs) (inputs.map call)) (call y)
    · rw [heard_taken htakes] at h
      rcases last_snoc.1 h with ⟨rfl, hy⟩ | ⟨hother, hearlier⟩
      · refine ⟨y, rfl, inputs, [], rfl, ?_, nofun⟩
        rw [← connected_heard timeoutNs]
        cases hcall : call y with
        | connection connected =>
          rw [hcall] at hy
          exact absurd trivial (hkind _ hy)
        | imu _ | gnss _ _ _ _ | wheel _ | traction _ _ =>
          rw [hcall] at htakes
          exact htakes.1
      · obtain ⟨x, hx, hover⟩ := ih hearlier
        refine ⟨x, hx, hover.snoc fun hy => hother (.inr ?_)⟩
        rw [hy]
        trivial
    · rw [heard_refused htakes] at h
      obtain ⟨x, hx, hover⟩ := ih h
      refine ⟨x, hx, hover.snoc fun hy => htakes ?_⟩
      -- a report came over this link, so a disconnection would have counted
      have hconnected : Connected (heard (Takes timeoutNs) (inputs.map call)) := by
        rw [connected_heard]
        exact hover.connected fun hconnection => hkind _ (last_kind h) (hx ▸ hconnection)
      rw [hy]
      intro hsame
      exact absurd (hsame.1 hconnected) nofun

end History
end ReadinessHistory

namespace ReadinessState
open Past ReadinessHistory

variable (s : ReadinessState)

/-- `status_stamp_ns`. -/
def statusStampNs : Int := s.lastStatusNs

/-! What the members hold of each source. -/

def imuCall : Option ReadinessCall := s.imuStamp.map .imu

def gnssCall : Option ReadinessCall :=
  s.gnssStamp.map fun stamp => .gnss stamp s.gnssSequence s.gnssIncarnation s.gnssValid

def wheelCall : Option ReadinessCall := s.wheelStamp.map .wheel

def tractionCall : Option ReadinessCall := s.tractionStamp.map fun stamp => .traction stamp s.tractionValid

/-- What the members are after the calls that counted. -/
structure Told (timeoutNs : Int) (log : List ReadinessCall) (s : ReadinessState) : Prop where
  timeout : s.timeoutNs = timeoutNs
  connected : s.connected = true ↔ Connected log
  imu : Remembers IsImu log s.imuCall
  gnss : Remembers IsGnss log s.gnssCall
  wheel : Remembers IsWheel log s.wheelCall
  traction : Remembers IsTraction log s.tractionCall
  /-- Without a GNSS observation there is no sequence, no incarnation and no validity. -/
  unset : s.gnssStamp = none → s.gnssSequence = 0 ∧ s.gnssIncarnation = "" ∧ s.gnssValid = false
  idle : s.tractionStamp = none → s.tractionValid = false
  status : s.lastStatusNs = statusNs log

variable {s} {timeoutNs receiptNs now : Int} {sequence : UInt64} {incarnation : String} {valid : Bool}
  {log : List ReadinessCall} {a : ReadinessCall}

namespace Told

theorem ofParameters (timeoutS : Rat) (gnssRequired wheelOdometryRequired : Bool) :
    Told (ofParameters timeoutS gnssRequired wheelOdometryRequired).timeoutNs []
      (ofParameters timeoutS gnssRequired wheelOdometryRequired) where
  timeout := rfl
  connected := iff_of_false Bool.false_ne_true not_was_nil
  imu := .nil
  gnss := .nil
  wheel := .nil
  traction := .nil
  unset _ := ⟨rfl, rfl, rfl⟩
  idle _ := rfl
  status := rfl

/-- The last status that counted, by the members. -/
theorem last_gnss (h : Told timeoutNs log s) {receiptNs' : Int} {sequence' : UInt64} {valid' : Bool} :
    Last IsGnss log (.gnss receiptNs' sequence' incarnation valid') ↔
      s.gnssStamp = some receiptNs' ∧ s.gnssSequence = sequence' ∧ s.gnssIncarnation = incarnation ∧
        s.gnssValid = valid' := by
  rw [← h.gnss, gnssCall]
  cases s.gnssStamp <;> simp

theorem statusNs_snoc : statusNs (log ++ [a]) = ReadinessHistory.receiptNs a := by
  simp [statusNs]

theorem connection (h : Told timeoutNs log s) (connected : Bool)
    (htakes : Takes timeoutNs log (.connection connected)) :
    Told timeoutNs (log ++ [.connection connected]) (s.connection connected) := by
  have hedge : s.connected ≠ connected := by
    intro heq
    exact htakes (h.connected.symm.trans (by rw [heq]))
  unfold ReadinessState.connection
  rw [if_neg hedge]
  refine ⟨h.timeout, ?_, .forget trivial not_false, .forget trivial not_false, .forget trivial not_false,
    .forget trivial not_false, fun _ => ⟨rfl, rfl, rfl⟩, fun _ => rfl, ?_⟩
  · simp [connected_snoc, IsConnection]
  · exact (statusNs_snoc (a := .connection connected)).symm

theorem imu_report (h : Told timeoutNs log s) (htakes : Takes timeoutNs log (.imu receiptNs)) :
    Told timeoutNs (log ++ [.imu receiptNs]) (s.imu receiptNs) := by
  unfold ReadinessState.imu
  rw [if_pos ⟨h.connected.2 htakes.1, htakes.2⟩]
  exact ⟨h.timeout, h.connected.trans (connected_report (a := .imu receiptNs) not_false).symm, .report trivial,
    h.gnss.other not_false not_false rfl, h.wheel.other not_false not_false rfl,
    h.traction.other not_false not_false rfl, h.unset, h.idle, (statusNs_snoc (a := .imu receiptNs)).symm⟩

theorem wheel_report (h : Told timeoutNs log s) (htakes : Takes timeoutNs log (.wheel receiptNs)) :
    Told timeoutNs (log ++ [.wheel receiptNs]) (s.wheel receiptNs) := by
  unfold ReadinessState.wheel
  rw [if_pos ⟨h.connected.2 htakes.1, htakes.2⟩]
  have hconnected : Connected (log ++ [.wheel receiptNs]) ↔ Connected log := connected_report not_false
  exact ⟨h.timeout, h.connected.trans hconnected.symm, h.imu.other not_false not_false rfl,
    h.gnss.other not_false not_false rfl, .report trivial, h.traction.other not_false not_false rfl, h.unset, h.idle,
    (statusNs_snoc (a := .wheel receiptNs)).symm⟩

theorem traction_report (h : Told timeoutNs log s) (htakes : Takes timeoutNs log (.traction receiptNs valid)) :
    Told timeoutNs (log ++ [.traction receiptNs valid]) (s.traction receiptNs valid) := by
  unfold ReadinessState.traction
  rw [if_pos ⟨h.connected.2 htakes.1, htakes.2⟩]
  have hconnected : Connected (log ++ [.traction receiptNs valid]) ↔ Connected log := connected_report not_false
  exact ⟨h.timeout, h.connected.trans hconnected.symm, h.imu.other not_false not_false rfl,
    h.gnss.other not_false not_false rfl, h.wheel.other not_false not_false rfl, .report trivial, h.unset, nofun,
    (statusNs_snoc (a := .traction receiptNs valid)).symm⟩

end Told

/-- What `gnss` accepts, as long as the members are unset without an observation. -/
theorem gnss_eq (hunset : s.gnssStamp = none → s.gnssSequence = 0 ∧ s.gnssIncarnation = "" ∧ s.gnssValid = false)
    (receiptNs : Int) (sequence : UInt64) (incarnation : String) (valid : Bool) :
    s.gnss receiptNs sequence incarnation valid =
      if s.connected = true ∧ 0 < receiptNs ∧ sequence ≠ 0 ∧ incarnation ≠ "" ∧
          ∀ stamp, s.gnssStamp = some stamp → s.gnssIncarnation = incarnation →
            s.gnssSequence < sequence ∨ s.timeoutNs < receiptNs - stamp then
        { s with
          gnssSequence := sequence, gnssIncarnation := incarnation, gnssStamp := some receiptNs, gnssValid := valid
          lastStatusNs := receiptNs }
      else s := by
  unfold gnss
  by_cases hguard : ¬ s.connected ∨ receiptNs ≤ 0 ∨ sequence = 0 ∨ incarnation = ""
  · rw [if_pos hguard, if_neg]
    rintro ⟨hconnected, hreceipt, hsequence, hincarnation, -⟩
    rcases hguard with hno | hno | hno | hno
    · exact hno hconnected
    · omega
    · exact hsequence hno
    · exact hincarnation hno
  rw [if_neg hguard]
  obtain ⟨hconnected, hreceipt, hsequence, hincarnation⟩ : s.connected = true ∧ 0 < receiptNs ∧ sequence ≠ 0 ∧
      incarnation ≠ "" := by simpa only [not_or, not_not, not_le] using hguard
  dsimp only
  by_cases hnew : incarnation ≠ s.gnssIncarnation
  -- another incarnation starts with sequence 0, so its first status is taken
  · have hof : s.ofIncarnation incarnation =
        { s with gnssStamp := none, gnssSequence := 0, gnssIncarnation := incarnation } := if_pos hnew
    rw [hof, if_neg fun hle => hsequence (UInt64.le_zero_iff.1 hle.1), if_pos]
    exact ⟨hconnected, hreceipt, hsequence, hincarnation, fun _ _ heq => absurd heq.symm hnew⟩
  · rw [show s.ofIncarnation incarnation = s from if_neg hnew]
    obtain rfl := not_not.1 hnew
    cases hstamp : s.gnssStamp with
    | none => exact absurd (hunset hstamp).2.1 hincarnation
    | some stamp =>
      by_cases hlater : s.gnssSequence < sequence ∨ s.timeoutNs < receiptNs - stamp
      · rw [if_neg, if_pos]
        · exact ⟨hconnected, hreceipt, hsequence, hincarnation, fun _ heq _ => Option.some.inj heq ▸ hlater⟩
        · rintro ⟨hle, hall⟩
          have hkept : receiptNs - stamp ≤ s.timeoutNs := by simpa using hall
          rcases hlater with hlater | hlater
          · exact UInt64.not_le.2 hlater hle
          · omega
      · obtain ⟨hle, hkept⟩ := not_or.1 hlater
        rw [if_pos ⟨UInt64.not_lt.1 hle, by simpa using hkept⟩, if_neg]
        rintro ⟨-, -, -, -, hno⟩
        exact hlater (hno stamp rfl rfl)

namespace Told

theorem takes_gnss (h : Told timeoutNs log s) : Takes timeoutNs log (.gnss receiptNs sequence incarnation valid) ↔
    s.connected = true ∧ 0 < receiptNs ∧ sequence ≠ 0 ∧ incarnation ≠ "" ∧
      ∀ stamp, s.gnssStamp = some stamp → s.gnssIncarnation = incarnation →
        s.gnssSequence < sequence ∨ s.timeoutNs < receiptNs - stamp := by
  unfold Takes
  rw [h.connected, h.timeout]
  refine and_congr_right fun _ => and_congr_right fun _ => and_congr_right fun _ => and_congr_right fun _ => ?_
  constructor
  · intro hlast stamp hstamp hsame
    exact hlast stamp _ _ (h.last_gnss.2 ⟨hstamp, rfl, hsame, rfl⟩)
  · intro hlast stamp sequence' valid' hcall
    obtain ⟨hstamp, rfl, hsame, -⟩ := h.last_gnss.1 hcall
    exact hlast stamp hstamp hsame

theorem gnss_report (h : Told timeoutNs log s)
    (htakes : Takes timeoutNs log (.gnss receiptNs sequence incarnation valid)) :
    Told timeoutNs (log ++ [.gnss receiptNs sequence incarnation valid])
      (s.gnss receiptNs sequence incarnation valid) := by
  rw [gnss_eq h.unset, if_pos (h.takes_gnss.1 htakes)]
  exact ⟨h.timeout, h.connected.trans (connected_report (a := .gnss _ _ _ _) not_false).symm,
    h.imu.other not_false not_false rfl, .report trivial, h.wheel.other not_false not_false rfl,
    h.traction.other not_false not_false rfl, nofun, h.idle, (statusNs_snoc (a := .gnss _ _ _ _)).symm⟩

theorem taken (h : Told timeoutNs log s) (htakes : Takes timeoutNs log a) :
    Told timeoutNs (log ++ [a]) (s.call a) := by
  cases a with
  | connection connected => exact h.connection connected htakes
  | imu receiptNs => exact h.imu_report htakes
  | gnss receiptNs sequence incarnation valid => exact h.gnss_report htakes
  | wheel receiptNs => exact h.wheel_report htakes
  | traction receiptNs valid => exact h.traction_report htakes

/-- A call that does not count changes nothing. -/
theorem refused (h : Told timeoutNs log s) (hrefused : ¬ Takes timeoutNs log a) : s.call a = s := by
  cases a with
  | connection connected =>
    have hsame : Connected log ↔ connected = true := not_not.1 hrefused
    exact if_pos (Bool.eq_iff_iff.2 (h.connected.trans hsame))
  | gnss receiptNs sequence incarnation valid =>
    rw [call, gnss_eq h.unset, if_neg fun htakes => hrefused (h.takes_gnss.2 htakes)]
  | imu _ | wheel _ | traction _ _ =>
    refine if_neg fun htakes => hrefused ?_
    exact ⟨h.connected.1 htakes.1, htakes.2⟩

theorem project (h : Told timeoutNs log s) (now : Int) :
    Shown timeoutNs now s.gnssRequired s.wheelOdometryRequired log (s.project now) := by
  have hrecent (stamp : Option Int) (call : Int → ReadinessCall)
      (hcall : ∀ t, ReadinessHistory.receiptNs (call t) = t) :
      s.fresh stamp now = true ↔ ∃ e ∈ stamp.map call, Recent timeoutNs now e := by
    unfold fresh Recent
    cases stamp <;> simp [hcall, h.timeout]
  have himu : s.fresh s.imuStamp now = true ↔ Fresh timeoutNs now IsImu log := by
    rw [h.imu.fresh_iff]
    exact hrecent _ _ fun _ => rfl
  have hgnss : s.fresh s.gnssStamp now = true ↔ Fresh timeoutNs now IsGnss log := by
    rw [h.gnss.fresh_iff]
    exact hrecent _ (fun stamp => .gnss stamp _ _ _) fun _ => rfl
  have hwheel : s.fresh s.wheelStamp now = true ↔ Fresh timeoutNs now IsWheel log := by
    rw [h.wheel.fresh_iff]
    exact hrecent _ _ fun _ => rfl
  have htraction : s.fresh s.tractionStamp now = true ↔ Fresh timeoutNs now IsTraction log := by
    rw [h.traction.fresh_iff]
    exact hrecent _ (fun stamp => .traction stamp _) fun _ => rfl
  have hgnssValid : s.gnssValid = true ↔ LastValid IsGnss log := by
    rw [h.gnss.valid_iff, gnssCall]
    cases hstamp : s.gnssStamp with
    | none => simp [(h.unset hstamp).2.2]
    | some stamp => simp [Valid]
  have htractionValid : s.tractionValid = true ↔ LastValid IsTraction log := by
    rw [h.traction.valid_iff, tractionCall]
    cases hstamp : s.tractionStamp with
    | none => simp [h.idle hstamp]
    | some stamp => simp [Valid]
  refine ⟨h.connected, himu, hgnss, hgnssValid, hwheel, htraction, htractionValid, ?_⟩
  simp only [ReadinessState.project, Bool.and_eq_true, Bool.or_eq_true, Bool.not_eq_true', himu, hgnss, hgnssValid,
    hwheel, htraction, htractionValid, h.connected]
  cases s.gnssRequired <;> cases s.wheelOdometryRequired <;> simp [and_assoc]

end Told

theorem call_required : (s.call a).gnssRequired = s.gnssRequired ∧
    (s.call a).wheelOdometryRequired = s.wheelOdometryRequired := by
  cases a with
  | gnss receiptNs sequence incarnation valid =>
    rcases gnss_cases s receiptNs sequence incarnation valid with h | ⟨-, h⟩ <;> rw [call, h] <;> exact ⟨rfl, rfl⟩
  | imu _ | wheel _ | traction _ _ | connection _ =>
    simp only [call, connection, imu, wheel, traction]
    split <;> exact ⟨rfl, rfl⟩

theorem final_required (run : List ReadinessCall) : (machine.final s run).gnssRequired = s.gnssRequired ∧
    (machine.final s run).wheelOdometryRequired = s.wheelOdometryRequired := by
  induction run generalizing s with
  | nil => exact ⟨rfl, rfl⟩
  | cons a run ih =>
    obtain ⟨hgnss, hwheel⟩ := ih (s := s.call a)
    exact ⟨hgnss.trans call_required.1, hwheel.trans call_required.2⟩

theorem told_final (timeoutS : Rat) (gnssRequired wheelOdometryRequired : Bool) (run : List ReadinessCall) :
    let s := ofParameters timeoutS gnssRequired wheelOdometryRequired
    Told s.timeoutNs (heard (Takes s.timeoutNs) run) (machine.final s run) := by
  intro s
  refine heard_final (fun _ _ _ h htakes => h.taken htakes) (fun log s' a h hrefused => ?_) (.ofParameters _ _ _)
  rw [show (machine.step s' a).1 = s' from h.refused hrefused]
  exact h

/-- After every run of calls the readiness is the one that the calls which count determine, and the status is
stamped by the last of them. -/
theorem readiness_shown (timeoutS : Rat) (gnssRequired wheelOdometryRequired : Bool) (run : List ReadinessCall)
    (now : Int) :
    let s := ofParameters timeoutS gnssRequired wheelOdometryRequired
    let log := heard (Takes s.timeoutNs) run
    Shown s.timeoutNs now gnssRequired wheelOdometryRequired log ((machine.final s run).project now) ∧
      (machine.final s run).statusStampNs = statusNs log := by
  intro s log
  have htold := told_final timeoutS gnssRequired wheelOdometryRequired run
  obtain ⟨hgnss, hwheel⟩ := final_required (s := s) run
  refine ⟨?_, htold.status⟩
  have hshown := htold.project now
  rwa [hgnss, hwheel] at hshown

end ReadinessState
end MowgliMavros
