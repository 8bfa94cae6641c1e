import Mathlib.Algebra.Order.Field.Rat
import Mathlib.Data.List.Induction
import MowgliMavros.Lib.Machine

/-!
# Readiness (`readiness_state.{hpp,cpp}`)

What the bridge saw of each source and how recently. A GNSS status carries the sequence of its position
observation, so that a cached status can be told from a new one. A repeated status never refreshes the
readiness exactly in the runs in which none comes after its observation has expired (`repeats_law`).
-/

namespace MowgliMavros

structure Readiness where
  connected : Bool
  imuFresh : Bool
  gnssFresh : Bool
  gnssValid : Bool
  wheelFresh : Bool
  tractionFresh : Bool
  tractionValid : Bool
  ready : Bool
deriving DecidableEq

structure ReadinessState where
  timeoutNs : Int
  gnssRequired : Bool := true
  wheelOdometryRequired : Bool := false
  lastStatusNs : Int := 0
  connected : Bool := false
  imuStamp : Option Int := none
  gnssStamp : Option Int := none
  wheelStamp : Option Int := none
  tractionStamp : Option Int := none
  gnssValid : Bool := false
  tractionValid : Bool := false
  gnssSequence : UInt64 := 0
  gnssIncarnation : String := ""

inductive ReadinessCall
  | connection (connected : Bool)
  | imu (receiptNs : Int)
  | gnss (receiptNs : Int) (sequence : UInt64) (incarnation : String) (valid : Bool)
  | wheel (receiptNs : Int)
  | traction (receiptNs : Int) (valid : Bool)

namespace ReadinessState

def ofParameters (timeoutS : Rat) (gnssRequired wheelOdometryRequired : Bool) : ReadinessState where
  -- the conversion to nanoseconds truncates
  timeoutNs := (timeoutS * 1000000000).num.tdiv (timeoutS * 1000000000).den
  gnssRequired := gnssRequired
  wheelOdometryRequired := wheelOdometryRequired

variable (s : ReadinessState)

/-- `connection`. -/
def connection (connected : Bool) : ReadinessState :=
  if s.connected = connected then s
  else { s with
    connected := connected
    imuStamp := none
    gnssStamp := none
    wheelStamp := none
    tractionStamp := none
    gnssValid := false
    tractionValid := false
    gnssSequence := 0
    gnssIncarnation := ""
    lastStatusNs := 0 }

def imu (receiptNs : Int) : ReadinessState :=
  if s.connected ∧ receiptNs > 0 then { s with imuStamp := receiptNs, lastStatusNs := receiptNs } else s

/-- The state after the incarnation has been looked at. -/
def ofIncarnation (incarnation : String) : ReadinessState :=
  if incarnation ≠ s.gnssIncarnation then
    { s with gnssStamp := none, gnssSequence := 0, gnssIncarnation := incarnation }
  else s

def gnss (receiptNs : Int) (sequence : UInt64) (incarnation : String) (valid : Bool) : ReadinessState :=
  if ¬ s.connected ∨ receiptNs ≤ 0 ∨ sequence = 0 ∨ incarnation = "" then s
  else
    let s := s.ofIncarnation incarnation
    -- a restarted source is accepted only after its prior observation has expired
    if sequence ≤ s.gnssSequence ∧ s.gnssStamp.all (fun stamp => receiptNs - stamp ≤ s.timeoutNs) then s
    else { s with gnssSequence := sequence, gnssStamp := receiptNs, gnssValid := valid, lastStatusNs := receiptNs }

def wheel (receiptNs : Int) : ReadinessState :=
  if s.connected ∧ receiptNs > 0 then { s with wheelStamp := receiptNs, lastStatusNs := receiptNs } else s

def traction (receiptNs : Int) (valid : Bool) : ReadinessState :=
  if s.connected ∧ receiptNs > 0 then
    { s with tractionStamp := receiptNs, tractionValid := valid, lastStatusNs := receiptNs }
  else s

def fresh (stamp : Option Int) (nowNs : Int) : Bool :=
  stamp.any fun stamp => nowNs ≥ stamp && nowNs - stamp ≤ s.timeoutNs

def project (nowNs : Int) : Readiness where
  connected := s.connected
  imuFresh := s.fresh s.imuStamp nowNs
  gnssFresh := s.fresh s.gnssStamp nowNs
  gnssValid := s.gnssValid
  wheelFresh := s.fresh s.wheelStamp nowNs
  tractionFresh := s.fresh s.tractionStamp nowNs
  tractionValid := s.tractionValid
  ready := s.connected && s.fresh s.imuStamp nowNs && s.fresh s.tractionStamp nowNs && s.tractionValid &&
    (!s.gnssRequired || (s.fresh s.gnssStamp nowNs && s.gnssValid)) &&
    (!s.wheelOdometryRequired || s.fresh s.wheelStamp nowNs)

def call : ReadinessCall → ReadinessState
  | .connection connected => s.connection connected
  | .imu receiptNs => s.imu receiptNs
  | .gnss receiptNs sequence incarnation valid => s.gnss receiptNs sequence incarnation valid
  | .wheel receiptNs => s.wheel receiptNs
  | .traction receiptNs valid => s.traction receiptNs valid

def machine : Machine ReadinessState ReadinessCall Empty := ⟨fun s call => (s.call call, [])⟩

/-- The call repeats the incarnation and the sequence of the last accepted observation. -/
def Repeats : ReadinessCall → Prop
  | .gnss _ sequence incarnation _ => incarnation = s.gnssIncarnation ∧ sequence = s.gnssSequence
  | _ => False

/-- The call repeats an observation that has expired. -/
def Refreshes : ReadinessCall → Prop
  | .gnss receiptNs sequence incarnation _ => incarnation = s.gnssIncarnation ∧ sequence = s.gnssSequence ∧
      s.gnssStamp.any (fun stamp => s.timeoutNs < receiptNs - stamp)
  | _ => False

instance : ∀ call, Decidable (s.Repeats call)
  | .gnss _ _ _ _ => inferInstanceAs (Decidable (_ ∧ _))
  | .connection _ | .imu _ | .wheel _ | .traction _ _ => inferInstanceAs (Decidable False)

instance : ∀ call, Decidable (s.Refreshes call)
  | .gnss _ _ _ _ => inferInstanceAs (Decidable (_ ∧ _))
  | .connection _ | .imu _ | .wheel _ | .traction _ _ => inferInstanceAs (Decidable False)

/-- A GNSS call that came at `stamp` and repeated nothing. -/
def Observed (run : List ReadinessCall) (stamp : Int) : Prop :=
  ∃ pre sequence incarnation valid post, run = pre ++ .gnss stamp sequence incarnation valid :: post ∧
    ¬ (machine.final s pre).Repeats (.gnss stamp sequence incarnation valid)

/-- No repeated status of the run changes a later projection, and GNSS is only ever fresh by a call that
repeated nothing. -/
structure RepeatLaw (run : List ReadinessCall) : Prop where
  unchanged : ∀ pre call post, run = pre ++ call :: post → (machine.final s pre).Repeats call →
    ∀ later now, (machine.final s (pre ++ call :: later)).project now = (machine.final s (pre ++ later)).project now
  observed : ∀ pre post now, run = pre ++ post → ((machine.final s pre).project now).gnssFresh = true →
    ∃ stamp, stamp ≤ now ∧ now - stamp ≤ s.timeoutNs ∧ s.Observed pre stamp

variable {s} {receiptNs stamp : Int} {sequence : UInt64} {incarnation : String} {valid : Bool} {a : ReadinessCall}
  {run : List ReadinessCall}

/-! ### One call -/

theorem gnss_repeat (h : ¬ s.Refreshes (.gnss receiptNs sequence incarnation valid))
    (hrepeats : s.Repeats (.gnss receiptNs sequence incarnation valid)) :
    s.gnss receiptNs sequence incarnation valid = s := by
  obtain ⟨rfl, rfl⟩ := hrepeats
  have hsame : s.ofIncarnation s.gnssIncarnation = s := if_neg (not_not.2 rfl)
  have hkept : s.gnssStamp.all (fun stamp => receiptNs - stamp ≤ s.timeoutNs) = true := by
    have hnot : ¬ s.gnssStamp.any (fun stamp => s.timeoutNs < receiptNs - stamp) = true :=
      fun hany => h ⟨rfl, rfl, hany⟩
    cases hstamp : s.gnssStamp with
    | none => rfl
    | some stamp => simpa [hstamp] using hnot
  unfold gnss
  dsimp only
  rw [hsame, if_pos (And.intro (UInt64.le_refl _) hkept), ite_self]

/-- A status changes nothing or is accepted; the first of an incarnation is not refused. -/
theorem gnss_cases (s : ReadinessState) (receiptNs : Int) (sequence : UInt64) (incarnation : String) (valid : Bool) :
    s.gnss receiptNs sequence incarnation valid = s ∨
      (s.connected = true ∧ 0 < receiptNs ∧ sequence ≠ 0 ∧ incarnation ≠ "") ∧
        s.gnss receiptNs sequence incarnation valid = { s with
          gnssSequence := sequence, gnssIncarnation := incarnation, gnssStamp := some receiptNs, gnssValid := valid
          lastStatusNs := receiptNs } := by
  unfold gnss
  split
  · exact .inl rfl
  · rename_i hguard
    obtain ⟨hconnected, hreceipt, hsequence, hincarnation⟩ : s.connected = true ∧ 0 < receiptNs ∧ sequence ≠ 0 ∧
        incarnation ≠ "" := by simpa only [not_or, not_not, not_le] using hguard
    dsimp only
    by_cases hnew : incarnation ≠ s.gnssIncarnation
    · have hof : s.ofIncarnation incarnation =
          { s with gnssStamp := none, gnssSequence := 0, gnssIncarnation := incarnation } := if_pos hnew
      have hpos : ¬ sequence ≤ 0 := fun hle => hsequence (UInt64.le_zero_iff.1 hle)
      rw [hof, if_neg fun hle => hpos hle.1]
      exact .inr ⟨⟨hconnected, hreceipt, hsequence, hincarnation⟩, rfl⟩
    · rw [show s.ofIncarnation incarnation = s from if_neg hnew]
      obtain rfl := not_not.1 hnew
      split
      · exact .inl rfl
      · exact .inr ⟨⟨hconnected, hreceipt, hsequence, hincarnation⟩, rfl⟩

/-- What is accepted of a status that repeats nothing or comes too late. -/
theorem gnss_accepts (valid : Bool) (hconnected : s.connected = true) (hreceipt : 0 < receiptNs)
    (hsequence : sequence ≠ 0)
    (hincarnation : incarnation ≠ "") (h : s.Refreshes (.gnss receiptNs sequence incarnation valid)) :
    (s.gnss receiptNs sequence incarnation valid).gnssStamp = some receiptNs := by
  obtain ⟨rfl, rfl, hany⟩ := h
  have hsame : s.ofIncarnation s.gnssIncarnation = s := if_neg (not_not.2 rfl)
  have hexpired : ¬ s.gnssStamp.all (fun stamp => receiptNs - stamp ≤ s.timeoutNs) = true := by
    cases hstamp : s.gnssStamp with
    | none => simp [hstamp] at hany
    | some stamp =>
      have hlate : s.timeoutNs < receiptNs - stamp := by simpa [hstamp] using hany
      intro hkept
      exact absurd (of_decide_eq_true hkept) (not_le_of_gt hlate)
  unfold gnss
  dsimp only
  rw [if_neg (by simp [hconnected, hreceipt, hsequence, hincarnation]), hsame, if_neg fun hall => hexpired hall.2]

theorem call_timeoutNs : (s.call a).timeoutNs = s.timeoutNs := by
  cases a with
  | gnss receiptNs sequence incarnation valid =>
    rcases gnss_cases s receiptNs sequence incarnation valid with h | ⟨-, h⟩ <;> rw [call, h]
  | imu _ | wheel _ | traction _ _ | connection _ =>
    simp only [call, connection, imu, wheel, traction]
    split <;> rfl

/-- What a call does to the last accepted observation. -/
theorem call_gnss : (s.call a).gnssStamp = none ∨
    ((s.call a).gnssStamp = s.gnssStamp ∧ (s.call a).connected = s.connected ∧
      (s.call a).gnssSequence = s.gnssSequence ∧ (s.call a).gnssIncarnation = s.gnssIncarnation) ∨
    ∃ receiptNs sequence incarnation valid, a = .gnss receiptNs sequence incarnation valid ∧
      (s.connected = true ∧ 0 < receiptNs ∧ sequence ≠ 0 ∧ incarnation ≠ "") ∧
      (s.call a) = { s with
          gnssSequence := sequence, gnssIncarnation := incarnation, gnssStamp := some receiptNs, gnssValid := valid
          lastStatusNs := receiptNs } := by
  cases a with
  | connection connected =>
    simp only [call, connection]
    split
    · exact .inr (.inl ⟨rfl, rfl, rfl, rfl⟩)
    · exact .inl rfl
  | gnss receiptNs sequence incarnation valid =>
    rcases gnss_cases s receiptNs sequence incarnation valid with h | h
    · rw [call, h]
      exact .inr (.inl ⟨rfl, rfl, rfl, rfl⟩)
    · exact .inr (.inr ⟨_, _, _, _, rfl, h⟩)
  | imu _ | wheel _ | traction _ _ =>
    simp only [call, imu, wheel, traction]
    split <;> exact .inr (.inl ⟨rfl, rfl, rfl, rfl⟩)

/-! ### Runs -/

/-- What is kept of an observation, and that it was one. -/
structure Held (s₀ : ReadinessState) (run : List ReadinessCall) (s : ReadinessState) (stamp : Int) : Prop where
  connected : s.connected = true
  pos : 0 < stamp
  sequence : s.gnssSequence ≠ 0
  incarnation : s.gnssIncarnation ≠ ""
  observed : machine.Along (fun s a => ¬ s.Refreshes a) s₀ run → s₀.Observed run stamp

theorem Observed.snoc (h : s.Observed run stamp) : s.Observed (run ++ [a]) stamp := by
  obtain ⟨pre, sequence, incarnation, valid, post, rfl, hnew⟩ := h
  exact ⟨pre, sequence, incarnation, valid, post ++ [a], by simp, hnew⟩

theorem held_step {s₀ : ReadinessState} (held : ∀ stamp ∈ s.gnssStamp, Held s₀ run s stamp)
    (hs : s = machine.final s₀ run) : ∀ stamp ∈ (s.call a).gnssStamp, Held s₀ (run ++ [a]) (s.call a) stamp := by
  intro stamp hstamp
  rcases call_gnss (s := s) (a := a) with hnone | ⟨hkept, hconnected, hsequence, hincarnation⟩ | hnew
  · rw [hnone] at hstamp
    cases hstamp
  · have h := held stamp (hkept ▸ hstamp)
    refine ⟨hconnected ▸ h.connected, h.pos, hsequence ▸ h.sequence, hincarnation ▸ h.incarnation, fun halong => ?_⟩
    exact (h.observed ((Machine.along_append _ _).1 halong).1).snoc
  · obtain ⟨receiptNs, sequence, incarnation, valid, rfl, ⟨hconnected, hpos, hsequence, hincarnation⟩, hcall⟩ := hnew
    rw [hcall] at hstamp ⊢
    obtain rfl : receiptNs = stamp := Option.some.inj hstamp
    refine ⟨hconnected, hpos, hsequence, hincarnation, fun halong => ?_⟩
    obtain ⟨hrun, hrefreshes, -⟩ := (Machine.along_append _ _).1 halong
    rw [← hs] at hrefreshes
    by_cases hrepeats : s.Repeats (.gnss receiptNs sequence incarnation valid)
    -- a repeat that does not come too late changes nothing, so the observation was held before
    · have hstill : s = _ := (gnss_repeat hrefreshes hrepeats).symm.trans hcall
      have hstamp : s.gnssStamp = some receiptNs := by rw [hstill]
      exact ((held receiptNs hstamp).observed hrun).snoc
    · exact ⟨run, sequence, incarnation, valid, [], rfl, hs ▸ hrepeats⟩

/-- Every run keeps track of the observation it holds. -/
theorem held_final (h : s.gnssStamp = none) (run : List ReadinessCall) :
    ∀ stamp ∈ (machine.final s run).gnssStamp, Held s run (machine.final s run) stamp := by
  induction run using List.reverseRecOn with
  | nil => exact fun stamp hstamp => absurd (h.symm.trans hstamp) nofun
  | append_singleton run a ih =>
    rw [Machine.final_append]
    exact held_step ih rfl

theorem final_timeoutNs (run : List ReadinessCall) : (machine.final s run).timeoutNs = s.timeoutNs := by
  induction run generalizing s with
  | nil => rfl
  | cons a run ih => exact ih.trans call_timeoutNs

theorem fresh_iff {now : Int} : (s.project now).gnssFresh = true ↔
    ∃ stamp ∈ s.gnssStamp, stamp ≤ now ∧ now - stamp ≤ s.timeoutNs := by
  simp only [project, fresh, Option.any_eq_true, Option.mem_def, Bool.and_eq_true, decide_eq_true_eq, ge_iff_le]

theorem law_of_along (h : s.gnssStamp = none) (halong : machine.Along (fun s a => ¬ s.Refreshes a) s run) :
    s.RepeatLaw run where
  unchanged := by
    rintro pre a post rfl hrepeats later now
    have hrefreshes := Machine.along_iff.1 halong pre a post rfl
    rw [Machine.final_append, Machine.final_append, Machine.final_cons]
    cases a with
    | gnss receiptNs sequence incarnation valid =>
      rw [show (machine.step (machine.final s pre) (.gnss receiptNs sequence incarnation valid)).1 =
        machine.final s pre from gnss_repeat hrefreshes hrepeats]
    | _ => exact hrepeats.elim
  observed := by
    rintro pre post now rfl hfresh
    obtain ⟨stamp, hstamp, hle, hage⟩ := fresh_iff.1 hfresh
    rw [final_timeoutNs] at hage
    exact ⟨stamp, hle, hage, (held_final h pre stamp hstamp).observed ((Machine.along_append _ _).1 halong).1⟩

theorem along_of_law (h : s.gnssStamp = none) (htimeout : 0 ≤ s.timeoutNs) (hlaw : s.RepeatLaw run) :
    machine.Along (fun s a => ¬ s.Refreshes a) s run := by
  refine Machine.along_iff.2 fun pre a post heq hrefreshes => ?_
  cases a with
  | gnss receiptNs sequence incarnation valid =>
    obtain ⟨rfl, rfl, hany⟩ := id hrefreshes
    obtain ⟨stamp, hstamp, hlate⟩ := (Option.any_eq_true _ _).1 hany
    have hlate := of_decide_eq_true hlate
    have held := held_final h pre stamp hstamp
    have hpos := held.pos
    have htimeout' : 0 ≤ (machine.final s pre).timeoutNs := by rwa [final_timeoutNs]
    have hunchanged := congrArg Readiness.gnssFresh (hlaw.unchanged pre _ post heq ⟨rfl, rfl⟩ [] receiptNs)
    have hafter := gnss_accepts valid held.connected (by omega) held.sequence held.incarnation hrefreshes
    rw [Machine.final_append, List.append_nil] at hunchanged
    -- the repeat makes the observation fresh that had expired
    have hfresh : ((machine.final s pre).project receiptNs).gnssFresh = true := by
      rw [← hunchanged]
      refine fresh_iff.2 ⟨receiptNs, hafter, le_rfl, ?_⟩
      rw [sub_self, show (machine.final (machine.final s pre) _).timeoutNs = _ from final_timeoutNs _]
      exact htimeout'
    obtain ⟨stamp', hstamp', hle⟩ := fresh_iff.1 hfresh
    obtain rfl : stamp = stamp' := Option.some.inj (hstamp.symm.trans hstamp')
    omega
  | _ => exact hrefreshes

/-- No repeated status refreshes the readiness in the runs in which none comes after its observation has
expired, and for a timeout that is not negative in no others. -/
theorem repeats_law (timeoutS : Rat) (gnssRequired wheelOdometryRequired : Bool) (run : List ReadinessCall) :
    let s := ofParameters timeoutS gnssRequired wheelOdometryRequired
    (machine.Along (fun s a => ¬ s.Refreshes a) s run → s.RepeatLaw run) ∧
      (0 ≤ s.timeoutNs → s.RepeatLaw run → machine.Along (fun s a => ¬ s.Refreshes a) s run) :=
  ⟨law_of_along rfl, along_of_law rfl⟩

/-- A cached status is published four times a second, then the source restarts. -/
def cachedStatus : List ReadinessCall :=
  [.connection true, .gnss 100 7 "mavros_gps1" true, .gnss 900000000 7 "mavros_gps1" true,
    .gnss 1200000000 1 "mavros_gps1" true, .gnss 1300000000 1 "mavros_gps1" true]

theorem repeats_law_cached :
    let s := ofParameters 1 true false
    0 ≤ s.timeoutNs ∧ s.RepeatLaw cachedStatus ∧
      ((machine.final s cachedStatus).project 1300000000).gnssFresh = true :=
  ⟨by decide +kernel, (repeats_law 1 true false cachedStatus).1 (by decide +kernel), by decide +kernel⟩

/-- The same status again when its observation has expired. -/
theorem frozen_status_refreshes :
    ¬ (ofParameters 1 true false).RepeatLaw
      [.connection true, .gnss 100 1 "source-a" true, .gnss 1000000101 1 "source-a" true] := by
  intro hlaw
  have hunchanged := hlaw.unchanged [.connection true, .gnss 100 1 "source-a" true]
    (.gnss 1000000101 1 "source-a" true) [] rfl (by decide +kernel) [] 1000000101
  exact absurd hunchanged (by decide +kernel)

end ReadinessState
end MowgliMavros
