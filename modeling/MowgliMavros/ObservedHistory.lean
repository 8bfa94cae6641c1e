import MowgliMavros.BridgeInputs
import MowgliMavros.DoubleLift
import MowgliMavros.SafetyHistory

/-!
# The emergencies and the messages

What the node projects as an emergency, in every reachable state, is what the messages say that it
received: the switch and the wheels count while the last FCU state is a connected one, a tilt once it has
been going on for the limit (`reach_emergency`). A tilt asks for one DISARM, at the sample that makes it an
emergency (`imu_disarms_iff`).
-/

namespace MowgliMavros
namespace Bridge
open Past SafetyHistory

/-! ### What the messages say -/

def Observation.IsFcuState : Observation → Prop
  | .fcuState _ _ => True
  | _ => False

def Observation.IsImu : Observation → Prop
  | .imu _ _ => True
  | _ => False

/-- A tilted sample, with a time: a receipt at time 0 dates nothing. -/
def Observation.Dates : Observation → Prop
  | .imu tilted receiptNs => tilted = true ∧ receiptNs ≠ 0
  | _ => False

def Observation.Levels : Observation → Prop
  | .imu tilted _ => tilted = false
  | _ => False

section History
variable {limitMs : Int} {h : List Observation} {o : Observation} {startNs receiptNs : Int}

/-- The last FCU state is a connected one. -/
def Connected : List Observation → Prop :=
  Was (fun _ o => ∃ message receiptMs, o = .fcuState message receiptMs ∧ message.connected = true)
    fun _ => Observation.IsFcuState

/-- The tilt that goes on is dated. -/
def Dated : List Observation → Prop := Was (fun _ => Observation.Dates) fun _ => Observation.Levels

/-- The tilt that goes on is dated by the sample of this time. -/
def TiltedSince (h : List Observation) (startNs : Int) : Prop :=
  Since (fun h o => o.Dates ∧ ¬ Dated h) (fun _ => Observation.Levels) h (.imu true startNs)

/-- At a tilted sample of this time the tilt has been going on for the limit. -/
def TiltDue (limitMs : Int) (h : List Observation) (receiptNs : Int) : Prop :=
  ∃ startNs, (TiltedSince h startNs ∨ ¬ Dated h ∧ startNs = receiptNs) ∧ limitMs * 1000000 ≤ receiptNs - startNs

/-- The last sample made the tilt an emergency. -/
def TiltRaised (limitMs : Int) : List Observation → Prop :=
  Was (fun h o => ∃ receiptNs, o = .imu true receiptNs ∧ TiltDue limitMs h receiptNs) fun _ => Observation.IsImu

open Classical in
/-- What a message is to the safety state. -/
noncomputable def safetyEvents (limitMs : Int) (h : List Observation) : Observation → List SafetyEvent
  | .fcuState message _ => if message.connected then [] else [.disconnect]
  | .sysStatus present enabled _ => if Connected h then [.motorOutputs present enabled] else []
  | .buttonChange state receiptNs => if Connected h then [.buttonChange state receiptNs] else []
  | .imu tilted receiptNs => [.tilt (decide (tilted = true ∧ TiltDue limitMs h receiptNs))]
  | .emergencyStop emergency =>
    .serviceEmergency (emergency ≠ 0) :: if emergency = 0 then [.clearReleasedLatches] else []
  | .parameters _ | .highLevelStatus _ | .escTelemetry _ _ => []

/-- What the messages are to the safety state. -/
noncomputable def safetyLog (limitMs : Int) : List Observation → List SafetyEvent :=
  Machine.log ⟨fun h o => (h ++ [o], safetyEvents limitMs h o)⟩ []

/-! ### One more message -/

theorem connected_snoc : Connected (h ++ [o]) ↔
    (∃ message receiptMs, o = .fcuState message receiptMs ∧ message.connected = true) ∨
      ¬ o.IsFcuState ∧ Connected h := was_snoc

theorem dated_snoc : Dated (h ++ [o]) ↔ o.Dates ∨ ¬ o.Levels ∧ Dated h := was_snoc

theorem tiltedSince_snoc : TiltedSince (h ++ [o]) startNs ↔
    o = .imu true startNs ∧ o.Dates ∧ ¬ Dated h ∨ ¬ o.Levels ∧ TiltedSince h startNs := since_snoc

theorem tiltRaised_snoc : TiltRaised limitMs (h ++ [o]) ↔
    (∃ receiptNs, o = .imu true receiptNs ∧ TiltDue limitMs h receiptNs) ∨ ¬ o.IsImu ∧ TiltRaised limitMs h :=
  was_snoc

theorem safetyLog_snoc (limitMs : Int) (h : List Observation) (o : Observation) :
    safetyLog limitMs (h ++ [o]) = safetyLog limitMs h ++ safetyEvents limitMs h o :=
  emitted_snoc h o

end History

/-! ### The inputs and the messages -/

/-- What the inputs are after the messages. -/
structure Seen (limitMs : Int) (h : List Observation) (v : Inputs) : Prop where
  limit : v.tiltEmergencyMs = limitMs
  connected : v.mavrosState.connected = true ↔ Connected h
  dated : v.tiltStartedNs ≠ 0 ↔ Dated h
  since : ∀ startNs, TiltedSince h startNs ↔ Dated h ∧ v.tiltStartedNs = startNs
  raised : v.tiltDisarmSent = true ↔ TiltRaised limitMs h
  safety : Told (safetyLog limitMs h) v.safetyState

namespace Seen
variable {limitMs : Int} {h : List Observation} {v v' : Inputs} {o : Observation}

theorem tiltActive_iff (hs : Seen limitMs h v) (receiptNs : Int) :
    v.tiltActive receiptNs = true ↔ TiltDue limitMs h receiptNs := by
  unfold Inputs.tiltActive TiltDue
  rw [decide_eq_true_iff, hs.limit]
  simp only [hs.since]
  by_cases hdated : Dated h
  · have hstarted := hs.dated.2 hdated
    simp [hdated, hstarted]
  · have hstarted : v.tiltStartedNs = 0 := by
      by_contra hne
      exact hdated (hs.dated.1 hne)
    simp [hdated, hstarted]

theorem told_append {events events' : List SafetyEvent} {s : SafetyState} (hs : Told events s) :
    Told (events ++ events') (events'.foldl SafetyState.apply s) := by
  induction events' generalizing events s with
  | nil => simpa using hs
  | cons e events' ih =>
    have := ih (hs.step e)
    rwa [List.append_assoc] at this

theorem told (hs : Seen limitMs h v) : Told (safetyLog limitMs (h ++ [o]))
    ((safetyEvents limitMs h o).foldl SafetyState.apply v.safetyState) := by
  rw [safetyLog_snoc]
  exact told_append hs.safety

/-- A message that is not a sample of the IMU leaves the tilt as it was. -/
theorem still (hs : Seen limitMs h v) (himu : ¬ o.IsImu) (hlimit : v'.tiltEmergencyMs = v.tiltEmergencyMs)
    (hconnected : v'.mavrosState.connected = true ↔ Connected (h ++ [o]))
    (hstart : v'.tiltStartedNs = v.tiltStartedNs) (hsent : v'.tiltDisarmSent = v.tiltDisarmSent)
    (hsafety : v'.safetyState = (safetyEvents limitMs h o).foldl SafetyState.apply v.safetyState) :
    Seen limitMs (h ++ [o]) v' := by
  have hdates : ¬ o.Dates := by
    intro hdates
    cases o with
    | imu tilted receiptNs => exact himu trivial
    | _ => exact hdates
  have hlevels : ¬ o.Levels := by
    intro hlevels
    cases o with
    | imu tilted receiptNs => exact himu trivial
    | _ => exact hlevels
  have hno : ¬ ∃ receiptNs, o = .imu true receiptNs ∧ TiltDue limitMs h receiptNs := by
    rintro ⟨receiptNs, rfl, -⟩
    exact himu trivial
  constructor
  · rw [hlimit, hs.limit]
  · exact hconnected
  · rw [dated_snoc, hstart, hs.dated]
    simp [hdates, hlevels]
  · intro startNs
    rw [tiltedSince_snoc, dated_snoc, hstart, hs.since]
    simp [hdates, hlevels]
  · rw [tiltRaised_snoc, hsent, hs.raised]
    simp [hno, himu]
  · rw [hsafety]
    exact hs.told

theorem connected_other (hfcu : ¬ o.IsFcuState) : Connected (h ++ [o]) ↔ Connected h := by
  have hno : ¬ ∃ message receiptMs, o = .fcuState message receiptMs ∧ message.connected = true := by
    rintro ⟨message, receiptMs, rfl, -⟩
    exact hfcu trivial
  rw [connected_snoc, or_iff_right hno, and_iff_right hfcu]

/-- A message that is no FCU state either. -/
theorem plain (hs : Seen limitMs h v) (hfcu : ¬ o.IsFcuState) (himu : ¬ o.IsImu)
    (hlimit : v'.tiltEmergencyMs = v.tiltEmergencyMs) (hstate : v'.mavrosState = v.mavrosState)
    (hstart : v'.tiltStartedNs = v.tiltStartedNs) (hsent : v'.tiltDisarmSent = v.tiltDisarmSent)
    (hsafety : v'.safetyState = (safetyEvents limitMs h o).foldl SafetyState.apply v.safetyState) :
    Seen limitMs (h ++ [o]) v' := by
  refine hs.still himu hlimit ?_ hstart hsent hsafety
  rw [hstate, connected_other hfcu]
  exact hs.connected

theorem fcuState (hs : Seen limitMs h v) (message : FcuState) (receiptMs : Int) :
    Seen limitMs (h ++ [.fcuState message receiptMs]) (v.observeFcuState message receiptMs) := by
  refine hs.still not_false rfl ?_ rfl rfl ?_
  · rw [connected_snoc]
    constructor
    · intro hconn
      exact .inl ⟨message, receiptMs, rfl, hconn⟩
    · rintro (⟨_, _, heq, hconn⟩ | ⟨hno, -⟩)
      · cases heq
        exact hconn
      · exact absurd trivial hno
  · unfold Inputs.observeFcuState safetyEvents
    dsimp only
    split <;> rfl

theorem imu (hs : Seen limitMs h v) (tilted : Bool) (receiptNs : Int) :
    Seen limitMs (h ++ [.imu tilted receiptNs]) (v.observeImu tilted receiptNs) := by
  have hconnected : Connected (h ++ [.imu tilted receiptNs]) ↔ Connected h := connected_other not_false
  have hevents : (safetyEvents limitMs h (.imu tilted receiptNs)).foldl SafetyState.apply v.safetyState =
      v.safetyState.observeTilt (tilted && v.tiltActive receiptNs) := by
    classical
    unfold safetyEvents
    rw [List.foldl_cons, List.foldl_nil, SafetyState.apply]
    congr 1
    rw [Bool.eq_iff_iff, Bool.and_eq_true, hs.tiltActive_iff, decide_eq_true_iff]
  have hsafety := hevents ▸ hs.told (o := .imu tilted receiptNs)
  cases tilted with
  | false =>
    refine ⟨hs.limit, hs.connected.trans hconnected.symm, ?_, ?_, ?_, hsafety⟩
    · simp [Inputs.observeImu, dated_snoc, Observation.Dates, Observation.Levels]
    · intro startNs
      simp [tiltedSince_snoc, dated_snoc, Observation.Dates, Observation.Levels]
    · simp [Inputs.observeImu, tiltRaised_snoc, Observation.IsImu]
  | true =>
    refine ⟨hs.limit, hs.connected.trans hconnected.symm, ?_, ?_, ?_, hsafety⟩
    · rw [dated_snoc, ← hs.dated]
      simp only [Inputs.observeImu, Observation.Dates, Observation.Levels]
      by_cases hzero : v.tiltStartedNs = 0 <;> simp [hzero]
    · intro startNs
      rw [tiltedSince_snoc, dated_snoc, hs.since, ← hs.dated]
      simp only [Inputs.observeImu, Observation.Dates, Observation.Levels]
      by_cases hzero : v.tiltStartedNs = 0
      · simp [hzero]
        grind
      · simp [hzero]
    · rw [tiltRaised_snoc]
      simp [Inputs.observeImu, hs.tiltActive_iff, Observation.IsImu]

theorem whenConnected (hs : Seen limitMs h v) {f : Inputs → Inputs} (hfcu : ¬ o.IsFcuState) (himu : ¬ o.IsImu)
    (hf : (f v).tiltEmergencyMs = v.tiltEmergencyMs ∧ (f v).mavrosState = v.mavrosState ∧
      (f v).tiltStartedNs = v.tiltStartedNs ∧ (f v).tiltDisarmSent = v.tiltDisarmSent)
    (hdown : ¬ Connected h → safetyEvents limitMs h o = [])
    (hup : Connected h →
      (f v).safetyState = (safetyEvents limitMs h o).foldl SafetyState.apply v.safetyState) :
    Seen limitMs (h ++ [o]) (v.whenConnected f) := by
  obtain ⟨hlimit, hstate, hstart, hsent⟩ := hf
  unfold Inputs.whenConnected
  split
  · rename_i hconn
    exact hs.plain hfcu himu hlimit hstate hstart hsent (hup (hs.connected.1 hconn))
  · rename_i hconn
    refine hs.plain hfcu himu rfl rfl rfl rfl ?_
    rw [hdown fun hh => hconn (hs.connected.2 hh)]
    rfl

theorem observe (hs : Seen limitMs h v) (o : Observation) : Seen limitMs (h ++ [o]) (v.observe o) := by
  cases o with
  | parameters parameters =>
    have hlocal : ∃ roles tracker, v.setParameters parameters = { v with roles := roles, escTracker := tracker } := by
      unfold Inputs.setParameters
      split <;> exact ⟨_, _, rfl⟩
    obtain ⟨roles, tracker, hlocal⟩ := hlocal
    rw [Inputs.observe, hlocal]
    exact hs.plain not_false not_false rfl rfl rfl rfl rfl
  | highLevelStatus state =>
    exact hs.plain not_false not_false rfl rfl rfl rfl rfl
  | fcuState message receiptMs => exact hs.fcuState message receiptMs
  | sysStatus present enabled receiptMs =>
    refine hs.whenConnected (f := (·.observeSysStatus present enabled receiptMs)) not_false not_false
      ⟨rfl, rfl, rfl, rfl⟩ (fun hdown => if_neg hdown) ?_
    intro hup
    rw [safetyEvents, if_pos hup]
    rfl
  | buttonChange state receiptNs =>
    refine hs.whenConnected (f := (·.observeButtonChange state receiptNs)) not_false not_false
      ⟨rfl, rfl, rfl, rfl⟩ (fun hdown => if_neg hdown) ?_
    intro hup
    rw [safetyEvents, if_pos hup]
    rfl
  | imu tilted receiptNs => exact hs.imu tilted receiptNs
  | escTelemetry message receiptNs =>
    exact hs.whenConnected (f := (·.observeEsc message receiptNs)) not_false not_false ⟨rfl, rfl, rfl, rfl⟩
      (fun _ => rfl) fun _ => rfl
  | emergencyStop emergency =>
    refine hs.plain not_false not_false rfl rfl rfl rfl ?_
    unfold Inputs.observe Inputs.observeEmergencyStop safetyEvents
    dsimp only
    split <;> rfl

theorem fresh (l : Launch) : Seen l.tiltEmergencyMs [] l.node.inputs where
  limit := rfl
  connected := iff_of_false Bool.false_ne_true not_was_nil
  dated := iff_of_false (fun hne => hne rfl) not_was_nil
  since _ := iff_of_false not_since_nil fun hdated => not_was_nil hdated.1
  raised := iff_of_false Bool.false_ne_true not_was_nil
  safety := .fresh

end Seen

/-- The messages of a run. -/
def observations (run : List (Callback × Env)) : List Observation := run.filterMap observation?

theorem seen_observations (l : Launch) (h : List Observation) :
    Seen l.tiltEmergencyMs h (h.foldl Inputs.observe l.node.inputs) := by
  induction h using List.reverseRecOn with
  | nil => exact .fresh l
  | append_singleton h o ih =>
    rw [List.foldl_append]
    exact ih.observe o

theorem reach_seen (l : Launch) (run : List (Callback × Env)) :
    Seen l.tiltEmergencyMs (observations run) (reach l run).inputs := by
  rw [reach_inputs]
  exact seen_observations l (observations run)

/-- In every reachable state the emergency that is projected is the one that the messages determine. -/
theorem reach_emergency (l : Launch) (run : List (Callback × Env)) (nowNs : Int) :
    Reference (safetyLog l.tiltEmergencyMs (observations run)) nowNs ((reach l run).safetyState.project nowNs) :=
  project_reference (reach_seen l run).safety nowNs

/-! ### The DISARM of a tilt -/

/-- What `on_mavros_imu` makes of a tilted sample before it may call `request_blade_disarm`. -/
def Node.tilted (n : Node) (nowNs : Int) : Node := { n with
  tiltStartedNs := if n.tiltStartedNs = 0 then nowNs else n.tiltStartedNs
  safetyState := n.safetyState.observeTilt (n.tiltActive nowNs)
  tiltDisarmSent := n.tiltActive nowNs }

theorem step_mavrosImu (n : Node) (env : Env) :
    machine.step n (.mavrosImu true, env) =
      if n.tiltActive env.nowNs = true ∧ n.tiltDisarmSent = false then
        (requestSafetyDisarm false env).run (n.tilted env.nowNs)
      else (n.tilted env.nowNs, []) := by
  show (onMavrosImu true env).run n = _
  unfold onMavrosImu node
  rw [Prog.run_read, if_pos rfl, Prog.run_update, Prog.run_when]
  simp only [Bool.not_eq_true]
  rfl

/-- The sample does what one `request_blade_disarm` does after the observation. -/
def Disarms (n : Node) (env : Env) : Prop :=
  machine.step n (.mavrosImu true, env) = (requestSafetyDisarm false env).run (n.tilted env.nowNs)

/-- After every run a tilted sample asks for the DISARM exactly when it makes the tilt an emergency, and otherwise
sends no command and changes nothing but the recorded tilt. -/
theorem imu_disarms_iff (l : Launch) (run : List (Callback × Env)) (env : Env) :
    (Disarms (reach l run) env ↔ TiltDue l.tiltEmergencyMs (observations run) env.nowNs ∧
      ¬ TiltRaised l.tiltEmergencyMs (observations run)) ∧
    (¬ Disarms (reach l run) env →
      machine.step (reach l run) (.mavrosImu true, env) = ((reach l run).tilted env.nowNs, [])) := by
  have hseen := reach_seen l run
  have hdue : (reach l run).tiltActive env.nowNs = true ↔
      TiltDue l.tiltEmergencyMs (observations run) env.nowNs := hseen.tiltActive_iff env.nowNs
  have hraised : (reach l run).tiltDisarmSent = true ↔ TiltRaised l.tiltEmergencyMs (observations run) := hseen.raised
  have hloud := requestSafetyDisarm_emits false env ((reach l run).tilted env.nowNs)
  unfold Disarms
  rw [step_mavrosImu, ← hdue, ← hraised, Bool.not_eq_true]
  split
  · rename_i hrise
    exact ⟨iff_of_true rfl hrise, fun hno => absurd rfl hno⟩
  · rename_i hflat
    refine ⟨iff_of_false (fun heq => hloud ?_) hflat, fun _ => rfl⟩
    rw [← Prog.run_emitted, ← heq]

/-- The tilt is an emergency, and stays one at every later sample. -/
structure TiltHeld (fromNs : Int) (v : Inputs) : Prop where
  sent : v.tiltDisarmSent = true
  dated : v.tiltStartedNs ≠ 0
  due : v.tiltEmergencyMs * 1000000 ≤ fromNs - v.tiltStartedNs

theorem TiltHeld.tiltActive {fromNs receiptNs : Int} {v : Inputs} (h : TiltHeld fromNs v)
    (hlater : fromNs ≤ receiptNs) : v.tiltActive receiptNs = true := by
  have hdue := h.due
  unfold Inputs.tiltActive
  rw [if_neg h.dated, decide_eq_true_iff]
  omega

theorem TiltHeld.after {fromNs : Int} {v : Inputs} (h : TiltHeld fromNs v) {c : Callback × Env}
    (hlevel : c.1 ≠ .mavrosImu false) (hlater : c.1 = .mavrosImu true → fromNs ≤ c.2.nowNs) :
    TiltHeld fromNs (v.after c) := by
  obtain ⟨c, env⟩ := c
  have hwhen (f : Inputs → Inputs) (hf : TiltHeld fromNs (f v)) : TiltHeld fromNs (v.whenConnected f) := by
    unfold Inputs.whenConnected
    split
    · exact hf
    · exact h
  cases c with
  | setParameters parameters =>
    unfold Inputs.after observation? Inputs.observe Inputs.setParameters
    dsimp only
    split
    · exact h
    · exact ⟨h.sent, h.dated, h.due⟩
  | highLevelStatus state => exact ⟨h.sent, h.dated, h.due⟩
  | mavrosState message => exact ⟨h.sent, h.dated, h.due⟩
  | mavrosSysStatus present enabled =>
    exact hwhen (·.observeSysStatus present enabled (env.steady 0)) ⟨h.sent, h.dated, h.due⟩
  | buttonChange state => exact hwhen (·.observeButtonChange state env.nowNs) ⟨h.sent, h.dated, h.due⟩
  | escTelemetry message => exact hwhen (·.observeEsc message env.nowNs) ⟨h.sent, h.dated, h.due⟩
  | emergencyStop emergency => exact ⟨h.sent, h.dated, h.due⟩
  | mavrosImu tilted =>
    cases tilted with
    | false => exact absurd rfl hlevel
    | true =>
      have hstart : (v.observeImu true env.nowNs).tiltStartedNs = v.tiltStartedNs := if_neg h.dated
      refine ⟨h.tiltActive (hlater rfl), ?_, ?_⟩
      · exact hstart ▸ h.dated
      · exact hstart ▸ h.due
  | _ => exact h

theorem TiltHeld.final {fromNs : Int} {n : Node} {run : List (Callback × Env)} (h : TiltHeld fromNs n.inputs)
    (hlevel : ∀ c ∈ run, c.1 ≠ .mavrosImu false)
    (hlater : ∀ c ∈ run, c.1 = .mavrosImu true → fromNs ≤ c.2.nowNs) :
    TiltHeld fromNs (machine.final n run).inputs := by
  induction run generalizing n with
  | nil => exact h
  | cons c run ih =>
    refine ih ?_ (fun c hc => hlevel c (by simp [hc])) fun c hc => hlater c (by simp [hc])
    rw [step_inputs]
    exact h.after (hlevel c (by simp)) (hlater c (by simp))

/-- No second DISARM is asked for until a sample is level, whatever happens in between. -/
theorem imu_disarms_once (l : Launch) (pre mid : List (Callback × Env)) (env env' : Env)
    (hdisarms : Disarms (reach l pre) env) (hdated : env.nowNs ≠ 0) (hlevel : ∀ c ∈ mid, c.1 ≠ .mavrosImu false)
    (hlater : ∀ c ∈ mid, c.1 = .mavrosImu true → env.nowNs ≤ c.2.nowNs) :
    ¬ Disarms (reach l (pre ++ (.mavrosImu true, env) :: mid)) env' := by
  have hactive : (reach l pre).tiltActive env.nowNs = true := by
    have hdue := ((imu_disarms_iff l pre env).1.1 hdisarms).1
    exact ((reach_seen l pre).tiltActive_iff env.nowNs).2 hdue
  have hheld : TiltHeld env.nowNs (machine.step (reach l pre) (.mavrosImu true, env)).1.inputs := by
    rw [step_inputs]
    refine ⟨hactive, ?_, ?_⟩
    · show (if _ then _ else _) ≠ _
      split <;> assumption
    · exact decide_eq_true_iff.1 hactive
  have hend : TiltHeld env.nowNs (reach l (pre ++ (.mavrosImu true, env) :: mid)).inputs := by
    unfold reach
    rw [Machine.final_append, Machine.final_cons]
    exact hheld.final hlevel hlater
  intro hagain
  have hraised := ((imu_disarms_iff l _ env').1.1 hagain).2
  exact hraised ((reach_seen l _).raised.1 hend.sent)

/-- A tilt of half a second, then a SYS_STATUS and one more tilted sample. -/
theorem tilted_disarms_once :
    ¬ Disarms (reach defaultLaunch ([(.mavrosImu true, .clock 1)] ++
      (.mavrosImu true, .clock 501) :: [(.mavrosSysStatus true true, .clock 502)])) (.clock 503) :=
  imu_disarms_once defaultLaunch [(.mavrosImu true, .clock 1)] [(.mavrosSysStatus true true, .clock 502)] (.clock 501)
    (.clock 503) ((step_mavrosImu _ _).trans (if_pos (by decide))) (by decide) (by simp) (by simp)

end Bridge
end MowgliMavros
