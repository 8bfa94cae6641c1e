import MowgliMavros.Lib.Past
import MowgliMavros.SafetyState

/-!
# The safety state as a function of its history

What `safety_state.hpp` projects is determined by the events that it observed: each latch, each cause and
the start of a lift is a statement about the past (`Reference`). `Told` relates the members to these
statements, and every event keeps it.
-/

namespace MowgliMavros
open Past

inductive SafetyEvent
  | motorOutputs (present enabled : Bool)
  | buttonChange (state : UInt8) (receiptNs : Int)
  | serviceEmergency (active : Bool)
  | tilt (active : Bool)
  | clearReleasedLatches
  | disconnect

namespace SafetyEvent

def Engages : SafetyEvent → Prop
  | .motorOutputs present enabled => present = true ∧ enabled = false
  | _ => False

/-- The event reports the switch, or that it is not known. -/
def Switch : SafetyEvent → Prop
  | .motorOutputs _ _ | .disconnect => True
  | _ => False

def Service : SafetyEvent → Prop
  | .serviceEmergency _ => True
  | _ => False

def ServiceOrClear : SafetyEvent → Prop
  | .serviceEmergency _ | .clearReleasedLatches => True
  | _ => False

def Tilt : SafetyEvent → Prop
  | .tilt _ => True
  | _ => False

/-- The event reports the wheels, or that they are not known. -/
def Wheels : SafetyEvent → Prop
  | .buttonChange _ _ | .disconnect => True
  | _ => False

end SafetyEvent

namespace SafetyState

def leftOf (state : UInt8) : Bool := state &&& 0x01 != 0

def rightOf (state : UInt8) : Bool := state &&& 0x02 != 0

def apply (s : SafetyState) : SafetyEvent → SafetyState
  | .motorOutputs present enabled => s.observeMotorOutputs present enabled
  | .buttonChange state receiptNs => s.observeButtonChange state receiptNs
  | .serviceEmergency active => s.setServiceEmergency active
  | .tilt active => s.observeTilt active
  | .clearReleasedLatches => s.clearReleasedLatches
  | .disconnect => s.disconnect

/-- The state that observed the events. -/
def after (events : List SafetyEvent) : SafetyState := events.foldl apply {}

end SafetyState

/-! ### What a history says -/

namespace SafetyHistory
open SafetyState SafetyEvent
variable {h : List SafetyEvent} {state : UInt8} {receiptNs : Int}

/-- The last report of the switch is that it is engaged. -/
def Engaged : List SafetyEvent → Prop := Was (fun _ => Engages) (fun _ => Switch)

def ServiceActive : List SafetyEvent → Prop := Was (fun _ e => e = .serviceEmergency true) (fun _ => Service)

/-- The service emergency is active and was not cleared since. -/
def ServiceLatched : List SafetyEvent → Prop :=
  Was (fun _ e => e = .serviceEmergency true) (fun _ => ServiceOrClear)

def TiltActive : List SafetyEvent → Prop := Was (fun _ e => e = .tilt true) (fun _ => Tilt)

/-- A tilt that no clear followed while the tilt was not active. -/
def TiltLatched : List SafetyEvent → Prop :=
  Was (fun _ e => e = .tilt true) (fun h e => e = .clearReleasedLatches ∧ ¬ TiltActive h)

/-- The last report of the wheels is this one. -/
def Reported (h : List SafetyEvent) (state : UInt8) (receiptNs : Int) : Prop :=
  Since (fun _ e => ∃ state receiptNs, e = .buttonChange state receiptNs) (fun _ => Wheels) h
    (.buttonChange state receiptNs)

/-- The last report is of a lift of the left wheel, of the right one, of any. -/
def Left (h : List SafetyEvent) : Prop := ∃ state receiptNs, Reported h state receiptNs ∧ leftOf state = true

def Right (h : List SafetyEvent) : Prop := ∃ state receiptNs, Reported h state receiptNs ∧ rightOf state = true

def Lifted (h : List SafetyEvent) : Prop := Left h ∨ Right h

/-- The report ends a lift, or the wheels are no longer known. -/
def Lowers : SafetyEvent → Prop
  | .buttonChange state _ => leftOf state = false ∧ rightOf state = false
  | .disconnect => True
  | _ => False

/-- The lift that goes on was first reported at this time. -/
def LiftedSince (h : List SafetyEvent) (receiptNs : Int) : Prop :=
  ∃ state, Since (fun h e => (∃ state receiptNs, e = .buttonChange state receiptNs) ∧ ¬ Lowers e ∧ ¬ Lifted h)
    (fun _ => Lowers) h (.buttonChange state receiptNs)

/-! ### One more event -/

section Snoc
variable {e : SafetyEvent}

theorem engaged_snoc : Engaged (h ++ [e]) ↔ Engages e ∨ ¬ Switch e ∧ Engaged h := was_snoc

theorem serviceActive_snoc :
    ServiceActive (h ++ [e]) ↔ e = .serviceEmergency true ∨ ¬ Service e ∧ ServiceActive h := was_snoc

theorem serviceLatched_snoc :
    ServiceLatched (h ++ [e]) ↔ e = .serviceEmergency true ∨ ¬ ServiceOrClear e ∧ ServiceLatched h := was_snoc

theorem tiltActive_snoc : TiltActive (h ++ [e]) ↔ e = .tilt true ∨ ¬ Tilt e ∧ TiltActive h := was_snoc

theorem tiltLatched_snoc : TiltLatched (h ++ [e]) ↔
    e = .tilt true ∨ ¬ (e = .clearReleasedLatches ∧ ¬ TiltActive h) ∧ TiltLatched h := was_snoc

theorem reported_button {state' : UInt8} {receiptNs' : Int} :
    Reported (h ++ [.buttonChange state receiptNs]) state' receiptNs' ↔ state' = state ∧ receiptNs' = receiptNs := by
  unfold Reported
  rw [since_snoc]
  constructor
  · rintro (⟨heq, -⟩ | ⟨hno, -⟩)
    · cases heq
      exact ⟨rfl, rfl⟩
    · exact absurd trivial hno
  · rintro ⟨rfl, rfl⟩
    exact .inl ⟨rfl, _, _, rfl⟩

theorem not_reported_disconnect : ¬ Reported (h ++ [.disconnect]) state receiptNs := by
  unfold Reported
  rw [since_snoc]
  rintro (⟨heq, -⟩ | ⟨hno, -⟩)
  · cases heq
  · exact hno trivial

theorem reported_other (he : ¬ Wheels e) : Reported (h ++ [e]) state receiptNs ↔ Reported h state receiptNs := by
  unfold Reported
  rw [since_snoc]
  constructor
  · rintro (⟨rfl, -⟩ | ⟨-, hreported⟩)
    · exact absurd trivial he
    · exact hreported
  · intro hreported
    exact .inr ⟨he, hreported⟩

theorem left_button : Left (h ++ [.buttonChange state receiptNs]) ↔ leftOf state = true := by
  simp [Left, reported_button]

theorem right_button : Right (h ++ [.buttonChange state receiptNs]) ↔ rightOf state = true := by
  simp [Right, reported_button]

theorem lifted_button :
    Lifted (h ++ [.buttonChange state receiptNs]) ↔ ¬ Lowers (.buttonChange state receiptNs) := by
  unfold Lifted
  rw [left_button, right_button]
  simp only [Lowers, not_and_or, Bool.not_eq_false]

theorem not_lifted_disconnect : ¬ Lifted (h ++ [.disconnect]) := by
  rintro (⟨state, receiptNs, hreported, -⟩ | ⟨state, receiptNs, hreported, -⟩)
  · exact not_reported_disconnect hreported
  · exact not_reported_disconnect hreported

theorem lifted_other (he : ¬ Wheels e) : Lifted (h ++ [e]) ↔ Lifted h := by
  simp only [Lifted, Left, Right, reported_other he]

theorem liftedSince_snoc : LiftedSince (h ++ [e]) receiptNs ↔
    (∃ state, e = .buttonChange state receiptNs) ∧ ¬ Lowers e ∧ ¬ Lifted h ∨ ¬ Lowers e ∧
    LiftedSince h receiptNs := by
  unfold LiftedSince
  simp only [since_snoc]
  constructor
  · rintro ⟨state, ⟨rfl, -, hlifts, hlifted⟩ | ⟨hno, hsince⟩⟩
    · exact .inl ⟨⟨state, rfl⟩, hlifts, hlifted⟩
    · exact .inr ⟨hno, state, hsince⟩
  · rintro (⟨⟨state, rfl⟩, hlifts, hlifted⟩ | ⟨hno, state, hsince⟩)
    · exact ⟨state, .inl ⟨rfl, ⟨_, _, rfl⟩, hlifts, hlifted⟩⟩
    · exact ⟨state, .inr ⟨hno, hsince⟩⟩

end Snoc

/-! ### The members and the history -/

section Told
variable {s s' : SafetyState} {e : SafetyEvent}

structure SwitchTold (h : List SafetyEvent) (s : SafetyState) : Prop where
  state : s.hardwareSafetyState = .engaged ↔ Engaged h
  latched : s.hardwareEmergencyLatched = true ↔ Engaged h

structure ServiceTold (h : List SafetyEvent) (s : SafetyState) : Prop where
  active : s.serviceEmergencyActive = true ↔ ServiceActive h
  latched : s.serviceEmergencyLatched = true ↔ ServiceLatched h

structure TiltTold (h : List SafetyEvent) (s : SafetyState) : Prop where
  active : s.tiltActive = true ↔ TiltActive h
  latched : s.tiltLatched = true ↔ TiltLatched h

structure WheelsTold (h : List SafetyEvent) (s : SafetyState) : Prop where
  left : s.wheelLiftStateValid = true ∧ s.leftWheelLifted = true ↔ Left h
  right : s.wheelLiftStateValid = true ∧ s.rightWheelLifted = true ↔ Right h
  start : ∀ receiptNs, LiftedSince h receiptNs ↔ Lifted h ∧ s.liftStartedNs = receiptNs
  /-- Without a lift there is no start. -/
  down : ¬ Lifted h → s.liftStartedNs = 0

/-- What the members are after the events. -/
structure Told (h : List SafetyEvent) (s : SafetyState) : Prop where
  switch : SwitchTold h s
  service : ServiceTold h s
  tilt : TiltTold h s
  wheels : WheelsTold h s

theorem Told.fresh : Told [] {} where
  switch := ⟨by simp [Engaged, not_was_nil], by simp [Engaged, not_was_nil]⟩
  service := ⟨by simp [ServiceActive, not_was_nil], by simp [ServiceLatched, not_was_nil]⟩
  tilt := ⟨by simp [TiltActive, not_was_nil], by simp [TiltLatched, not_was_nil]⟩
  wheels :=
    { left := by simp [Left, Reported, not_since_nil]
      right := by simp [Right, Reported, not_since_nil]
      start := by simp [LiftedSince, Lifted, Left, Right, Reported, not_since_nil]
      down := fun _ => rfl }

/-! An event about something else keeps what is known. -/

theorem SwitchTold.other (hs : SwitchTold h s) (hengages : ¬ Engages e) (he : ¬ Switch e)
    (hstate : s'.hardwareSafetyState = s.hardwareSafetyState)
    (hlatched : s'.hardwareEmergencyLatched = s.hardwareEmergencyLatched) : SwitchTold (h ++ [e]) s' := by
  have hsame : Engaged (h ++ [e]) ↔ Engaged h := by simp [engaged_snoc, hengages, he]
  constructor
  · rw [hsame, hstate]
    exact hs.state
  · rw [hsame, hlatched]
    exact hs.latched

theorem ServiceTold.other (hs : ServiceTold h s) (he : ¬ ServiceOrClear e)
    (hactive : s'.serviceEmergencyActive = s.serviceEmergencyActive)
    (hlatched : s'.serviceEmergencyLatched = s.serviceEmergencyLatched) : ServiceTold (h ++ [e]) s' := by
  have hservice : ¬ Service e := by
    intro hservice
    cases e with
    | serviceEmergency active => exact he trivial
    | _ => exact hservice
  have hpress : e ≠ .serviceEmergency true := by
    rintro rfl
    exact he trivial
  constructor
  · rw [serviceActive_snoc, hactive]
    simpa [hpress, hservice] using hs.active
  · rw [serviceLatched_snoc, hlatched]
    simpa [hpress, he] using hs.latched

theorem TiltTold.other (hs : TiltTold h s) (he : ¬ Tilt e) (hclear : e ≠ .clearReleasedLatches)
    (hactive : s'.tiltActive = s.tiltActive) (hlatched : s'.tiltLatched = s.tiltLatched) :
    TiltTold (h ++ [e]) s' := by
  have htilt : e ≠ .tilt true := by
    rintro rfl
    exact he trivial
  constructor
  · rw [tiltActive_snoc, hactive]
    simpa [htilt, he] using hs.active
  · rw [tiltLatched_snoc, hlatched]
    simpa [htilt, hclear] using hs.latched

theorem WheelsTold.other (hs : WheelsTold h s) (he : ¬ Wheels e)
    (hvalid : s'.wheelLiftStateValid = s.wheelLiftStateValid) (hleft : s'.leftWheelLifted = s.leftWheelLifted)
    (hright : s'.rightWheelLifted = s.rightWheelLifted) (hstart : s'.liftStartedNs = s.liftStartedNs) :
    WheelsTold (h ++ [e]) s' := by
  have hlowers : ¬ Lowers e := by
    intro hlowers
    cases e with
    | buttonChange state receiptNs => exact he trivial
    | disconnect => exact he trivial
    | _ => exact hlowers
  constructor
  · simpa only [Left, reported_other he, hvalid, hleft] using hs.left
  · simpa only [Right, reported_other he, hvalid, hright] using hs.right
  · intro receiptNs
    rw [liftedSince_snoc, lifted_other he, hstart, ← hs.start receiptNs]
    constructor
    · rintro (⟨⟨state, rfl⟩, -⟩ | ⟨-, hsince⟩)
      · exact absurd trivial he
      · exact hsince
    · intro hsince
      exact .inr ⟨hlowers, hsince⟩
  · rw [lifted_other he, hstart]
    exact hs.down

theorem WheelsTold.lifted_iff (hs : WheelsTold h s) :
    (s.wheelLiftStateValid && (s.leftWheelLifted || s.rightWheelLifted)) = true ↔ Lifted h := by
  unfold Lifted
  rw [← hs.left, ← hs.right, Bool.and_eq_true, Bool.or_eq_true, and_or_left]

/-! What an event tells about its own members. -/

theorem SwitchTold.motorOutputs (h : List SafetyEvent) (s : SafetyState) (present enabled : Bool) :
    SwitchTold (h ++ [.motorOutputs present enabled]) (s.observeMotorOutputs present enabled) := by
  unfold observeMotorOutputs
  cases present with
  | false => exact ⟨by simp [engaged_snoc, Engages, Switch], by simp [engaged_snoc, Engages, Switch]⟩
  | true =>
    cases enabled with
    | false => exact ⟨by simp [engaged_snoc, Engages], by simp [engaged_snoc, Engages]⟩
    | true => exact ⟨by simp [engaged_snoc, Engages, Switch], by simp [engaged_snoc, Engages, Switch]⟩

/-- The start of a lift is the report that begins it; a report that goes on keeps it. -/
theorem observeButtonChange_start (hs : WheelsTold h s) (state : UInt8) (receiptNs : Int) :
    (Lowers (.buttonChange state receiptNs) → (s.observeButtonChange state receiptNs).liftStartedNs = 0) ∧
      (¬ Lowers (.buttonChange state receiptNs) → ¬ Lifted h →
        (s.observeButtonChange state receiptNs).liftStartedNs = receiptNs) ∧
      (¬ Lowers (.buttonChange state receiptNs) → Lifted h →
        (s.observeButtonChange state receiptNs).liftStartedNs = s.liftStartedNs) := by
  have hlowers : Lowers (.buttonChange state receiptNs) ↔ (leftOf state || rightOf state) = false := by
    simp [Lowers]
  have hnow : (state &&& 0x01 != 0 || state &&& 0x02 != 0) = (leftOf state || rightOf state) := rfl
  unfold observeButtonChange
  dsimp only
  rw [hnow, hlowers, ← hs.lifted_iff]
  refine ⟨?_, ?_, ?_⟩
  · intro hdown
    simp [hdown]
  · intro hup hthen
    simp only [Bool.not_eq_false] at hup
    simp [hup, hthen]
  · intro hup hthen
    simp only [Bool.not_eq_false] at hup
    simp [hup, hthen]

theorem WheelsTold.buttonChange (hs : WheelsTold h s) (state : UInt8) (receiptNs : Int) :
    WheelsTold (h ++ [.buttonChange state receiptNs]) (s.observeButtonChange state receiptNs) := by
  obtain ⟨hends, hbegins, hgoes⟩ := observeButtonChange_start hs state receiptNs
  constructor
  · rw [left_button]
    exact and_iff_right rfl
  · rw [right_button]
    exact and_iff_right rfl
  · intro t
    rw [liftedSince_snoc, lifted_button, hs.start]
    by_cases hlowers : Lowers (.buttonChange state receiptNs)
    · simp [hlowers]
    · by_cases hold : Lifted h
      · simp [hlowers, hold, hgoes hlowers hold]
      · simp [hlowers, hold, hbegins hlowers hold]
  · rw [lifted_button, not_not]
    exact hends

theorem WheelsTold.disconnect (h : List SafetyEvent) (s : SafetyState) :
    WheelsTold (h ++ [.disconnect]) s.disconnect := by
  constructor
  · simp [Left, not_reported_disconnect, SafetyState.disconnect]
  · simp [Right, not_reported_disconnect, SafetyState.disconnect]
  · simp [liftedSince_snoc, Lowers, not_lifted_disconnect]
  · intro _
    rfl

theorem Told.step (hs : Told h s) (e : SafetyEvent) : Told (h ++ [e]) (s.apply e) := by
  cases e with
  | motorOutputs present enabled =>
    have hrest : s.observeMotorOutputs present enabled = { s with
        hardwareSafetyState := (s.observeMotorOutputs present enabled).hardwareSafetyState
        hardwareEmergencyLatched := (s.observeMotorOutputs present enabled).hardwareEmergencyLatched } := by
      unfold observeMotorOutputs
      split <;> rfl
    refine ⟨.motorOutputs h s present enabled, ?_, ?_, ?_⟩
    · exact hs.service.other not_false (by rw [SafetyState.apply, hrest]) (by rw [SafetyState.apply, hrest])
    · exact hs.tilt.other not_false (fun h => by cases h) (by rw [SafetyState.apply, hrest])
        (by rw [SafetyState.apply, hrest])
    · exact hs.wheels.other not_false (by rw [SafetyState.apply, hrest]) (by rw [SafetyState.apply, hrest])
        (by rw [SafetyState.apply, hrest]) (by rw [SafetyState.apply, hrest])
  | buttonChange state receiptNs =>
    exact ⟨hs.switch.other not_false not_false rfl rfl, hs.service.other not_false rfl rfl,
      hs.tilt.other not_false (fun h => by cases h) rfl rfl, hs.wheels.buttonChange state receiptNs⟩
  | serviceEmergency active =>
    refine ⟨hs.switch.other not_false not_false rfl rfl, ⟨?_, ?_⟩,
      hs.tilt.other not_false (fun h => by cases h) rfl rfl,
      hs.wheels.other not_false rfl rfl rfl rfl⟩
    · simp [serviceActive_snoc, Service, SafetyState.apply, setServiceEmergency]
    · simp [serviceLatched_snoc, ServiceOrClear, SafetyState.apply, setServiceEmergency]
  | tilt active =>
    refine ⟨hs.switch.other not_false not_false rfl rfl, hs.service.other not_false rfl rfl, ⟨?_, ?_⟩,
      hs.wheels.other not_false rfl rfl rfl rfl⟩
    · simp [tiltActive_snoc, SafetyEvent.Tilt, SafetyState.apply, observeTilt]
    · simp [tiltLatched_snoc, SafetyState.apply, observeTilt, ← hs.tilt.latched, or_comm]
  | clearReleasedLatches =>
    refine ⟨hs.switch.other not_false not_false rfl rfl, ⟨?_, ?_⟩, ⟨?_, ?_⟩,
      hs.wheels.other not_false rfl rfl rfl rfl⟩
    · simpa [serviceActive_snoc, Service, SafetyState.apply, SafetyState.clearReleasedLatches] using hs.service.active
    · simp [serviceLatched_snoc, ServiceOrClear, SafetyState.apply, SafetyState.clearReleasedLatches]
    · simpa [tiltActive_snoc, SafetyEvent.Tilt, SafetyState.apply,
        SafetyState.clearReleasedLatches] using hs.tilt.active
    · simp [tiltLatched_snoc, SafetyState.apply, SafetyState.clearReleasedLatches, ← hs.tilt.latched,
        ← hs.tilt.active, and_comm]
  | disconnect =>
    refine ⟨⟨?_, ?_⟩, hs.service.other not_false rfl rfl, hs.tilt.other not_false (fun h => by cases h) rfl rfl,
      .disconnect h s⟩
    · simp [engaged_snoc, Engages, Switch, SafetyState.apply, SafetyState.disconnect]
    · simp [engaged_snoc, Engages, Switch, SafetyState.apply, SafetyState.disconnect]

end Told

theorem after_told (events : List SafetyEvent) : Told events (after events) := by
  induction events using List.reverseRecOn with
  | nil => exact .fresh
  | append_singleton events e ih =>
    unfold after at ih ⊢
    rw [List.foldl_append]
    exact ih.step e

/-! ### The reference -/

/-- What is projected after the events. -/
structure Reference (h : List SafetyEvent) (nowNs : Int) (r : EmergencyState) : Prop where
  active : r.activeEmergency = true ↔ Engaged h ∨ ServiceActive h ∨ TiltActive h ∨ Left h ∧ Right h
  latched : r.latchedEmergency = true ↔ Engaged h ∨ ServiceLatched h ∨ TiltLatched h
  warning : r.liftWarning = true ↔ Lifted h ∧ ¬ (Left h ∧ Right h)
  hardware : Engaged h → r.reason = "HARDWARE_SAFETY_SWITCH"
  service : ¬ Engaged h → ServiceActive h → r.reason = "SERVICE_EMERGENCY_STOP"
  tilt : ¬ Engaged h → ¬ ServiceActive h → TiltActive h → r.reason = "TILT"
  lift : ¬ Engaged h → ¬ ServiceActive h → ¬ TiltActive h → Lifted h → r.reason = "WHEEL_LIFT"
  none : ¬ Engaged h → ¬ ServiceActive h → ¬ TiltActive h → ¬ Lifted h → r.reason = "NONE"
  /-- The duration counts from the first report of the lift, if its time is positive and not ahead of `nowNs`. -/
  duration : ∀ receiptNs, LiftedSince h receiptNs → 0 < receiptNs → receiptNs ≤ nowNs →
    r.liftDurationSec = ((nowNs - receiptNs : Int) : Rat) / 1000000000
  still : (∀ receiptNs, LiftedSince h receiptNs → ¬ (0 < receiptNs ∧ receiptNs ≤ nowNs)) → r.liftDurationSec = 0

/-- Nothing is left open. -/
theorem Reference.unique {nowNs : Int} {r r' : EmergencyState} (hr : Reference h nowNs r)
    (hr' : Reference h nowNs r') :
    r = r' := by
  have hactive : r.activeEmergency = r'.activeEmergency := Bool.eq_iff_iff.2 (hr.active.trans hr'.active.symm)
  have hlatched : r.latchedEmergency = r'.latchedEmergency := Bool.eq_iff_iff.2 (hr.latched.trans hr'.latched.symm)
  have hwarning : r.liftWarning = r'.liftWarning := Bool.eq_iff_iff.2 (hr.warning.trans hr'.warning.symm)
  have hreason : r.reason = r'.reason := by
    by_cases hengaged : Engaged h
    · rw [hr.hardware hengaged, hr'.hardware hengaged]
    by_cases hservice : ServiceActive h
    · rw [hr.service hengaged hservice, hr'.service hengaged hservice]
    by_cases htilt : TiltActive h
    · rw [hr.tilt hengaged hservice htilt, hr'.tilt hengaged hservice htilt]
    by_cases hlifted : Lifted h
    · rw [hr.lift hengaged hservice htilt hlifted, hr'.lift hengaged hservice htilt hlifted]
    · rw [hr.none hengaged hservice htilt hlifted, hr'.none hengaged hservice htilt hlifted]
  have hduration : r.liftDurationSec = r'.liftDurationSec := by
    by_cases hsince : ∃ receiptNs, LiftedSince h receiptNs ∧ 0 < receiptNs ∧ receiptNs ≤ nowNs
    · obtain ⟨receiptNs, hlifted, hpos, hle⟩ := hsince
      rw [hr.duration receiptNs hlifted hpos hle, hr'.duration receiptNs hlifted hpos hle]
    · have hstill : ∀ receiptNs, LiftedSince h receiptNs → ¬ (0 < receiptNs ∧ receiptNs ≤ nowNs) :=
        fun receiptNs hlifted hin => hsince ⟨receiptNs, hlifted, hin⟩
      rw [hr.still hstill, hr'.still hstill]
  cases r
  cases r'
  cases hactive
  cases hlatched
  cases hwarning
  cases hreason
  cases hduration
  rfl

section Project
variable {s : SafetyState}

theorem flags_active (s : SafetyState) : s.flags.activeEmergency = true ↔
    s.hardwareSafetyState = .engaged ∨ s.serviceEmergencyActive = true ∨ s.tiltActive = true ∨ s.liftedCount = 2 := by
  unfold flags
  split
  · simp [*]
  split
  · simp [*]
  split
  · simp [*]
  split
  · simp [*]
  · have hnone : s.liftedCount = 0 := by omega
    simp [*]

theorem flags_latched (s : SafetyState) : s.flags.latchedEmergency = true ↔ s.hardwareSafetyState = .engaged ∨
    s.hardwareEmergencyLatched = true ∨ s.serviceEmergencyLatched = true ∨ s.tiltLatched = true := by
  unfold flags
  split
  · simp [*]
  · repeat' split
    all_goals simp [*, or_assoc]

theorem flags_liftWarning (s : SafetyState) : s.flags.liftWarning = (s.liftedCount == 1) := by
  unfold flags
  repeat' split
  all_goals rfl

theorem flags_liftDurationSec (s : SafetyState) : s.flags.liftDurationSec = 0 := by
  unfold flags
  repeat' split
  all_goals rfl

theorem flags_reason (s : SafetyState) : s.flags.reason =
    if s.hardwareSafetyState = .engaged then "HARDWARE_SAFETY_SWITCH"
    else if s.serviceEmergencyActive then "SERVICE_EMERGENCY_STOP"
    else if s.tiltActive then "TILT"
    else if s.liftedCount > 0 then "WHEEL_LIFT"
    else "NONE" := by
  unfold flags
  repeat' split
  all_goals rfl

/-- The number of lifted wheels. -/
theorem liftedCount_cases (hs : WheelsTold h s) :
    (s.liftedCount = 2 ↔ Left h ∧ Right h) ∧ (s.liftedCount > 0 ↔ Lifted h) := by
  unfold Lifted
  rw [← hs.left, ← hs.right]
  unfold liftedCount
  cases s.wheelLiftStateValid <;> cases s.leftWheelLifted <;> cases s.rightWheelLifted <;> simp

theorem project_reference (hs : Told h s) (nowNs : Int) : Reference h nowNs (s.project nowNs) := by
  obtain ⟨hboth, hsome⟩ := liftedCount_cases hs.wheels
  have hle : s.liftedCount ≤ 2 := by
    unfold liftedCount
    cases s.wheelLiftStateValid <;> cases s.leftWheelLifted <;> cases s.rightWheelLifted <;> simp
  have hwarning : (s.project nowNs).liftWarning = s.flags.liftWarning := by
    unfold project
    split <;> rfl
  have hlift : Lifted h → s.wheelLiftStateValid = true := by
    intro hlifted
    rw [← hs.wheels.lifted_iff, Bool.and_eq_true] at hlifted
    exact hlifted.1
  constructor
  · rw [project_active, flags_active, hs.switch.state, hs.service.active, hs.tilt.active, hboth]
  · rw [project_latched, flags_latched, hs.switch.state, hs.switch.latched, hs.service.latched, hs.tilt.latched,
      ← or_assoc, or_self]
  · rw [hwarning, flags_liftWarning, ← hboth, ← hsome, beq_iff_eq]
    omega
  · intro hengaged
    rw [project_reason, flags_reason, if_pos (hs.switch.state.2 hengaged)]
  · intro hengaged hservice
    rw [project_reason, flags_reason, if_neg (mt hs.switch.state.1 hengaged), if_pos (hs.service.active.2 hservice)]
  · intro hengaged hservice htilt
    rw [project_reason, flags_reason, if_neg (mt hs.switch.state.1 hengaged),
      if_neg (mt hs.service.active.1 hservice),
      if_pos (hs.tilt.active.2 htilt)]
  · intro hengaged hservice htilt hlifted
    rw [project_reason, flags_reason, if_neg (mt hs.switch.state.1 hengaged),
      if_neg (mt hs.service.active.1 hservice),
      if_neg (mt hs.tilt.active.1 htilt), if_pos (hsome.2 hlifted)]
  · intro hengaged hservice htilt hlifted
    rw [project_reason, flags_reason, if_neg (mt hs.switch.state.1 hengaged),
      if_neg (mt hs.service.active.1 hservice),
      if_neg (mt hs.tilt.active.1 htilt), if_neg (mt hsome.1 hlifted)]
  · intro receiptNs hsince hpos hpast
    obtain ⟨hlifted, rfl⟩ := (hs.wheels.start receiptNs).1 hsince
    unfold project
    rw [if_pos ⟨hlift hlifted, hpos, hpast⟩]
  · intro hno
    unfold project
    split
    · rename_i hdated
      have hlifted : Lifted h := by
        by_contra hdown
        have := hs.wheels.down hdown
        omega
      exact absurd hdated.2 (hno s.liftStartedNs ((hs.wheels.start _).2 ⟨hlifted, rfl⟩))
    · exact flags_liftDurationSec s

end Project

/-- What is projected is the one state that the history determines. -/
theorem project_eq_iff (events : List SafetyEvent) (nowNs : Int) (r : EmergencyState) :
    (after events).project nowNs = r ↔ Reference events nowNs r := by
  have hreference := project_reference (after_told events) nowNs
  constructor
  · rintro rfl
    exact hreference
  · intro hr
    exact hreference.unique hr

/-- A lift that is reported at time zero, or later than `nowNs`, is not dated by its report. -/
theorem undated_lift :
    LiftedSince [.buttonChange 1 0] 0 ∧
      ((after [.buttonChange 1 0]).project 5000000000).liftDurationSec ≠
        ((5000000000 - 0 : Int) : Rat) / 1000000000 ∧
      LiftedSince [.buttonChange 1 9000000000] 9000000000 ∧
      ((after [.buttonChange 1 9000000000]).project 5000000000).liftDurationSec ≠
        ((5000000000 - 9000000000 : Int) : Rat) / 1000000000 := by
  have hsince (receiptNs : Int) : LiftedSince [.buttonChange 1 receiptNs] receiptNs := by
    refine ⟨1, [], [], rfl, ⟨⟨1, receiptNs, rfl⟩, ?_, ?_⟩, Machine.throughout_nil⟩
    · rintro ⟨hleft, -⟩
      cases hleft
    · rintro (⟨_, _, hreported, -⟩ | ⟨_, _, hreported, -⟩)
      · exact not_since_nil hreported
      · exact not_since_nil hreported
  refine ⟨hsince 0, ?_, hsince 9000000000, ?_⟩
  · decide +kernel
  · decide +kernel

end SafetyHistory
end MowgliMavros
