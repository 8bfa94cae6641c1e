import MowgliMavros.ChargerPresence
import MowgliMavros.Lib.Topic
import MowgliMavros.ReadinessHistory

/-!
# The power relay

The battery observer publishes `/hardware_bridge/power`; the hardware bridge takes from it the charging flag,
the power diagnostic and the traction part of its readiness. The topic is best effort, so a message may come
late or not at all. What the bridge holds is the last message since the link was lost, and the battery
statuses of the observer vouch for it (`power_relayed`); a bridge that is ready rests on a traction battery
status with a voltage (`ready_backed`).
-/

namespace MowgliMavros

/-- `mowgli_interfaces/Power`; a field that is not a number is `none`. -/
structure Power where
  stamp : Int := 0
  vCharge : Option Rat := some 0
  vBattery : Option Rat := some 0
  chargeCurrent : Option Rat := some 0
  chargerEnabled : Bool := false
  chargerStatus : String := ""
deriving DecidableEq

def BatteryOutput.power? : BatteryOutput → Option Power
  | .power stamp vCharge vBattery chargeCurrent chargerEnabled chargerStatus =>
    some ⟨stamp, vCharge, vBattery, chargeCurrent, chargerEnabled, chargerStatus⟩
  | .batteryState _ _ _ _ => none

/-- What the observer publishes on `/hardware_bridge/power`. -/
def BatteryObserver.powers : Machine BatteryObserver (BatteryStatus × Int) Power where
  step b m := ((b.handleBatteryStatus m.1 m.2).1, (b.handleBatteryStatus m.1 m.2).2.filterMap BatteryOutput.power?)

/-! ### The bridge -/

/-- What else the readiness of the bridge hears, with the clock at its reception. -/
inductive SourceReport
  | fcuState (connected : Bool)
  | imu (receiptNs : Int)
  | gnssStatus (receiptNs : Int) (sequence : UInt64) (backend : String) (fixValid : Bool)
  | wheelOdom (receiptNs : Int)
deriving DecidableEq

/-- A Power message with the clock at its reception, or a report. -/
abbrev PowerInput := (Power × Int) ⊕ SourceReport

structure PowerIntake where
  batteryTimeoutNs : Int
  connected : Bool := false
  readiness : ReadinessState
  lastPower : Power := {}
  lastPowerReceiptNs : Int := 0
  isCharging : Bool := false

/-- The diagnostic `mowgli_mavros_bridge/power`. -/
structure PowerDiagnostic where
  fresh : Bool
  chargeCurrent : Option Rat
  batteryVoltage : Option Rat
  chargerVoltage : Option Rat
  chargerEnabled : Bool
  chargerStatus : String
deriving DecidableEq

namespace PowerIntake
variable (b : PowerIntake)

def ofParameters (batteryTimeoutS : Rat) (readiness : ReadinessState) : PowerIntake where
  -- the conversion to nanoseconds truncates
  batteryTimeoutNs := (batteryTimeoutS * 1000000000).num.tdiv (batteryTimeoutS * 1000000000).den
  readiness := readiness

def onPower (message : Power) (receiptNs : Int) : PowerIntake := { b with
  lastPower := message
  lastPowerReceiptNs := receiptNs
  isCharging := message.chargerEnabled
  readiness := b.readiness.traction receiptNs message.vBattery.isSome }

def onMavrosState (connected : Bool) : PowerIntake :=
  let b := if b.connected && !connected then
      { b with lastPowerReceiptNs := 0, lastPower := {}, isCharging := false }
    else b
  { b with readiness := b.readiness.connection connected, connected := connected }

def onReport : SourceReport → PowerIntake
  | .fcuState connected => b.onMavrosState connected
  | .imu receiptNs => { b with readiness := b.readiness.imu receiptNs }
  | .gnssStatus receiptNs sequence backend fixValid => { b with
      readiness := b.readiness.gnss receiptNs sequence backend fixValid }
  | .wheelOdom receiptNs => { b with readiness := b.readiness.wheel receiptNs }

/-- `power_fresh`. -/
def powerFresh (nowNs : Int) : Bool :=
  b.lastPowerReceiptNs > 0 && nowNs ≥ b.lastPowerReceiptNs && nowNs - b.lastPowerReceiptNs ≤ b.batteryTimeoutNs

def publishPower (nowNs : Int) : PowerDiagnostic where
  fresh := b.powerFresh nowNs
  chargeCurrent := b.lastPower.chargeCurrent
  batteryVoltage := b.lastPower.vBattery
  chargerVoltage := b.lastPower.vCharge
  chargerEnabled := b.lastPower.chargerEnabled
  chargerStatus := if b.powerFresh nowNs then b.lastPower.chargerStatus else "unavailable"

def machine : Machine PowerIntake PowerInput Empty where
  step b
    | .inl (message, receiptNs) => (b.onPower message receiptNs, [])
    | .inr report => (b.onReport report, [])

end PowerIntake

/-! ### The relay -/

namespace PowerRelay
open Past

/-- The parameters of the observer and of the bridge. -/
structure Launch where
  dockBatteryInstance : Int := 0
  tractionBatteryInstance : Int := 1
  observationTimeoutS : Rat := 5
  chargerOnVoltage : Rat := 14
  chargerOffVoltage : Rat := 13
  readinessTimeoutS : Rat := 5
  gnssRequired : Bool := true
  wheelOdometryRequired : Bool := false
  batteryTimeoutS : Rat := 5

def Launch.observer (l : Launch) : BatteryObserver :=
  .ofParameters l.dockBatteryInstance l.tractionBatteryInstance l.observationTimeoutS l.chargerOnVoltage
    l.chargerOffVoltage

def Launch.readiness (l : Launch) : ReadinessState :=
  .ofParameters l.readinessTimeoutS l.gnssRequired l.wheelOdometryRequired

abbrev Event := Topic.Event (BatteryStatus × Int) Int SourceReport

def machine : Machine (Topic.State BatteryObserver Power PowerIntake) Event PowerInput :=
  Topic.system BatteryObserver.powers PowerIntake.machine

def Launch.intake (l : Launch) : PowerIntake := .ofParameters l.batteryTimeoutS l.readiness

def Launch.start (l : Launch) : Topic.State BatteryObserver Power PowerIntake where
  publisher := l.observer
  subscriber := l.intake

/-- The bridge after a run. -/
def bridge (l : Launch) (run : List Event) : PowerIntake := (machine.final l.start run).subscriber

/-- What the bridge received. -/
def received (l : Launch) (run : List Event) : List PowerInput := machine.log l.start run

/-- The battery statuses that the observer received. -/
def statuses (run : List Event) : List (BatteryStatus × Int) := Topic.inputs run

end PowerRelay

/-! ### The observer -/

/-- The message that is published of a state. -/
def PowerState.message (s : PowerState) (stamp : Int) : Power where
  stamp := stamp
  vCharge := (s.project stamp).2.vCharge
  vBattery := (s.project stamp).2.vBattery
  chargeCurrent := (s.project stamp).2.chargeCurrent
  chargerEnabled := s.present stamp
  chargerStatus :=
    if ¬ s.fresh s.dock stamp then "unavailable" else if s.present stamp then "charging" else "unknown"

namespace BatteryObserver
variable {b b' : BatteryObserver} {past : List (BatteryStatus × Int)} {m : BatteryStatus × Int} {present : Bool}

def ofTraction (b : BatteryObserver) (m : BatteryStatus × Int) : Prop :=
  b.enabled = true ∧ m.1.id.toNat = b.tractionBatteryInstance

instance (b : BatteryObserver) (m : BatteryStatus × Int) : Decidable (b.ofTraction m) :=
  inferInstanceAs (Decidable (_ ∧ _))

/-- The traction samples of a run. -/
def tractionSamples (b : BatteryObserver) (run : List (BatteryStatus × Int)) : List BatterySample :=
  (run.filter fun m => b.ofTraction m).map sample

/-- The last of the samples, as long as it is fresh. -/
def current (b : BatteryObserver) (samples : List BatterySample) (now : Int) : Option BatterySample :=
  if b.state.fresh samples.getLast? now then samples.getLast? else none

/-- The message says what the last samples of the past say at its stamp. An enabled charger rests on a dock
sample above the ON threshold, and the last one is not below the OFF threshold. -/
structure Vouched (b : BatteryObserver) (past : List (BatteryStatus × Int)) (m : Power) : Prop where
  vCharge : m.vCharge = ((b.current (b.dockSamples past) m.stamp).bind (·.voltage)).join
  vBattery : m.vBattery = ((b.current (b.tractionSamples past) m.stamp).bind (·.voltage)).join
  chargeCurrent : m.chargeCurrent = do
    return (← (← (← b.current (b.dockSamples past) m.stamp).current)) -
      (← (← (← b.current (b.tractionSamples past) m.stamp).current))
  charger : m.chargerEnabled = true →
    (∃ sample ∈ b.current (b.dockSamples past) m.stamp, sample.Volts (b.state.chargerOffVoltage ≤ ·)) ∧
      ∃ sample ∈ b.dockSamples past, sample.Volts (b.state.chargerOnVoltage < ·)
  chargerStatus : m.chargerStatus =
    if b.current (b.dockSamples past) m.stamp = none then "unavailable"
    else if m.chargerEnabled then "charging" else "unknown"

/-- The message was published on the status, and the statuses up to it vouch for it. -/
structure Sent (b : BatteryObserver) (before : List (BatteryStatus × Int)) (status : BatteryStatus × Int)
    (m : Power) : Prop where
  emitted : m ∈ (powers.step (powers.final b before) status).2
  stamp : m.stamp = status.2
  vouched : b.Vouched (before ++ [status]) m

/-- What the observer keeps of the statuses of the past. -/
def Seen (b : BatteryObserver) (past : List (BatteryStatus × Int)) (b' : BatteryObserver) : Prop :=
  ∃ present, b' = b.after (b.dockSamples past) (b.tractionSamples past).getLast? present ∧
    (present = true → ∃ sample ∈ b.dockSamples past, sample.Volts (b.state.chargerOnVoltage < ·))

theorem tractionSamples_snoc (b : BatteryObserver) (past : List (BatteryStatus × Int)) (m : BatteryStatus × Int) :
    b.tractionSamples (past ++ [m]) =
      if b.ofTraction m then b.tractionSamples past ++ [sample m] else b.tractionSamples past := by
  unfold tractionSamples
  rw [List.filter_append, List.map_append]
  split
  · rw [List.filter_cons_of_pos (by simpa using ‹b.ofTraction m›)]
    rfl
  · rw [List.filter_cons_of_neg (by simpa using ‹¬ b.ofTraction m›)]
    simp

/-- A presence after a projection rests on a sample above the ON threshold, if the one before does. -/
theorem on_of_present {battery : Option BatterySample} {now : Int}
    (hpresent : present = true → ∃ sample ∈ b.dockSamples past, sample.Volts (b.state.chargerOnVoltage < ·))
    (h : (b.after (b.dockSamples past) battery present).state.present now = true) :
    ∃ sample ∈ b.dockSamples past, sample.Volts (b.state.chargerOnVoltage < ·) := by
  rcases (rests_of_present _ _ _ _ h).2 with hbefore | ⟨sample, hlast, hon⟩
  · exact hpresent hbefore
  · exact ⟨sample, List.mem_of_getLast? hlast, hon⟩

theorem vouched_message (henabled : b.enabled = true) (stamp : Int)
    (hpresent : present = true → ∃ sample ∈ b.dockSamples past, sample.Volts (b.state.chargerOnVoltage < ·)) :
    b.Vouched past
      ((b.after (b.dockSamples past) (b.tractionSamples past).getLast? present).state.message stamp) := by
  have hthresholds : b.state.chargerOffVoltage < b.state.chargerOnVoltage := by
    simp only [enabled, PowerState.valid, Bool.and_eq_true, decide_eq_true_eq] at henabled
    exact henabled.2.2
  refine ⟨rfl, rfl, rfl, fun hcharger => ⟨?_, on_of_present hpresent hcharger⟩, ?_⟩
  · obtain ⟨sample, hdock, hfresh, v, hv, hholds⟩ := PowerState.present_iff.1 hcharger
    refine ⟨sample, ?_, v, hv, ?_⟩
    · exact (if_pos hfresh).trans hdock
    · rcases PowerState.holds_cases hholds with hon | ⟨-, hoff⟩
      · exact le_of_lt (lt_trans hthresholds hon)
      · exact hoff
  · have hnone : b.current (b.dockSamples past) stamp = none ↔
        ¬ b.state.fresh (b.dockSamples past).getLast? stamp = true := by
      unfold current
      split
      · rename_i hfresh
        refine ⟨fun hlast => ?_, fun hstale => absurd hfresh hstale⟩
        rw [hlast] at hfresh
        cases hfresh
      · rename_i hstale
        exact ⟨fun _ => hstale, fun _ => rfl⟩
    show ite _ _ _ = ite (b.current (b.dockSamples past) stamp = none) _ _
    simp only [hnone]
    rfl

theorem seen_new (hnew : b = b.after [] none false) : b.Seen [] b :=
  ⟨false, hnew, nofun⟩

theorem powers_dock (samples : List BatterySample) (battery : Option BatterySample) (present : Bool)
    (h : b.ofDock m) :
    let s := (b.after (samples ++ [sample m]) battery present).state
    powers.step (b.after samples battery present) m =
      (b.after (samples ++ [sample m]) battery (s.present m.2), [s.message m.2]) := by
  have hstate : (b.after samples battery present).state.observeDock (sample m) =
      (b.after (samples ++ [sample m]) battery present).state := by
    unfold PowerState.observeDock after
    rw [List.getLast?_concat]
  unfold powers handleBatteryStatus
  dsimp only
  rw [if_neg (not_not.2 (show (b.after samples battery present).enabled = true from h.1)),
    if_pos (show (m.1.id.toNat : Int) = (b.after samples battery present).dockBatteryInstance from h.2)]
  dsimp only [publishPower]
  rw [show (⟨m.1.voltage, m.1.current, m.2⟩ : BatterySample) = sample m from rfl, hstate]
  rfl

/-- The two projections of a traction battery status. -/
theorem powers_traction (samples : List BatterySample) (battery : Option BatterySample) (present : Bool)
    (h : b.ofTraction m) (hdock : ¬ b.ofDock m) :
    let s := (b.after samples (some (sample m)) present).state
    powers.step (b.after samples battery present) m =
      (b.after samples (some (sample m)) ((b.after samples (some (sample m)) (s.present m.2)).state.present m.2),
        [s.message m.2]) := by
  unfold powers handleBatteryStatus
  dsimp only
  rw [if_neg (not_not.2 (show (b.after samples battery present).enabled = true from h.1)),
    if_neg (fun hid : (m.1.id.toNat : Int) = (b.after samples battery present).dockBatteryInstance =>
      hdock ⟨h.1, hid⟩),
    if_pos (show (m.1.id.toNat : Int) = (b.after samples battery present).tractionBatteryInstance from h.2)]
  rfl

theorem powers_other (samples : List BatterySample) (battery : Option BatterySample) (present : Bool)
    (hdock : ¬ b.ofDock m) (htraction : ¬ b.ofTraction m) :
    powers.step (b.after samples battery present) m = (b.after samples battery present, []) := by
  unfold powers handleBatteryStatus
  dsimp only
  split
  · rfl
  · rename_i henabled
    have henabled : b.enabled = true := not_not.1 henabled
    rw [if_neg (fun hid : (m.1.id.toNat : Int) = (b.after samples battery present).dockBatteryInstance =>
        hdock ⟨henabled, hid⟩),
      if_neg (fun hid : (m.1.id.toNat : Int) = (b.after samples battery present).tractionBatteryInstance =>
        htraction ⟨henabled, hid⟩)]
    rfl

/-- The instances are distinct. -/
theorem not_ofTraction (h : b.ofDock m) : ¬ b.ofTraction m := by
  rintro ⟨henabled, htraction⟩
  simp only [enabled, Bool.and_eq_true, decide_eq_true_eq] at henabled
  exact henabled.1.2 (h.2.symm.trans htraction)

/-- A step keeps what was seen, and what it publishes is of this time and vouched for. -/
theorem seen_step (h : b.Seen past b') (m : BatteryStatus × Int) :
    b.Seen (past ++ [m]) (powers.step b' m).1 ∧
      ∀ message ∈ (powers.step b' m).2, message.stamp = m.2 ∧ b.Vouched (past ++ [m]) message := by
  obtain ⟨present, rfl, hpresent⟩ := h
  have hdocks := dockSamples_snoc b past m
  have htractions := tractionSamples_snoc b past m
  by_cases hdock : b.ofDock m
  · rw [if_pos hdock] at hdocks
    rw [if_neg (not_ofTraction hdock)] at htractions
    have hpresent : present = true → ∃ sample ∈ b.dockSamples (past ++ [m]),
        sample.Volts (b.state.chargerOnVoltage < ·) := by
      intro h
      obtain ⟨sample, hmem, hon⟩ := hpresent h
      exact ⟨sample, hdocks ▸ List.mem_append_left _ hmem, hon⟩
    rw [powers_dock _ _ _ hdock, ← hdocks, ← htractions]
    refine ⟨⟨_, rfl, on_of_present hpresent⟩, fun message hmessage => ?_⟩
    rw [List.mem_singleton.1 hmessage]
    exact ⟨rfl, vouched_message hdock.1 m.2 hpresent⟩
  · rw [if_neg hdock] at hdocks
    rw [← hdocks] at hpresent ⊢
    by_cases htraction : b.ofTraction m
    · rw [if_pos htraction] at htractions
      have hlast : some (sample m) = (b.tractionSamples (past ++ [m])).getLast? := by
        rw [htractions, List.getLast?_concat]
      rw [powers_traction _ _ _ htraction hdock, hlast]
      refine ⟨⟨_, rfl, on_of_present (on_of_present hpresent)⟩, fun message hmessage => ?_⟩
      rw [List.mem_singleton.1 hmessage]
      exact ⟨rfl, vouched_message htraction.1 m.2 hpresent⟩
    · rw [if_neg htraction] at htractions
      rw [powers_other _ _ _ hdock htraction, ← htractions]
      exact ⟨⟨present, rfl, hpresent⟩, fun message hmessage => by cases hmessage⟩

theorem seen_final (hnew : b = b.after [] none false) (past : List (BatteryStatus × Int)) :
    b.Seen past (powers.final b past) := by
  induction past using List.reverseRecOn with
  | nil => exact seen_new hnew
  | append_singleton past m ih =>
    rw [Machine.final_append]
    exact (seen_step ih m).1

/-- What the observer publishes is vouched for by the statuses up to then. -/
theorem sent_of_published (hnew : b = b.after [] none false) {run : List (BatteryStatus × Int)} {message : Power}
    (h : Topic.Published powers b run message) :
    ∃ before status after, run = before ++ status :: after ∧ b.Sent before status message := by
  obtain ⟨before, status, after, rfl, hmessage⟩ := h
  obtain ⟨hstamp, hvouched⟩ := (seen_step (seen_final hnew before) status).2 message hmessage
  exact ⟨before, status, after, rfl, hmessage, hstamp, hvouched⟩

end BatteryObserver

/-! ### What the bridge holds -/

namespace PowerRelay
open Past ReadinessHistory

/-- The call that an input makes on the readiness. -/
def call : PowerInput → ReadinessCall
  | .inl (message, receiptNs) => .traction receiptNs message.vBattery.isSome
  | .inr (.fcuState connected) => .connection connected
  | .inr (.imu receiptNs) => .imu receiptNs
  | .inr (.gnssStatus receiptNs sequence backend fixValid) => .gnss receiptNs sequence backend fixValid
  | .inr (.wheelOdom receiptNs) => .wheel receiptNs

def IsPower : PowerInput → Prop
  | .inl _ => True
  | .inr _ => False

/-- The link is lost. -/
def Lost (log : List PowerInput) (e : PowerInput) : Prop := e = .inr (.fcuState false) ∧ Connected (log.map call)

/-- The last Power message since the link was lost. -/
def LastPower : List PowerInput → PowerInput → Prop :=
  Since (fun _ => IsPower) fun log e => IsPower e ∨ Lost log e

section Bridge
variable {log : List PowerInput} {e : PowerInput} {b : PowerIntake}

/-- What the bridge keeps of the Power messages. -/
structure Keeps (log : List PowerInput) (b : PowerIntake) : Prop where
  connected : b.connected = true ↔ Connected (log.map call)
  power : ∀ m receiptNs, LastPower log (.inl (m, receiptNs)) →
    b.lastPower = m ∧ b.lastPowerReceiptNs = receiptNs ∧ b.isCharging = m.chargerEnabled
  none : (∀ e, ¬ LastPower log e) → b.lastPower = {} ∧ b.lastPowerReceiptNs = 0 ∧ b.isCharging = false

theorem lastPower_snoc {e' : PowerInput} : LastPower (log ++ [e]) e' ↔
    e = e' ∧ IsPower e ∨ ¬ (IsPower e ∨ Lost log e) ∧ LastPower log e' :=
  since_snoc

theorem connected_other (log : List PowerInput) {e : PowerInput} (he : ¬ IsConnection (call e)) :
    Connected ((log ++ [e]).map call) ↔ Connected (log.map call) := by
  rw [List.map_append, List.map_singleton, connected_report he]

/-- What is neither a Power message nor a lost link leaves what is kept. -/
theorem Keeps.other {b' : PowerIntake} (h : Keeps log b)
    (hconnected : b'.connected = true ↔ Connected ((log ++ [e]).map call)) (hpower : ¬ IsPower e)
    (hlost : ¬ Lost log e) (hb : b'.lastPower = b.lastPower)
    (hreceipt : b'.lastPowerReceiptNs = b.lastPowerReceiptNs) (hcharging : b'.isCharging = b.isCharging) :
    Keeps (log ++ [e]) b' := by
  have hlast : ∀ e', LastPower (log ++ [e]) e' ↔ LastPower log e' := by
    intro e'
    simp [lastPower_snoc, hpower, hlost]
  refine ⟨hconnected, fun m receiptNs hm => ?_, fun hno => ?_⟩ <;> rw [hb, hreceipt, hcharging]
  · exact h.power m receiptNs ((hlast _).1 hm)
  · exact h.none fun e' he' => hno e' ((hlast e').2 he')

theorem keeps_state (h : Keeps log b) (connected : Bool) :
    Keeps (log ++ [.inr (.fcuState connected)]) (b.onMavrosState connected) := by
  have hconnected : (b.onMavrosState connected).connected = true ↔
      Connected ((log ++ [Sum.inr (SourceReport.fcuState connected)]).map call) := by
    have hconnection : IsConnection (.connection connected) := trivial
    have hcall : call (.inr (.fcuState connected)) = .connection connected := rfl
    rw [List.map_append, List.map_singleton, connected_snoc, hcall]
    simp [hconnection, PowerIntake.onMavrosState]
  by_cases hlost : Lost log (.inr (.fcuState connected))
  · have hdown : connected = false := by simpa using hlost.1
    subst hdown
    have hup : b.connected = true := h.connected.2 hlost.2
    have hnone : ∀ e', ¬ LastPower (log ++ [.inr (.fcuState false)]) e' := by
      intro e' he'
      rcases lastPower_snoc.1 he' with ⟨-, hpower⟩ | ⟨hno, -⟩
      · exact hpower
      · exact hno (.inr hlost)
    refine ⟨hconnected, fun m receiptNs hm => absurd hm (hnone _), fun _ => ?_⟩
    simp [PowerIntake.onMavrosState, hup]
  · have hsame : (b.connected && !connected) = false := by
      cases connected with
      | true => simp
      | false =>
        rw [Bool.and_eq_false_iff]
        left
        rw [← Bool.not_eq_true, h.connected]
        exact fun hup => hlost ⟨rfl, hup⟩
    refine h.other hconnected not_false hlost ?_ ?_ ?_ <;> simp [PowerIntake.onMavrosState, hsame]

theorem keeps_step (h : Keeps log b) (e : PowerInput) : Keeps (log ++ [e]) (PowerIntake.machine.step b e).1 := by
  rcases e with ⟨m, receiptNs⟩ | report
  · have hconnected := connected_other log (e := .inl (m, receiptNs)) not_false
    refine ⟨h.connected.trans hconnected.symm, fun m' receiptNs' hm => ?_, fun hno => ?_⟩
    · rcases lastPower_snoc.1 hm with ⟨heq, -⟩ | ⟨hother, -⟩
      · obtain ⟨rfl, rfl⟩ : m = m' ∧ receiptNs = receiptNs' := by simpa using heq
        exact ⟨rfl, rfl, rfl⟩
      · exact absurd (.inl trivial) hother
    · have hlast : LastPower (log ++ [.inl (m, receiptNs)]) (.inl (m, receiptNs)) :=
        lastPower_snoc.2 (.inl ⟨rfl, trivial⟩)
      exact absurd hlast (hno _)
  · cases report with
    | fcuState connected => exact keeps_state h connected
    | imu _ | gnssStatus _ _ _ _ | wheelOdom _ =>
      have hlost : ∀ report, report ≠ SourceReport.fcuState false → ¬ Lost log (.inr report) := by
        rintro report hreport ⟨heq, -⟩
        exact hreport (by simpa using heq)
      refine h.other (h.connected.trans (Iff.symm ?_)) not_false (hlost _ nofun) rfl rfl rfl
      exact connected_other log (e := .inr _) not_false

theorem keeps_new (batteryTimeoutS : Rat) (readiness : ReadinessState) :
    Keeps [] (.ofParameters batteryTimeoutS readiness) where
  connected := ⟨nofun, fun h => absurd h not_was_nil⟩
  power _ _ h := absurd h not_since_nil
  none _ := ⟨rfl, rfl, rfl⟩

theorem keeps_final (batteryTimeoutS : Rat) (readiness : ReadinessState) (log : List PowerInput) :
    Keeps log (PowerIntake.machine.final (.ofParameters batteryTimeoutS readiness) log) := by
  induction log using List.reverseRecOn with
  | nil => exact keeps_new batteryTimeoutS readiness
  | append_singleton log e ih =>
    rw [Machine.final_append]
    exact keeps_step ih e

theorem timeout_final (b : PowerIntake) (log : List PowerInput) :
    (PowerIntake.machine.final b log).batteryTimeoutNs = b.batteryTimeoutNs := by
  induction log generalizing b with
  | nil => rfl
  | cons e log ih =>
    rw [Machine.final_cons, ih]
    rcases e with _ | report
    · rfl
    · cases report with
      | fcuState connected =>
        show (b.onMavrosState connected).batteryTimeoutNs = _
        unfold PowerIntake.onMavrosState
        split <;> rfl
      | imu _ | gnssStatus _ _ _ _ | wheelOdom _ => rfl

theorem readiness_step (b : PowerIntake) (e : PowerInput) :
    (PowerIntake.machine.step b e).1.readiness = b.readiness.call (call e) := by
  rcases e with ⟨m, receiptNs⟩ | report
  · rfl
  · cases report with
    | fcuState connected =>
      show (b.onMavrosState connected).readiness = b.readiness.connection connected
      unfold PowerIntake.onMavrosState
      split <;> rfl
    | imu _ | gnssStatus _ _ _ _ | wheelOdom _ => rfl

theorem readiness_final (b : PowerIntake) (log : List PowerInput) :
    (PowerIntake.machine.final b log).readiness = ReadinessState.machine.final b.readiness (log.map call) := by
  induction log generalizing b with
  | nil => rfl
  | cons e log ih =>
    rw [Machine.final_cons, ih, readiness_step]
    rfl

end Bridge

/-! ### Runs -/

section Runs
variable (l : Launch) (run : List Event)

theorem bridge_final : bridge l run = PowerIntake.machine.final l.intake (received l run) :=
  Topic.final_subscriber

/-- What the bridge received was sent on one of the statuses that the observer received. -/
theorem received_sent {m : Power} {receiptNs : Int} (h : .inl (m, receiptNs) ∈ received l run) :
    ∃ before status after, statuses run = before ++ status :: after ∧ l.observer.Sent before status m :=
  BatteryObserver.sent_of_published rfl (Topic.published_of_delivered rfl h)

/-- The Power message says of a traction battery status that the observer received. -/
structure Backs (l : Launch) (run : List Event) (status : BatteryStatus × Int) (m : Power) : Prop where
  received : status ∈ statuses run
  traction : l.observer.ofTraction status
  voltage : ∃ v, status.1.voltage = some (some v) ∧ m.vBattery = some v
  past : status.2 ≤ m.stamp
  recent : m.stamp - status.2 ≤ l.observer.state.staleAfterNs

theorem backed_of_vouched {past : List (BatteryStatus × Int)} {m : Power} (hpast : past <+: statuses run)
    (h : l.observer.Vouched past m) (hbattery : m.vBattery.isSome = true) : ∃ status, Backs l run status m := by
  obtain ⟨v, hv⟩ := Option.isSome_iff_exists.1 hbattery
  have hcurrent := h.vBattery.symm.trans hv
  obtain ⟨sample, hsample, hvoltage⟩ := Option.bind_eq_some_iff.1 (Option.join_eq_some_iff.1 hcurrent)
  unfold BatteryObserver.current at hsample
  split at hsample
  · rename_i hfresh
    rw [hsample, PowerState.fresh_iff] at hfresh
    obtain ⟨status, hstatus, rfl⟩ := List.mem_map.1 (List.mem_of_getLast? hsample)
    obtain ⟨hmem, htraction⟩ := List.mem_filter.1 hstatus
    exact ⟨status, hpast.subset hmem, of_decide_eq_true htraction, ⟨v, hvoltage, hv⟩, hfresh.1, hfresh.2⟩
  · cases hsample

/-- A bridge that is ready received a Power message over its link, within the timeout, that says a voltage of a
traction battery status which was fresh when the message was published. -/
theorem ready_backed (nowNs : Int) (h : ((bridge l run).readiness.project nowNs).ready = true) :
    ∃ m receiptNs status, OverLink call (received l run) (.inl (m, receiptNs)) ∧ receiptNs ≤ nowNs ∧
      nowNs - receiptNs ≤ l.readiness.timeoutNs ∧ Backs l run status m := by
  have htold := ReadinessState.told_final l.readinessTimeoutS l.gnssRequired l.wheelOdometryRequired
    ((received l run).map call)
  rw [bridge_final, readiness_final] at h
  have hshown := (htold.project nowNs).ready.1 h
  obtain ⟨-, -, ⟨a, hlast, hrecent⟩, ⟨a', hlast', hvalid⟩, -⟩ := hshown
  obtain rfl : a = a' := hlast.unique (fun _ _ => .inl) hlast'
  obtain ⟨x, rfl, hover⟩ := overLink_of_last (by rintro (_ | _) <;> simp [IsTraction, IsConnection]) hlast
  obtain ⟨m, receiptNs, rfl⟩ : ∃ m receiptNs, x = .inl (m, receiptNs) := by
    have htraction := last_kind hlast
    rcases x with ⟨m, receiptNs⟩ | report
    · exact ⟨m, receiptNs, rfl⟩
    · cases report <;> exact absurd htraction not_false
  obtain ⟨before, last, after, hsplit, hsent⟩ := received_sent l run hover.mem
  have hpast : before ++ [last] <+: statuses run := ⟨after, by rw [hsplit, List.append_assoc]; rfl⟩
  obtain ⟨status, hbacks⟩ := backed_of_vouched l run hpast hsent.vouched hvalid
  exact ⟨m, receiptNs, status, hover, hrecent.1, hrecent.2, hbacks⟩

/-- The observer starts, the link comes up, and the power, the IMU and the GNSS report. -/
def poweredUp : List Event :=
  [.input (BatteryObserver.volts 1 28000 1000000000), .other (.fcuState true), .deliver 0 2000000000,
    .other (.imu 2000000000), .other (.gnssStatus 2000000000 1 "gnss" true)]

theorem poweredUp_backed : ∃ m receiptNs status, OverLink call (received {} poweredUp) (.inl (m, receiptNs)) ∧
    receiptNs ≤ 3000000000 ∧ 3000000000 - receiptNs ≤ ({} : Launch).readiness.timeoutNs ∧
    Backs {} poweredUp status m :=
  ready_backed {} poweredUp 3000000000 (by decide +kernel)

/-- What the bridge says of the power. -/
inductive Says (l : Launch) (run : List Event) (nowNs : Int) (b : PowerIntake) : Prop
  /-- It says what the last message since a lost link says, which was sent on the status between `before` and
  `after`. -/
  | held (m : Power) (receiptNs : Int) (before : List (BatteryStatus × Int)) (status : BatteryStatus × Int)
    (after : List (BatteryStatus × Int)) (last : LastPower (received l run) (.inl (m, receiptNs)))
    (split : statuses run = before ++ status :: after) (sent : l.observer.Sent before status m)
    (charging : b.isCharging = m.chargerEnabled)
    (fresh : b.powerFresh nowNs = true ↔
      0 < receiptNs ∧ receiptNs ≤ nowNs ∧ nowNs - receiptNs ≤ l.intake.batteryTimeoutNs)
    (diagnostic : b.publishPower nowNs = ⟨b.powerFresh nowNs, m.chargeCurrent, m.vBattery, m.vCharge,
      m.chargerEnabled, if b.powerFresh nowNs then m.chargerStatus else "unavailable"⟩)
  /-- There was no message since. -/
  | nothing (last : ∀ e, ¬ LastPower (received l run) e) (charging : b.isCharging = false)
    (diagnostic : b.publishPower nowNs = ⟨false, some 0, some 0, some 0, false, "unavailable"⟩)

theorem power_relayed (nowNs : Int) : Says l run nowNs (bridge l run) := by
  have hkeeps : Keeps (received l run) (bridge l run) := by
    rw [bridge_final]
    exact keeps_final l.batteryTimeoutS l.readiness (received l run)
  by_cases hlast : ∃ e, LastPower (received l run) e
  · obtain ⟨e, he⟩ := hlast
    obtain ⟨m, receiptNs, rfl⟩ : ∃ m receiptNs, e = .inl (m, receiptNs) := by
      obtain ⟨_, _, -, hpower, -⟩ := he
      rcases e with ⟨m, receiptNs⟩ | report
      · exact ⟨m, receiptNs, rfl⟩
      · exact absurd hpower not_false
    obtain ⟨hmessage, hreceipt, hcharging⟩ := hkeeps.power m receiptNs he
    obtain ⟨before, status, after, hsplit, hsent⟩ := received_sent l run he.mem
    refine .held m receiptNs before status after he hsplit hsent hcharging ?_ ?_
    · have htimeout : (bridge l run).batteryTimeoutNs = l.intake.batteryTimeoutNs := by
        rw [bridge_final]
        exact timeout_final l.intake (received l run)
      simp [PowerIntake.powerFresh, hreceipt, htimeout, and_assoc]
    · unfold PowerIntake.publishPower
      rw [hmessage]
  · have hnone : ∀ e, ¬ LastPower (received l run) e := fun e he => hlast ⟨e, he⟩
    obtain ⟨hmessage, hreceipt, hcharging⟩ := hkeeps.none hnone
    refine .nothing hnone hcharging ?_
    have hstale : (bridge l run).powerFresh nowNs = false := by simp [PowerIntake.powerFresh, hreceipt]
    unfold PowerIntake.publishPower
    rw [hmessage, hstale]
    rfl

end Runs

end PowerRelay
end MowgliMavros
