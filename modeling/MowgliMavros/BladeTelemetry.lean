import MowgliMavros.ObservedHistory
import MowgliMavros.TrackerHistory

/-!
# The blade telemetry (`vesc_telemetry_projection.hpp`, `publish_status`)

What the status says of the blade ESC, in every reachable state, is what the last observation of the slot
says that was taken since the tracker was last emptied: by a lost link or by a new mapping of the roles
(`blade_shown`). The observations count while the last FCU state is a connected one.
-/

namespace MowgliMavros
open Past

/-! ### The tracker and its resets -/

inductive EscEvent
  | reset
  | observe (o : EscObservation) (receiptNs : Int)

namespace EscEvent

/-- An observation of the slot. -/
def IsOf (slot : Nat) : EscEvent → Prop
  | .observe o _ => o.escIndex.toNat = slot
  | .reset => False

def Resets : EscEvent → Prop
  | .reset => True
  | .observe _ _ => False

end EscEvent

namespace EscTelemetryTracker
open EscEvent

/-- The observation has a speed and a current, and its stamp is within the timeout. -/
structure Reports (timeoutNs nowNs : Int) (o : EscObservation) : Prop where
  valid : o.valid = true
  rpm : o.rpmValid = true
  current : o.currentValid = true ∧ o.current.isSome = true
  recent : Recent timeoutNs nowNs o.stamp.ns

section History
variable {slot : Nat} {log : List EscEvent} {o o' : EscObservation} {receiptNs : Int}

/-- The last observation of the slot since the last reset. -/
def Last (slot : Nat) (log : List EscEvent) (o : EscObservation) : Prop :=
  ∃ receiptNs, Since (fun _ => IsOf slot) (fun _ e => e.IsOf slot ∨ e.Resets) log (.observe o receiptNs)

/-- What is taken after the events that were: no observation that is older than the last one of its slot,
from the same source and with a stamp. -/
def Takes (timeoutNs : Int) (log : List EscEvent) : EscEvent → Prop
  | .reset => True
  | .observe o receiptNs => ¬ Refused timeoutNs o receiptNs ∧ ∀ last, Last o.escIndex.toNat log last →
      ¬ (last.source = o.source ∧ 0 < o.stamp.ns ∧ o.stamp.ns < last.stamp.ns)

theorem not_last_nil : ¬ Last slot [] o := by
  rintro ⟨receiptNs, h⟩
  exact not_since_nil h

theorem not_last_reset : ¬ Last slot (log ++ [.reset]) o := by
  rintro ⟨receiptNs, h⟩
  rcases since_snoc.1 h with ⟨heq, -⟩ | ⟨hno, -⟩
  · cases heq
  · exact hno (.inr trivial)

theorem last_index (h : Last slot log o) : o.escIndex.toNat = slot := by
  obtain ⟨receiptNs, pre, post, -, hslot, -⟩ := h
  exact hslot

theorem last_own (hslot : o'.escIndex.toNat = slot) : Last slot (log ++ [.observe o' receiptNs]) o ↔ o' = o := by
  constructor
  · rintro ⟨receiptNs', h⟩
    rcases since_snoc.1 h with ⟨heq, -⟩ | ⟨hno, -⟩
    · cases heq
      rfl
    · exact absurd (.inl hslot) hno
  · rintro rfl
    exact ⟨receiptNs, since_snoc.2 (.inl ⟨rfl, hslot⟩)⟩

theorem last_other (hslot : o'.escIndex.toNat ≠ slot) :
    Last slot (log ++ [.observe o' receiptNs]) o ↔ Last slot log o := by
  have hkeeps : ¬ (IsOf slot (.observe o' receiptNs) ∨ Resets (.observe o' receiptNs)) := by
    rintro (hno | hno)
    · exact hslot hno
    · exact hno
  constructor
  · rintro ⟨receiptNs', h⟩
    rcases since_snoc.1 h with ⟨-, hno⟩ | ⟨-, h⟩
    · exact absurd hno hslot
    · exact ⟨receiptNs', h⟩
  · rintro ⟨receiptNs', h⟩
    exact ⟨receiptNs', since_snoc.2 (.inr ⟨hkeeps, h⟩)⟩

end History

/-- The observations with the resets. -/
def tracking : Machine EscTelemetryTracker EscEvent Empty where
  step
    | t, .reset => (t.reset, [])
    | t, .observe o receiptNs => (t.observe o receiptNs, [])

/-- What `record` writes whatever the slot held. -/
def kept (state : EscState) : EscSample × Bool × Int × Int :=
  (state.sample, state.valid, state.lastUpdateNs, state.metadataNs)

/-- What a slot is after the events that were taken. -/
structure SlotTold (slot : Nat) (log : List EscEvent) (state : EscState) : Prop where
  unseen : (∀ o, ¬ Last slot log o) → kept state = kept {}
  seen : ∀ o, Last slot log o → kept state = kept (record {} o)
  /-- A slot that shows a valid observation has been observed. -/
  observed : state.valid = true → state.observed = true

structure Told (timeoutNs : Int) (log : List EscEvent) (t : EscTelemetryTracker) : Prop where
  timeout : t.timeoutNs = timeoutNs
  slot : ∀ slot, SlotTold slot log (t.states slot)

namespace Told
variable {timeoutNs receiptNs nowNs : Int} {log : List EscEvent} {t : EscTelemetryTracker} {o : EscObservation}
  {slot : Nat}

theorem fresh (timeoutNs : Int) : Told timeoutNs [] { timeoutNs := timeoutNs } where
  timeout := rfl
  slot _ := ⟨fun _ => rfl, fun _ h => absurd h not_last_nil, nofun⟩

theorem reset (h : Told timeoutNs log t) : Told timeoutNs (log ++ [.reset]) t.reset where
  timeout := h.timeout
  slot _ := ⟨fun _ => rfl, fun _ hlast => absurd hlast not_last_reset, nofun⟩

theorem seen (h : Told timeoutNs log t) (hlast : Last slot log o) :
    (t.states slot).sample = (record {} o).sample ∧ (t.states slot).valid = (o.valid && o.stamp.ns > 0) ∧
      (t.states slot).lastUpdateNs = o.stamp.ns ∧ (t.states slot).metadataNs = o.metadataStamp.ns := by
  have hkept := (h.slot slot).seen o hlast
  simp only [kept, Prod.mk.injEq] at hkept
  exact hkept

/-- The slot holds a later sample of the same source exactly when such an observation was taken last. -/
theorem regresses_iff (h : Told timeoutNs log t) : t.Regresses o ↔
    ∃ last, Last o.escIndex.toNat log last ∧ last.source = o.source ∧ 0 < o.stamp.ns ∧
      o.stamp.ns < last.stamp.ns := by
  constructor
  · rintro ⟨hsource, hpos, hback⟩
    by_cases hseen : ∃ last, Last o.escIndex.toNat log last
    · obtain ⟨last, hlast⟩ := hseen
      obtain ⟨hsample, -, hupdate, -⟩ := h.seen hlast
      rw [hsample] at hsource
      exact ⟨last, hlast, hsource, hpos, hupdate ▸ hback⟩
    · have hkept := (h.slot o.escIndex.toNat).unseen fun last hlast => hseen ⟨last, hlast⟩
      have hupdate : (t.states o.escIndex.toNat).lastUpdateNs = 0 :=
        (Prod.mk.inj (Prod.mk.inj (Prod.mk.inj hkept).2).2).1
      omega
  · rintro ⟨last, hlast, hsource, hpos, hback⟩
    obtain ⟨hsample, -, hupdate, -⟩ := h.seen hlast
    refine ⟨?_, hpos, hupdate ▸ hback⟩
    rw [hsample]
    exact hsource

theorem takes_iff (h : Told timeoutNs log t) :
    Takes timeoutNs log (.observe o receiptNs) ↔ t.Accepts o receiptNs := by
  unfold Takes Accepts
  rw [h.timeout, h.regresses_iff, not_exists]
  simp only [not_and]

theorem observe (h : Told timeoutNs log t) (haccepts : t.Accepts o receiptNs) :
    Told timeoutNs (log ++ [.observe o receiptNs]) (t.observe o receiptNs) := by
  refine ⟨observe_timeoutNs.trans h.timeout, fun slot => ?_⟩
  rw [observe_accepted haccepts]
  by_cases hslot : o.escIndex.toNat = slot
  · subst hslot
    dsimp only
    rw [if_pos rfl]
    refine ⟨fun hno => absurd ((last_own rfl).2 rfl) (hno o), fun last hlast => ?_, fun hvalid => ?_⟩
    · obtain rfl := (last_own rfl).1 hlast
      rfl
    · have hvalid' : o.valid = true := by
        simp only [record, Bool.and_eq_true] at hvalid
        exact hvalid.1
      simp [record, hvalid']
  · have hstates : (if slot = o.escIndex.toNat then record (t.states o.escIndex.toNat) o else t.states slot) =
        t.states slot := if_neg fun heq => hslot heq.symm
    dsimp only
    rw [hstates]
    refine ⟨fun hno => (h.slot slot).unseen fun last hlast => hno last ((last_other hslot).2 hlast), ?_,
      (h.slot slot).observed⟩
    intro last hlast
    exact (h.slot slot).seen last ((last_other hslot).1 hlast)

/-- The tracker after a history is what was taken of it. -/
theorem tracked (timeoutNs : Int) (events : List EscEvent) :
    Told timeoutNs (heard (Takes timeoutNs) events) (tracking.final { timeoutNs := timeoutNs } events) := by
  refine heard_final (fun log t e h htakes => ?_) (fun log t e h hrefused => ?_) (.fresh timeoutNs)
  · cases e with
    | reset => exact h.reset
    | observe o receiptNs => exact h.observe (h.takes_iff.1 htakes)
  · cases e with
    | reset => exact absurd trivial hrefused
    | observe o receiptNs =>
      have hsame : t.observe o receiptNs = t := observe_not_accepted fun haccepts => hrefused (h.takes_iff.2 haccepts)
      show Told timeoutNs log (t.observe o receiptNs)
      rw [hsame]
      exact h

theorem fresh_iff (h : Told timeoutNs log t) {stampNs : Int} :
    t.fresh stampNs nowNs = true ↔ Recent timeoutNs nowNs stampNs := by
  simp [EscTelemetryTracker.fresh, Recent, h.timeout, and_assoc]

end Told

end EscTelemetryTracker

/-- The stamp of a message for a time in nanoseconds. -/
def Stamp.ofNs (ns : Int) : Stamp := ⟨ns / 1000000000, (ns % 1000000000).toNat⟩

theorem Stamp.ofNs_ns {stamp : Stamp} (h : 0 < stamp.ns) : Stamp.ofNs stamp.ns = stamp := by
  unfold ns at h ⊢
  split at h
  · rename_i hstamp
    obtain ⟨hsec, hnanosec⟩ := hstamp
    rw [if_pos ⟨hsec, hnanosec⟩]
    unfold ofNs
    cases stamp with
    | mk sec nanosec =>
      congr 1
      · dsimp only at hnanosec ⊢
        omega
      · dsimp only at hnanosec ⊢
        omega
  · exact absurd h (by decide)

/-! ### The projection -/

/-- `BladeTelemetryProjection`; the magnitude of the speed is exact here, `none` stands for NaN. -/
structure BladeTelemetryProjection where
  status : UInt8 := 99
  temperature : Option Rat := none
  current : Option Rat := some 0
  rpm : Nat := 0
  stampNs : Int := 0
  available : Bool := false
deriving DecidableEq

def bladeTelemetryFromEsc (mower : EscState) : BladeTelemetryProjection :=
  if ¬ mower.online ∨ ¬ mower.observed ∨ mower.lastUpdateNs ≤ 0 ∨ ¬ mower.sample.rpmValid ∨
      ¬ mower.sample.currentValid then {}
  else {
    available := true
    status := if mower.sample.rpm = 0 then 200 else 201
    temperature := if mower.sample.temperatureValid then mower.sample.temperature else none
    current := mower.sample.current
    rpm := mower.sample.rpm.natAbs
    stampNs := mower.lastUpdateNs }

namespace EscTelemetryTracker

/-- What an observation that reports is projected to. -/
def reported (timeoutNs nowNs : Int) (o : EscObservation) : BladeTelemetryProjection where
  available := true
  status := if o.rpm = 0 then 200 else 201
  temperature := if o.temperatureValid = true ∧ Recent timeoutNs nowNs o.metadataStamp.ns then o.temperature else none
  current := o.current
  rpm := o.rpm.natAbs
  stampNs := o.stamp.ns

namespace Told
variable {timeoutNs nowNs : Int} {log : List EscEvent} {t : EscTelemetryTracker} {o : EscObservation} {slot : Nat}

theorem project_online (h : Told timeoutNs log t) (hlast : Last slot log o) (hslot : slot < 64) :
    (t.project slot nowNs).online = true ↔ o.valid = true ∧ Recent timeoutNs nowNs o.stamp.ns := by
  obtain ⟨-, hvalid, hupdate, -⟩ := h.seen hlast
  unfold project
  rw [if_neg (by omega)]
  dsimp only
  rw [Bool.and_eq_true, h.fresh_iff, hvalid, hupdate, Bool.and_eq_true, decide_eq_true_iff]
  constructor
  · rintro ⟨⟨hv, -⟩, hrecent⟩
    exact ⟨hv, hrecent⟩
  · rintro ⟨hv, hrecent⟩
    exact ⟨⟨hv, hrecent.1⟩, hrecent⟩

theorem project_observed (h : Told timeoutNs log t) (hslot : slot < 64)
    (honline : (t.project slot nowNs).online = true) :
    (t.project slot nowNs).observed = true := by
  unfold project at honline ⊢
  rw [if_neg (by omega)] at honline ⊢
  exact (h.slot slot).observed ((Bool.and_eq_true _ _).mp honline).1

/-- An observation that does not report says nothing about the blade. -/
theorem telemetry_silent (h : Told timeoutNs log t) (hlast : Last slot log o) (hslot : slot < 64)
    (hno : ¬ Reports timeoutNs nowNs o) : bladeTelemetryFromEsc (t.project slot nowNs) = {} := by
  refine if_pos ?_
  by_contra hall
  simp only [not_or, not_not, not_le] at hall
  obtain ⟨honline, -, -, hrpm, hcurrent⟩ := hall
  have hsample := (h.seen hlast).1
  obtain ⟨hvalid, hrecent⟩ := (h.project_online hlast hslot).1 honline
  unfold project at hrpm hcurrent
  rw [if_neg (by omega)] at hrpm hcurrent
  simp only [hsample, record, Bool.and_eq_true] at hrpm hcurrent
  exact hno ⟨hvalid, hrpm.1, hcurrent.1, hrecent⟩

theorem telemetry_reported (h : Told timeoutNs log t) (hlast : Last slot log o) (hslot : slot < 64)
    (hreports : Reports timeoutNs nowNs o) :
    bladeTelemetryFromEsc (t.project slot nowNs) = reported timeoutNs nowNs o := by
  have honline := (h.project_online hlast hslot).2 ⟨hreports.valid, hreports.recent⟩
  have hobserved := h.project_observed hslot honline
  obtain ⟨hsample, -, hupdate, hmetadata⟩ := h.seen hlast
  have hfields : (t.project slot nowNs).lastUpdateNs = o.stamp.ns ∧ (t.project slot nowNs).sample.rpm = o.rpm ∧
      (t.project slot nowNs).sample.current = o.current ∧
      (t.project slot nowNs).sample.temperature = o.temperature := by
    unfold project
    rw [if_neg (by omega)]
    dsimp only
    rw [hupdate, hsample]
    exact ⟨rfl, rfl, rfl, rfl⟩
  have hflags : (t.project slot nowNs).sample.rpmValid = true ∧ (t.project slot nowNs).sample.currentValid = true ∧
      ((t.project slot nowNs).sample.temperatureValid = true ↔
        (o.temperatureValid = true ∧ o.temperature.isSome = true) ∧ Recent timeoutNs nowNs o.metadataStamp.ns) := by
    unfold project at honline ⊢
    rw [if_neg (by omega)] at honline ⊢
    dsimp only at honline ⊢
    rw [honline, hsample, ← h.fresh_iff, ← hmetadata]
    simp [record, hreports.rpm, hreports.current]
  obtain ⟨hupdate, hrpm, hcurrent, htemperature⟩ := hfields
  obtain ⟨hrpmValid, hcurrentValid, htemperatureValid⟩ := hflags
  have hpos := hreports.recent.1
  unfold bladeTelemetryFromEsc reported
  rw [if_neg, hupdate, hrpm, hcurrent, htemperature]
  · congr 1
    simp only [htemperatureValid]
    cases o.temperature <;> simp
  · simp [honline, hobserved, hupdate, hrpmValid, hcurrentValid, hpos]

/-- Without an observation nothing is said. -/
theorem telemetry_unseen (h : Told timeoutNs log t) (hunseen : ∀ o, ¬ Last slot log o) :
    bladeTelemetryFromEsc (t.project slot nowNs) = {} := by
  refine if_pos (.inl fun honline => ?_)
  have hkept := (h.slot slot).unseen hunseen
  have hvalid : (t.states slot).valid = false := (Prod.mk.inj (Prod.mk.inj hkept).2).1
  unfold project at honline
  split at honline
  · cases honline
  · simp [hvalid] at honline

end Told
end EscTelemetryTracker

/-! ### The node -/

namespace BladeControl

/-- `label`. -/
def Direction.label : Direction → String
  | .off => "off"
  | .forward => "forward"
  | .reverse => "reverse"
  | .unknown => "unknown"

end BladeControl

namespace Bridge
open EscTelemetryTracker

/-- What `publish_status` fills in for the blade. -/
structure Status where
  mowEnabled : Bool
  bladeRequestedDirection : String
  mowerEscStatus : UInt8
  mowerEscTemperature : Option Rat
  mowerEscCurrent : Option Rat := some 0
  mowerMotorRpm : Nat := 0
  bladeStatusStamp : Stamp := ⟨0, 0⟩
  escPower : Bool
deriving DecidableEq

def Node.publishStatus (n : Node) (nowNs : Int) : Status :=
  -- the slot is cast to an unsigned int, which takes a disabled role out of range
  let mower := n.escTracker.project (n.roles.1.blade % 4294967296).toNat nowNs
  let blade := bladeTelemetryFromEsc mower
  { mowEnabled := n.bladeControl.enabled
    bladeRequestedDirection := n.bladeControl.requested.label
    mowerEscStatus := blade.status
    mowerEscTemperature := blade.temperature
    mowerEscCurrent := if blade.available then blade.current else some 0
    mowerMotorRpm := if blade.available then blade.rpm else 0
    bladeStatusStamp := if blade.available then Stamp.ofNs blade.stampNs else ⟨0, 0⟩
    escPower := blade.available }

/-! What the messages say of the ESCs. -/

/-- What a message maps the roles to. -/
def mapRoles (r : { r : Roles // r.Valid }) : Observation → { r : Roles // r.Valid }
  | .parameters parameters =>
    match validate r.1 parameters with
    | .ok roles => roles
    | .error _ => r
  | _ => r

def rolesAfter (r : { r : Roles // r.Valid }) (h : List Observation) : { r : Roles // r.Valid } :=
  h.foldl mapRoles r

/-- The parameters map a role and are accepted. -/
def Maps (r : { r : Roles // r.Valid }) (parameters : List Parameter) : Prop :=
  (∃ roles, validate r.1 parameters = .ok roles) ∧ parameters.any Parameter.isRole = true

open Classical in
/-- What a message is to the tracker. -/
noncomputable def escEvents (r : { r : Roles // r.Valid }) (h : List Observation) : Observation → List EscEvent
  | .fcuState message _ => if Connected h ∧ message.connected = false then [.reset] else []
  | .escTelemetry message receiptNs => if Connected h then [.observe message receiptNs] else []
  | .parameters parameters => if Maps (rolesAfter r h) parameters then [.reset] else []
  | .sysStatus _ _ _ | .buttonChange _ _ | .imu _ _ | .emergencyStop _ | .highLevelStatus _ => []

noncomputable def escLog (r : { r : Roles // r.Valid }) : List Observation → List EscEvent := emitted (escEvents r)

/-- The tracker and the roles are what the messages make of them. -/
structure EscSeen (l : Launch) (h : List Observation) (v : Inputs) : Prop where
  tracker : v.escTracker = tracking.final { timeoutNs := l.escTimeoutNs } (escLog l.roles h)
  roles : v.roles = rolesAfter l.roles h

namespace EscSeen
variable {l : Launch} {h : List Observation} {v v' : Inputs} {o : Observation}

theorem step (hs : EscSeen l h v)
    (htracker : v'.escTracker = tracking.final v.escTracker (escEvents l.roles h o))
    (hroles : v'.roles = mapRoles v.roles o) : EscSeen l (h ++ [o]) v' where
  tracker := by
    unfold escLog
    rw [htracker, hs.tracker, emitted_snoc, Machine.final_append]
    rfl
  roles := by
    unfold rolesAfter
    rw [hroles, hs.roles, List.foldl_append]
    rfl

theorem whenConnected (hs : EscSeen l h v) (hconnected : v.mavrosState.connected = true ↔ Connected h)
    {f : Inputs → Inputs} (hdown : ¬ Connected h → escEvents l.roles h o = []) (hroles : mapRoles v.roles o = v.roles)
    (hup : Connected h → (f v).escTracker = tracking.final v.escTracker (escEvents l.roles h o))
    (hf : (f v).roles = v.roles) : EscSeen l (h ++ [o]) (v.whenConnected f) := by
  unfold Inputs.whenConnected
  split
  · rename_i hconn
    exact hs.step (hup (hconnected.1 hconn)) (hf.trans hroles.symm)
  · rename_i hconn
    refine hs.step ?_ hroles.symm
    rw [hdown fun hh => hconn (hconnected.2 hh)]
    rfl

theorem observe (hs : EscSeen l h v) (hconnected : v.mavrosState.connected = true ↔ Connected h) (o : Observation) :
    EscSeen l (h ++ [o]) (v.observe o) := by
  cases o with
  | parameters parameters =>
    unfold Inputs.observe Inputs.setParameters
    dsimp only
    cases hvalidate : validate v.roles.1 parameters with
    | error refusal =>
      have hno : ¬ Maps (rolesAfter l.roles h) parameters := by
        rintro ⟨⟨roles, hroles⟩, -⟩
        rw [← hs.roles, hvalidate] at hroles
        cases hroles
      refine hs.step ?_ ?_
      · rw [escEvents, if_neg hno]
        rfl
      · rw [mapRoles, hvalidate]
    | ok roles =>
      have hmaps : Maps (rolesAfter l.roles h) parameters ↔ parameters.any Parameter.isRole = true := by
        unfold Maps
        rw [← hs.roles, hvalidate]
        simp
      refine hs.step ?_ ?_
      · rw [escEvents]
        simp only [hmaps]
        split <;> rfl
      · rw [mapRoles, hvalidate]
  | highLevelStatus state => exact hs.step rfl rfl
  | fcuState message receiptMs =>
    refine hs.step ?_ rfl
    have hdrops : (v.mavrosState.connected && !message.connected) = true ↔
        Connected h ∧ message.connected = false := by simp [hconnected]
    unfold Inputs.observe Inputs.observeFcuState escEvents
    dsimp only
    split
    · rename_i hdrop
      rw [if_pos (hdrops.1 hdrop)]
      rfl
    · rename_i hkeep
      rw [if_neg fun hh => hkeep (hdrops.2 hh)]
      rfl
  | sysStatus present enabled receiptMs =>
    exact hs.whenConnected hconnected (f := (·.observeSysStatus present enabled receiptMs)) (fun _ => rfl) rfl
      (fun _ => rfl) rfl
  | buttonChange state receiptNs =>
    exact hs.whenConnected hconnected (f := (·.observeButtonChange state receiptNs)) (fun _ => rfl) rfl
      (fun _ => rfl) rfl
  | imu tilted receiptNs =>
    cases tilted <;> exact hs.step rfl rfl
  | escTelemetry message receiptNs =>
    refine hs.whenConnected hconnected (f := (·.observeEsc message receiptNs)) (fun hdown => if_neg hdown) rfl ?_ rfl
    intro hup
    rw [escEvents, if_pos hup]
    rfl
  | emergencyStop emergency => exact hs.step rfl rfl

end EscSeen

theorem esc_seen (l : Launch) (h : List Observation) : EscSeen l h (h.foldl Inputs.observe l.node.inputs) := by
  induction h using List.reverseRecOn with
  | nil => exact ⟨rfl, rfl⟩
  | append_singleton h o ih =>
    rw [List.foldl_append]
    exact ih.observe (seen_observations l h).connected o

/-! What the status says. -/

/-- The last observation of the slot that is mapped to the blade. -/
def BladeLast (blade : Int) (log : List EscEvent) (o : EscObservation) : Prop :=
  (o.escIndex.toNat : Int) = blade ∧ Last o.escIndex.toNat log o

/-- What the status says of the events that were taken. -/
structure BladeShown (timeoutNs nowNs blade : Int) (log : List EscEvent) (status : Status) : Prop where
  reported : ∀ o, BladeLast blade log o → Reports timeoutNs nowNs o →
    status.escPower = true ∧ status.mowerEscStatus = (if o.rpm = 0 then 200 else 201) ∧
      status.mowerEscTemperature =
        (if o.temperatureValid = true ∧ Recent timeoutNs nowNs o.metadataStamp.ns then o.temperature else none) ∧
      status.mowerEscCurrent = o.current ∧ status.mowerMotorRpm = o.rpm.natAbs ∧ status.bladeStatusStamp = o.stamp
  silent : (∀ o, BladeLast blade log o → ¬ Reports timeoutNs nowNs o) →
    status.escPower = false ∧ status.mowerEscStatus = 99 ∧ status.mowerEscTemperature = none ∧
      status.mowerEscCurrent = some 0 ∧ status.mowerMotorRpm = 0 ∧ status.bladeStatusStamp = ⟨0, 0⟩

theorem publishStatus_shown {n : Node} {timeoutNs nowNs : Int} {log : List EscEvent}
    (h : Told timeoutNs log n.escTracker) :
    BladeShown timeoutNs nowNs n.roles.1.blade log (n.publishStatus nowNs) := by
  obtain ⟨-, -, ⟨hlow, hhigh⟩, -⟩ := n.roles.2
  have hsilent {telemetry : BladeTelemetryProjection} (ht : telemetry = {})
      (hn : bladeTelemetryFromEsc (n.escTracker.project (n.roles.1.blade % 4294967296).toNat nowNs) = telemetry) :
      (n.publishStatus nowNs).escPower = false ∧ (n.publishStatus nowNs).mowerEscStatus = 99 ∧
        (n.publishStatus nowNs).mowerEscTemperature = none ∧ (n.publishStatus nowNs).mowerEscCurrent = some 0 ∧
        (n.publishStatus nowNs).mowerMotorRpm = 0 ∧ (n.publishStatus nowNs).bladeStatusStamp = ⟨0, 0⟩ := by
    subst ht
    unfold Node.publishStatus
    dsimp only
    rw [hn]
    exact ⟨rfl, rfl, rfl, rfl, rfl, rfl⟩
  constructor
  · rintro o ⟨hblade, hlast⟩ hreports
    have hslot : (n.roles.1.blade % 4294967296).toNat = o.escIndex.toNat := by omega
    have hrange : o.escIndex.toNat < 64 := by omega
    have hn := h.telemetry_reported hlast hrange hreports
    unfold Node.publishStatus
    dsimp only
    rw [hslot, hn]
    exact ⟨rfl, rfl, rfl, rfl, rfl, Stamp.ofNs_ns hreports.recent.1⟩
  · intro hno
    refine hsilent rfl ?_
    by_cases hdisabled : n.roles.1.blade < 0
    -- the cast of a disabled role is no slot
    · unfold project
      rw [if_pos (by omega)]
      rfl
    · by_cases hseen : ∃ o, Last (n.roles.1.blade % 4294967296).toNat log o
      · obtain ⟨o, hlast⟩ := hseen
        have hindex := last_index hlast
        refine h.telemetry_silent hlast (by omega) (hno o ⟨by omega, ?_⟩)
        rwa [hindex]
      · exact h.telemetry_unseen fun o hlast => hseen ⟨o, hlast⟩

/-- In every reachable state the status says of the blade ESC what the messages say. -/
theorem blade_shown (l : Launch) (run : List (Callback × Env)) (nowNs : Int) :
    let h := observations run
    BladeShown l.escTimeoutNs nowNs (rolesAfter l.roles h).1.blade
      (heard (Takes l.escTimeoutNs) (escLog l.roles h)) ((reach l run).publishStatus nowNs) := by
  intro h
  have hseen : EscSeen l h (reach l run).inputs := by
    rw [reach_inputs]
    exact esc_seen l h
  have hroles : (reach l run).roles = rolesAfter l.roles h := hseen.roles
  have htracker : Told l.escTimeoutNs (heard (Takes l.escTimeoutNs) (escLog l.roles h)) (reach l run).escTracker := by
    have htracked := Told.tracked l.escTimeoutNs (escLog l.roles h)
    rwa [← hseen.tracker] at htracked
  rw [← hroles]
  exact publishStatus_shown htracker

end Bridge
end MowgliMavros
