import MowgliMavros.BridgeSession

/-!
# What the node may publish and send to the FCU

`TractionRule`, `ArmRule` and `ModeRule` say when a velocity, an ARM or DISARM and a SetMode may leave.
`Gate` is the invariant under which they hold of the whole log: a transport whose last message is not
neutral belongs to a session that was ready at the last drive. `driveSessionLocked` keeps it and leaves
the node `Driven`, the demand standing and the readiness recorded. The rule for SetMode also needs
`TestCalm`: an isolated blade test is not active in an emergency.
-/

namespace MowgliMavros
namespace Bridge
open Machine (Throughout)
open Prog (Triple Keeps)
open FcuSessionController (Command)

inductive Transport
  | manual | guided
deriving DecidableEq

namespace Effect

def transport? : Effect → Option Transport
  | manualControl _ _ _ => some .manual
  | guidedControl _ _ _ => some .guided
  | _ => none

def Neutral : Effect → Prop
  | manualControl _ command _ => command = {}
  | guidedControl _ target _ => target.velocityX = 0 ∧ target.yawRate = 0
  | _ => False

/-- A setpoint computed from a received twist. -/
def fromTwist : Effect → Bool
  | manualControl source _ _ | guidedControl source _ _ => source.isSome
  | _ => false

end Effect

def lastOn (t : Transport) (log : List Effect) : Option Effect := (log.filter (·.transport? = some t)).getLast?

def Node.implements (n : Node) : Transport → Prop
  | .manual => True
  | .guided => n.provider.guidedVelocityImplemented = true

/-- The mode requested for a movement state. -/
def Node.drivingMode (n : Node) : String := if n.guided then "GUIDED" else "MANUAL"

/-- A movement session that the FCU confirmed, without an emergency. -/
structure Node.Driving (n : Node) : Prop where
  movement : n.motionSessionActive = true
  calm : ∀ nowNs, n.emergency nowNs = false
  connected : n.mavrosState.connected = true
  armed : n.mavrosState.armed = true
  mode : n.mavrosState.mode = n.drivingMode

def TractionRule (pre : List Effect) : Effect → Prop
  | .manualControl (some _) _ sent => sent.Driving ∧ sent.mavrosState.mode = "MANUAL"
  | .guidedControl (some _) _ sent => sent.Driving ∧ sent.mavrosState.mode = "GUIDED"
  | .sessionDriven driven => ¬ driven.Driving → ∀ t m, lastOn t pre = some m → m.Neutral
  | _ => True

/-- A neutral on every implemented transport after the last velocity. -/
def Parked (n : Node) (log : List Effect) : Prop :=
  ∀ t, n.implements t → ∃ l m l', log = l ++ m :: l' ∧ m.transport? = some t ∧ m.Neutral ∧
    ∀ e ∈ l', e.fromTwist = false

structure MayArm (pre : List Effect) (asked : FcuSessionController) (n : Node) : Prop where
  connected : n.mavrosState.connected = true
  disarmed : n.mavrosState.armed = false
  mode : n.mavrosState.mode = n.sessionControl.wantedMode
  idle : asked.pending = none
  /-- The sequencer asked is the one that went into the ARM sent. -/
  emitted : ∃ now, n.sessionControl = (asked.emit .arm true now).1
  calm : ∀ nowNs, n.emergency nowNs = false
  released : n.safetyState.hardwareSafetyState = .released
  wanted : n.motionSessionActive = true ∨ n.bladeTestActive = true
  parked : Parked n pre

def ArmRule (pre : List Effect) : Effect → Prop
  | .arming true asked sent => MayArm pre asked sent
  | .arming false _ sent => (∀ nowNs, sent.emergency nowNs = true) ∨
      sent.motionSessionActive = false ∧ sent.bladeTestActive = false
  | _ => True

/-- Tilt, active or latched, or double wheel lift, and neither the switch nor the service. -/
def Node.SoftEmergency (n : Node) : Prop :=
  (n.safetyState.tiltActive = true ∨ n.safetyState.tiltLatched = true ∨ n.safetyState.liftedCount = 2) ∧
    n.safetyState.hardwareSafetyState ≠ .engaged ∧ n.safetyState.hardwareEmergencyLatched = false ∧
    n.safetyState.serviceEmergencyActive = false ∧ n.safetyState.serviceEmergencyLatched = false

instance (n : Node) : Decidable n.SoftEmergency := inferInstanceAs (Decidable (_ ∧ _))

def Node.Prescribes (n : Node) (mode : String) : Prop :=
  mode = "HOLD" ∧ ((n.safetyState.flags.reason = "HARDWARE_SAFETY_SWITCH" ∨
      n.safetyState.flags.reason = "SERVICE_EMERGENCY_STOP") ∨
    (∀ nowNs, n.emergency nowNs = false) ∧ n.motionSessionActive = false) ∨
  mode = "GUIDED" ∧ (∀ nowNs, n.emergency nowNs = false) ∧ n.highLevelState = 2 ∧
    n.provider.guidedVelocityImplemented = true ∨
  mode = "MANUAL" ∧ (∀ nowNs, n.emergency nowNs = false) ∧ n.motionSessionActive = true ∧
    (n.highLevelState ≠ 2 ∨ n.provider.guidedVelocityImplemented = false)

def ModeRule : Effect → Prop
  | .setMode mode sent => sent.Prescribes mode ∧ ¬ sent.SoftEmergency
  | _ => True

/-! ### The invariant -/

/-- `p` when nothing is asked of the SetMode requests. -/
def Rule (p : Prop) (pre : List Effect) (e : Effect) : Prop :=
  TractionRule pre e ∧ ArmRule pre e ∧ (p ∨ ModeRule e)

structure Gate (p : Prop) (n : Node) (log : List Effect) : Prop where
  sees : Sees n n.sessionControl
  parked : ∀ t m, lastOn t log = some m → n.implements t ∧ (m.Neutral ∨ n.tractionWasReady = true)
  lawful : Throughout (Rule p) log

/-- No isolated blade test in an emergency. -/
structure TestCalm (n : Node) : Prop where
  test : n.bladeTestActive = true → n.motionSessionActive = false → n.emergency 0 = false
  tilt : n.tiltDisarmSent = true → n.safetyState.tiltActive = true

/-- The demand of `drive_session_locked` stands and the readiness is recorded. With `p`, a failed blade
test may have replaced the mode. -/
structure Driven (p : Prop) (n : Node) : Prop where
  arm : n.sessionControl.wantedArm = (!n.emergency 0 && (n.motionSessionActive || n.bladeTestActive))
  safety : n.sessionControl.safetyDisarm = n.emergency 0
  mode : n.sessionControl.wantedMode = n.sessionMode 0 ∨ p ∧ n.motionSessionActive = false
  ready : n.tractionReady 0 = true → n.tractionWasReady = true
  driving : n.tractionWasReady = true → n.Driving

variable {p : Prop} {n n' : Node} {log : List Effect}

theorem lastOn_snoc (t : Transport) (e : Effect) :
    lastOn t (log ++ [e]) = if e.transport? = some t then some e else lastOn t log := by
  unfold lastOn
  by_cases h : e.transport? = some t <;> simp [h]

theorem rule_of_inert {pre : List Effect} {e : Effect} (ht : e.fromTwist = false) (ha : ∀ v a m, e ≠ .arming v a m)
    (hm : ∀ v m, e ≠ .setMode v m) (hd : ∀ m, e ≠ .sessionDriven m) : Rule p pre e := by
  cases e with
  | manualControl source command sent =>
    cases source with
    | none => exact ⟨trivial, trivial, .inr trivial⟩
    | some twist => cases ht
  | guidedControl source target sent =>
    cases source with
    | none => exact ⟨trivial, trivial, .inr trivial⟩
    | some twist => cases ht
  | arming v a m => exact absurd rfl (ha v a m)
  | setMode v m => exact absurd rfl (hm v m)
  | sessionDriven m => exact absurd rfl (hd m)
  | _ => exact ⟨trivial, trivial, .inr trivial⟩

namespace Gate

theorem congr (h : Gate p n log) (hs : Sees n' n'.sessionControl) (hp : n'.provider = n.provider)
    (ht : n'.tractionWasReady = n.tractionWasReady) : Gate p n' log := by
  refine ⟨hs, fun t m hm => ?_, h.lawful⟩
  obtain ⟨himpl, hm'⟩ := h.parked t m hm
  refine ⟨?_, ht ▸ hm'⟩
  cases t with
  | manual => trivial
  | guided => unfold Node.implements; rw [hp]; exact himpl

theorem emit (h : Gate p n log) {e : Effect}
    (ht : ∀ t, e.transport? = some t → n.implements t ∧ (e.Neutral ∨ n.tractionWasReady = true))
    (hrule : Rule p log e) : Gate p n (log ++ [e]) := by
  refine ⟨h.sees, fun t m hm => ?_, Machine.throughout_snoc.2 ⟨h.lawful, hrule⟩⟩
  rw [lastOn_snoc] at hm
  split at hm
  · rename_i hon
    obtain rfl := Option.some.inj hm
    exact ht t hon
  · exact h.parked t m hm

/-- An effect of no transport and no rule. -/
theorem emit_inert (h : Gate p n log) {e : Effect} (ht : e.transport? = none) (ha : ∀ v a m, e ≠ .arming v a m)
    (hm : ∀ v m, e ≠ .setMode v m) (hd : ∀ m, e ≠ .sessionDriven m) : Gate p n (log ++ [e]) := by
  have htwist : e.fromTwist = false := by cases e <;> simp_all [Effect.transport?, Effect.fromTwist]
  exact h.emit (fun t hon => by rw [ht] at hon; cases hon) (rule_of_inert htwist ha hm hd)

end Gate

/-! ### Neutrals -/

def neutrals (n : Node) : List Effect :=
  .manualControl none {} n ::
    if n.provider.guidedVelocityImplemented then [.guidedControl none { velocityX := 0, yawRate := 0 } n] else []

theorem publishNeutral_run (n : Node) : publishNeutralManualControl n = ((), n, neutrals n) := by
  obtain ⟨provider, _⟩ := n
  cases provider <;> rfl

theorem neutrals_neutral {e : Effect} (he : e ∈ neutrals n) : e.Neutral ∧ e.fromTwist = false := by
  unfold neutrals at he
  split at he
  · rcases List.mem_cons.1 he with rfl | he
    · exact ⟨rfl, rfl⟩
    · rw [List.mem_singleton.1 he]; exact ⟨⟨rfl, rfl⟩, rfl⟩
  · rw [List.mem_singleton.1 he]; exact ⟨rfl, rfl⟩

theorem neutrals_rule {m : Node} {e : Effect} (he : e ∈ neutrals m) (pre : List Effect) : Rule p pre e := by
  unfold neutrals at he
  split at he
  · rcases List.mem_cons.1 he with rfl | he
    · exact ⟨trivial, trivial, .inr trivial⟩
    · rw [List.mem_singleton.1 he]; exact ⟨trivial, trivial, .inr trivial⟩
  · rw [List.mem_singleton.1 he]; exact ⟨trivial, trivial, .inr trivial⟩

theorem neutrals_transport {e : Effect} (he : e ∈ neutrals n) (t : Transport) (ht : e.transport? = some t) :
    n.implements t := by
  unfold neutrals at he
  split at he
  · rename_i himpl
    rcases List.mem_cons.1 he with rfl | he
    · obtain rfl := Option.some.inj ht; trivial
    · obtain rfl := List.mem_singleton.1 he
      obtain rfl := Option.some.inj ht; exact himpl
  · obtain rfl := List.mem_singleton.1 he
    obtain rfl := Option.some.inj ht; trivial

theorem Gate.neutrals (h : Gate p n log) : Gate p n (log ++ neutrals n) := by
  have happend : ∀ es : List Effect, (∀ e ∈ es, e ∈ Bridge.neutrals n) → ∀ log, Gate p n log →
    Gate p n (log ++ es) := by
    intro es
    induction es with
    | nil => intro _ log hlog; simpa using hlog
    | cons e es ih =>
      intro hes log hlog
      have he : e ∈ Bridge.neutrals n := hes e (by simp)
      have hfirst : Gate p n (log ++ [e]) :=
        hlog.emit (fun t ht => ⟨neutrals_transport he t ht, .inl (neutrals_neutral he).1⟩) (neutrals_rule he log)
      simpa using ih (fun e he => hes e (by simp [he])) (log ++ [e]) hfirst
  exact happend _ (fun _ => id) log h

/-- After the neutrals no transport that has ever been used is left with a velocity. -/
theorem lastOn_neutrals (t : Transport) (ht : n.implements t) {m : Effect}
    (hm : lastOn t (log ++ neutrals n) = some m) : m.Neutral := by
  cases t with
  | manual =>
    have hlast : lastOn .manual (log ++ neutrals n) = some (.manualControl none {} n) := by
      unfold neutrals lastOn
      split <;> simp [Effect.transport?]
    obtain rfl := Option.some.inj (hlast.symm.trans hm)
    rfl
  | guided =>
    have himpl : n.provider.guidedVelocityImplemented = true := ht
    have hlast : lastOn .guided (log ++ neutrals n) =
      some (.guidedControl none { velocityX := 0, yawRate := 0 } n) := by
      simp [neutrals, lastOn, himpl, Effect.transport?]
    obtain rfl := Option.some.inj (hlast.symm.trans hm)
    exact ⟨rfl, rfl⟩

theorem triple_publishNeutral {P : Assertion} {Q : Unit → Assertion}
    (h : ∀ n l, P n l → Q () n (l ++ neutrals n)) : Triple P publishNeutralManualControl Q := by
  intro n l hp
  simp only [Prog.result, Prog.after, Prog.emitted, publishNeutral_run]
  exact h n l hp

theorem parked_neutrals (n : Node) (log : List Effect) : Parked n (log ++ neutrals n) := by
  have hsafe : ∀ e ∈ neutrals n, e.fromTwist = false := fun e he => (neutrals_neutral he).2
  intro t ht
  cases t with
  | manual =>
    refine ⟨log, _, _, rfl, rfl, rfl, fun e he => ?_⟩
    exact hsafe e (List.mem_cons_of_mem _ he)
  | guided =>
    have himpl : n.provider.guidedVelocityImplemented = true := ht
    refine ⟨log ++ [.manualControl none {} n], .guidedControl none { velocityX := 0, yawRate := 0 } n, [], ?_, rfl,
      ⟨rfl, rfl⟩, by simp⟩
    simp [neutrals, himpl]

end Bridge
end MowgliMavros
