import Mathlib.Algebra.Group.Nat.Defs
import Mathlib.Tactic.Common

/-!
# The blade controller (`blade_control.hpp`)

`BladeControl` decides which servo-183 command leaves the bridge next: OFF (neutral), FWD or REV.
Times are milliseconds of the caller's monotonic clock. `token_` and `revision_` only ever count
up by one and are naturals; `stop_samples_` keeps its 32-bit wrap.
-/

namespace MowgliMavros
namespace BladeControl

inductive Direction
  | off | forward | reverse | unknown
deriving DecidableEq, Repr

inductive State
  | off | fwd | rev | transitionToOff | waitStopBeforeReverse | failed
deriving DecidableEq, Repr

inductive Result
  | rejected | pending | confirmed
deriving DecidableEq, Repr

structure Config where
  channel : Int := 3
  neutral : Int := 1500
  forward : Int := 1450
  reverse : Int := 1550
  ackTimeoutMs : Int := 3000
  stopTimeoutMs : Int := 15000
  freshnessMs : Int := 1000
  coastMs : Int := 1000
deriving DecidableEq, Repr

/-- The condition under which the constructor throws. -/
def Config.Invalid (c : Config) : Prop :=
  c.channel < 1 ∨ c.channel > 32 ∨ c.neutral < 1000 ∨ c.neutral > 2000 ∨ c.forward < 1000 ∨
    c.forward > 2000 ∨ c.reverse < 1000 ∨ c.reverse > 2000 ∨
    ¬ (c.forward < c.neutral ∧ c.reverse > c.neutral ∨ c.reverse < c.neutral ∧ c.forward > c.neutral) ∨
    c.ackTimeoutMs ≤ 0 ∨ c.stopTimeoutMs ≤ c.coastMs ∨ c.freshnessMs ≤ 0 ∨ c.coastMs < 1000

instance (c : Config) : Decidable c.Invalid := inferInstanceAs (Decidable (_ ∨ _))

abbrev ValidConfig := { c : Config // ¬ c.Invalid }

structure Command where
  token : Nat
  channel : Int
  pwm : Int
  direction : Direction
deriving DecidableEq, Repr

/-- The arguments of `sample` other than `now`. -/
structure Sample where
  source : Int
  stamp : Int
  count : UInt32
  countValid : Bool
  valid : Bool
  rpm : Int
deriving DecidableEq, Repr

end BladeControl

open BladeControl in
structure BladeControl where
  config : ValidConfig
  state : State := .transitionToOff
  requested : Direction := .off
  confirmed : Direction := .unknown
  connected : Bool := false
  allowed : Bool := false
  fault : Bool := false
  queuedNeutral : Bool := true
  inFlight : Option Command := none
  token : Nat := 0
  revision : Nat := 0
  sentAt : Int := 0
  neutralSince : Int := 0
  waitSince : Int := 0
  stopSince : Int := -1
  stopSamples : Nat := 0
  sampleSource : Int := -1
  sampleStamp : Int := 0
  sampleReceipt : Int := -1
  sampleCount : UInt32 := 0
  sampleZero : Bool := false

namespace BladeControl
variable (s : BladeControl)

def new (config : Config) : Except String BladeControl :=
  if h : config.Invalid then .error "Invalid blade PWM/timing configuration" else .ok { config := ⟨config, h⟩ }

def pwm (direction : Direction) : Int :=
  match direction with
  | .forward => s.config.1.forward
  | .reverse => s.config.1.reverse
  | _ => s.config.1.neutral

def channel : Int := s.config.1.channel

def satisfied : Bool := !s.fault && s.inFlight.isNone && !s.queuedNeutral && s.confirmed == s.requested

def failed : Bool := s.fault

def current (token : Nat) : Bool :=
  match s.inFlight with
  | some c => c.token == token
  | none => false

def enabled : Bool := s.allowed && s.satisfied && s.confirmed != .off

def forceOff (now : Int) : BladeControl :=
  { s with
    revision := s.revision + 1
    requested := .off
    confirmed := .unknown
    -- fences the replies to commands already handed to the transport
    inFlight := none
    token := s.token + 1
    queuedNeutral := true
    fault := false
    stopSince := -1
    stopSamples := 0
    neutralSince := now
    state := .transitionToOff }

def serviceTimeout (now : Int) : BladeControl :=
  { s.forceOff now with fault := true, state := .failed }

def connection (connected : Bool) (now : Int) : BladeControl :=
  if connected ≠ s.connected then
    { s with connected := connected, sampleStamp := 0, sampleSource := -1, sampleReceipt := -1 }.forceOff now
  else s

def permission (allowed : Bool) (now : Int) : BladeControl :=
  { (if s.allowed ∧ ¬ allowed then s.forceOff now else s) with allowed := allowed }

def request (direction : Direction) (now : Int) : BladeControl × Result :=
  if ¬ s.connected ∨ direction = .unknown ∨
      direction ≠ .off ∧ (¬ s.allowed ∨ s.fault ∨ s.sampleReceipt < 0 ∨
        now - s.sampleReceipt > s.config.1.freshnessMs) then
    (s, .rejected)
  else if s.fault then (s, .rejected)
  else if direction = s.requested then (s, if s.satisfied then .confirmed else .pending)
  else
    let s := { s with revision := s.revision + 1, requested := direction }
    if direction = .off then
      -- a neutral supersedes an ON already handed to the transport
      (s.forceOff now, .pending)
    else if s.confirmed ≠ .off ∨ s.inFlight.isSome ∨ s.queuedNeutral then
      let s := if s.inFlight.any (·.direction != .off) then { s.forceOff now with requested := direction } else s
      ({ s with queuedNeutral := true, state := .transitionToOff }, .pending)
    else ({ s with state := .waitStopBeforeReverse, waitSince := now }, .pending)

def Ignores (x : Sample) : Prop :=
  ¬ x.valid ∨ x.source ≠ 1 ∧ x.source ≠ 2 ∨ x.source = 2 ∧ ¬ x.countValid ∨ x.stamp ≤ 0 ∨
    x.stamp ≤ s.sampleStamp ∨
    s.sampleSource = x.source ∧ x.source = 2 ∧ (¬ x.countValid ∨ x.count = s.sampleCount)

instance (x : Sample) : Decidable (s.Ignores x) := inferInstanceAs (Decidable (_ ∨ _))

def restartStop : BladeControl := { s with stopSince := -1, stopSamples := 0 }

def sample (x : Sample) (now : Int) : BladeControl :=
  if s.Ignores x then s
  else
    let s := if s.sampleSource ≠ x.source then s.restartStop else s
    let s := { s with sampleSource := x.source, sampleStamp := x.stamp, sampleCount := x.count }
    let s := if s.sampleReceipt ≥ 0 ∧ now - s.sampleReceipt > s.config.1.freshnessMs then s.restartStop else s
    let s := { s with sampleReceipt := now, sampleZero := x.rpm = 0 }
    if s.sampleZero ∧ now ≥ s.neutralSince ∧ s.confirmed = .off then
      { s with
        stopSince := if s.stopSince < 0 then now else s.stopSince
        stopSamples := (s.stopSamples + 1) % 2 ^ 32 }
    else s.restartStop

def Stopped (now : Int) : Prop :=
  s.sampleZero ∧ s.sampleReceipt ≥ 0 ∧ now ≥ s.sampleReceipt ∧
    now - s.sampleReceipt ≤ s.config.1.freshnessMs ∧ s.stopSince ≥ 0 ∧
    now - s.stopSince ≥ s.config.1.coastMs ∧ s.stopSamples ≥ 5

instance (now : Int) : Decidable (s.Stopped now) := inferInstanceAs (Decidable (_ ∧ _))

/-- `in_flight_ && in_flight_->direction == Direction::Off`. -/
def neutralPending : Bool := s.inFlight.any (·.direction == .off)

def fail (sendNeutral : Bool) : BladeControl :=
  let dropped := s.inFlight.isSome && !s.neutralPending
  { s with
    inFlight := if dropped then none else s.inFlight
    token := if dropped then s.token + 1 else s.token
    revision := s.revision + 1
    fault := true
    requested := .off
    state := .failed
    queuedNeutral := s.queuedNeutral || (sendNeutral && !s.neutralPending) }

/-- The ACK deadline of `tick`. -/
def ackDeadline (now : Int) : BladeControl :=
  match s.inFlight with
  | some c => if now - s.sentAt ≥ s.config.1.ackTimeoutMs then
      { s with inFlight := none }.fail (c.direction != Direction.off) else s
  | none => s

def staleDeadline (now : Int) : BladeControl :=
  if s.requested ≠ .off ∧ (s.sampleReceipt < 0 ∨ now - s.sampleReceipt > s.config.1.freshnessMs) then
    s.fail true else s

def stopDeadline (now : Int) : BladeControl :=
  if s.state = .waitStopBeforeReverse ∧ s.inFlight = none ∧ now - s.waitSince ≥ s.config.1.stopTimeoutMs then
    s.fail false else s

def tick (now : Int) : BladeControl := ((s.ackDeadline now).staleDeadline now).stopDeadline now

/-- The end of `next`: hand a command to the transport. -/
def emit (target : Direction) (now : Int) : BladeControl × Command :=
  let command : Command := ⟨s.token + 1, s.channel, s.pwm target, target⟩
  ({ s with token := s.token + 1, inFlight := some command, sentAt := now }, command)

def next (now : Int) : BladeControl × Option Command :=
  let s := s.tick now
  if s.inFlight.isSome then (s, none)
  else
    let (s, target) : BladeControl × Direction :=
      if s.queuedNeutral then ({ s with queuedNeutral := false }, .off)
      else if ¬ s.fault ∧ s.connected ∧ s.allowed ∧ s.requested ≠ .off ∧ s.confirmed = .off ∧ s.Stopped now then
        (s, s.requested)
      else (s, .unknown)
    if target = .unknown then (s, none)
    else
      let r := s.emit target now
      (r.1, some r.2)

def complete (token : Nat) (accepted : Bool) (now : Int) : BladeControl :=
  match s.inFlight with
  | none => s
  | some c =>
    if c.token ≠ token then s
    else
      let s := { s with inFlight := none }
      if ¬ accepted then s.fail (c.direction != Direction.off)
      else
        let s := { s with confirmed := c.direction }
        if c.direction = .off then
          { s with
            neutralSince := now
            stopSince := -1
            stopSamples := 0
            waitSince := now
            state := if s.fault then .failed else if s.requested = .off then .off else .waitStopBeforeReverse }
        else if s.requested = c.direction ∧ ¬ s.queuedNeutral then
          { s with state := if c.direction = .forward then .fwd else .rev }
        else s

def output (pwmValue : Int) (now : Int) : BladeControl :=
  if s.inFlight.isSome ∨ s.queuedNeutral ∨ s.confirmed = .unknown then s
  else if pwmValue ≠ s.pwm s.confirmed then s.forceOff now
  else s

end BladeControl
end MowgliMavros
