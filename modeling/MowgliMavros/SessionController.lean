import MowgliMavros.Lib.Machine

/-!
# The session controller (`fcu_session_controller.hpp`)

`FcuSessionController` sequences the MODE and ARM/DISARM commands sent to the FCU: one is pending at
a time, and its refusal or expiry is latched until the demand changes or the FCU is observed where
the demand wants it. `serial_` only ever counts up by one and is a natural. `issue` is the part of
`next` after its `tick`.
-/

namespace MowgliMavros
namespace FcuSessionController

inductive Kind
  | mode | arm
deriving DecidableEq, Repr

structure Command where
  serial : Nat
  kind : Kind
  mode : String
  arm : Bool
deriving DecidableEq, Repr

end FcuSessionController

open FcuSessionController in
structure FcuSessionController where
  wantedMode : String := "HOLD"
  mode : String := ""
  error : String := ""
  wantedArm : Bool := false
  armed : Bool := false
  connected : Bool := false
  safetyDisarm : Bool := false
  forceDisarm : Bool := false
  modeFailed : Bool := false
  armFailed : Bool := false
  acked : Bool := false
  serial : Nat := 0
  sentAt : Int := 0
  pending : Option Command := none
deriving DecidableEq, Repr

namespace FcuSessionController
variable (s : FcuSessionController)

def failed : Bool := s.modeFailed || s.armFailed

def current (serial : Nat) : Bool := s.pending.any (·.serial == serial)

def disarmPending : Bool := s.pending.any fun c => c.kind == .arm && !c.arm

def ready : Bool :=
  s.connected && s.pending.isNone && s.mode == s.wantedMode && s.armed == s.wantedArm

def fail (reason : String) : FcuSessionController :=
  match s.pending with
  | none => s
  | some c =>
    let mode : Bool := c.kind = .mode
    { s with
      modeFailed := s.modeFailed || (mode && c.mode == s.wantedMode)
      armFailed := s.armFailed || (!mode && c.arm == s.wantedArm)
      error := (if mode then "mode:" else "arming:") ++ reason
      pending := none }

/-- The observed state is what the pending command asked for. -/
def Confirmed (c : Command) : Prop :=
  match c.kind with
  | .mode => s.mode = c.mode
  | .arm => s.armed = c.arm

instance (c : Command) : Decidable (s.Confirmed c) := by
  unfold Confirmed; split <;> infer_instance

def settle : FcuSessionController :=
  match s.pending with
  | none => s
  | some c =>
    if s.acked ∧ s.Confirmed c then
      { s with pending := none, error := if s.failed then s.error else "" }
    else s

def demand (mode : String) (arm safetyDisarm : Bool) : FcuSessionController :=
  if s.wantedMode = mode ∧ s.wantedArm = arm ∧ s.safetyDisarm = safetyDisarm then s
  else
    -- a new safety demand does not wait for the MODE or ARM under way
    let rising : Bool := safetyDisarm && !s.safetyDisarm
    { s with
      wantedMode := mode
      wantedArm := arm
      modeFailed := false
      armFailed := false
      error := ""
      pending := if rising then none else s.pending
      forceDisarm := s.forceDisarm || rising
      safetyDisarm := safetyDisarm }

def observe (connected armed : Bool) (mode : String) : FcuSessionController :=
  let s := if ¬ connected then { s with pending := none } else s
  let s := if s.safetyDisarm ∧ armed ∧ ¬ s.armed then { s with forceDisarm := true, armFailed := false } else s
  let s := { s with connected := connected, armed := armed, mode := mode }
  let s := if s.connected ∧ s.mode = s.wantedMode then { s with modeFailed := false } else s
  let s := if s.connected ∧ s.armed = s.wantedArm then { s with armFailed := false } else s
  s.settle

def tick (now : Int) : FcuSessionController :=
  if s.pending.isSome ∧ now - s.sentAt ≥ 3000 then s.fail "confirmation_timeout" else s

def emit (kind : Kind) (arm : Bool) (now : Int) : FcuSessionController × Option Command :=
  let command : Command := ⟨s.serial + 1, kind, s.wantedMode, arm⟩
  ({ s with serial := s.serial + 1, pending := some command, acked := false, sentAt := now }, some command)

def issue (now : Int) (modeService armService allowArm : Bool) : FcuSessionController × Option Command :=
  if ¬ s.connected ∨ s.pending.isSome then (s, none)
  else if s.safetyDisarm ∧ (s.forceDisarm ∨ s.armed) ∧ ¬ s.armFailed then
    if ¬ armService then (s, none) else { s with forceDisarm := false }.emit .arm false now
  else if s.mode ≠ s.wantedMode ∧ ¬ s.modeFailed then
    if ¬ modeService then
      -- HOLD unavailability cannot obstruct DISARM
      if s.wantedArm ∨ ¬ s.armed ∨ s.armFailed ∨ ¬ armService then (s, none) else s.emit .arm false now
    else s.emit .mode false now
  else if s.armed ≠ s.wantedArm ∧ ¬ s.armFailed then
    if s.wantedArm ∧ (s.mode ≠ s.wantedMode ∨ ¬ allowArm) ∨ ¬ armService then (s, none)
    else s.emit .arm s.wantedArm now
  else (s, none)

def next (now : Int) (modeService armService allowArm : Bool) : FcuSessionController × Option Command :=
  (s.tick now).issue now modeService armService allowArm

def complete (serial : Nat) (accepted : Bool) (now : Int) : FcuSessionController :=
  let s := s.tick now
  if ¬ s.current serial then s
  else if ¬ accepted then s.fail "request_refused"
  else { s with acked := true }.settle

/-! ### Runs -/

inductive Op
  | demand (mode : String) (arm safetyDisarm : Bool)
  | observe (connected armed : Bool) (mode : String)
  | tick (now : Int)
  | next (now : Int) (modeService armService allowArm : Bool)
  | complete (serial : Nat) (accepted : Bool) (now : Int)
deriving DecidableEq, Repr

inductive Event
  /-- `demand` changed the wanted mode, the wanted arming or the safety flag. -/
  | retargeted
  | emitted (c : Command)
deriving DecidableEq, Repr

def apply : Op → FcuSessionController
  | .demand mode arm safetyDisarm => s.demand mode arm safetyDisarm
  | .observe connected armed mode => s.observe connected armed mode
  | .tick now => s.tick now
  | .next now modeService armService allowArm => (s.next now modeService armService allowArm).1
  | .complete serial accepted now => s.complete serial accepted now

def Retargets : Op → Prop
  | .demand mode arm safetyDisarm =>
    ¬ (s.wantedMode = mode ∧ s.wantedArm = arm ∧ s.safetyDisarm = safetyDisarm)
  | _ => False

instance (op : Op) : Decidable (s.Retargets op) := by
  cases op <;> unfold Retargets <;> infer_instance

def observed (op : Op) : List Event :=
  if s.Retargets op then [.retargeted]
  else match op with
    | .next now modeService armService allowArm =>
      (s.next now modeService armService allowArm).2.toList.map .emitted
    | _ => []

def machine : Machine FcuSessionController Op Event := ⟨fun s op => (s.apply op, s.observed op)⟩

@[simp] theorem machine_step_fst (op : Op) : (machine.step s op).1 = s.apply op := rfl

@[simp] theorem machine_step_snd (op : Op) : (machine.step s op).2 = s.observed op := rfl

/-- The state a run of a fresh controller reaches. -/
def reach (ops : List Op) : FcuSessionController := machine.final {} ops

def trace (ops : List Op) : List Event := machine.log {} ops

/-- What every caller of `demand` keeps: the safety demand wants DISARM. -/
def Op.Safe : Op → Prop
  | demand _ arm safetyDisarm => safetyDisarm = true → arm = false
  | _ => True

instance (op : Op) : Decidable op.Safe := by cases op <;> unfold Op.Safe <;> infer_instance

end FcuSessionController
end MowgliMavros
