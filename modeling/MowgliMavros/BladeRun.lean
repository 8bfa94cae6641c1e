import MowgliMavros.BladeControl
import MowgliMavros.Lib.Machine

/-!
# Runs of the blade controller

The ten operations as inputs, and what a run shows of them: the commands `next` returned, the
commands whose acceptance `complete` applied, the samples `sample` took and the link changes.
-/

namespace MowgliMavros
namespace BladeControl

inductive Op
  | connection (connected : Bool) (now : Int)
  | permission (allowed : Bool) (now : Int)
  | request (direction : Direction) (now : Int)
  | forceOff (now : Int)
  | serviceTimeout (now : Int)
  | sample (x : Sample) (now : Int)
  | tick (now : Int)
  | next (now : Int)
  | complete (token : Nat) (accepted : Bool) (now : Int)
  | output (pwmValue : Int) (now : Int)
deriving DecidableEq, Repr

def Op.now : Op → Int
  | connection _ now | permission _ now | request _ now | forceOff now | serviceTimeout now
  | sample _ now | tick now | next now | complete _ _ now | output _ now => now

structure Acquired where
  sample : Sample
  receipt : Int
deriving DecidableEq, Repr

inductive Event
  | linked
  /-- `next` returned the command. -/
  | emitted (c : Command)
  /-- `complete(c.token, true)` was applied to the command while it was in flight. -/
  | acked (c : Command)
  | acquired (a : Acquired)
deriving DecidableEq, Repr

variable (s : BladeControl)

def apply : Op → BladeControl
  | .connection connected now => s.connection connected now
  | .permission allowed now => s.permission allowed now
  | .request direction now => (s.request direction now).1
  | .forceOff now => s.forceOff now
  | .serviceTimeout now => s.serviceTimeout now
  | .sample x now => s.sample x now
  | .tick now => s.tick now
  | .next now => (s.next now).1
  | .complete token accepted now => s.complete token accepted now
  | .output pwmValue now => s.output pwmValue now

def observed : Op → List Event
  | .connection connected _ => if connected ≠ s.connected then [.linked] else []
  | .sample x now => if s.Ignores x then [] else [.acquired ⟨x, now⟩]
  | .next now => (s.next now).2.toList.map .emitted
  | .complete token true _ => (s.inFlight.toList.filter (·.token = token)).map .acked
  | _ => []

def machine : Machine BladeControl Op Event := ⟨fun s op => (s.apply op, s.observed op)⟩

@[simp] theorem machine_step_fst (op : Op) : (machine.step s op).1 = s.apply op := rfl

@[simp] theorem machine_step_snd (op : Op) : (machine.step s op).2 = s.observed op := rfl

/-- The state a run of a freshly constructed controller reaches. -/
def reach (config : ValidConfig) (ops : List Op) : BladeControl := machine.final { config } ops

def trace (config : ValidConfig) (ops : List Op) : List Event := machine.log { config } ops

def Direction.IsOn (d : Direction) : Prop := d = .forward ∨ d = .reverse

instance (d : Direction) : Decidable d.IsOn := inferInstanceAs (Decidable (_ ∨ _))

def Event.emitted? : Event → Option Command
  | emitted c => some c
  | _ => none

def Event.acked? : Event → Option Command
  | acked c => some c
  | _ => none

/-- The last command `next` returned. -/
def lastEmitted (l : List Event) : Option Command := (l.filterMap Event.emitted?).getLast?

def lastAcked (l : List Event) : Option Command := (l.filterMap Event.acked?).getLast?

theorem lastEmitted_append (l l' : List Event) :
    lastEmitted (l ++ l') = (lastEmitted l').or (lastEmitted l) := by
  simp [lastEmitted, List.getLast?_append]

theorem lastAcked_append (l l' : List Event) : lastAcked (l ++ l') = (lastAcked l').or (lastAcked l) := by
  simp [lastAcked, List.getLast?_append]

theorem lastEmitted_observed (op : Op) :
    lastEmitted (s.observed op) = match op with | .next now => (s.next now).2 | _ => none := by
  cases op with
  | next now => cases hn : (s.next now).2 <;> simp [observed, hn, lastEmitted, Event.emitted?]
  | connection connected now => simp only [observed]; split <;> rfl
  | sample x now => simp only [observed]; split <;> rfl
  | complete token accepted now =>
    cases accepted with
    | false => rfl
    | true => cases hc : s.inFlight <;> simp [observed, hc, lastEmitted, Event.emitted?]
  | _ => rfl

theorem lastAcked_observed (op : Op) :
    lastAcked (s.observed op) =
      match op with
      | .complete token accepted _ => s.inFlight.filter fun c => accepted && c.token = token
      | _ => none := by
  cases op with
  | next now => cases hn : (s.next now).2 <;> simp [observed, hn, lastAcked, Event.acked?]
  | connection connected now => simp only [observed]; split <;> rfl
  | sample x now => simp only [observed]; split <;> rfl
  | complete token accepted now =>
    cases accepted with
    | false => cases hc : s.inFlight <;> simp [observed, lastAcked, Option.filter]
    | true =>
      cases hc : s.inFlight with
      | none => simp [observed, hc, lastAcked]
      | some c =>
        by_cases htok : c.token = token <;> simp [observed, hc, lastAcked, Event.acked?, htok, Option.filter]
  | _ => rfl

end BladeControl
end MowgliMavros
