import Mathlib.Data.Int.Order.Basic
import MowgliMavros.BladeIntent
import MowgliMavros.BridgeAside
import MowgliMavros.BridgeOwner
import MowgliMavros.Lib.Covers

/-!
# Own and external commands on the blade wire

`wire` runs the node beside its outgoing stream: `waiting` are the own servo sends of this connection whose
echo is still to come, each with the time it is due, and an input may say which of them it is the echo of.
The expectations of the node are the queue of `Lib.Covers`, a drive expires and pushes (`Kept`), the wire
callback expires and takes. So in a fair run an own echo is taken as own unless somebody else's command of
the same PWM went out while an own one was waiting, and a command that no own send waits for is taken as
external.
-/

namespace MowgliMavros
namespace Bridge
open Prog (Triple Keeps)
open Echo (Covers Fewer)

/-- What the stream owes for an own send: its PWM, at most 2000 ms later. -/
def Effect.owed? : Effect → Option BladeWireExpectation
  | servo _ pwm steady _ => some ⟨pwm, steady + 2000⟩
  | _ => none

structure Line where
  node : Node
  waiting : List BladeWireExpectation := []

/-- A callback, and the place among the waiting sends of the one it echoes. -/
abbrev Heard := (Callback × Env) × Option Nat

def Callback.relinks (c : Callback) (n : Node) : Bool :=
  match c with
  | mavrosState message => message.connected != n.mavrosState.connected
  | _ => false

/-- The sends that still wait after an echo or a connection change. -/
def Line.left (s : Line) (x : Heard) : List BladeWireExpectation :=
  if x.1.1.relinks s.node then []
  else match x.2 with
    | some i => s.waiting.eraseIdx i
    | none => s.waiting

def wire : Machine Line Heard Effect where
  step s x :=
    ({ node := (machine.step s.node x.1).1
       waiting := s.left x ++ (machine.step s.node x.1).2.filterMap Effect.owed? }, (machine.step s.node x.1).2)

def line (l : Launch) (run : List Heard) : Line := wire.final { node := l.node } run

/-- Beside the stream the node runs as ever. -/
theorem wire_final_node (s : Line) (run : List Heard) :
    (wire.final s run).node = machine.final s.node (run.map (·.1)) := by
  induction run generalizing s with
  | nil => rfl
  | cons x run ih => exact ih (wire.step s x).1

/-- An outgoing command 183 on the blade channel. -/
def Node.wired (n : Node) (param2 : Option Rat) : Callback :=
  .bladeWire (some { command := 183, param1 := some (n.bladeControl.channel : Rat), param2 := param2 })

/-- A step without a throwing send, in which the stream echoes a send that waits, no clock goes back before
a send that waits, and no send is overdue. -/
structure Fair (s : Line) (x : Heard) : Prop where
  sends : x.1.2.Sends
  echo : ∀ i, x.2 = some i → ∃ w, s.waiting[i]? = some w ∧ x.1.1 = s.node.wired (some (w.pwm : Rat))
  clock : ∀ i j, i ≤ j → (x.1.2.blade i).steady ≤ (x.1.2.blade j).steady
  later : ∀ w ∈ s.waiting, ∀ i, w.untilMs ≤ (x.1.2.blade i).steady + 2000
  heardInTime : ∀ message, x.1.1 = .bladeWire message → ∀ w ∈ s.waiting, x.1.2.steady 0 ≤ w.untilMs
  inTime : ∀ w ∈ (wire.step s x).1.waiting, ∀ i, (x.1.2.blade i).steady ≤ w.untilMs

/-- The way of an external command: `force_off` and a drive. -/
def external (env : Env) : Program Unit := do
  updateBlade (·.forceOff (env.steady 0))
  driveBladeLocked (env.blade 0)

/-- The callback forgets at most expectations. -/
def TakenAsOwn (n : Node) (c : Callback × Env) : Prop :=
  ∃ wires, machine.step n c = ({ n with bladeWireExpectations := wires }, [])

def TakenAsExternal (n : Node) (c : Callback × Env) : Prop :=
  ∃ wires, machine.step n c =
    ((external c.2).after { n with bladeWireExpectations := wires },
      (external c.2).emitted { n with bladeWireExpectations := wires })

/-- Somebody else's command with the PWM `p`, while an own send with it waits. -/
def Racing (p : Int) (s : Line) (x : Heard) : Prop :=
  x.2 = none ∧ x.1.1 = s.node.wired (some (p : Rat)) ∧ ∃ w ∈ s.waiting, w.pwm = p

instance (p : Int) (s : Line) (x : Heard) : Decidable (Racing p s x) := inferInstanceAs (Decidable (_ ∧ _ ∧ _))

/-! ### Own or external -/

/-- `force_off` binds a new revision, so an external command never passes for an own one. -/
theorem external_revision (env : Env) (n : Node) :
    n.bladeControl.revision < ((external env).after n).bladeControl.revision := by
  have hlater : Indifferent fun m _ => n.bladeControl.revision < m.bladeControl.revision := {
    frame := fun hb _ _ _ h => by rw [hb]; exact h
    cancel := fun _ _ h => h
    blade := fun m _ op _ h => Nat.lt_of_lt_of_le h (m.bladeControl.intent_apply op).revision
    session := fun _ _ _ _ _ h => h
    observe := fun _ _ _ h => h
    emit := fun _ _ _ _ h => h
    starts := fun _ _ _ h => h
    request := fun m _ d now h => Nat.lt_of_lt_of_le h (m.bladeControl.intent_apply (.request d now)).revision }
  have hdrive := hlater.driveBladeLocked (env.blade 0) (fun _ => hlater.promoteBladeStarts _ _)
    (hlater.sendBlade (fun _ _ _ h => h) _)
  have hexternal : Triple (fun m _ => m = n) (external env)
      fun _ m _ => n.bladeControl.revision < m.bladeControl.revision := by
    refine Triple.seq (R := fun m _ => n.bladeControl.revision < m.bladeControl.revision) (Triple.update ?_)
      fun _ => hdrive
    rintro m _ rfl
    exact Nat.lt_succ_self _
  exact hexternal n [] rfl

theorem TakenAsOwn.not_external {n : Node} {c : Callback × Env} (h : TakenAsOwn n c) : ¬ TakenAsExternal n c := by
  rintro ⟨wires, hexternal⟩
  obtain ⟨wires', hown⟩ := h
  have hafter := congrArg (fun step => step.1.bladeControl.revision) (hown.symm.trans hexternal)
  have hnew := external_revision c.2 { n with bladeWireExpectations := wires }
  exact absurd hafter (Nat.ne_of_lt hnew)

/-! ### The drives -/

/-- What the drives of a callback keep of the expectations and of the sends that wait: their expiries, and
their sends, each of which is queued and owed. `Φ i` holds after `i` drives. -/
structure Kept (env : Env) (Φ : Nat → List BladeWireExpectation → List BladeWireExpectation → Prop) : Prop where
  clear : Φ 0 [] []
  later : ∀ {i queue waiting}, Φ i queue waiting → Φ (i + 1) queue waiting
  expire : ∀ {i queue waiting}, Φ i queue waiting →
    Φ i (queue.dropWhile fun e => e.untilMs < (env.blade i).steady) waiting
  push : ∀ {i queue waiting} (pwm : Int), Φ i queue waiting →
    Φ (i + 1) (queue ++ [⟨pwm, (env.blade i).steady + 2000⟩]) (waiting ++ [⟨pwm, (env.blade i).steady + 2000⟩])

/-- `Φ` of the node, for what was left and what was sent since. -/
def Owing (Φ : List BladeWireExpectation → List BladeWireExpectation → Prop) (left : List BladeWireExpectation) :
    Assertion :=
  fun n log => Φ n.bladeWireExpectations (left ++ log.filterMap Effect.owed?)

theorem owing_aside (Φ : List BladeWireExpectation → List BladeWireExpectation → Prop)
    (left : List BladeWireExpectation) : Aside (Owing Φ left) where
  frame hn h := by
    simp only [Node.aside, Prod.mk.injEq] at hn
    unfold Owing
    rw [hn.2.2]
    exact h
  emit n l e he h := by
    have hnone : e.owed? = none := by cases e <;> first | rfl | cases he
    simpa [Owing, List.filterMap_append, hnone] using h

namespace Kept
variable {env : Env} {Φ : Nat → List BladeWireExpectation → List BladeWireExpectation → Prop} (hk : Kept env Φ)
include hk

theorem handBlade (left : List BladeWireExpectation) (i : Nat) (hsends : (env.blade i).throws = false)
    (command : BladeControl.Command) :
    Triple (Owing (Φ i) left) (handBlade command (env.blade i)) fun _ => Owing (Φ (i + 1)) left := by
  unfold Bridge.handBlade
  rw [if_neg (by simp [hsends])]
  refine Triple.seq (R := fun n log => Φ (i + 1) n.bladeWireExpectations
    (left ++ log.filterMap Effect.owed? ++ [⟨command.pwm, (env.blade i).steady + 2000⟩])) ?_ fun _ => ?_
  · exact Triple.update fun n log h => hk.push command.pwm h
  · refine Triple.peek fun n => Triple.seq (R := Owing (Φ (i + 1)) left) (Triple.emit fun m log h => ?_) fun _ => ?_
    · simpa [Owing, List.filterMap_append, Effect.owed?] using h
    · exact (owing_aside (Φ (i + 1)) left).side fun _ => rfl

theorem paced (hsends : env.Sends) (left : List BladeWireExpectation) : Paced env fun i => Owing (Φ i) left where
  aside i := owing_aside (Φ i) left
  later := hk.later
  drive i := (owing_aside (Φ i) left).driveBladeLocked (fun _ _ => hk.later)
    (Keeps.update fun _ _ h => hk.expire h) (hk.handBlade left i (hsends i))

theorem external (hsends : env.Sends) (left : List BladeWireExpectation) :
    Triple (Owing (Φ 0) left) (external env) fun _ => Owing (Φ 1) left :=
  ((owing_aside (Φ 0) left).updateBlade _).seq fun _ => (hk.paced hsends left).drive 0

/-- A connection change forgets the expectations. -/
theorem onMavrosState (hsends : env.Sends) {left : List BladeWireExpectation} {s : Node} {message : FcuState}
    (h : Φ 0 (if (Callback.mavrosState message).relinks s then [] else s.bladeWireExpectations) left) :
    Triple (fun n log => n = s ∧ log = []) (onMavrosState message env) fun _ => Owing (Φ 1) left := by
  have haside := owing_aside (Φ 0) left
  refine Triple.read fun n => Triple.seq (R := Owing (Φ 0) left) (Triple.update ?_) fun _ => ?_
  · rintro n log ⟨rfl, rfl, rfl⟩
    have hwires : (n.heard message env).bladeWireExpectations =
        if (Callback.mavrosState message).relinks n then [] else n.bladeWireExpectations := by
      show (if n.mavrosState.connected = message.connected then n.bladeWireExpectations else []) = _
      by_cases hlink : message.connected = n.mavrosState.connected
      · rw [if_pos hlink.symm, if_neg (by simp [Callback.relinks, hlink])]
      · rw [if_neg (Ne.symm hlink), if_pos (by simpa [Callback.relinks] using hlink)]
    unfold Owing
    rw [hwires]
    simpa using h
  · refine Keeps.seq haside.cancelPendingBladeStarts.when fun _ => Keeps.seq (haside.side fun _ => rfl) fun _ => ?_
    exact (hk.paced hsends left).drives 0

theorem onButtonChange (hsends : env.Sends) (left : List BladeWireExpectation) (state : UInt8) :
    Triple (Owing (Φ 0) left) (onButtonChange state env) fun _ => Owing (Φ 1) left := by
  have hpaced := hk.paced hsends left
  refine Triple.peek fun n => hpaced.when (Keeps.seq (Keeps.update fun _ _ h => h) fun _ => ?_)
  refine Keeps.seq (Keeps.update fun _ _ h => h) fun _ => hpaced.when ?_
  exact (hpaced.requestSafetyDisarm false).seq fun _ => Keeps.skip

/-- All callbacks but the wire's. -/
theorem program (hsends : env.Sends) {left : List BladeWireExpectation} {s : Node} {c : Callback}
    (hwire : ∀ message, c ≠ .bladeWire message) (h : Φ 0 (if c.relinks s then [] else s.bladeWireExpectations) left) :
    Φ 2 (machine.step s (c, env)).1.bladeWireExpectations
      (left ++ (machine.step s (c, env)).2.filterMap Effect.owed?) := by
  have hpaced := hk.paced hsends left
  have hlater : ∀ n log, Owing (Φ 1) left n log → Owing (Φ 2) left n log := fun _ _ => hk.later
  have htriple : Triple (fun n log => n = s ∧ log = []) (c.program env) fun _ => Owing (Φ 2) left := by
    cases c with
    | mavrosState message => exact (hk.onMavrosState hsends h).weaken (fun _ _ => id) fun _ => hlater
    | bladeWire message => exact absurd rfl (hwire message)
    | buttonChange state =>
      refine (hk.onButtonChange hsends left state).weaken ?_ fun _ => hlater
      rintro n log ⟨rfl, rfl⟩
      simpa [Owing, Callback.relinks] using h
    | _ =>
      refine (hpaced.callback _ False.elim).pre ?_
      rintro n log ⟨rfl, rfl⟩
      simpa [Owing, Callback.relinks] using h
  have hend := htriple s [] ⟨rfl, rfl⟩
  simp only [List.nil_append, Owing] at hend
  exact hend

end Kept

/-! ### The wire callback -/

/-- The node after the expiry that comes first. -/
def Node.expired (n : Node) (steady : Int) : Node :=
  { n with bladeWireExpectations := n.bladeWireExpectations.dropWhile (·.untilMs < steady) }

/-- What the wire callback does with a command 183 on the blade channel. -/
theorem step_wired (n : Node) (param2 : Option Rat) (env : Env) :
    machine.step n (n.wired param2, env) =
      match (n.expired (env.steady 0)).bladeWireExpectations.find? fun e => some (e.pwm : Rat) = param2 with
      | some own => ({ n.expired (env.steady 0) with
          bladeWireExpectations := (n.expired (env.steady 0)).bladeWireExpectations.erase own }, [])
      | none =>
        ((external env).after (n.expired (env.steady 0)), (external env).emitted (n.expired (env.steady 0))) := by
  show ((onBladeWire _ env).after n, (onBladeWire _ env).emitted n) = _
  have hexpired : (expireWireExpectations (env.steady 0)) n = ((), n.expired (env.steady 0), []) := rfl
  cases hfind : (n.expired (env.steady 0)).bladeWireExpectations.find? fun e => some (e.pwm : Rat) = param2 with
  | some own =>
    simp [onBladeWire, node, Prog.get, Prog.after, Prog.emitted, bind, hexpired, Prog.update, hfind]
  | none =>
    simp [onBladeWire, node, Prog.get, Prog.after, Prog.emitted, bind, hexpired, hfind, external]

/-- Every other message is ignored. -/
theorem step_unwired {n : Node} {message : Option WireCommand} (h : ∀ param2, .bladeWire message ≠ n.wired param2)
    (env : Env) : machine.step n (.bladeWire message, env) = (n, []) := by
  cases message with
  | none => rfl
  | some command =>
    obtain ⟨number, param1, param2⟩ := command
    have hother : number ≠ 183 ∨ param1 ≠ some (n.bladeControl.channel : Rat) := by
      by_contra hno
      rw [not_or, not_ne_iff, not_ne_iff] at hno
      obtain ⟨rfl, rfl⟩ := hno
      exact h param2 rfl
    show ((onBladeWire _ env).after n, (onBladeWire _ env).emitted n) = _
    simp [onBladeWire, node, Prog.get, Prog.after, Prog.emitted, bind, pure, hother]

theorem find_pwm (queue : List BladeWireExpectation) (pwm : Int) :
    (queue.find? fun e => some (e.pwm : Rat) = some (pwm : Rat)) = queue.find? fun e => e.pwm = pwm := by
  simp

/-- A command is taken as own exactly when its PWM is expected. -/
theorem taken_own {n : Node} {c : Callback × Env} {param2 : Option Rat} {own : BladeWireExpectation}
    (hc : c.1 = n.wired param2)
    (hfind : ((n.expired (c.2.steady 0)).bladeWireExpectations.find? fun e => some (e.pwm : Rat) = param2) =
      some own) :
    TakenAsOwn n c := by
  obtain ⟨c, env⟩ := c
  dsimp only at hc
  subst hc
  refine ⟨(n.expired (env.steady 0)).bladeWireExpectations.erase own, ?_⟩
  rw [step_wired, hfind]
  rfl

theorem taken_external {n : Node} {c : Callback × Env} {param2 : Option Rat} (hc : c.1 = n.wired param2)
    (hfind : ((n.expired (c.2.steady 0)).bladeWireExpectations.find? fun e => some (e.pwm : Rat) = param2) = none) :
    TakenAsExternal n c := by
  obtain ⟨c, env⟩ := c
  dsimp only at hc
  subst hc
  refine ⟨(n.expired (env.steady 0)).bladeWireExpectations, ?_⟩
  rw [step_wired, hfind]
  rfl

theorem wired_inj {n : Node} {param2 param2' : Option Rat} (h : n.wired param2 = n.wired param2') :
    param2 = param2' := by
  unfold Node.wired at h
  injection h with h
  injection h with h
  injection h

/-! ### One step -/

section Step
variable {s : Line} {x : Heard}

theorem left_sublist (s : Line) (x : Heard) : List.Sublist (s.left x) s.waiting := by
  unfold Line.left
  split
  · exact List.nil_sublist _
  split
  · exact List.eraseIdx_sublist _ _
  · exact List.Sublist.refl _

theorem left_of_wire {message : Option WireCommand} (hx : x.1.1 = .bladeWire message) : s.left x =
    match x.2 with
    | some i => s.waiting.eraseIdx i
    | none => s.waiting := by
  unfold Line.left
  rw [hx]
  rfl

/-- An echo is heard as a command with the PWM of the send, which no longer waits. -/
theorem Fair.echoes (hfair : Fair s x) {i : Nat} {param2 : Option Rat} (hi : x.2 = some i)
    (hc : x.1.1 = s.node.wired param2) : ∃ w before after,
    s.waiting[i]? = some w ∧ param2 = some (w.pwm : Rat) ∧ s.waiting = before ++ w :: after ∧
      s.left x = before ++ after := by
  obtain ⟨w, hw, hcommand⟩ := hfair.echo i hi
  obtain ⟨before, after, hwaiting, hleft⟩ := Echo.exists_of_getElem? hw
  refine ⟨w, before, after, hw, wired_inj (hc.symm.trans hcommand), hwaiting, ?_⟩
  rw [left_of_wire hcommand, hi]
  exact hleft

/-- What a fair step keeps: the drives keep `Φ`, and so does the wire callback when it takes an entry or
finds none. -/
theorem Kept.step {Φ : Nat → List BladeWireExpectation → List BladeWireExpectation → Prop} (hk : Kept x.1.2 Φ)
    (hfair : Fair s x) (h : Φ 0 s.node.bladeWireExpectations s.waiting)
    (hown : ∀ param2 own, x.1.1 = s.node.wired param2 →
      ((s.node.expired (x.1.2.steady 0)).bladeWireExpectations.find? fun e => some (e.pwm : Rat) = param2) =
      some own →
        Φ 0 ((s.node.expired (x.1.2.steady 0)).bladeWireExpectations.erase own) (s.left x))
    (hnone : ∀ param2, x.1.1 = s.node.wired param2 →
      ((s.node.expired (x.1.2.steady 0)).bladeWireExpectations.find? fun e => some (e.pwm : Rat) = param2) = none →
        Φ 0 (s.node.expired (x.1.2.steady 0)).bladeWireExpectations (s.left x)) :
    Φ 2 (wire.step s x).1.node.bladeWireExpectations (wire.step s x).1.waiting := by
  obtain ⟨⟨c, env⟩, echo⟩ := x
  show Φ 2 (machine.step s.node (c, env)).1.bladeWireExpectations
    (s.left ((c, env), echo) ++ (machine.step s.node (c, env)).2.filterMap Effect.owed?)
  by_cases hwired : ∃ param2, c = s.node.wired param2
  · obtain ⟨param2, rfl⟩ := hwired
    rw [step_wired]
    cases hfind : (s.node.expired (env.steady 0)).bladeWireExpectations.find?
      fun e => some (e.pwm : Rat) = param2 with
    | some own => simpa using hk.later (hk.later (hown param2 own rfl hfind))
    | none =>
      have hmissed := hnone param2 rfl hfind
      have hend := hk.external hfair.sends _ (s.node.expired (env.steady 0)) [] (by simpa [Owing] using hmissed)
      simp only [List.nil_append, Owing] at hend
      exact hk.later hend
  · have hecho : echo = none := by
      cases echo with
      | none => rfl
      | some i =>
        obtain ⟨w, -, hw⟩ := hfair.echo i rfl
        exact absurd ⟨_, hw⟩ hwired
    subst hecho
    cases c with
    | bladeWire message =>
      rw [step_unwired fun param2 hc => hwired ⟨param2, hc⟩]
      simpa [Line.left, Callback.relinks] using hk.later (hk.later h)
    | _ =>
      refine hk.program hfair.sends (by simp) ?_
      unfold Line.left
      split
      · exact hk.clear
      · exact h

theorem fewer_kept (env : Env) : Kept env fun _ queue waiting => Fewer BladeWireExpectation.pwm queue waiting where
  clear _ := Nat.le_refl _
  later := id
  expire h := h.sublist (List.dropWhile_sublist _)
  push _ h := h.push _

/-- For each PWM the node expects at most the sends that wait. -/
theorem Fair.fewer (hfair : Fair s x) (h : Fewer BladeWireExpectation.pwm s.node.bladeWireExpectations s.waiting) :
    Fewer BladeWireExpectation.pwm (wire.step s x).1.node.bladeWireExpectations (wire.step s x).1.waiting := by
  have hexpired : Fewer BladeWireExpectation.pwm (s.node.expired (x.1.2.steady 0)).bladeWireExpectations s.waiting :=
    h.sublist (List.dropWhile_sublist _)
  refine (fewer_kept x.1.2).step hfair h (fun param2 own hc hfind => ?_) fun param2 hc hfind => ?_
  · cases hlabel : x.2 with
    | none =>
      rw [left_of_wire hc, hlabel]
      exact hexpired.sublist List.erase_sublist
    | some i =>
      obtain ⟨w, before, after, -, rfl, hwaiting, hleft⟩ := hfair.echoes hlabel hc
      rw [hleft]
      rw [find_pwm] at hfind
      rw [hwaiting] at hexpired
      exact hexpired.take hfind
  · cases hlabel : x.2 with
    | none =>
      rw [left_of_wire hc, hlabel]
      exact hexpired
    | some i =>
      obtain ⟨w, before, after, -, rfl, hwaiting, hleft⟩ := hfair.echoes hlabel hc
      rw [hleft]
      rw [find_pwm] at hfind
      rw [hwaiting] at hexpired
      exact hexpired.miss hfind

/-- The sends are in the order of their due times, and none is from after the drives to come. -/
def Ordered (env : Env) (i : Nat) (waiting : List BladeWireExpectation) : Prop :=
  (waiting.Pairwise fun a b => a.untilMs ≤ b.untilMs) ∧
    ∀ w ∈ waiting, ∀ j, i ≤ j → w.untilMs ≤ (env.blade j).steady + 2000

theorem ordered_kept {env : Env} (hclock : ∀ i j, i ≤ j → (env.blade i).steady ≤ (env.blade j).steady) :
    Kept env fun i _ waiting => Ordered env i waiting where
  clear := ⟨List.Pairwise.nil, by simp⟩
  later h := ⟨h.1, fun w hw j hj => h.2 w hw j (Nat.le_of_succ_le hj)⟩
  expire h := h
  push {i _ waiting} pwm h := by
    obtain ⟨hsorted, hpast⟩ := h
    constructor
    · rw [List.pairwise_append]
      refine ⟨hsorted, List.pairwise_singleton _ _, fun a ha b hb => ?_⟩
      rw [List.mem_singleton.1 hb]
      exact hpast a ha i (Nat.le_refl i)
    · intro w hw j hj
      rcases List.mem_append.1 hw with hw | hw
      · exact hpast w hw j (Nat.le_of_succ_le hj)
      · rw [List.mem_singleton.1 hw]
        have := hclock i j (Nat.le_of_succ_le hj)
        show (env.blade i).steady + 2000 ≤ (env.blade j).steady + 2000
        omega

theorem Fair.sorted (hfair : Fair s x) (h : s.waiting.Pairwise fun a b => a.untilMs ≤ b.untilMs) :
    (wire.step s x).1.waiting.Pairwise fun a b => a.untilMs ≤ b.untilMs := by
  have hleft : Ordered x.1.2 0 (s.left x) :=
    ⟨h.sublist (left_sublist s x), fun w hw j _ => hfair.later w ((left_sublist s x).subset hw) j⟩
  have hstart : Ordered x.1.2 0 s.waiting := ⟨h, fun w hw j _ => hfair.later w hw j⟩
  exact ((ordered_kept hfair.clock).step hfair hstart (fun _ _ _ _ => hleft) fun _ _ _ => hleft).1

/-- `Covers`, unless a send is overdue. -/
def Covered (env : Env) (p : Int) (queue waiting : List BladeWireExpectation) : Prop :=
  (∃ w ∈ waiting, ∃ i, w.untilMs < (env.blade i).steady) ∨
    Covers BladeWireExpectation.pwm BladeWireExpectation.untilMs p queue waiting

theorem covered_kept (env : Env) (p : Int) : Kept env fun _ => Covered env p where
  clear := .inr List.Forall₂.nil
  later := id
  expire {i _ waiting} h := by
    refine h.elim .inl fun h => ?_
    by_cases hin : ∀ w ∈ waiting, (env.blade i).steady ≤ w.untilMs
    · exact .inr (h.expire hin)
    · push Not at hin
      obtain ⟨w, hw, hlate⟩ := hin
      exact .inl ⟨w, hw, i, hlate⟩
  push {i _ _} pwm h := by
    rcases h with ⟨w, hw, hlate⟩ | h
    · exact .inl ⟨w, List.mem_append_left _ hw, hlate⟩
    · exact .inr (h.push _)

/-- An own echo finds an expectation where the PWM is covered. -/
theorem Fair.found (hfair : Fair s x) {i : Nat} (hi : x.2 = some i) {w : BladeWireExpectation}
    (hw : s.waiting[i]? = some w)
    (h : Covers BladeWireExpectation.pwm BladeWireExpectation.untilMs w.pwm s.node.bladeWireExpectations s.waiting) :
    ((s.node.expired (x.1.2.steady 0)).bladeWireExpectations.find? fun e => e.pwm = w.pwm) ≠ none := by
  obtain ⟨v, hv, hcommand⟩ := hfair.echo i hi
  obtain rfl : v = w := Option.some.inj (hv.symm.trans hw)
  exact (h.expire (hfair.heardInTime _ hcommand)).found (List.mem_of_getElem? hw)

/-- Unless somebody else's command races an own one, the expectations go on covering the sends. -/
theorem Fair.covers {p : Int} (hfair : Fair s x) (hrace : ¬ Racing p s x)
    (hsorted : s.waiting.Pairwise fun a b => a.untilMs ≤ b.untilMs)
    (h : Covers BladeWireExpectation.pwm BladeWireExpectation.untilMs p s.node.bladeWireExpectations s.waiting) :
    Covers BladeWireExpectation.pwm BladeWireExpectation.untilMs p (wire.step s x).1.node.bladeWireExpectations
      (wire.step s x).1.waiting := by
  have hexpired : ∀ param2, x.1.1 = s.node.wired param2 →
    Covers BladeWireExpectation.pwm BladeWireExpectation.untilMs p
      (s.node.expired (x.1.2.steady 0)).bladeWireExpectations s.waiting := fun param2 hc =>
    h.expire (hfair.heardInTime _ hc)
  have hstep := (covered_kept x.1.2 p).step hfair (.inr h) (fun param2 own hc hfind => .inr ?_)
    fun param2 hc hfind => .inr ?_
  · rcases hstep with ⟨w, hw, i, hlate⟩ | hstep
    · exact absurd (hfair.inTime w hw i) (Int.not_le.2 hlate)
    · exact hstep
  · have hcovers := hexpired param2 hc
    cases hlabel : x.2 with
    | none =>
      rw [left_of_wire hc, hlabel]
      refine hcovers.other ?_
      rintro rfl
      obtain ⟨w, hw, hpwm⟩ := hcovers.waits (List.mem_of_find?_eq_some hfind) rfl
      have hparam : some (own.pwm : Rat) = param2 := by simpa using List.find?_some hfind
      exact hrace ⟨hlabel, hparam ▸ hc, w, hw, hpwm⟩
    | some i =>
      obtain ⟨w, before, after, -, rfl, hwaiting, hleft⟩ := hfair.echoes hlabel hc
      rw [hleft]
      rw [find_pwm] at hfind
      rw [hwaiting] at hcovers hsorted
      exact hcovers.take hfind hsorted
  · have hcovers := hexpired param2 hc
    cases hlabel : x.2 with
    | none =>
      rw [left_of_wire hc, hlabel]
      exact hcovers
    | some i =>
      obtain ⟨w, before, after, hget, rfl, hwaiting, hleft⟩ := hfair.echoes hlabel hc
      rw [hleft]
      rw [find_pwm] at hfind
      rw [hwaiting] at hcovers
      refine hcovers.miss ?_
      rintro rfl
      exact hfair.found hlabel hget h hfind

end Step

/-! ### Runs -/

section Runs
variable {l : Launch}

theorem fair_fewer {run : List Heard} (hfair : wire.Along Fair { node := l.node } run) :
    Fewer BladeWireExpectation.pwm (line l run).node.bladeWireExpectations (line l run).waiting :=
  Machine.inv_final (m := wire)
    (I := fun s : Line => Fewer BladeWireExpectation.pwm s.node.bladeWireExpectations s.waiting)
    (fun _ _ h hfair => hfair.fewer h) (fun _ => Nat.le_refl _) hfair

theorem fair_sorted {run : List Heard} (hfair : wire.Along Fair { node := l.node } run) :
    (line l run).waiting.Pairwise fun a b => a.untilMs ≤ b.untilMs :=
  Machine.inv_final (m := wire) (I := fun s : Line => s.waiting.Pairwise fun a b => a.untilMs ≤ b.untilMs)
    (fun _ _ h hfair => hfair.sorted h) List.Pairwise.nil hfair

theorem fair_covers {before after : List Heard} {p : Int}
    (hfair : wire.Along Fair { node := l.node } (before ++ after))
    (hidle : ∀ w ∈ (line l before).waiting, w.pwm ≠ p)
    (hrace : wire.Along (fun s x => ¬ Racing p s x) (line l before) after) :
    Covers BladeWireExpectation.pwm BladeWireExpectation.untilMs p
      (line l (before ++ after)).node.bladeWireExpectations
      (line l (before ++ after)).waiting := by
  obtain ⟨hbefore, hafter⟩ := (Machine.along_append before after).1 hfair
  have hstart : Covers BladeWireExpectation.pwm BladeWireExpectation.untilMs p
      (line l before).node.bladeWireExpectations (line l before).waiting := Covers.of_idle (fair_fewer hbefore) hidle
  have hend := Machine.inv_final (m := wire) (I := fun s : Line =>
      (s.waiting.Pairwise fun a b => a.untilMs ≤ b.untilMs) ∧
        Covers BladeWireExpectation.pwm BladeWireExpectation.untilMs p s.node.bladeWireExpectations s.waiting)
    (fun _ _ h hstep => ⟨hstep.1.sorted h.1, hstep.1.covers hstep.2 h.1 h.2⟩) ⟨fair_sorted hbefore, hstart⟩
    (hafter.and hrace)
  unfold line
  rw [Machine.final_append]
  exact hend.2

/-- Own and external commands of a fair run: an own echo is taken as own when nobody else sent its PWM since
no own send with it was waiting, and a command that no own send waits for is taken as external. -/
theorem wire_ownership {run pre post : List Heard} {x : Heard} (hfair : wire.Along Fair { node := l.node } run)
    (hrun : run = pre ++ x :: post) :
    (∀ i w, x.2 = some i → (line l pre).waiting[i]? = some w →
      (∃ before after, pre = before ++ after ∧ (∀ v ∈ (line l before).waiting, v.pwm ≠ w.pwm) ∧
        wire.Along (fun s y => ¬ Racing w.pwm s y) (line l before) after) →
      TakenAsOwn (line l pre).node x.1) ∧
    ∀ param2, x.2 = none → x.1.1 = (line l pre).node.wired param2 →
      (∀ w ∈ (line l pre).waiting, param2 ≠ some (w.pwm : Rat)) → TakenAsExternal (line l pre).node x.1 := by
  subst hrun
  obtain ⟨hpre, hx, -⟩ := (Machine.along_append pre (x :: post)).1 hfair
  constructor
  · rintro i w hi hw ⟨before, after, rfl, hidle, hrace⟩
    have hfound := hx.found hi hw (fair_covers hpre hidle hrace)
    obtain ⟨own, hown⟩ := Option.ne_none_iff_exists'.1 hfound
    obtain ⟨v, hv, hc⟩ := hx.echo i hi
    obtain rfl : v = w := Option.some.inj (hv.symm.trans hw)
    exact taken_own hc ((find_pwm _ v.pwm).trans hown)
  · intro param2 _ hc hidle
    refine taken_external hc ?_
    have hexpired : Fewer BladeWireExpectation.pwm ((line l pre).node.expired (x.1.2.steady 0)).bladeWireExpectations
        (line l pre).waiting := (fair_fewer hpre).sublist (List.dropWhile_sublist _)
    rw [List.find?_eq_none]
    intro own hown hmatch
    have hparam : some (own.pwm : Rat) = param2 := by simpa using hmatch
    have hslots : Echo.slots BladeWireExpectation.pwm own.pwm
        ((line l pre).node.expired (x.1.2.steady 0)).bladeWireExpectations = [] := by
      refine hexpired.slots_nil fun w hw hpwm => hidle w hw ?_
      rw [hpwm]
      exact hparam.symm
    exact Echo.slots_eq_nil.1 hslots own hown rfl

end Runs

/-- The connection and its neutral, which goes out with the PWM 1500. -/
def linkedRun : List Heard := [((.mavrosState { connected := true, mode := "HOLD" }, .clock 1), none)]

/-- A command 183 of the default launch. -/
def heardCommand (param2 : Rat) (t : Int) : Callback × Env :=
  (.bladeWire (some { command := 183, param1 := some 3, param2 := some param2 }), .clock t)

theorem fair_clock {s : Line} {c : Callback} {t : Int} {echo : Option Nat}
    (hecho : ∀ i ∈ echo, ∃ w, s.waiting[i]? = some w ∧ c = s.node.wired (some (w.pwm : Rat)))
    (hlater : ∀ w ∈ s.waiting, w.untilMs ≤ t + 2000) (hwire : ∀ w ∈ s.waiting, t ≤ w.untilMs)
    (hin : ∀ w ∈ (wire.step s ((c, .clock t), echo)).1.waiting, t ≤ w.untilMs) : Fair s ((c, .clock t), echo) where
  sends _ := rfl
  echo := hecho
  clock _ _ _ := Int.le_refl _
  later w hw _ := hlater w hw
  heardInTime _ _ := hwire
  inTime w hw _ := hin w hw

/-- The echo of the send at place `i` comes. -/
theorem fair_clock_echo {s : Line} {c : Callback} {t : Int} {i : Nat} {w : BladeWireExpectation}
    (hw : s.waiting[i]? = some w) (hc : c = s.node.wired (some (w.pwm : Rat)))
    (hlater : ∀ w ∈ s.waiting, w.untilMs ≤ t + 2000) (hwire : ∀ w ∈ s.waiting, t ≤ w.untilMs)
    (hin : ∀ w ∈ (wire.step s ((c, .clock t), some i)).1.waiting, t ≤ w.untilMs) :
    Fair s ((c, .clock t), some i) := by
  refine fair_clock ?_ hlater hwire hin
  intro j hj
  obtain rfl : i = j := Option.mem_some.1 hj
  exact ⟨w, hw, hc⟩

theorem fair_linkedRun : wire.Along Fair { node := defaultLaunch.node } linkedRun :=
  ⟨fair_clock (by simp) (by simp) (by simp) (by decide), trivial⟩

/-- Somebody else's 1450 before the echo of the own 1500. -/
def foreignRun : List Heard := linkedRun ++ [(heardCommand 1450 2, none), (heardCommand 1500 3, some 0)]

theorem fair_foreignRun : wire.Along Fair { node := defaultLaunch.node } foreignRun := by
  refine ⟨fair_linkedRun.1, ?_, ?_, trivial⟩
  · exact fair_clock (by simp) (by decide) (by decide) (by decide)
  · exact fair_clock_echo (w := ⟨1500, 2001⟩) (by decide) (by decide +kernel) (by decide) (by decide) (by decide)

theorem wire_ownership_foreignRun :
    TakenAsOwn (line defaultLaunch (linkedRun ++ [(heardCommand 1450 2, none)])).node (heardCommand 1500 3) ∧
      TakenAsExternal (line defaultLaunch linkedRun).node (heardCommand 1450 2) := by
  constructor
  · have hlast : foreignRun = (linkedRun ++ [(heardCommand 1450 2, none)]) ++ [(heardCommand 1500 3, some 0)] := rfl
    have hecho := wire_ownership fair_foreignRun hlast
    refine hecho.1 0 ⟨1500, 2001⟩ rfl (by decide) ⟨[], _, rfl, by simp [line], ?_⟩
    decide +kernel
  · have hfirst : foreignRun = linkedRun ++ (heardCommand 1450 2, none) :: [(heardCommand 1500 3, some 0)] := rfl
    have hforeign := wire_ownership fair_foreignRun hfirst
    exact hforeign.2 (some 1450) rfl (by decide +kernel) (by decide +kernel)

/-- Somebody else's 1500 goes out before the echo of the own one, which is then taken as external. -/
theorem raced_echo_external :
    wire.Along Fair { node := defaultLaunch.node }
        (linkedRun ++ [(heardCommand 1500 2, none), (heardCommand 1500 3, some 0)]) ∧
      TakenAsExternal (line defaultLaunch (linkedRun ++ [(heardCommand 1500 2, none)])).node
        (heardCommand 1500 3) := by
  constructor
  · refine ⟨fair_linkedRun.1, ?_, ?_, trivial⟩
    · exact fair_clock (by simp) (by decide) (by decide) (by decide)
    · exact fair_clock_echo (w := ⟨1500, 2001⟩) (by decide) (by decide +kernel) (by decide) (by decide) (by decide)
  · have hwired : (heardCommand 1500 3).1 =
        (line defaultLaunch (linkedRun ++ [(heardCommand 1500 2, none)])).node.wired (some 1500) := by decide +kernel
    exact taken_external hwired (by decide +kernel)

end Bridge
end MowgliMavros
