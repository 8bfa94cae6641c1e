import Mathlib.Data.List.Induction
import MowgliMavros.Lib.Machine

/-!
# A publisher, a topic and a subscriber

Two machines with a topic between them. What the publisher emits is in transit until the topic loses it or
delivers it, in any order; a delivery is an input of the subscriber, with a reading `ρ` of its own, next to
the inputs that it has from elsewhere. The system emits the inputs of the subscriber. Each machine runs on its
own inputs, and what is delivered was published (`final_publisher`, `final_subscriber`, `published_of_delivered`).
-/

namespace Topic
variable {σ α μ τ β ω ρ : Type*}

inductive Event (α ρ β : Type*)
  | input (a : α)
  | lose (i : Nat)
  | deliver (i : Nat) (r : ρ)
  | other (b : β)

structure State (σ μ τ : Type*) where
  publisher : σ
  inTransit : List μ := []
  subscriber : τ

/-- What the publisher is given. -/
def Event.input? : Event α ρ β → Option α
  | input a => some a
  | _ => none

def inputs (run : List (Event α ρ β)) : List α := run.filterMap Event.input?

def system (p : Machine σ α μ) (s : Machine τ ((μ × ρ) ⊕ β) ω) :
    Machine (State σ μ τ) (Event α ρ β) ((μ × ρ) ⊕ β) where
  step x
    | .input a => ({ x with
        publisher := (p.step x.publisher a).1
        inTransit := x.inTransit ++ (p.step x.publisher a).2 }, [])
    | .lose i => ({ x with inTransit := x.inTransit.eraseIdx i }, [])
    | .deliver i r =>
      match x.inTransit[i]? with
      | some m => ({ x with
          inTransit := x.inTransit.eraseIdx i
          subscriber := (s.step x.subscriber (.inl (m, r))).1 }, [.inl (m, r)])
      | none => (x, [])
    | .other b => ({ x with subscriber := (s.step x.subscriber (.inr b)).1 }, [.inr b])

/-- The publisher emits the message on one of its inputs. -/
def Published (p : Machine σ α μ) (s : σ) (as : List α) (m : μ) : Prop :=
  ∃ before a after, as = before ++ a :: after ∧ m ∈ (p.step (p.final s before) a).2

section Published
variable {p : Machine σ α μ} {s : σ} {as : List α} {a : α} {m : μ}

theorem Published.snoc (h : Published p s as m) : Published p s (as ++ [a]) m := by
  obtain ⟨before, b, after, rfl, hm⟩ := h
  exact ⟨before, b, after ++ [a], by simp, hm⟩

theorem published_now (h : m ∈ (p.step (p.final s as) a).2) : Published p s (as ++ [a]) m := ⟨as, a, [], rfl, h⟩

end Published

section Runs
variable {p : Machine σ α μ} {s : Machine τ ((μ × ρ) ⊕ β) ω} {x : State σ μ τ} {run : List (Event α ρ β)}

theorem inputs_snoc (e : Event α ρ β) : inputs (run ++ [e]) = inputs run ++ e.input?.toList := by
  unfold inputs
  rw [List.filterMap_append]
  cases e <;> rfl

/-- The publisher is on its own. -/
theorem final_publisher : ((system p s).final x run).publisher = p.final x.publisher (inputs run) := by
  induction run generalizing x with
  | nil => rfl
  | cons e run ih =>
    rw [Machine.final_cons, ih]
    cases e with
    | deliver i r =>
      simp only [system]
      split <;> rfl
    | _ => rfl

/-- The subscriber runs on what the system emits. -/
theorem final_subscriber :
    ((system p s).final x run).subscriber = s.final x.subscriber ((system p s).log x run) := by
  induction run generalizing x with
  | nil => rfl
  | cons e run ih =>
    rw [Machine.final_cons, Machine.log_cons, Machine.final_append, ih]
    cases e with
    | deliver i r =>
      simp only [system]
      split <;> rfl
    | _ => rfl

/-- What is in transit was published. -/
theorem published_of_inTransit (hx : x.inTransit = []) {m : μ} (hm : m ∈ ((system p s).final x run).inTransit) :
    Published p x.publisher (inputs run) m := by
  induction run using List.reverseRecOn generalizing m with
  | nil =>
    rw [Machine.final_nil, hx] at hm
    cases hm
  | append_singleton run e ih =>
    rw [Machine.final_append] at hm
    rw [inputs_snoc]
    cases e with
    | input a =>
      rcases List.mem_append.1 hm with hm | hm
      · exact (ih hm).snoc
      · rw [final_publisher] at hm
        exact published_now hm
    | lose i => simpa [Event.input?] using ih (List.mem_of_mem_eraseIdx hm)
    | deliver i r =>
      have hkept : m ∈ ((system p s).final x run).inTransit := by
        simp only [Machine.final_cons, Machine.final_nil, system] at hm
        split at hm
        · exact List.mem_of_mem_eraseIdx hm
        · exact hm
      simpa [Event.input?] using ih hkept
    | other b => simpa [Event.input?] using ih hm

/-- What is delivered was published. -/
theorem published_of_delivered (hx : x.inTransit = []) {m : μ} {r : ρ}
    (hm : .inl (m, r) ∈ (system p s).log x run) : Published p x.publisher (inputs run) m := by
  induction run using List.reverseRecOn with
  | nil => cases hm
  | append_singleton run e ih =>
    rw [Machine.log_append, List.mem_append] at hm
    rw [inputs_snoc]
    cases e with
    | input a =>
      rcases hm with hm | hm
      · exact (ih hm).snoc
      · cases hm
    | lose i => simpa [Event.input?, system] using ih (by simpa [system] using hm)
    | deliver i r' =>
      refine (List.append_nil (inputs run)).symm ▸ ?_
      rcases hm with hm | hm
      · exact ih hm
      · simp only [Machine.log_cons, Machine.log_nil, List.append_nil, system] at hm
        split at hm
        · rename_i m' hm'
          obtain ⟨rfl, rfl⟩ : m = m' ∧ r = r' := by simpa using hm
          exact published_of_inTransit hx (List.mem_of_getElem? hm')
        · cases hm
    | other b => simpa [Event.input?] using ih (by simpa [system] using hm)

end Runs
end Topic
