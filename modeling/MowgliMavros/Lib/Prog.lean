import Mathlib.Tactic.Common

/-!
# Programs that update a state and emit events

`Prog σ ω α` is a total program over a state `σ` that emits events `ω` and returns an `α`. An
assertion is about the state and the events emitted so far, and `Triple P x Q` says that `x` takes `P`
to `Q`. There is one rule for each way to build a program; `read` is the one for a program that
starts by reading its state, `forEach` the one for a loop over a list.
-/

def Prog (σ ω α : Type) := σ → α × σ × List ω

namespace Prog
variable {σ ω α β : Type}

def result (x : Prog σ ω α) (s : σ) : α := (x s).1

def after (x : Prog σ ω α) (s : σ) : σ := (x s).2.1

def emitted (x : Prog σ ω α) (s : σ) : List ω := (x s).2.2

instance : Monad (Prog σ ω) where
  pure a := fun s => (a, s, [])
  bind x f := fun s =>
    match x s with
    | (a, s₁, es₁) =>
      match f a s₁ with
      | (b, s₂, es₂) => (b, s₂, es₁ ++ es₂)

def get : Prog σ ω σ := fun s => (s, s, [])

def update (f : σ → σ) : Prog σ ω Unit := fun s => ((), f s, [])

def emit (e : ω) : Prog σ ω Unit := fun s => ((), s, [e])

def emitAll (es : List ω) : Prog σ ω Unit := fun s => ((), s, es)

def when (c : Prop) [Decidable c] (x : Prog σ ω Unit) : Prog σ ω Unit := if c then x else pure ()

theorem when_neg {c : Prop} [Decidable c] (h : ¬ c) (x : Prog σ ω Unit) : when c x = pure () := if_neg h

/-- What a program does from one state. -/
def run (x : Prog σ ω α) (s : σ) : σ × List ω := (x.after s, x.emitted s)

@[simp] theorem run_emitted (x : Prog σ ω α) (s : σ) : (x.run s).2 = x.emitted s := rfl

theorem run_read (f : σ → Prog σ ω α) (s : σ) : (get >>= f).run s = (f s).run s := rfl

theorem run_update (f : σ → σ) (x : Prog σ ω α) (s : σ) : (update f >>= fun _ => x).run s = x.run (f s) := rfl

theorem run_when (c : Prop) [Decidable c] (x : Prog σ ω α) (s : σ) :
    (when c (x >>= fun _ => pure ())).run s = if c then x.run s else (s, []) := by
  unfold when
  split
  · show (x.after s, x.emitted s ++ []) = x.run s
    rw [List.append_nil]
    rfl
  · rfl

/-! ### Triples -/

/-- From every state and events that satisfy `P`, `x` ends in ones that satisfy `Q`. -/
def Triple (P : σ → List ω → Prop) (x : Prog σ ω α) (Q : α → σ → List ω → Prop) : Prop :=
  ∀ s l, P s l → Q (x.result s) (x.after s) (l ++ x.emitted s)

abbrev Keeps (P : σ → List ω → Prop) (x : Prog σ ω α) : Prop := Triple P x fun _ => P

namespace Triple
variable {P S R : σ → List ω → Prop} {x y : Prog σ ω α} {Q Q' : α → σ → List ω → Prop}

theorem weaken (h : Triple S x Q') (hP : ∀ s l, P s l → S s l) (hQ : ∀ a s l, Q' a s l → Q a s l) :
    Triple P x Q :=
  fun s l hp => hQ _ _ _ (h s l (hP s l hp))

theorem pre (h : Triple S x Q) (hP : ∀ s l, P s l → S s l) : Triple P x Q :=
  h.weaken hP fun _ _ _ => id

/-- Nothing is asked of what the program leaves behind. -/
theorem always (x : Prog σ ω α) : Triple P x fun _ _ _ => True := fun _ _ _ => trivial

theorem pure {a : α} (h : ∀ s l, P s l → Q a s l) : Triple P (Pure.pure a) Q := by
  intro s l hp
  show Q a s (l ++ [])
  rw [List.append_nil]; exact h s l hp

theorem bind {R : α → σ → List ω → Prop} {f : α → Prog σ ω β} {Q : β → σ → List ω → Prop}
    (hx : Triple P x R) (hf : ∀ a, Triple (R a) (f a) Q) : Triple P (x >>= f) Q := by
  intro s l hp
  have := hf (x.result s) (x.after s) (l ++ x.emitted s) (hx s l hp)
  rwa [List.append_assoc] at this

theorem seq {f : α → Prog σ ω β} {Q : β → σ → List ω → Prop} (hx : Triple P x fun _ => R)
    (hf : ∀ a, Triple R (f a) Q) : Triple P (x >>= f) Q :=
  hx.bind hf

theorem read {f : σ → Prog σ ω α} (h : ∀ n, Triple (fun s l => s = n ∧ P s l) (f n) Q) :
    Triple P (get >>= f) Q :=
  fun s l hp => h s s l ⟨rfl, hp⟩

/-- A read whose value is left open. -/
theorem peek {f : σ → Prog σ ω α} (h : ∀ n, Triple P (f n) Q) : Triple P (get >>= f) Q :=
  Triple.read fun n => (h n).pre fun _ _ => And.right

theorem update {f : σ → σ} {Q : Unit → σ → List ω → Prop} (h : ∀ s l, P s l → Q () (f s) l) :
    Triple P (Prog.update f) Q := by
  intro s l hp
  show Q () (f s) (l ++ [])
  rw [List.append_nil]; exact h s l hp

theorem emit {e : ω} {Q : Unit → σ → List ω → Prop} (h : ∀ s l, P s l → Q () s (l ++ [e])) :
    Triple P (Prog.emit e) Q :=
  h

theorem emitAll {es : List ω} {Q : Unit → σ → List ω → Prop} (h : ∀ s l, P s l → Q () s (l ++ es)) :
    Triple P (Prog.emitAll es) Q :=
  h

theorem ite {c : Prop} [Decidable c] (ht : c → Triple P x Q) (hf : ¬ c → Triple P y Q) :
    Triple P (if c then x else y) Q := by
  split
  · exact ht ‹_›
  · exact hf ‹_›

theorem when {c : Prop} [Decidable c] {x : Prog σ ω Unit} (ht : c → Triple P x fun _ => R)
    (hf : ¬ c → ∀ s l, P s l → R s l) : Triple P (Prog.when c x) fun _ => R :=
  ite ht fun h => pure (hf h)

theorem and {Q Q' : α → σ → List ω → Prop} (h : Triple P x Q) (h' : Triple S x Q') :
    Triple (fun s l => P s l ∧ S s l) x fun a s l => Q a s l ∧ Q' a s l :=
  fun s l hp => ⟨h s l hp.1, h' s l hp.2⟩

/-- What `P` says of every state may be used to prove the triple. -/
theorem assume {p : Prop} (h : p → Triple P x Q) (hp : ∀ s l, P s l → p) : Triple P x Q :=
  fun s l hs => h (hp s l hs) s l hs

end Triple

namespace Keeps
variable {P : σ → List ω → Prop}

theorem seq {α β : Type} {x : Prog σ ω α} {f : α → Prog σ ω β} {Q : β → σ → List ω → Prop} (hx : Keeps P x)
    (hf : ∀ a, Triple P (f a) Q) : Triple P (x >>= f) Q :=
  hx.bind hf

theorem update {f : σ → σ} (h : ∀ s l, P s l → P (f s) l) : Keeps P (Prog.update f) := Triple.update h

theorem emitEach {γ : Type} {f : γ → ω} {as : List γ} (h : ∀ a ∈ as, ∀ s l, P s l → P s (l ++ [f a])) :
    Keeps P (Prog.emitAll (as.map f)) := by
  refine Triple.emitAll fun s l => ?_
  induction as generalizing l with
  | nil => intro hp; simpa using hp
  | cons a as ih =>
    intro hp
    simpa using ih (fun b hb => h b (by simp [hb])) (l ++ [f a]) (h a (by simp) s l hp)

theorem emitMap {γ : Type} {f : γ → ω} (h : ∀ a s l, P s l → P s (l ++ [f a])) (as : List γ) :
    Keeps P (Prog.emitAll (as.map f)) :=
  emitEach fun a _ => h a

theorem forEach {γ : Type} {f : γ → Prog σ ω Unit} {as : List γ} (h : ∀ a ∈ as, Keeps P (f a)) :
    Keeps P (as.forM f) := by
  induction as with
  | nil => exact Triple.pure fun _ _ => id
  | cons a as ih => exact (h a (by simp)).seq fun _ => ih fun b hb => h b (by simp [hb])

theorem skip {a : α} : Keeps P (pure a : Prog σ ω α) := Triple.pure fun _ _ => id

theorem read {f : σ → Prog σ ω α} (h : ∀ n, Keeps P (f n)) : Keeps P (get >>= f) :=
  Triple.peek h

theorem ite {c : Prop} [Decidable c] {x y : Prog σ ω α} (hx : Keeps P x) (hy : Keeps P y) :
    Keeps P (if c then x else y) :=
  Triple.ite (fun _ => hx) fun _ => hy

theorem when {c : Prop} [Decidable c] {x : Prog σ ω Unit} (hx : Keeps P x) : Keeps P (Prog.when c x) :=
  hx.ite skip

end Keeps

end Prog
