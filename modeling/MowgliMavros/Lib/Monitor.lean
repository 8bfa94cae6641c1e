import MowgliMavros.Lib.Machine

/-!
# Monitors of event logs

A `Monitor` reads a log from its start and keeps what its law needs to know of the past; `Accepts` says
that it allows every event when it comes. `accepts_run` reduces the law of all runs of a machine to one
step: a relation between the monitor and the machine's state that the step keeps.
-/

/-- A law about event logs over `ω`, with memory `μ`. -/
structure Monitor (μ ω : Type*) where
  observe : μ → ω → μ
  Allows : μ → ω → Prop

namespace Monitor
variable {μ ω σ α τ : Type*} (M : Monitor μ ω)

/-- The memory after a log. -/
def after (x : μ) (log : List ω) : μ := log.foldl M.observe x

def Accepts : μ → List ω → Prop
  | _, [] => True
  | x, e :: log => M.Allows x e ∧ Accepts (M.observe x e) log

instance decidableAccepts [∀ x e, Decidable (M.Allows x e)] : ∀ x log, Decidable (M.Accepts x log)
  | _, [] => inferInstanceAs (Decidable True)
  | x, e :: log =>
    have := decidableAccepts (M.observe x e) log
    inferInstanceAs (Decidable (M.Allows x e ∧ M.Accepts (M.observe x e) log))

variable {M} {x : μ}

@[simp] theorem after_nil : M.after x [] = x := rfl

@[simp] theorem after_cons (e : ω) (log : List ω) : M.after x (e :: log) = M.after (M.observe x e) log := rfl

theorem after_append (as bs : List ω) : M.after x (as ++ bs) = M.after (M.after x as) bs := List.foldl_append

@[simp] theorem accepts_nil : M.Accepts x [] := trivial

@[simp] theorem accepts_cons (e : ω) (log : List ω) :
    M.Accepts x (e :: log) ↔ M.Allows x e ∧ M.Accepts (M.observe x e) log := Iff.rfl

theorem accepts_append (as bs : List ω) : M.Accepts x (as ++ bs) ↔ M.Accepts x as ∧ M.Accepts (M.after x as) bs := by
  induction as generalizing x with
  | nil => simp
  | cons a as ih => simp [ih, and_assoc]

/-- The law of every allowed run, from a relation that one step keeps. -/
theorem accepts_run {m : Machine σ α ω} [Preorder τ] (clock : α → τ) {A : σ → α → Prop} {R : τ → μ → σ → Prop}
    (step : ∀ t x s a, t ≤ clock a → A s a → R t x s →
      M.Accepts x (m.step s a).2 ∧ R (clock a) (M.after x (m.step s a).2) (m.step s a).1)
    {t : τ} {s : σ} {as : List α} (hs : R t x s) (hfirst : ∀ a ∈ as, t ≤ clock a)
    (hsorted : as.Pairwise fun a b => clock a ≤ clock b) (has : m.Along A s as) : M.Accepts x (m.log s as) := by
  induction as generalizing x s t with
  | nil => trivial
  | cons a as ih =>
    obtain ⟨ha, hsorted⟩ := List.pairwise_cons.1 hsorted
    obtain ⟨haccepts, hR⟩ := step t x s a (hfirst a (by simp)) has.1 hs
    exact (accepts_append _ _).2 ⟨haccepts, ih hR ha hsorted has.2⟩

end Monitor
