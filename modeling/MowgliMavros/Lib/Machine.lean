import Mathlib.Order.Basic
import Mathlib.Tactic.Common

/-!
# Machines that emit events

A `Machine` consumes inputs one at a time and emits a list of events at each; `final` and `log` are
the state and the events of a whole run, `told` puts the inputs among the events, and `Throughout`
speaks of every event and of those before it. `sim_filter` compares a run with the run that is left
when some of the inputs are deleted. The rules at the end are the three inductions a verification uses:
an invariant of the state (`inv_final`), an invariant of the state and of the whole log (`history`, and
`timed_history` when the inputs carry non-decreasing times), and a bound on how many events of a kind a
run can emit (`budget`), or how many steps of a kind it can take (`tally_budget`).
-/

/-- A deterministic machine over states `σ`, inputs `α` and emitted events `ω`. -/
structure Machine (σ α ω : Type*) where
  step : σ → α → σ × List ω

namespace Machine
variable {σ α ω τ : Type*} (m : Machine σ α ω)

/-- The state after a run. -/
def final : σ → List α → σ
  | s, [] => s
  | s, a :: as => final (m.step s a).1 as

def log : σ → List α → List ω
  | _, [] => []
  | s, a :: as => (m.step s a).2 ++ log (m.step s a).1 as

/-- Every input of the run is allowed by `A` at the state it meets. -/
def Along (A : σ → α → Prop) : σ → List α → Prop
  | _, [] => True
  | s, a :: as => A s a ∧ Along A (m.step s a).1 as

instance decidableAlong (A : σ → α → Prop) [∀ s a, Decidable (A s a)] : ∀ s as, Decidable (m.Along A s as)
  | _, [] => inferInstanceAs (Decidable True)
  | s, a :: as =>
    have := decidableAlong A (m.step s a).1 as
    inferInstanceAs (Decidable (A s a ∧ m.Along A (m.step s a).1 as))

/-- How many inputs of the run satisfy `p` at the state they meet. -/
def tally (p : σ → α → Bool) : σ → List α → Nat
  | _, [] => 0
  | s, a :: as => (p s a).toNat + tally p (m.step s a).1 as

/-! ### Runs -/

section Runs
variable {m} {s : σ}

@[simp] theorem final_nil : m.final s [] = s := rfl

@[simp] theorem final_cons (a : α) (as : List α) : m.final s (a :: as) = m.final (m.step s a).1 as := rfl

@[simp] theorem log_nil : m.log s [] = [] := rfl

@[simp] theorem log_cons (a : α) (as : List α) :
    m.log s (a :: as) = (m.step s a).2 ++ m.log (m.step s a).1 as := rfl

theorem final_append (as bs : List α) : m.final s (as ++ bs) = m.final (m.final s as) bs := by
  induction as generalizing s with
  | nil => rfl
  | cons a as ih => exact ih

theorem log_append (as bs : List α) : m.log s (as ++ bs) = m.log s as ++ m.log (m.final s as) bs := by
  induction as generalizing s with
  | nil => rfl
  | cons a as ih => simp [ih]

theorem along_append {A : σ → α → Prop} (as bs : List α) :
    m.Along A s (as ++ bs) ↔ m.Along A s as ∧ m.Along A (m.final s as) bs := by
  induction as generalizing s with
  | nil => simp [Along]
  | cons a as ih => simp [Along, ih, and_assoc]

theorem Along.mono {A B : σ → α → Prop} (hAB : ∀ s a, A s a → B s a) {as : List α}
    (h : m.Along A s as) : m.Along B s as := by
  induction as generalizing s with
  | nil => trivial
  | cons a as ih => exact ⟨hAB _ _ h.1, ih h.2⟩

theorem Along.and {A B : σ → α → Prop} {as : List α} (hA : m.Along A s as) (hB : m.Along B s as) :
    m.Along (fun s a => A s a ∧ B s a) s as := by
  induction as generalizing s with
  | nil => trivial
  | cons a as ih => exact ⟨⟨hA.1, hB.1⟩, ih hA.2 hB.2⟩

theorem along_of_forall {A : α → Prop} {as : List α} (h : ∀ a ∈ as, A a) :
    m.Along (fun _ => A) s as := by
  induction as generalizing s with
  | nil => trivial
  | cons a as ih => exact ⟨h a (by simp), ih fun b hb => h b (by simp [hb])⟩

/-- `Along` says of every step what `A` says of it. -/
theorem along_iff {A : σ → α → Prop} {as : List α} :
    m.Along A s as ↔ ∀ pre a post, as = pre ++ a :: post → A (m.final s pre) a := by
  constructor
  · rintro h pre a post rfl
    exact ((along_append pre (a :: post)).1 h).2.1
  · intro h
    induction as generalizing s with
    | nil => trivial
    | cons a as ih =>
      exact ⟨h [] a as rfl, ih fun pre b post hb => h (a :: pre) b post (by rw [hb]; rfl)⟩

end Runs

/-! ### Inputs among the events -/

/-- The machine that also tells what it was given, before the events it emits for it. -/
def told : Machine σ α (α ⊕ ω) where
  step s a := ((m.step s a).1, .inl a :: (m.step s a).2.map .inr)

@[simp] theorem final_told (s : σ) (as : List α) : m.told.final s as = m.final s as := by
  induction as generalizing s with
  | nil => rfl
  | cons a as ih => exact ih (m.step s a).1

theorem mem_told {s : σ} {a : α} {as : List α} (h : a ∈ as) : .inl a ∈ m.told.log s as := by
  induction as generalizing s with
  | nil => cases h
  | cons b as ih =>
    rw [log_cons]
    rcases List.mem_cons.1 h with rfl | h
    · exact List.mem_append_left _ List.mem_cons_self
    · exact List.mem_append_right _ (ih h)

theorem of_mem_told {s : σ} {a : α} {as : List α} (h : .inl a ∈ m.told.log s as) : a ∈ as := by
  induction as generalizing s with
  | nil => cases h
  | cons b as ih =>
    rw [log_cons] at h
    rcases List.mem_append.1 h with h | h
    · rcases List.mem_cons.1 h with h | h
      · cases h
        exact List.mem_cons_self
      · simp at h
    · exact List.mem_cons_of_mem _ (ih h)

theorem along_told {A : σ → α → Prop} {s : σ} {as : List α} : m.told.Along A s as ↔ m.Along A s as := by
  induction as generalizing s with
  | nil => rfl
  | cons a as ih => exact and_congr_right fun _ => ih

/-! ### Events and what came before them -/

/-- Every event of the log satisfies `P` together with the events before it. -/
def Throughout (P : List ω → ω → Prop) (log : List ω) : Prop :=
  ∀ pre e post, log = pre ++ e :: post → P pre e

section Throughout
variable {P Q : List ω → ω → Prop} {log : List ω}

theorem throughout_nil : Throughout P [] := by
  intro pre e post h
  simp at h

theorem throughout_snoc {e : ω} : Throughout P (log ++ [e]) ↔ Throughout P log ∧ P log e := by
  constructor
  · intro h
    exact ⟨fun pre a post hl => h pre a (post ++ [e]) (by simp [hl]), h log e [] rfl⟩
  · rintro ⟨hlog, he⟩ pre a post hl
    rcases List.eq_nil_or_concat post with rfl | ⟨post', b, rfl⟩
    · obtain ⟨rfl, hb⟩ := List.append_inj' hl rfl
      obtain rfl : e = a := by simpa using hb
      exact he
    · refine hlog pre a post' ?_
      have hl' : log ++ [e] = (pre ++ a :: post') ++ [b] := by simpa using hl
      exact (List.append_inj' hl' rfl).1

theorem Throughout.mono (hPQ : ∀ pre e, P pre e → Q pre e) (h : Throughout P log) : Throughout Q log :=
  fun pre e post hl => hPQ pre e (h pre e post hl)

end Throughout

/-! ### Two runs -/

section TwoRuns
variable {m} [Preorder τ] (clock : α → τ) (keep : α → Bool) (visible : ω → Bool) {R : τ → σ → σ → Prop}

/-- A simulation between a run and what is left of it when the inputs that are not kept are deleted: the
runs agree in the visible events. `R t` may bound the times in the states by the last time `t`. -/
theorem sim_filter
    (kept : ∀ t s s' a, keep a = true → t ≤ clock a → R t s s' →
      (m.step s' a).2.filter visible = (m.step s a).2.filter visible ∧ R (clock a) (m.step s a).1 (m.step s' a).1)
    (deleted : ∀ t s s' a, keep a = false → t ≤ clock a → R t s s' →
      (m.step s a).2.filter visible = [] ∧ R (clock a) (m.step s a).1 s')
    {t : τ} {s s' : σ} {as : List α} (hs : R t s s') (hfirst : ∀ a ∈ as, t ≤ clock a)
    (hsorted : as.Pairwise fun a b => clock a ≤ clock b) :
    (m.log s' (as.filter keep)).filter visible = (m.log s as).filter visible ∧
      ∃ T, R T (m.final s as) (m.final s' (as.filter keep)) := by
  induction as generalizing s s' t with
  | nil => exact ⟨rfl, t, hs⟩
  | cons a as ih =>
    obtain ⟨ha, has⟩ := List.pairwise_cons.1 hsorted
    have hta := hfirst a (by simp)
    cases hkeep : keep a with
    | true =>
      obtain ⟨hout, hR⟩ := kept t s s' a hkeep hta hs
      obtain ⟨hlog, hfinal⟩ := ih hR ha has
      rw [List.filter_cons_of_pos hkeep]
      exact ⟨by rw [log_cons, log_cons, List.filter_append, List.filter_append, hout, hlog], hfinal⟩
    | false =>
      obtain ⟨hout, hR⟩ := deleted t s s' a hkeep hta hs
      obtain ⟨hlog, hfinal⟩ := ih hR ha has
      rw [List.filter_cons_of_neg (by simp [hkeep])]
      exact ⟨by rw [log_cons, List.filter_append, hout, hlog, List.nil_append], hfinal⟩

end TwoRuns

/-! ### Induction rules -/

section Rules
variable {m} {A : σ → α → Prop}

/-- An invariant of the allowed steps holds at the end of every allowed run. -/
theorem inv_final {I : σ → Prop} (step : ∀ s a, I s → A s a → I (m.step s a).1) {s : σ}
    {as : List α} (hs : I s) (has : m.Along A s as) : I (m.final s as) := by
  induction as generalizing s with
  | nil => exact hs
  | cons a as ih => exact ih (step s a hs has.1) has.2

/-- Where `A` says of each step whether it keeps `I`, all states of a run satisfy `I` exactly when all its
steps are allowed. -/
theorem always_iff {I : σ → Prop} (step : ∀ s a, I s → (I (m.step s a).1 ↔ A s a)) {s : σ} {as : List α}
    (hs : I s) : (∀ pre, pre <+: as → I (m.final s pre)) ↔ m.Along A s as := by
  induction as generalizing s with
  | nil =>
    refine iff_of_true ?_ trivial
    intro pre hpre
    obtain rfl := List.prefix_nil.1 hpre
    exact hs
  | cons a as ih =>
    constructor
    · intro h
      have ha : I (m.step s a).1 := h [a] (by simp)
      exact ⟨(step s a hs).1 ha, (ih ha).1 fun pre hpre => h (a :: pre) (by simpa using hpre)⟩
    · rintro ⟨ha, has⟩ pre hpre
      have hI := (step s a hs).2 ha
      cases pre with
      | nil => exact hs
      | cons b pre =>
        obtain ⟨rfl, htail⟩ := List.cons_prefix_cons.1 hpre
        exact (ih hI).2 has pre htail

/-- An invariant of the state and of the events emitted so far. -/
theorem history {H : List ω → σ → Prop}
    (step : ∀ l s a, H l s → A s a → H (l ++ (m.step s a).2) (m.step s a).1) {s : σ} {l : List ω}
    {as : List α} (hs : H l s) (has : m.Along A s as) : H (l ++ m.log s as) (m.final s as) := by
  induction as generalizing s l with
  | nil => simpa using hs
  | cons a as ih => simpa [List.append_assoc] using ih (step l s a hs has.1) has.2

/-- `history` for inputs that carry times: `H t` may bound the times in the state by the last time
`t`, provided a later `t` keeps it. -/
theorem timed_history [Preorder τ] (clock : α → τ) {H : τ → List ω → σ → Prop}
    (mono : ∀ t t' l s, t ≤ t' → H t l s → H t' l s)
    (step : ∀ t l s a, t ≤ clock a → H t l s → H (clock a) (l ++ (m.step s a).2) (m.step s a).1)
    {t T : τ} {s : σ} {l : List ω} {as : List α} (hs : H t l s) (htT : t ≤ T)
    (hfirst : ∀ a ∈ as, t ≤ clock a) (hsorted : as.Pairwise fun a b => clock a ≤ clock b)
    (hlast : ∀ a ∈ as, clock a ≤ T) : H T (l ++ m.log s as) (m.final s as) := by
  induction as generalizing s l t with
  | nil => simpa using mono t T l s htT hs
  | cons a as ih =>
    obtain ⟨ha, has⟩ := List.pairwise_cons.1 hsorted
    have := ih (step t l s a (hfirst a (by simp)) hs) (hlast a (by simp)) ha has
      fun b hb => hlast b (by simp [hb])
    simpa [List.append_assoc] using this

/-- A potential that pays for the counted events of every allowed step bounds their number in a run. -/
theorem budget (I : σ → Prop) (p : ω → Bool) (φ : σ → Nat)
    (step : ∀ s a, I s → A s a →
      I (m.step s a).1 ∧ (m.step s a).2.countP p + φ (m.step s a).1 ≤ φ s) {s : σ}
    {as : List α} (hs : I s) (has : m.Along A s as) :
    (m.log s as).countP p + φ (m.final s as) ≤ φ s := by
  induction as generalizing s with
  | nil => simp
  | cons a as ih =>
    obtain ⟨hI, hpay⟩ := step s a hs has.1
    have := ih hI has.2
    simp only [log_cons, List.countP_append, final_cons]
    omega

/-- A potential that pays for every step of a kind bounds how many of them a run takes. -/
theorem tally_budget (I : σ → Prop) (p : σ → α → Bool) (φ : σ → Nat)
    (step : ∀ s a, I s → A s a → I (m.step s a).1 ∧ (p s a).toNat + φ (m.step s a).1 ≤ φ s) {s : σ}
    {as : List α} (hs : I s) (has : m.Along A s as) : m.tally p s as + φ (m.final s as) ≤ φ s := by
  induction as generalizing s with
  | nil => simp [tally]
  | cons a as ih =>
    obtain ⟨hI, hpay⟩ := step s a hs has.1
    have := ih hI has.2
    simp only [tally, final_cons]
    omega

end Rules

end Machine
