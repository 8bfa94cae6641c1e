import Mathlib.Data.List.Induction
import MowgliMavros.Lib.Machine

/-!
# The past of a log

`Since P Q log e`: the event `e` of the log is one of `P`, and no event after it is one of `Q`. Both may
look at the events before the one they are about. `since_snoc` says what one more event does to it, and
is the only rule that inductions over a run need; `Was` leaves the event open. `heard` keeps of a history
what is taken of it, where the events taken before decide; `heard_final` compares it with a machine.
`emitted` is what the events of a history stand for, where the events before decide.
`successive` pairs each element of a list with the next.
-/

namespace Past
variable {α ω : Type*}

def Since (P Q : List ω → ω → Prop) (log : List ω) (e : ω) : Prop :=
  ∃ pre post, log = pre ++ e :: post ∧ P pre e ∧ Machine.Throughout (fun mid a => ¬ Q (pre ++ e :: mid) a) post

section Since
variable {P Q : List ω → ω → Prop} {log : List ω} {a e e' : ω}

theorem not_since_nil : ¬ Since P Q [] e := by
  rintro ⟨pre, post, h, -, -⟩
  simp at h

theorem Since.mem (h : Since P Q log e) : e ∈ log := by
  obtain ⟨pre, post, rfl, -, -⟩ := h
  simp

theorem since_snoc : Since P Q (log ++ [a]) e ↔ a = e ∧ P log a ∨ ¬ Q log a ∧ Since P Q log e := by
  constructor
  · rintro ⟨pre, post, h, hP, hQ⟩
    rcases List.eq_nil_or_concat post with rfl | ⟨post, b, rfl⟩
    · obtain ⟨rfl, h⟩ := List.append_inj' h rfl
      obtain rfl : a = e := by simpa using h
      exact .inl ⟨rfl, hP⟩
    · have h' : log ++ [a] = (pre ++ e :: post) ++ [b] := by simpa using h
      obtain ⟨rfl, hb⟩ := List.append_inj' h' rfl
      obtain rfl : a = b := by simpa using hb
      rw [List.concat_eq_append] at hQ
      obtain ⟨hpost, hlast⟩ := Machine.throughout_snoc.1 hQ
      exact .inr ⟨hlast, pre, post, rfl, hP, hpost⟩
  · rintro (⟨rfl, hP⟩ | ⟨hQ, pre, post, rfl, hP, hpost⟩)
    · exact ⟨log, [], rfl, hP, Machine.throughout_nil⟩
    · exact ⟨pre, post ++ [a], by simp, hP, Machine.throughout_snoc.2 ⟨hpost, hQ⟩⟩

/-- Where the events of `P` are events of `Q`, there is one such event at most. -/
theorem Since.unique (hPQ : ∀ pre a, P pre a → Q pre a) (h : Since P Q log e) (h' : Since P Q log e') : e = e' := by
  induction log using List.reverseRecOn with
  | nil => exact absurd h not_since_nil
  | append_singleton log a ih =>
    rw [since_snoc] at h h'
    rcases h with ⟨rfl, hP⟩ | ⟨hQ, h⟩
    · rcases h' with ⟨rfl, -⟩ | ⟨hQ, -⟩
      · rfl
      · exact absurd (hPQ _ _ hP) hQ
    · rcases h' with ⟨rfl, hP⟩ | ⟨-, h'⟩
      · exact absurd (hPQ _ _ hP) hQ
      · exact ih h h'

/-- There is such an event. -/
def Was (P Q : List ω → ω → Prop) (log : List ω) : Prop := ∃ e, Since P Q log e

theorem not_was_nil : ¬ Was P Q [] := by
  rintro ⟨e, h⟩
  exact not_since_nil h

theorem was_snoc : Was P Q (log ++ [a]) ↔ P log a ∨ ¬ Q log a ∧ Was P Q log := by
  simp only [Was, since_snoc]
  constructor
  · rintro ⟨e, ⟨-, hP⟩ | ⟨hQ, h⟩⟩
    · exact .inl hP
    · exact .inr ⟨hQ, e, h⟩
  · rintro (hP | ⟨hQ, e, h⟩)
    · exact ⟨a, .inl ⟨rfl, hP⟩⟩
    · exact ⟨e, .inr ⟨hQ, h⟩⟩

end Since

/-! ### What is taken of a history -/

section Heard
variable {Takes : List ω → ω → Prop} {h : List ω} {a : ω}

open Classical in
/-- The events of a history that are taken, each by those taken before it. -/
noncomputable def heard (Takes : List ω → ω → Prop) (h : List ω) : List ω :=
  h.foldl (fun taken a => if Takes taken a then taken ++ [a] else taken) []

@[simp] theorem heard_nil : heard Takes [] = [] := rfl

theorem heard_taken (ha : Takes (heard Takes h) a) : heard Takes (h ++ [a]) = heard Takes h ++ [a] := by
  unfold heard at ha ⊢
  rw [List.foldl_append, List.foldl_cons, List.foldl_nil, if_pos ha]

theorem heard_refused (ha : ¬ Takes (heard Takes h) a) : heard Takes (h ++ [a]) = heard Takes h := by
  unfold heard at ha ⊢
  rw [List.foldl_append, List.foldl_cons, List.foldl_nil, if_neg ha]

/-- A relation between what was taken and a machine's state that every step keeps. -/
theorem heard_final {σ ω' : Type*} {m : Machine σ ω ω'} {R : List ω → σ → Prop} {s : σ}
    (taken : ∀ log s a, R log s → Takes log a → R (log ++ [a]) (m.step s a).1)
    (refused : ∀ log s a, R log s → ¬ Takes log a → R log (m.step s a).1) (hs : R [] s) :
    R (heard Takes h) (m.final s h) := by
  induction h using List.reverseRecOn with
  | nil => exact hs
  | append_singleton h a ih =>
    rw [Machine.final_append]
    by_cases ha : Takes (heard Takes h) a
    · rw [heard_taken ha]
      exact taken _ _ a ih ha
    · rw [heard_refused ha]
      exact refused _ _ a ih ha

end Heard

/-! ### What a history stands for -/

section Emitted
variable {events : List α → α → List ω}

/-- What each event of a history stands for, after the events before it. -/
def emitted (events : List α → α → List ω) : List α → List ω := Machine.log ⟨fun h a => (h ++ [a], events h a)⟩ []

@[simp] theorem emitted_nil : emitted events [] = [] := rfl

theorem emitted_snoc (h : List α) (a : α) : emitted events (h ++ [a]) = emitted events h ++ events h a := by
  have hfinal : ∀ before : List α,
      Machine.final (⟨fun h a => (h ++ [a], events h a)⟩ : Machine _ _ _) before h = before ++ h := by
    induction h with
    | nil => simp
    | cons b h ih => simp [ih]
  unfold emitted
  rw [Machine.log_append, hfinal]
  simp

end Emitted

/-- Each element with the next one. -/
def successive (xs : List α) : List (α × α) := xs.zip xs.tail

@[simp] theorem successive_nil : successive ([] : List α) = [] := rfl

@[simp] theorem successive_singleton (x : α) : successive [x] = [] := rfl

theorem successive_concat (xs : List α) (x y : α) :
    successive (xs ++ [x] ++ [y]) = successive (xs ++ [x]) ++ [(x, y)] := by
  induction xs with
  | nil => rfl
  | cons z xs ih =>
    cases xs with
    | nil => rfl
    | cons w xs =>
      simp only [successive, List.cons_append, List.tail_cons, List.zip_cons_cons] at ih ⊢
      rw [ih]

end Past
