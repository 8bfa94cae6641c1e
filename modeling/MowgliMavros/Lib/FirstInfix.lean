import Mathlib.Tactic.Common

/-!
# The first occurrence of a pattern

`firstInfix?` is the search of a pattern in a list from its start. An occurrence that no other precedes is
the one found (`firstInfix?_eq_some`), nothing is found only where there is none (`firstInfix?_eq_none_iff`), and
what follows a list does not change what was found in it (`firstInfix?_append`).
-/

namespace List
variable {α : Type*} [BEq α] [LawfulBEq α] {pattern : List α}

/-- Where the pattern first begins. -/
def firstInfix? (pattern : List α) : List α → Option Nat
  | [] => if pattern.isPrefixOf [] then some 0 else none
  | a :: l => if pattern.isPrefixOf (a :: l) then some 0 else (firstInfix? pattern l).map (· + 1)

theorem firstInfix?_zero {l : List α} (h : pattern <+: l) : firstInfix? pattern l = some 0 := by
  cases l <;> exact if_pos <| isPrefixOf_iff_prefix.2 h

theorem firstInfix?_nil (h : ¬ pattern <+: []) : firstInfix? pattern [] = none :=
  if_neg fun hstarts => h <| isPrefixOf_iff_prefix.1 hstarts

theorem firstInfix?_cons {a : α} {l : List α} (h : ¬ pattern <+: a :: l) :
    firstInfix? pattern (a :: l) = (firstInfix? pattern l).map (· + 1) :=
  if_neg fun hstarts => h <| isPrefixOf_iff_prefix.1 hstarts

/-- What was found is an occurrence. -/
theorem firstInfix?_some {l : List α} {i : Nat} (h : firstInfix? pattern l = some i) :
    ∃ pre post, l = pre ++ pattern ++ post ∧ pre.length = i := by
  induction l generalizing i with
  | nil =>
    by_cases hstarts : pattern <+: []
    · obtain ⟨post, hpost⟩ := hstarts
      rw [firstInfix?_zero ⟨post, hpost⟩] at h
      cases h
      exact ⟨[], post, hpost.symm, rfl⟩
    · rw [firstInfix?_nil hstarts] at h
      cases h
  | cons a l ih =>
    by_cases hstarts : pattern <+: a :: l
    · obtain ⟨post, hpost⟩ := hstarts
      rw [firstInfix?_zero ⟨post, hpost⟩] at h
      cases h
      exact ⟨[], post, hpost.symm, rfl⟩
    · rw [firstInfix?_cons hstarts] at h
      obtain ⟨j, hj, rfl⟩ := Option.map_eq_some_iff.1 h
      obtain ⟨pre, post, rfl, rfl⟩ := ih hj
      exact ⟨a :: pre, post, rfl, rfl⟩

/-- What was found lies in the list. -/
theorem firstInfix?_le {l : List α} {i : Nat} (h : firstInfix? pattern l = some i) :
    i + pattern.length ≤ l.length := by
  obtain ⟨pre, post, rfl, rfl⟩ := firstInfix?_some h
  simp only [length_append]
  omega

theorem firstInfix?_append {l : List α} {i : Nat} (h : firstInfix? pattern l = some i) (more : List α) :
    firstInfix? pattern (l ++ more) = some i := by
  induction l generalizing i with
  | nil =>
    by_cases hstarts : pattern <+: []
    · rw [firstInfix?_zero hstarts] at h
      cases h
      exact firstInfix?_zero (hstarts.trans nil_prefix)
    · rw [firstInfix?_nil hstarts] at h
      cases h
  | cons a l ih =>
    by_cases hstarts : pattern <+: a :: l
    · rw [firstInfix?_zero hstarts] at h
      cases h
      exact firstInfix?_zero (hstarts.trans (prefix_append _ _))
    · have hlong : ¬ pattern <+: a :: (l ++ more) := fun hp =>
        hstarts (prefix_of_prefix_length_le hp (prefix_append (a :: l) more) (by have := firstInfix?_le h; omega))
      rw [firstInfix?_cons hstarts] at h
      obtain ⟨j, hj, rfl⟩ := Option.map_eq_some_iff.1 h
      rw [cons_append, firstInfix?_cons hlong, ih hj]
      rfl

/-- Where there is an occurrence, one is found that does not come after it. -/
theorem firstInfix?_occurrence (pattern pre post : List α) :
    ∃ i ≤ pre.length, firstInfix? pattern (pre ++ pattern ++ post) = some i := by
  induction pre with
  | nil => exact ⟨0, Nat.le_refl 0, firstInfix?_zero (prefix_append _ _)⟩
  | cons a pre ih =>
    obtain ⟨i, hle, hfound⟩ := ih
    by_cases hstarts : pattern <+: a :: (pre ++ pattern ++ post)
    · exact ⟨0, Nat.zero_le _, firstInfix?_zero hstarts⟩
    · refine ⟨i + 1, Nat.succ_le_succ hle, ?_⟩
      rw [cons_append, cons_append, firstInfix?_cons hstarts, hfound]
      rfl

/-- An occurrence that no other precedes is found. -/
theorem firstInfix?_eq_some (pattern pre post : List α)
    (h : ∀ pre' post', pre ++ pattern ++ post = pre' ++ pattern ++ post' → pre.length ≤ pre'.length) :
    firstInfix? pattern (pre ++ pattern ++ post) = some pre.length := by
  obtain ⟨i, hle, hfound⟩ := firstInfix?_occurrence pattern pre post
  obtain ⟨pre', post', heq, rfl⟩ := firstInfix?_some hfound
  rw [hfound, Nat.le_antisymm hle (h pre' post' heq)]

/-- No occurrence comes before the one found. -/
theorem firstInfix?_first {pre post : List α} {i : Nat} (h : firstInfix? pattern (pre ++ pattern ++ post) = some i) :
    i ≤ pre.length := by
  obtain ⟨j, hle, hfound⟩ := firstInfix?_occurrence pattern pre post
  obtain rfl : i = j := Option.some.inj (h.symm.trans hfound)
  exact hle

/-- Nothing is found where the pattern does not occur. -/
theorem firstInfix?_eq_none_iff {l : List α} :
    firstInfix? pattern l = none ↔ ∀ pre post, l ≠ pre ++ pattern ++ post := by
  constructor
  · rintro h pre post rfl
    obtain ⟨i, -, hfound⟩ := firstInfix?_occurrence pattern pre post
    rw [h] at hfound
    cases hfound
  · intro h
    cases hfound : firstInfix? pattern l with
    | none => rfl
    | some i =>
      obtain ⟨pre, post, heq, -⟩ := firstInfix?_some hfound
      exact absurd heq (h pre post)

end List
