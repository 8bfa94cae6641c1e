import Mathlib.Data.List.Basic

/-!
# Bounded queues

A queue that drops its oldest entry keeps the one that has few enough entries behind it: `Behind n a queue`
says that no more than `n` entries of the queue came after `a`.
-/

namespace Queue
variable {α : Type*} {queue : List α} {a : α} {n : Nat}

def Behind (n : Nat) (a : α) (queue : List α) : Prop :=
  ∃ older newer, queue = older ++ a :: newer ∧ newer.length ≤ n

namespace Behind

theorem mem (h : Behind n a queue) : a ∈ queue := by
  obtain ⟨older, newer, rfl, -⟩ := h
  simp

theorem last (queue : List α) (a : α) : Behind 0 a (queue ++ [a]) := ⟨queue, [], rfl, Nat.le_refl 0⟩

theorem push (h : Behind n a queue) (b : α) : Behind (n + 1) a (queue ++ [b]) := by
  obtain ⟨older, newer, rfl, hn⟩ := h
  refine ⟨older, newer ++ [b], by simp, ?_⟩
  rw [List.length_append, List.length_singleton]
  omega

/-- The oldest entry of a longer queue is another one. -/
theorem tail (h : Behind n a queue) (hlong : n + 1 < queue.length) : Behind n a queue.tail := by
  obtain ⟨older, newer, rfl, hn⟩ := h
  cases older with
  | nil =>
    rw [List.nil_append, List.length_cons] at hlong
    omega
  | cons b older => exact ⟨older, newer, rfl, hn⟩

theorem dropWhile {p : α → Bool} (h : Behind n a queue) (ha : p a = false) : Behind n a (queue.dropWhile p) := by
  obtain ⟨older, newer, rfl, hn⟩ := h
  induction older with
  | nil =>
    rw [List.nil_append, List.dropWhile_cons_of_neg (by simp [ha])]
    exact ⟨[], newer, rfl, hn⟩
  | cons b older ih =>
    rw [List.cons_append]
    cases hb : p b with
    | true =>
      rw [List.dropWhile_cons_of_pos hb]
      exact ih
    | false =>
      rw [List.dropWhile_cons_of_neg (by simp [hb])]
      exact ⟨b :: older, newer, rfl, hn⟩

end Behind
end Queue
