import Mathlib.Tactic.Common

/-!
# Lines that end in two symbols

`head?` reads the lines of a text up to the first empty one, as the head of an HTTP message is read. It gives back
lines that were joined if none of them is empty or holds the first symbol of a line's end (`head?_join`).
-/

namespace Lines
variable {α : Type*} [DecidableEq α] (cr lf : α)

/-- The lines, each with its end. -/
def join (lines : List (List α)) : List α := lines.flatMap (· ++ [cr, lf])

/-- The first line and what follows its end. -/
def line? : List α → Option (List α × List α)
  | [] | [_] => none
  | a :: b :: rest =>
    if a = cr ∧ b = lf then some ([], rest) else (line? (b :: rest)).map fun found => (a :: found.1, found.2)

theorem line?_length {text line rest : List α} (h : line? cr lf text = some (line, rest)) :
    rest.length < text.length := by
  fun_induction line? cr lf text generalizing line with
  | case1 => cases h
  | case2 => cases h
  | case3 a b rest hend =>
    cases h
    exact Nat.lt_succ_of_lt (Nat.lt_succ_self _)
  | case4 a b rest hend ih =>
    obtain ⟨found, hfound, heq⟩ := Option.map_eq_some_iff.1 h
    cases heq
    exact Nat.lt_succ_of_lt (ih hfound)

/-- The lines before the first empty one, and what follows it. -/
def head? (text : List α) : Option (List (List α) × List α) :=
  match _hline : line? cr lf text with
  | none => none
  | some (line, rest) =>
    if line = [] then some ([], rest) else (head? rest).map fun found => (line :: found.1, found.2)
termination_by text.length
decreasing_by exact line?_length cr lf _hline

variable {cr lf}

theorem line?_append {line : List α} (hline : cr ∉ line) (rest : List α) :
    line? cr lf (line ++ cr :: lf :: rest) = some (line, rest) := by
  induction line with
  | nil => simp [line?]
  | cons a line ih =>
    have ha : a ≠ cr := fun heq => hline (heq ▸ List.mem_cons_self)
    have hrest := ih fun hmem => hline (List.mem_cons_of_mem a hmem)
    cases line with
    | nil => simp [line?, ha]
    | cons b line => simpa [line?, ha] using hrest

theorem head?_of_line? {text line rest : List α} (h : line? cr lf text = some (line, rest)) :
    head? cr lf text =
      if line = [] then some ([], rest) else (head? cr lf rest).map fun found => (line :: found.1, found.2) := by
  rw [head?]
  split
  · next hnone => cases h.symm.trans hnone
  · next hsome =>
    cases h.symm.trans hsome
    rfl

/-- What was joined is read back, with what follows the empty line. -/
theorem head?_join {lines : List (List α)} (hlines : ∀ line ∈ lines, line ≠ [] ∧ cr ∉ line) (body : List α) :
    head? cr lf (join cr lf lines ++ cr :: lf :: body) = some (lines, body) := by
  induction lines with
  | nil => rw [join, List.flatMap_nil, head?_of_line? (line?_append List.not_mem_nil body), if_pos rfl]
  | cons line lines ih =>
    obtain ⟨hline, hlines⟩ := List.forall_mem_cons.1 hlines
    have htext : join cr lf (line :: lines) ++ cr :: lf :: body =
        line ++ cr :: lf :: (join cr lf lines ++ cr :: lf :: body) := by
      simp [join]
    rw [htext, head?_of_line? (line?_append hline.2 _), if_neg hline.1, ih hlines]
    rfl

end Lines
