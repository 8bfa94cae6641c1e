import Mathlib.Data.List.Forall2
import Mathlib.Order.Lattice
import Mathlib.Tactic.Common

/-!
# Queues of expected echoes

A sender queues the key and the due time of everything it sends, drops what is overdue from the front of
the queue only, and takes the first entry of an equal key for an echo. Echoes of equal keys may come in
any order, so they take each other's entries. `Covers p queue waiting` compares the queue with the sends
that still wait for their echo: for the key `p` they are equally many, and in queue order each entry is
due no earlier than the send in its place. It survives the exchange as long as the sends are in the order
of their due times (`Covers.take`), and while no send is overdue nothing expires (`Covers.expire`).
`Fewer` is what is left of it when somebody else takes entries.
-/

namespace Echo
variable {α κ τ : Type*}

/-! ### Lists -/

theorem filter_dropWhile {p q : α → Bool} {l : List α} (h : ∀ a ∈ l, q a = true → p a = false) :
    (l.dropWhile p).filter q = l.filter q := by
  induction l with
  | nil => rfl
  | cons a l ih =>
    cases hp : p a with
    | false => rw [List.dropWhile_cons_of_neg (by simp [hp])]
    | true =>
      have hq : q a = false := by
        by_contra hno
        have hfalse := h a (by simp) (by simpa using hno)
        rw [hp] at hfalse
        cases hfalse
      rw [List.dropWhile_cons_of_pos hp, ih fun b hb => h b (by simp [hb]), List.filter_cons_of_neg (by simp [hq])]

/-- The first entry that satisfies `p` is the head of those that do. -/
theorem filter_erase_find [DecidableEq α] {p : α → Bool} {l : List α} {a : α} (h : l.find? p = some a) :
    l.filter p = a :: (l.erase a).filter p := by
  induction l with
  | nil => cases h
  | cons b l ih =>
    cases hp : p b with
    | true =>
      rw [List.find?_cons_of_pos hp] at h
      cases h
      rw [List.erase_cons_head, List.filter_cons_of_pos hp]
    | false =>
      rw [List.find?_cons_of_neg (by simp [hp])] at h
      have hne : b ≠ a := by
        rintro rfl
        rw [List.find?_some h] at hp
        cases hp
      rw [List.filter_cons_of_neg (by simp [hp]), List.erase_cons_tail (by simpa using hne),
        List.filter_cons_of_neg (by simp [hp])]
      exact ih h

theorem filter_erase_of_neg [DecidableEq α] {p : α → Bool} {l : List α} {a : α} (h : p a = false) :
    (l.erase a).filter p = l.filter p := by
  induction l with
  | nil => rfl
  | cons b l ih =>
    by_cases hb : b = a
    · subst hb
      rw [List.erase_cons_head, List.filter_cons_of_neg (by simp [h])]
    · rw [List.erase_cons_tail (by simpa using hb), List.filter_cons, List.filter_cons, ih]

/-! ### The exchange -/

/-- The first of `as` goes with any of the others' partners: each of the partners before it moves up to a
later one of `as`. -/
theorem forall₂_exchange {β : Type*} {R : α → β → Prop} {S : β → β → Prop}
    (hRS : ∀ a b b', S b' b → R a b → R a b') {as : List α} {before after : List β} {b : β}
    (h : List.Forall₂ R as (before ++ b :: after)) (hsorted : (before ++ b :: after).Pairwise S) :
    List.Forall₂ R as.tail (before ++ after) := by
  induction before generalizing as with
  | nil =>
    cases h with
    | cons _ htail => exact htail
  | cons c before ih =>
    cases h with
    | @cons a _ as _ hac htail =>
      obtain ⟨hc, hsorted⟩ := List.pairwise_cons.1 hsorted
      have hmoved := ih htail hsorted
      cases as with
      | nil => cases before <;> cases htail
      | cons a' as =>
        refine List.Forall₂.cons ?_ hmoved
        cases before with
        | nil =>
          cases htail with
          | cons hab _ => exact hRS _ _ _ (hc b (by simp)) hab
        | cons d before =>
          cases htail with
          | cons had _ => exact hRS _ _ _ (hc d (by simp)) had

theorem exists_of_getElem? {l : List α} {i : Nat} {a : α} (h : l[i]? = some a) :
    ∃ before after, l = before ++ a :: after ∧ l.eraseIdx i = before ++ after := by
  induction l generalizing i with
  | nil => cases h
  | cons b l ih =>
    cases i with
    | zero =>
      cases h
      exact ⟨[], l, rfl, rfl⟩
    | succ i =>
      obtain ⟨before, after, hl, herase⟩ := ih h
      refine ⟨b :: before, after, by rw [hl]; rfl, ?_⟩
      rw [List.eraseIdx_cons_succ, herase]
      rfl

theorem exists_of_forall₂ {β : Type*} {R : α → β → Prop} {as : List α} {bs : List β} (h : List.Forall₂ R as bs)
    {a : α}
    (ha : a ∈ as) : ∃ b ∈ bs, R a b := by
  induction h with
  | nil => cases ha
  | cons hab _ ih =>
    rcases List.mem_cons.1 ha with rfl | ha
    · exact ⟨_, List.mem_cons_self, hab⟩
    · obtain ⟨b, hb, hR⟩ := ih ha
      exact ⟨b, List.mem_cons_of_mem _ hb, hR⟩

/-! ### Covered sends -/

section Covers
variable [DecidableEq κ] (key : α → κ) (due : α → τ)

/-- The entries of the key `p`. -/
def slots (p : κ) (l : List α) : List α := l.filter fun a => key a = p

def Covers [LE τ] (p : κ) (queue waiting : List α) : Prop :=
  List.Forall₂ (fun q w => due w ≤ due q) (slots key p queue) (slots key p waiting)

def Fewer (queue waiting : List α) : Prop :=
  ∀ p, (slots key p queue).length ≤ (slots key p waiting).length

variable {key due} {p : κ} {queue waiting before after : List α} {a w : α}

theorem slots_append (l l' : List α) : slots key p (l ++ l') = slots key p l ++ slots key p l' :=
  List.filter_append ..

theorem slots_cons_self (a : α) (l : List α) : slots key (key a) (a :: l) = a :: slots key (key a) l :=
  List.filter_cons_of_pos (by simp)

theorem slots_cons_ne (h : key a ≠ p) (l : List α) : slots key p (a :: l) = slots key p l :=
  List.filter_cons_of_neg (by simpa using h)

theorem slots_erase_find [DecidableEq α] {l : List α} (h : (l.find? fun a => key a = p) = some a) :
    slots key p l = a :: slots key p (l.erase a) :=
  filter_erase_find h

theorem slots_erase_ne [DecidableEq α] (h : key a ≠ p) (l : List α) : slots key p (l.erase a) = slots key p l :=
  filter_erase_of_neg (by simpa using h)

theorem slots_eq_nil {l : List α} : slots key p l = [] ↔ ∀ a ∈ l, key a ≠ p := by
  simp [slots, List.filter_eq_nil_iff]

theorem slots_of_find_none {l : List α} (h : (l.find? fun a => key a = p) = none) : slots key p l = [] := by
  rw [slots_eq_nil]
  intro a ha
  simpa using List.find?_eq_none.1 h a ha

namespace Fewer

theorem push (h : Fewer key queue waiting) (a : α) : Fewer key (queue ++ [a]) (waiting ++ [a]) := by
  intro p
  have := h p
  simp only [slots_append, List.length_append]
  omega

/-- Entries may disappear. -/
theorem sublist {queue' : List α} (h : Fewer key queue waiting) (hsub : List.Sublist queue' queue) :
    Fewer key queue' waiting := by
  intro p
  exact Nat.le_trans (hsub.filter _).length_le (h p)

/-- An echo takes the first entry of its key. -/
theorem take [DecidableEq α] (h : Fewer key queue (before ++ w :: after))
    (hfind : (queue.find? fun a => key a = key w) = some a) : Fewer key (queue.erase a) (before ++ after) := by
  intro p
  have hp := h p
  have hkey : key a = key w := by simpa using List.find?_some hfind
  by_cases hw : key w = p
  · subst hw
    rw [slots_erase_find hfind] at hp
    simp only [slots_append, slots_cons_self, List.length_append, List.length_cons] at hp ⊢
    omega
  · rw [slots_erase_ne (hkey ▸ hw)]
    simpa [slots_append, slots_cons_ne hw] using hp

/-- An echo that finds no entry. -/
theorem miss (h : Fewer key queue (before ++ w :: after)) (hfind : (queue.find? fun a => key a = key w) = none) :
    Fewer key queue (before ++ after) := by
  intro p
  have hp := h p
  by_cases hw : key w = p
  · subst hw
    rw [slots_of_find_none hfind]
    exact Nat.zero_le _
  · simpa [slots_append, slots_cons_ne hw] using hp

theorem slots_nil (h : Fewer key queue waiting) (hidle : ∀ w ∈ waiting, key w ≠ p) : slots key p queue = [] := by
  have hp := h p
  rw [slots_eq_nil.2 hidle] at hp
  exact List.eq_nil_of_length_eq_zero (Nat.le_zero.1 hp)

end Fewer

namespace Covers
variable [LinearOrder τ]

theorem of_idle (h : Fewer key queue waiting) (hidle : ∀ w ∈ waiting, key w ≠ p) :
    Covers key due p queue waiting := by
  unfold Covers
  rw [h.slots_nil hidle, slots_eq_nil.2 hidle]
  exact List.Forall₂.nil

theorem push (h : Covers key due p queue waiting) (a : α) : Covers key due p (queue ++ [a]) (waiting ++ [a]) := by
  unfold Covers
  rw [slots_append, slots_append]
  exact List.rel_append h (List.forall₂_same.2 fun _ _ => le_rfl)

/-- While none of the sends is overdue, no entry of the key expires. -/
theorem expire (h : Covers key due p queue waiting) {t : τ} (hin : ∀ w ∈ waiting, t ≤ due w) :
    Covers key due p (queue.dropWhile fun a => due a < t) waiting := by
  have hlive : ∀ a ∈ slots key p queue, t ≤ due a := by
    intro a ha
    obtain ⟨w, hw, hle⟩ := exists_of_forall₂ h ha
    exact (hin w (List.mem_of_mem_filter hw)).trans hle
  unfold Covers slots
  rw [filter_dropWhile]
  · exact h
  · intro a ha hkey
    simpa using hlive a (List.mem_filter.2 ⟨ha, hkey⟩)

theorem found (h : Covers key due (key w) queue waiting) (hw : w ∈ waiting) :
    (queue.find? fun a => key a = key w) ≠ none := by
  intro hnone
  have hlen := h.length_eq
  rw [slots_of_find_none hnone] at hlen
  have hmem : w ∈ slots key (key w) waiting := List.mem_filter.2 ⟨hw, by simp⟩
  rw [List.eq_nil_of_length_eq_zero hlen.symm] at hmem
  cases hmem

/-- The exchange: an echo takes the first entry of its key, whichever send it is the echo of. -/
theorem take [DecidableEq α] (h : Covers key due p queue (before ++ w :: after))
    (hfind : (queue.find? fun a => key a = key w) = some a)
    (hsorted : (before ++ w :: after).Pairwise fun a b => due a ≤ due b) :
    Covers key due p (queue.erase a) (before ++ after) := by
  have hkey : key a = key w := by simpa using List.find?_some hfind
  unfold Covers at *
  by_cases hw : key w = p
  · subst hw
    have hfiltered : (slots key (key w) (before ++ w :: after)).Pairwise fun a b => due a ≤ due b := hsorted.filter _
    rw [slots_append, slots_cons_self] at h hfiltered
    rw [slots_erase_find hfind] at h
    rw [slots_append]
    exact forall₂_exchange (fun _ _ _ hle hqw => hle.trans hqw) h hfiltered
  · rw [slots_erase_ne (hkey ▸ hw)]
    simpa [slots_append, slots_cons_ne hw] using h

/-- An echo of another key that finds no entry. -/
theorem miss (h : Covers key due p queue (before ++ w :: after)) (hw : key w ≠ p) :
    Covers key due p queue (before ++ after) := by
  unfold Covers at *
  simpa [slots_append, slots_cons_ne hw] using h

/-- An entry of a covered key has a send that waits. -/
theorem waits (h : Covers key due p queue waiting) (ha : a ∈ queue) (hkey : key a = p) :
    ∃ w ∈ waiting, key w = p := by
  obtain ⟨w, hw, -⟩ := exists_of_forall₂ h (List.mem_filter.2 ⟨ha, by simpa using hkey⟩)
  exact ⟨w, List.mem_of_mem_filter hw, by simpa using List.of_mem_filter hw⟩

/-- Whoever takes an entry of another key leaves these alone. -/
theorem other [DecidableEq α] (h : Covers key due p queue waiting) (hkey : key a ≠ p) :
    Covers key due p (queue.erase a) waiting := by
  unfold Covers at *
  rwa [slots_erase_ne hkey]

end Covers

end Covers

end Echo
