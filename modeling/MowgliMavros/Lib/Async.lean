import Mathlib.Tactic.Common

/-!
# Outstanding asynchronous operations

The operations that a program has started and whose handlers have not run, in any order. An operation is
under way until it has an outcome; its handler may run from then on. Cancelling gives an outcome to what is
under way and leaves alone what has one already. The lemmas count the operations of a kind, weigh
them, and say which kinds are under way.
-/

namespace Async

/-- An operation of kind `κ`; `outcome` is what its handler will be called with. -/
structure Pending (κ ρ : Type*) where
  operation : κ
  outcome : Option ρ
deriving DecidableEq

variable {κ ρ : Type*}

/-- The operation ends with `r` if it is of a kind in `which` and still under way. -/
def Pending.finish (which : κ → Bool) (r : ρ) (a : Pending κ ρ) : Pending κ ρ :=
  if a.outcome.isNone && which a.operation then { a with outcome := some r } else a

def begin (k : κ) (q : List (Pending κ ρ)) : List (Pending κ ρ) := q ++ [⟨k, none⟩]

/-- An operation that ends as soon as it begins. -/
def beginEnded (k : κ) (r : ρ) (q : List (Pending κ ρ)) : List (Pending κ ρ) := q ++ [⟨k, some r⟩]

def cancel (which : κ → Bool) (r : ρ) (q : List (Pending κ ρ)) : List (Pending κ ρ) := q.map (Pending.finish which r)

def finishAt (which : κ → Bool) (r : ρ) (i : Nat) (q : List (Pending κ ρ)) : List (Pending κ ρ) :=
  q.modify i (Pending.finish which r)

/-- The call of a handler that may run. -/
def ready? (q : List (Pending κ ρ)) (i : Nat) : Option (κ × ρ) := q[i]?.bind fun a => a.outcome.map (a.operation, ·)

@[simp] theorem Pending.finish_operation (which : κ → Bool) (r : ρ) (a : Pending κ ρ) :
    (a.finish which r).operation = a.operation := by
  unfold finish
  split <;> rfl

/-- What is not of the kinds in `which` stays as it is. -/
theorem Pending.finish_other {which : κ → Bool} {a : Pending κ ρ} (h : which a.operation = false) (r : ρ) :
    a.finish which r = a := by
  rw [finish, h, Bool.and_false]
  rfl

section Places
variable {q : List (Pending κ ρ)} {which : κ → Bool} {r : ρ} {k : κ} {i : Nat}

@[simp] theorem getElem?_begin : (begin k q)[q.length]? = some ⟨k, none⟩ := by simp [begin]

@[simp] theorem ready?_beginEnded : ready? (beginEnded k r q) q.length = some (k, r) := by
  simp [ready?, beginEnded]

theorem ready?_of_getElem? (h : q[i]? = some ⟨k, some r⟩) : ready? q i = some (k, r) := by
  rw [ready?, h]
  rfl

theorem ready?_finishAt (h : q[i]? = some ⟨k, none⟩) (hk : which k = true) :
    ready? (finishAt which r i q) i = some (k, r) := by
  refine ready?_of_getElem? ?_
  rw [finishAt, List.getElem?_modify_eq, h]
  simp [Pending.finish, hk]

end Places

/-! ### Counting -/

section Counting
variable {q : List (Pending κ ρ)} {p : Pending κ ρ → Bool} {which : κ → Bool} {r : ρ}

@[simp] theorem countP_begin (k : κ) : (begin k q).countP p = q.countP p + if p ⟨k, none⟩ then 1 else 0 := by
  simp [begin, List.countP_append, List.countP_cons]

@[simp] theorem countP_beginEnded (k : κ) :
    (beginEnded k r q).countP p = q.countP p + if p ⟨k, some r⟩ then 1 else 0 := by
  simp [beginEnded, List.countP_append, List.countP_cons]

theorem countP_cancel (h : ∀ a, p (a.finish which r) = p a) : (cancel which r q).countP p = q.countP p := by
  rw [cancel, List.countP_map]
  exact List.countP_congr fun a _ => by rw [Function.comp_apply, h]

theorem countP_finishAt (h : ∀ a, p (a.finish which r) = p a) (i : Nat) :
    (finishAt which r i q).countP p = q.countP p := by
  unfold finishAt
  induction q generalizing i with
  | nil => simp
  | cons a q ih =>
    cases i with
    | zero => simp [List.countP_cons, h]
    | succ i => simp [List.countP_cons, ih]

/-- The operation whose handler runs is one of those counted. -/
theorem countP_eraseIdx {i : Nat} {k : κ} (h : ready? q i = some (k, r)) :
    q.countP p = (q.eraseIdx i).countP p + if p ⟨k, some r⟩ then 1 else 0 := by
  induction q generalizing i with
  | nil => simp [ready?] at h
  | cons a q ih =>
    cases i with
    | zero =>
      obtain ⟨operation, outcome⟩ := a
      simp only [ready?, List.getElem?_cons_zero, Option.bind_some, Option.map_eq_some_iff, Prod.mk.injEq] at h
      obtain ⟨_, rfl, rfl, rfl⟩ := h
      rw [List.eraseIdx_cons_zero, List.countP_cons]
    | succ i =>
      have hi : ready? q i = some (k, r) := h
      rw [List.eraseIdx_cons_succ, List.countP_cons, List.countP_cons, ih hi]
      omega

end Counting

/-! ### Weighing -/

/-- What the outstanding operations weigh together. -/
def weigh (w : Pending κ ρ → Nat) : List (Pending κ ρ) → Nat
  | [] => 0
  | a :: q => w a + weigh w q

section Weighing
variable {q : List (Pending κ ρ)} {w : Pending κ ρ → Nat} {which : κ → Bool} {r : ρ}

theorem weigh_append (q q' : List (Pending κ ρ)) : weigh w (q ++ q') = weigh w q + weigh w q' := by
  induction q with
  | nil => simp [weigh]
  | cons a q ih => simp [weigh, ih, Nat.add_assoc]

@[simp] theorem weigh_begin (k : κ) : weigh w (begin k q) = weigh w q + w ⟨k, none⟩ := weigh_append q _

@[simp] theorem weigh_beginEnded (k : κ) : weigh w (beginEnded k r q) = weigh w q + w ⟨k, some r⟩ :=
  weigh_append q _

theorem weigh_cancel (h : ∀ a, w (a.finish which r) ≤ w a) : weigh w (cancel which r q) ≤ weigh w q := by
  induction q with
  | nil => exact Nat.le_refl 0
  | cons a q ih => exact Nat.add_le_add (h a) ih

theorem weigh_finishAt (h : ∀ a, w (a.finish which r) ≤ w a) (i : Nat) :
    weigh w (finishAt which r i q) ≤ weigh w q := by
  unfold finishAt
  induction q generalizing i with
  | nil => simp
  | cons a q ih =>
    cases i with
    | zero => exact Nat.add_le_add_right (h a) _
    | succ i => exact Nat.add_le_add_left (ih i) _

/-- The operation whose handler runs no longer weighs. -/
theorem weigh_eraseIdx {i : Nat} {k : κ} (h : ready? q i = some (k, r)) :
    weigh w q = weigh w (q.eraseIdx i) + w ⟨k, some r⟩ := by
  induction q generalizing i with
  | nil => simp [ready?] at h
  | cons a q ih =>
    cases i with
    | zero =>
      obtain ⟨operation, outcome⟩ := a
      simp only [ready?, List.getElem?_cons_zero, Option.bind_some, Option.map_eq_some_iff, Prod.mk.injEq] at h
      obtain ⟨_, rfl, rfl, rfl⟩ := h
      rw [List.eraseIdx_cons_zero, weigh, Nat.add_comm]
    | succ i =>
      have hi : ready? q i = some (k, r) := h
      rw [List.eraseIdx_cons_succ, weigh, weigh, ih hi, Nat.add_assoc]

theorem weigh_le {n : Nat} (h : ∀ a, w a ≤ n) : weigh w q ≤ n * q.length := by
  induction q with
  | nil => exact Nat.zero_le _
  | cons a q ih =>
    have := h a
    rw [weigh, List.length_cons, Nat.mul_add_one]
    omega

end Weighing

/-! ### What is under way -/

section UnderWay
variable {q : List (Pending κ ρ)} {which : κ → Bool} {r : ρ} {p : κ → Prop}

/-- Only operations of the kinds in `p` are under way. -/
def UnderWay (p : κ → Prop) (q : List (Pending κ ρ)) : Prop := ∀ a ∈ q, a.outcome = none → p a.operation

theorem UnderWay.mono {p' : κ → Prop} (h : UnderWay p q) (hp : ∀ k, p k → p' k) : UnderWay p' q :=
  fun a ha hnone => hp _ (h a ha hnone)

theorem UnderWay.begin (h : UnderWay p q) {k : κ} (hk : p k) : UnderWay p (begin k q) := by
  intro a ha hnone
  rcases List.mem_append.1 ha with ha | ha
  · exact h a ha hnone
  · obtain rfl := List.mem_singleton.1 ha
    exact hk

theorem UnderWay.beginEnded (h : UnderWay p q) (k : κ) (r : ρ) : UnderWay p (beginEnded k r q) := by
  intro a ha hnone
  rcases List.mem_append.1 ha with ha | ha
  · exact h a ha hnone
  · obtain rfl := List.mem_singleton.1 ha
    cases hnone

theorem Pending.of_finish_none {a : Pending κ ρ} (h : (a.finish which r).outcome = none) :
    a.outcome = none ∧ which a.operation = false := by
  unfold finish at h
  split at h
  · cases h
  · next hnot => exact ⟨h, by simpa [h] using hnot⟩

/-- A cancelled kind is no longer under way. -/
theorem UnderWay.cancel (h : UnderWay p q) (which : κ → Bool) (r : ρ) :
    UnderWay (fun k => p k ∧ which k = false) (cancel which r q) := by
  intro a ha hnone
  obtain ⟨b, hb, rfl⟩ := List.mem_map.1 ha
  obtain ⟨hbnone, hwhich⟩ := Pending.of_finish_none hnone
  rw [Pending.finish_operation]
  exact ⟨h b hb hbnone, hwhich⟩

theorem UnderWay.finishAt (h : UnderWay p q) (which : κ → Bool) (r : ρ) (i : Nat) :
    UnderWay p (finishAt which r i q) := by
  intro a ha hnone
  obtain ⟨j, hj⟩ := List.mem_iff_getElem?.1 ha
  rw [Async.finishAt, List.getElem?_modify] at hj
  obtain ⟨b, hb, rfl⟩ := Option.map_eq_some_iff.1 hj
  split at hnone
  · rw [if_pos ‹_›, Pending.finish_operation]
    exact h b (List.mem_of_getElem? hb) (Pending.of_finish_none hnone).1
  · rw [if_neg ‹_›]
    exact h b (List.mem_of_getElem? hb) hnone

theorem UnderWay.eraseIdx (h : UnderWay p q) (i : Nat) : UnderWay p (q.eraseIdx i) :=
  fun a ha => h a (List.mem_of_mem_eraseIdx ha)

end UnderWay

end Async
