import MowgliMavros.Lib.Past
import MowgliMavros.TickTravel

/-!
# The error of the projected counts

The projector rounds the counts of every step down and carries the rest over, except at a reversal, which
drops it. `Counted` relates a wheel to the steps since some start: what was lost so far is the difference
between the counts that the revolutions are worth and the counts that were published, and it grows by less
than one count at each reversal (`projected_counts`).
-/

namespace MowgliMavros
namespace Odometry
open Past

/-- A call that advances the sample time of a wheel: the revolutions since the reference, and the difference
of the counts as `uint32` has it. -/
structure CountStep where
  delta : Rat
  increase : Nat

namespace CountStep
variable {steps : List CountStep} {s : CountStep}

/-- The counts that the revolutions are worth. -/
def worth (steps : List CountStep) : Rat :=
  WheelTickProjection.countsPerMotorRevolution * (steps.map fun s => |s.delta|).sum

/-- The unwrapped count. -/
def counts (steps : List CountStep) : Nat := (steps.map increase).sum

/-- The steps in which the motor moved. -/
def moves (steps : List CountStep) : List Rat := (steps.map delta).filter (· ≠ 0)

/-- How often the motor turned back. -/
def reversals (steps : List CountStep) : Nat :=
  (successive (moves steps)).countP fun p => ¬ (0 < p.1 ↔ 0 < p.2)

theorem worth_concat :
    worth (steps ++ [s]) = worth steps + |s.delta| * WheelTickProjection.countsPerMotorRevolution := by
  simp [worth, mul_add, mul_comm]

theorem counts_concat : counts (steps ++ [s]) = counts steps + s.increase := by
  simp [counts]

theorem moves_rest (h : s.delta = 0) : moves (steps ++ [s]) = moves steps := by
  simp [moves, h]

theorem moves_move (h : s.delta ≠ 0) : moves (steps ++ [s]) = moves steps ++ [s.delta] := by
  simp [moves, h]

theorem reversals_rest (h : s.delta = 0) : reversals (steps ++ [s]) = reversals steps := by
  unfold reversals
  rw [moves_rest h]

theorem reversals_first (h : s.delta ≠ 0) (hnil : moves steps = []) : reversals (steps ++ [s]) = 0 := by
  unfold reversals
  rw [moves_move h, hnil]
  rfl

theorem reversals_move (h : s.delta ≠ 0) {d : Rat} (hlast : (moves steps).getLast? = some d) :
    reversals (steps ++ [s]) = reversals steps + if 0 < d ↔ 0 < s.delta then 0 else 1 := by
  obtain ⟨ds, hds⟩ := List.getLast?_eq_some_iff.1 hlast
  unfold reversals
  rw [moves_move h, hds, successive_concat, List.countP_append]
  by_cases hsame : 0 < d ↔ 0 < s.delta
  · simp [hsame]
  · simp [hsame]

end CountStep

namespace ProjectedWheel
variable {w : ProjectedWheel} {delta : Rat}

theorem total_nonneg (w : ProjectedWheel) (delta : Rat) : 0 ≤ w.total delta := by
  have hf := w.fractionalCount.2.1
  have hd : 0 ≤ |delta| * WheelTickProjection.countsPerMotorRevolution :=
    mul_nonneg (abs_nonneg delta) (by decide)
  unfold total
  split <;> linarith

/-- The conversion of the whole counts to `uint32` is in its range. -/
theorem floor_total_lt (h : |delta| * WheelTickProjection.countsPerMotorRevolution ≤ 2 ^ 31 - 1) :
    ⌊w.total delta⌋₊ < 2 ^ 32 := by
  have hf := w.fractionalCount.2.2
  rw [Nat.floor_lt (w.total_nonneg delta)]
  unfold total
  push_cast
  split <;> linarith

/-- The whole counts and the rest make up the total. -/
theorem total_eq (w : ProjectedWheel) (delta : Rat) :
    w.total delta = ⌊w.total delta⌋₊ + (w.advance delta).fractionalCount.1 := by
  have hfloor := natCast_floor_eq_intCast_floor (w.total_nonneg delta)
  rw [hfloor]
  exact (Int.floor_add_fract (w.total delta)).symm

theorem advance_increase (h : |delta| * WheelTickProjection.countsPerMotorRevolution ≤ 2 ^ 31 - 1) :
    ((w.advance delta).count - w.count).toNat = ⌊w.total delta⌋₊ := by
  have hcount : (w.advance delta).count - w.count = UInt32.ofNat ⌊w.total delta⌋₊ := by
    simp only [advance]
    rw [UInt32.add_comm, UInt32.add_sub_cancel]
  rw [hcount]
  exact UInt32.toNat_ofNat_of_lt' (floor_total_lt h)

end ProjectedWheel

/-! ### What the steps did to a wheel -/

section Counted
open CountStep

/-- The counts that were lost by reversals between two states of a wheel. -/
def lost (start : ProjectedWheel) (steps : List CountStep) (w : ProjectedWheel) : Rat :=
  start.fractionalCount.1 + worth steps - counts steps - w.fractionalCount.1

/-- The direction after the steps. -/
def directionOf (start : ProjectedWheel) (steps : List CountStep) : UInt8 :=
  match (moves steps).getLast? with
  | none => start.direction
  | some d => if 0 < d then 1 else 0

structure Counted (start : ProjectedWheel) (steps : List CountStep) (w : ProjectedWheel) : Prop where
  nonneg : 0 ≤ lost start steps w
  le : lost start steps w ≤ start.fractionalCount.1 + reversals steps
  /-- Before the first move nothing was lost. -/
  resting : moves steps = [] → lost start steps w = 0 ∧ w.fractionalCount.1 = start.fractionalCount.1
  direction : w.direction = directionOf start steps
  count : w.count = start.count + UInt32.ofNat (counts steps)

namespace Counted
variable {start w : ProjectedWheel} {steps : List CountStep} {delta : Rat}

theorem refl (w : ProjectedWheel) : Counted w [] w where
  nonneg := by simp [lost, worth, counts]
  le := by simpa [lost, worth, counts, reversals, moves] using w.fractionalCount.2.1
  resting := by simp [lost, worth, counts]
  direction := rfl
  count := by simp [counts]

/-- The step of a wheel that advances by `delta`. -/
def stepOf (w : ProjectedWheel) (delta : Rat) : CountStep := ⟨delta, ((w.advance delta).count - w.count).toNat⟩

/-- A step loses the fraction that a reversal drops, and nothing else. -/
theorem lost_step (h : |delta| * WheelTickProjection.countsPerMotorRevolution ≤ 2 ^ 31 - 1) :
    lost start (steps ++ [stepOf w delta]) (w.advance delta) = lost start steps w +
      if 0 < delta ∧ w.direction = 0 ∨ delta < 0 ∧ w.direction = 1 then w.fractionalCount.1 else 0 := by
  have htotal := w.total_eq delta
  have hincrease : (stepOf w delta).increase = ⌊w.total delta⌋₊ := w.advance_increase h
  unfold lost
  rw [worth_concat, counts_concat, hincrease]
  unfold ProjectedWheel.total at htotal ⊢
  push_cast
  split_ifs at htotal ⊢ with hreversal
  · simp only [stepOf]
    linarith
  · simp only [stepOf]
    linarith

theorem count_step (h : Counted start steps w)
    (hdelta : |delta| * WheelTickProjection.countsPerMotorRevolution ≤ 2 ^ 31 - 1) :
    (w.advance delta).count = start.count + UInt32.ofNat (counts (steps ++ [stepOf w delta])) := by
  have hincrease : (stepOf w delta).increase = ⌊w.total delta⌋₊ := w.advance_increase hdelta
  rw [counts_concat, hincrease, UInt32.ofNat_add, ← UInt32.add_assoc, ← h.count]
  rfl

/-- A call in which the motor rests. -/
theorem rest_step (h : Counted start steps w) : Counted start (steps ++ [stepOf w 0]) (w.advance 0) := by
  have hzero : |(0 : Rat)| * WheelTickProjection.countsPerMotorRevolution ≤ 2 ^ 31 - 1 := by norm_num
  have hlost : lost start (steps ++ [stepOf w 0]) (w.advance 0) = lost start steps w := by
    have hstep : lost start (steps ++ [stepOf w 0]) (w.advance 0) = lost start steps w + _ := lost_step hzero
    simpa using hstep
  have hmoves : moves (steps ++ [stepOf w 0]) = moves steps := moves_rest rfl
  have hfraction : (w.advance 0).fractionalCount.1 = w.fractionalCount.1 := by
    simpa [ProjectedWheel.advance, ProjectedWheel.total, Fraction.rest] using
      Int.fract_eq_self.2 ⟨w.fractionalCount.2.1, w.fractionalCount.2.2⟩
  constructor
  · rw [hlost]
    exact h.nonneg
  · rw [hlost, reversals_rest rfl]
    exact h.le
  · rw [hmoves, hlost, hfraction]
    exact h.resting
  · simpa [directionOf, hmoves, ProjectedWheel.advance] using h.direction
  · exact h.count_step hzero

/-- A call in which the motor moved. -/
theorem move_step (h : Counted start steps w) (hmove : delta ≠ 0)
    (hdelta : |delta| * WheelTickProjection.countsPerMotorRevolution ≤ 2 ^ 31 - 1) :
    Counted start (steps ++ [stepOf w delta]) (w.advance delta) := by
  have hf := w.fractionalCount.2
  have hmoves : moves (steps ++ [stepOf w delta]) = moves steps ++ [delta] := moves_move hmove
  have hsign : delta < 0 ↔ ¬ 0 < delta := by
    rw [not_lt]
    exact ⟨le_of_lt, fun hle => lt_of_le_of_ne hle hmove⟩
  constructor
  · have := h.nonneg
    rw [lost_step hdelta]
    split_ifs
    · linarith [hf.1]
    · linarith
  · rw [lost_step hdelta]
    cases hlast : (moves steps).getLast? with
    | none =>
      have hnil : moves steps = [] := List.getLast?_eq_none_iff.1 hlast
      obtain ⟨hlost, hfraction⟩ := h.resting hnil
      rw [reversals_first hmove hnil, hlost, ← hfraction]
      split_ifs
      · simp
      · simpa using hf.1
    | some d =>
      have hle := h.le
      have hdirection := h.direction
      rw [directionOf, hlast] at hdirection
      rw [reversals_move hmove hlast, hdirection]
      -- the step turns back exactly when it has another sign than the last move
      by_cases hd : 0 < d
      · by_cases hpos : 0 < delta
        · simp [stepOf, hd, hpos, hsign, hle]
        · simp only [stepOf, hd, hpos, hsign]
          push_cast
          norm_num
          linarith [hf.2]
      · by_cases hpos : 0 < delta
        · simp only [stepOf, hd, hpos, hsign]
          push_cast
          norm_num
          linarith [hf.2]
        · simp [stepOf, hd, hpos, hsign, hle]
  · simp [hmoves]
  · rw [directionOf, hmoves, List.getLast?_concat]
    by_cases hpos : 0 < delta
    · simp [ProjectedWheel.advance, hpos]
    · simp [ProjectedWheel.advance, hpos, hsign]
  · exact h.count_step hdelta

theorem step (h : Counted start steps w)
    (hdelta : |delta| * WheelTickProjection.countsPerMotorRevolution ≤ 2 ^ 31 - 1) :
    Counted start (steps ++ [stepOf w delta]) (w.advance delta) := by
  by_cases hmove : delta = 0
  · subst hmove
    exact h.rest_step
  · exact h.move_step hmove hdelta

end Counted
end Counted

/-! ### Runs of the projector -/

namespace WheelTickProjector
open CountStep Counted
variable {p : WheelTickProjector} {side : Side}

/-- The calls of `project`; a call that advances the sample time of the wheel is a step. -/
def counting (side : Side) : Machine WheelTickProjector (WheelSource × MotorTickState) CountStep where
  step p c :=
    let p' := (p.project c.1 c.2).1
    (p', if (p.wheels side).sampleNs < (c.2.wheels side).sampleNs then
      [⟨(c.2.wheels side).ticks - (p.wheels side).ticks,
        ((p'.wheels side).count - (p.wheels side).count).toNat⟩] else [])

/-- The wheel stays valid under its source, epoch and segment, and does not jump. -/
def Steady (side : Side) (p : WheelTickProjector) (c : WheelSource × MotorTickState) : Prop :=
  p.Recognizes c.1 c.2 side ∧ ((p.wheels side).sampleNs < (c.2.wheels side).sampleNs →
    |(c.2.wheels side).ticks - (p.wheels side).ticks| * WheelTickProjection.countsPerMotorRevolution ≤ 2 ^ 31 - 1)

instance (c : WheelSource × MotorTickState) : Decidable (Steady side p c) := inferInstanceAs (Decidable (_ ∧ _))

theorem step_still {c : WheelSource × MotorTickState} (h : Steady side p c)
    (hold : (c.2.wheels side).sampleNs ≤ (p.wheels side).sampleNs) :
    ((counting side).step p c).1.wheels side = p.wheels side ∧ ((counting side).step p c).2 = [] := by
  constructor
  · exact (project_recognized h.1).trans (if_pos hold)
  · exact if_neg (not_lt.2 hold)

theorem step_advances {c : WheelSource × MotorTickState} (h : Steady side p c)
    (hnew : (p.wheels side).sampleNs < (c.2.wheels side).sampleNs) :
    let delta := (c.2.wheels side).ticks - (p.wheels side).ticks
    let w := (p.wheels side).refer (c.2.wheels side)
    ((counting side).step p c).1.wheels side = w.advance delta ∧
      ((counting side).step p c).2 = [stepOf w delta] := by
  have hwheel : ((p.project c.1 c.2).1).wheels side = ((p.wheels side).refer (c.2.wheels side)).advance
      ((c.2.wheels side).ticks - (p.wheels side).ticks) := by
    rw [project_recognized h.1, if_neg (not_le.2 hnew)]
    exact if_neg (not_lt.2 (h.2 hnew))
  constructor
  · exact hwheel
  · unfold counting
    dsimp only
    rw [if_pos hnew, hwheel]
    rfl

/-- A reference keeps the count of the wheel. -/
theorem Counted.refer {start w : ProjectedWheel} {steps : List CountStep} (h : Counted start steps w)
    (t : WheelTicks) :
    Counted start steps (w.refer t) :=
  ⟨h.nonneg, h.le, h.resting, h.direction, h.count⟩

theorem step_counted {start : ProjectedWheel} {steps : List CountStep} {c : WheelSource × MotorTickState}
    (h : Counted start steps (p.wheels side)) (hsteady : Steady side p c) :
    Counted start (steps ++ ((counting side).step p c).2) (((counting side).step p c).1.wheels side) := by
  by_cases hold : (c.2.wheels side).sampleNs ≤ (p.wheels side).sampleNs
  · obtain ⟨hwheel, hsteps⟩ := step_still hsteady hold
    rw [hwheel, hsteps, List.append_nil]
    exact h
  · obtain ⟨hwheel, hsteps⟩ := step_advances hsteady (not_le.1 hold)
    rw [hwheel, hsteps]
    exact (Counted.refer h _).step (hsteady.2 (not_le.1 hold))

/-- The counts of a wheel over a run, from any state of the projector. -/
structure CountLaw (side : Side) (p : WheelTickProjector) (calls : List (WheelSource × MotorTickState)) : Prop where
  /-- No count is published before its revolutions, save for the fraction that the run began with. -/
  nonneg : 0 ≤ (p.wheels side).fractionalCount.1 + worth ((counting side).log p calls) -
    counts ((counting side).log p calls)
  /-- From the call that takes the reference on, there is no such fraction. -/
  referred : ∀ (before : WheelTickProjector) source ticks, p = (before.project source ticks).1 →
    ¬ before.Recognizes source ticks side →
    (p.wheels side).valid = true → 0 ≤ worth ((counting side).log p calls) - counts ((counting side).log p calls)
  /-- Each reversal loses less than one count. -/
  lt : worth ((counting side).log p calls) - counts ((counting side).log p calls) <
    1 + reversals ((counting side).log p calls)
  count : (((counting side).final p calls).wheels side).count =
    (p.wheels side).count + UInt32.ofNat (counts ((counting side).log p calls))
  direction : (((counting side).final p calls).wheels side).direction =
    match (moves ((counting side).log p calls)).getLast? with
    | none => (p.wheels side).direction
    | some d => if 0 < d then 1 else 0
  /-- What a call publishes is what the wheel holds after it. -/
  published : ∀ pre c post out, calls = pre ++ c :: post →
    (((counting side).final p pre).project c.1 c.2).2 = some out →
      out.count side = (((counting side).final p (pre ++ [c])).wheels side).count ∧
        out.direction side = (((counting side).final p (pre ++ [c])).wheels side).direction
  /-- A call that does not advance the sample time changes nothing of the wheel. -/
  still : ∀ pre c post, calls = pre ++ c :: post →
    (c.2.wheels side).sampleNs ≤ (((counting side).final p pre).wheels side).sampleNs →
      ((counting side).final p (pre ++ [c])).wheels side = ((counting side).final p pre).wheels side
  /-- No step's whole counts leave the range of `uint32`. -/
  whole : ∀ pre c post, calls = pre ++ c :: post →
    (((counting side).final p pre).wheels side).sampleNs < (c.2.wheels side).sampleNs →
      ⌊(((counting side).final p pre).wheels side).total
        ((c.2.wheels side).ticks - (((counting side).final p pre).wheels side).ticks)⌋₊ < 2 ^ 32

theorem project_published {source : WheelSource} {ticks : MotorTickState} {out : WheelTickProjection}
    (h : (p.project source ticks).2 = some out) :
    out.count side = ((p.project source ticks).1.wheels side).count ∧
      out.direction side = ((p.project source ticks).1.wheels side).direction := by
  unfold project at h ⊢
  split at h
  · cases h
  · rename_i hidle
    rw [if_neg hidle]
    dsimp only at h ⊢
    split at h
    · cases h
    · obtain rfl := Option.some.inj h
      exact ⟨rfl, rfl⟩

/-- A wheel that takes a reference drops its fraction. -/
theorem project_refers {source : WheelSource} {ticks : MotorTickState} (h : ¬ p.Recognizes source ticks side)
    (hvalid : ((p.project source ticks).1.wheels side).valid = true) :
    ((p.project source ticks).1.wheels side).fractionalCount = .zero := by
  unfold project at hvalid ⊢
  split at hvalid
  · cases hvalid
  · rename_i hidle
    rw [if_neg hidle]
    dsimp only at hvalid ⊢
    unfold ProjectedWheel.project at hvalid ⊢
    split at hvalid
    · cases hvalid
    · rename_i hticks
      rw [if_neg hticks, if_pos (turn_unknown hidle (by simpa using hticks) h)]

/-- The published counts follow the revolutions to less than one count and one more for each reversal. -/
theorem projected_counts {calls : List (WheelSource × MotorTickState)}
    (h : (counting side).Along (Steady side) p calls) : CountLaw side p calls := by
  have hcounted : Counted (p.wheels side) ((counting side).log p calls)
      (((counting side).final p calls).wheels side) := by
    have := Machine.history (m := counting side) (A := Steady side) (l := [])
      (H := fun steps q => Counted (p.wheels side) steps (q.wheels side))
      (fun steps q c hq hc => step_counted hq hc) (Counted.refl (p.wheels side)) h
    simpa using this
  have hfraction := (((counting side).final p calls).wheels side).fractionalCount.2
  have hnonneg := hcounted.nonneg
  have hle := hcounted.le
  unfold lost at hnonneg hle
  constructor
  · linarith [hfraction.1]
  · rintro before source ticks rfl hunknown hvalid
    have hzero : ((before.project source ticks).1.wheels side).fractionalCount.1 = 0 :=
      congrArg Subtype.val (project_refers hunknown hvalid)
    linarith [hfraction.1]
  · linarith [hfraction.2]
  · exact hcounted.count
  · exact hcounted.direction
  · rintro pre c post out - hout
    rw [Machine.final_append]
    exact project_published hout
  · rintro pre c post hcalls hold
    rw [Machine.final_append]
    exact (step_still (Machine.along_iff.1 h pre c post hcalls) hold).1
  · rintro pre c post hcalls hnew
    exact ProjectedWheel.floor_total_lt ((Machine.along_iff.1 h pre c post hcalls).2 hnew)

/-- The left motor turned by `q`. -/
def turned (q : Rat) (sampleNs : Int) : WheelSource × MotorTickState :=
  (.escStatus, { wheels := fun _ => ⟨q, sampleNs, sampleNs, true, 1⟩ })

/-- A reference and then six tenths of a count. -/
def carrying : WheelTickProjector := (counting .left).final {} [turned 0 1, turned (3 / 5000) 2]

theorem projected_counts_forward :
    CountLaw .left carrying [turned (6 / 5000) 3, turned (6 / 5000) 3, turned (1 / 5000) 4] :=
  projected_counts (by decide +kernel)

/-- A run that begins with a carried fraction publishes a count for less than a count of revolutions. -/
theorem carried_fraction_counts :
    (counting .left).Along (Steady .left) carrying [turned (6 / 5000) 3] ∧
      worth ((counting .left).log carrying [turned (6 / 5000) 3]) -
        counts ((counting .left).log carrying [turned (6 / 5000) 3]) < 0 := by
  constructor
  · decide +kernel
  · decide +kernel

end WheelTickProjector
end Odometry
end MowgliMavros
