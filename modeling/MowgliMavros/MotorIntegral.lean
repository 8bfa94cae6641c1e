import MowgliMavros.Lib.Past
import MowgliMavros.WheelMotion

/-!
# The integral of motor ticks

The interface of `motor_tick_integrator.cpp` takes the index of a wheel and any double, also one that is
not finite. The machine `ticker` runs its calls and emits the samples that are accepted, each with the
segment it belongs to; a wheel's ticks, segment and stamps are then functions of the log of a run
(`Tracks`), and what a call refuses depends on the log alone (`motor_tick_integral`).
-/

namespace MowgliMavros
namespace Odometry
open Past

/-- The wheel at an index of the source's array. -/
def wheelAt : Nat → Option Side
  | 0 => some .left
  | 1 => some .right
  | _ => none

inductive TickCall
  | observe (wheel : Nat) (rpm : Option Rat) (sample receipt : Int)
  | invalidate (wheel : Nat)
  | resetReferences

/-- A sample that a wheel accepted, with the segment of the wheel after it. -/
structure TickSample where
  side : Side
  rpm : Rat
  sampleNs : Int
  receiptNs : Int
  segment : Nat

namespace MotorTickIntegrator
variable (m : MotorTickIntegrator)

/-- `observe` as it is called; an `rpm` that is not finite is `none`. -/
def observeWheel (wheel : Nat) (rpm : Option Rat) (sample receipt : Int) : MotorTickIntegrator × Bool :=
  match wheelAt wheel, rpm with
  | some side, some rpm => m.observe side rpm sample receipt
  | _, _ => (m, false)

def invalidateWheel (wheel : Nat) : MotorTickIntegrator :=
  match wheelAt wheel with
  | some side => m.invalidate side
  | none => m

/-- The sample of a call that is accepted. -/
def sampleOf (wheel : Nat) (rpm : Option Rat) (sample receipt : Int) : List TickSample :=
  match wheelAt wheel, rpm with
  | some side, some rpm =>
    let (m', accepted) := m.observe side rpm sample receipt
    if accepted then [⟨side, rpm, sample, receipt, (m'.wheels side).segment⟩] else []
  | _, _ => []

def ticker : Machine MotorTickIntegrator TickCall TickSample where
  step m
    | .observe wheel rpm sample receipt =>
      ((m.observeWheel wheel rpm sample receipt).1, m.sampleOf wheel rpm sample receipt)
    | .invalidate wheel => (m.invalidateWheel wheel, [])
    | .resetReferences => (m.resetReferences, [])

end MotorTickIntegrator

/-! ### What a log says of a wheel -/

namespace TickLog
variable {side : Side} {log : List (TickCall ⊕ TickSample)} {x y : TickSample}

/-- The event is a sample of the wheel. -/
def Takes (side : Side) : TickCall ⊕ TickSample → Prop
  | .inr x => x.side = side
  | .inl _ => False

/-- The call invalidates the wheel's last sample. -/
def Ends (side : Side) : TickCall ⊕ TickSample → Prop
  | .inl (.invalidate wheel) => wheelAt wheel = some side
  | .inl .resetReferences => True
  | _ => False

/-- The accepted samples of the wheel. -/
def samples (side : Side) (log : List (TickCall ⊕ TickSample)) : List TickSample :=
  log.filterMap fun
    | .inr x => if x.side = side then some x else none
    | .inl _ => none

/-- `x` is the last sample of the wheel, and it is still valid. -/
def Standing (side : Side) (log : List (TickCall ⊕ TickSample)) (x : TickSample) : Prop :=
  Since (fun _ => Takes side) (fun _ e => Takes side e ∨ Ends side e) log (.inr x)

/-- The revolutions between two samples at the mean of their speeds. -/
def area (p : TickSample × TickSample) : Rat :=
  (p.1.rpm + p.2.rpm) / 120 * (((p.2.sampleNs - p.1.sampleNs : Int) : Rat) / 10 ^ 9)

def SameSegment (p : TickSample × TickSample) : Prop := p.1.segment = p.2.segment

instance : DecidablePred SameSegment := fun _ => inferInstanceAs (Decidable (_ = _))

/-- The revolutions of all pairs of consecutive samples of one segment. -/
def integral (xs : List TickSample) : Rat := (((successive xs).filter fun p => SameSegment p).map area).sum

/-- How many samples start a segment: the first one, and each one that is in another segment than its
predecessor. -/
def starts (xs : List TickSample) : Nat := (xs.take 1).length + (successive xs).countP fun p => ¬ SameSegment p

theorem samples_append (log log' : List (TickCall ⊕ TickSample)) :
    samples side (log ++ log') = samples side log ++ samples side log' :=
  List.filterMap_append

theorem samples_take (h : x.side = side) : samples side (log ++ [.inr x]) = samples side log ++ [x] := by
  rw [samples_append]
  simp [samples, h]

theorem samples_skip {e : TickCall ⊕ TickSample} (h : ¬ Takes side e) :
    samples side (log ++ [e]) = samples side log := by
  rw [samples_append]
  cases e with
  | inl c => simp [samples]
  | inr x =>
    have hx : x.side ≠ side := h
    simp [samples, hx]

theorem standing_take (h : x.side = side) : Standing side (log ++ [.inr x]) y ↔ y = x := by
  unfold Standing
  rw [since_snoc]
  constructor
  · rintro (⟨hxy, -⟩ | ⟨hno, -⟩)
    · exact (Sum.inr.inj hxy).symm
    · exact absurd (.inl h) hno
  · rintro rfl
    exact .inl ⟨rfl, h⟩

theorem standing_skip {e : TickCall ⊕ TickSample} (htakes : ¬ Takes side e) (hends : ¬ Ends side e) :
    Standing side (log ++ [e]) y ↔ Standing side log y := by
  unfold Standing
  rw [since_snoc]
  constructor
  · rintro (⟨-, h⟩ | ⟨-, h⟩)
    · exact absurd h htakes
    · exact h
  · intro h
    refine .inr ⟨?_, h⟩
    rintro (h | h)
    · exact htakes h
    · exact hends h

theorem not_standing_end {e : TickCall ⊕ TickSample} (h : Ends side e) : ¬ Standing side (log ++ [e]) y := by
  unfold Standing
  rw [since_snoc]
  rintro (⟨rfl, -⟩ | ⟨hno, -⟩)
  · cases h
  · exact hno (.inr h)

theorem starts_concat (xs : List TickSample) :
    starts (xs ++ [x] ++ [y]) = starts (xs ++ [x]) + if x.segment = y.segment then 0 else 1 := by
  have hfirst : ((xs ++ [x] ++ [y]).take 1).length = ((xs ++ [x]).take 1).length := by simp
  unfold starts
  rw [successive_concat, hfirst, List.countP_append]
  by_cases h : x.segment = y.segment
  · simp [SameSegment, h]
  · simp [SameSegment, h]
    omega

theorem integral_concat (xs : List TickSample) :
    integral (xs ++ [x] ++ [y]) = integral (xs ++ [x]) + if x.segment = y.segment then area (x, y) else 0 := by
  unfold integral
  rw [successive_concat, List.filter_append, List.map_append, List.sum_append]
  by_cases h : x.segment = y.segment
  · simp [SameSegment, h]
  · simp [SameSegment, h]

/-- What a wheel holds after a log. -/
structure Tracks (timeoutNs : Int) (side : Side) (log : List (TickCall ⊕ TickSample)) (w : MotorWheel) : Prop where
  ticks : w.ticks = integral (samples side log)
  segment : w.segment = starts (samples side log)
  last : ∀ x, (samples side log).getLast? = some x → w.rpm = x.rpm ∧ w.segment = x.segment
  valid : w.valid = true ↔ ∃ x, Standing side log x
  standing : ∀ x, Standing side log x → (samples side log).getLast? = some x ∧ w.sampleNs = x.sampleNs ∧
    w.receiptNs = x.receiptNs

/-- A sample continues the segment of the wheel's last one if that is still valid and both stamps are within
the timeout of its own. -/
def Joins (timeoutNs : Int) (side : Side) (pre : List (TickCall ⊕ TickSample)) : TickCall ⊕ TickSample → Prop
  | .inr y => y.side = side → ∀ x, (samples side pre).getLast? = some x →
    (x.segment = y.segment ↔ Standing side pre x ∧ y.sampleNs - x.sampleNs ≤ timeoutNs ∧
      y.receiptNs - x.receiptNs ≤ timeoutNs)
  | .inl _ => True

namespace Tracks
variable {timeoutNs : Int} {w : MotorWheel} {e : TickCall ⊕ TickSample}

theorem fresh : Tracks timeoutNs side [] {} where
  ticks := rfl
  segment := rfl
  last := by simp [samples]
  valid := by simp [Standing, not_since_nil]
  standing := fun x hx => absurd hx not_since_nil

theorem skip (h : Tracks timeoutNs side log w) (htakes : ¬ Takes side e) (hends : ¬ Ends side e) :
    Tracks timeoutNs side (log ++ [e]) w := by
  have hsamples : samples side (log ++ [e]) = samples side log := samples_skip htakes
  constructor
  · rw [hsamples]
    exact h.ticks
  · rw [hsamples]
    exact h.segment
  · rw [hsamples]
    exact h.last
  · simp only [standing_skip htakes hends]
    exact h.valid
  · simp only [standing_skip htakes hends, hsamples]
    exact h.standing

/-- A wheel that becomes invalid keeps its count; what it does with its stamps does not matter. -/
theorem ending (h : Tracks timeoutNs side log w) (hends : Ends side e) (sampleNs receiptNs : Int) :
    Tracks timeoutNs side (log ++ [e]) { w with valid := false, sampleNs := sampleNs, receiptNs := receiptNs } := by
  have htakes : ¬ Takes side e := by
    intro htakes
    cases e with
    | inl c => exact htakes
    | inr x => exact hends
  have hsamples : samples side (log ++ [e]) = samples side log := samples_skip htakes
  constructor
  · rw [hsamples]
    exact h.ticks
  · rw [hsamples]
    exact h.segment
  · rw [hsamples]
    exact h.last
  · simp [not_standing_end hends]
  · intro x hx
    exact absurd hx (not_standing_end hends)

/-- The wheel's condition for its next sample, read off the log. -/
theorem contiguous_iff {m : MotorTickIntegrator} (h : Tracks m.timeoutNs side log (m.wheels side))
    (hx : (samples side log).getLast? = some x) (sample receipt : Int) :
    m.Contiguous side sample receipt ↔ Standing side log x ∧ sample - x.sampleNs ≤ m.timeoutNs ∧
      receipt - x.receiptNs ≤ m.timeoutNs := by
  unfold MotorTickIntegrator.Contiguous
  rw [h.valid]
  constructor
  · rintro ⟨⟨z, hz⟩, hgaps⟩
    obtain ⟨hlast, hsample, hreceipt⟩ := h.standing z hz
    obtain rfl : x = z := Option.some.inj (hx.symm.trans hlast)
    rw [hsample, hreceipt] at hgaps
    exact ⟨hz, hgaps⟩
  · rintro ⟨hstanding, hgaps⟩
    obtain ⟨-, hsample, hreceipt⟩ := h.standing x hstanding
    rw [hsample, hreceipt]
    exact ⟨⟨x, hstanding⟩, hgaps⟩

/-- A first sample starts a segment. -/
theorem not_contiguous {m : MotorTickIntegrator} (h : Tracks m.timeoutNs side log (m.wheels side))
    (hnone : samples side log = []) (sample receipt : Int) : ¬ m.Contiguous side sample receipt := by
  rintro ⟨hvalid, -⟩
  obtain ⟨z, hz⟩ := h.valid.1 hvalid
  have := (h.standing z hz).1
  simp [hnone] at this

end Tracks

section Sampled
variable {m : MotorTickIntegrator} (h : Tracks m.timeoutNs side log (m.wheels side)) (rpm : Rat)
  (sample receipt : Int)
include h

/-- An accepted sample is in the segment of the last one if the wheel finds them contiguous. -/
theorem same_segment_iff (hx : (samples side log).getLast? = some x) :
    x.segment = (m.sampled side rpm sample receipt).segment ↔ m.Contiguous side sample receipt := by
  have hsegment := (h.last x hx).2
  unfold MotorTickIntegrator.sampled
  by_cases hcontiguous : m.Contiguous side sample receipt
  · simp [hcontiguous, hsegment]
  · simp [hcontiguous, hsegment]

theorem sampled_tracks :
    Tracks m.timeoutNs side (log ++ [.inr ⟨side, rpm, sample, receipt, (m.sampled side rpm sample receipt).segment⟩])
      (m.sampled side rpm sample receipt) := by
  have hsamples :
      samples side (log ++ [.inr ⟨side, rpm, sample, receipt, (m.sampled side rpm sample receipt).segment⟩]) =
        samples side log ++ [⟨side, rpm, sample, receipt, (m.sampled side rpm sample receipt).segment⟩] :=
    samples_take rfl
  constructor
  · rw [hsamples]
    rcases List.eq_nil_or_concat (samples side log) with hnil | ⟨xs, x, hxs⟩
    · simp [hnil, MotorTickIntegrator.sampled, h.not_contiguous hnil, h.ticks, integral]
    · have hlast : (samples side log).getLast? = some x := by simp [hxs]
      have hjoin := same_segment_iff h rpm sample receipt hlast
      rw [hxs, List.concat_eq_append, integral_concat, if_congr hjoin rfl rfl, ← List.concat_eq_append, ← hxs,
        ← h.ticks]
      by_cases hcontiguous : m.Contiguous side sample receipt
      · obtain ⟨hstanding, -⟩ := (h.contiguous_iff hlast sample receipt).1 hcontiguous
        obtain ⟨-, hsampleNs, -⟩ := h.standing x hstanding
        simp [MotorTickIntegrator.sampled, hcontiguous, area, (h.last x hlast).1, hsampleNs, add_div]
      · simp [MotorTickIntegrator.sampled, hcontiguous]
  · rw [hsamples]
    rcases List.eq_nil_or_concat (samples side log) with hnil | ⟨xs, x, hxs⟩
    · simp [hnil, MotorTickIntegrator.sampled, h.not_contiguous hnil, h.segment, starts]
    · have hlast : (samples side log).getLast? = some x := by simp [hxs]
      have hjoin := same_segment_iff h rpm sample receipt hlast
      rw [hxs, List.concat_eq_append, starts_concat, if_congr hjoin rfl rfl, ← List.concat_eq_append, ← hxs,
        ← h.segment]
      by_cases hcontiguous : m.Contiguous side sample receipt
      · simp [MotorTickIntegrator.sampled, hcontiguous]
      · simp [MotorTickIntegrator.sampled, hcontiguous]
  · rw [hsamples]
    intro x hx
    obtain rfl : _ = x := by simpa using hx
    exact ⟨rfl, rfl⟩
  · constructor
    · intro _
      exact ⟨_, (standing_take rfl).2 rfl⟩
    · intro _
      rfl
  · intro x hx
    obtain rfl := (standing_take rfl).1 hx
    rw [hsamples]
    exact ⟨by simp, rfl, rfl⟩

theorem sampled_joins :
    Joins m.timeoutNs side log
      (.inr ⟨side, rpm, sample, receipt, (m.sampled side rpm sample receipt).segment⟩) := by
  intro _ x hx
  rw [← h.contiguous_iff hx sample receipt]
  exact same_segment_iff h rpm sample receipt hx

end Sampled

/-- The log and the wheel after it. -/
structure Keeps (timeoutNs : Int) (side : Side) (log : List (TickCall ⊕ TickSample)) (w : MotorWheel) : Prop where
  tracks : Tracks timeoutNs side log w
  joins : Machine.Throughout (Joins timeoutNs side) log

namespace Keeps
variable {timeoutNs : Int} {w : MotorWheel} {e : TickCall ⊕ TickSample}

theorem fresh : Keeps timeoutNs side [] {} := ⟨.fresh, Machine.throughout_nil⟩

/-- A call, or a sample of the other wheel, that leaves this wheel alone. -/
theorem skip (h : Keeps timeoutNs side log w) (htakes : ¬ Takes side e) (hends : ¬ Ends side e) :
    Keeps timeoutNs side (log ++ [e]) w := by
  refine ⟨h.tracks.skip htakes hends, Machine.throughout_snoc.2 ⟨h.joins, ?_⟩⟩
  cases e with
  | inl c => trivial
  | inr y => exact fun hy => absurd hy htakes

theorem ending (h : Keeps timeoutNs side log w) {c : TickCall} (hends : Ends side (.inl c))
    (sampleNs receiptNs : Int) :
    Keeps timeoutNs side (log ++ [.inl c]) { w with valid := false, sampleNs := sampleNs, receiptNs := receiptNs } :=
  ⟨h.tracks.ending hends sampleNs receiptNs, Machine.throughout_snoc.2 ⟨h.joins, trivial⟩⟩

end Keeps
end TickLog

namespace MotorTickIntegrator
open TickLog
variable {m : MotorTickIntegrator} {wheel : Nat} {rpm : Option Rat} {sample receipt : Int} {side : Side}

/-- What `observe` can do: nothing, or take the sample of one wheel. -/
theorem observeWheel_cases (m : MotorTickIntegrator) (wheel : Nat) (rpm : Option Rat) (sample receipt : Int) :
    m.observeWheel wheel rpm sample receipt = (m, false) ∧ m.sampleOf wheel rpm sample receipt = [] ∧
        (∀ side, wheelAt wheel = some side → rpm.isSome → ¬ m.Admits side sample receipt) ∨
      ∃ side q, wheelAt wheel = some side ∧ rpm = some q ∧ m.Admits side sample receipt ∧
        m.observeWheel wheel rpm sample receipt =
          ({ m with wheels := Function.update m.wheels side (m.sampled side q sample receipt) }, true) ∧
        m.sampleOf wheel rpm sample receipt =
          [⟨side, q, sample, receipt, (m.sampled side q sample receipt).segment⟩] := by
  unfold observeWheel sampleOf
  cases hside : wheelAt wheel with
  | none => simp
  | some side =>
    cases rpm with
    | none => simp
    | some q =>
      by_cases hadmits : m.Admits side sample receipt
      · exact .inr ⟨side, q, rfl, rfl, hadmits, by simp [observe, hadmits], by simp [observe, hadmits]⟩
      · exact .inl ⟨by simp [observe, hadmits], by simp [observe, hadmits], by
          rintro _ ⟨⟩ _
          exact hadmits⟩

theorem step_timeoutNs (m : MotorTickIntegrator) (c : TickCall) : (ticker.step m c).1.timeoutNs = m.timeoutNs := by
  cases c with
  | observe wheel rpm sample receipt =>
    rcases observeWheel_cases m wheel rpm sample receipt with ⟨h, -, -⟩ | ⟨side, q, -, -, -, h, -⟩
    · simp [ticker, h]
    · simp [ticker, h]
  | invalidate wheel =>
    cases h : wheelAt wheel with
    | none => simp [ticker, invalidateWheel, h]
    | some side => simp [ticker, invalidateWheel, h, invalidate]
  | resetReferences => rfl

theorem step_keeps {log : List (TickCall ⊕ TickSample)} (h : Keeps m.timeoutNs side log (m.wheels side))
    (c : TickCall) :
    Keeps m.timeoutNs side (log ++ (ticker.told.step m c).2) ((ticker.told.step m c).1.wheels side) := by
  cases c with
  | observe wheel rpm sample receipt =>
    have htold : Keeps m.timeoutNs side (log ++ [.inl (.observe wheel rpm sample receipt)]) (m.wheels side) :=
      h.skip not_false not_false
    rcases observeWheel_cases m wheel rpm sample receipt with ⟨hm, hlog, -⟩ | ⟨side', q, -, -, -, hm, hlog⟩
    · simpa [Machine.told, ticker, hm, hlog] using htold
    · have hstep : log ++ (ticker.told.step m (.observe wheel rpm sample receipt)).2 =
          log ++ [.inl (.observe wheel rpm sample receipt)] ++
            [.inr ⟨side', q, sample, receipt, (m.sampled side' q sample receipt).segment⟩] := by
        simp [Machine.told, ticker, hlog]
      have hwheel : (ticker.told.step m (.observe wheel rpm sample receipt)).1.wheels side =
          Function.update m.wheels side' (m.sampled side' q sample receipt) side := by
        simp [Machine.told, ticker, hm]
      rw [hstep, hwheel]
      by_cases hside : side = side'
      · subst hside
        rw [Function.update_self]
        exact ⟨sampled_tracks htold.tracks q sample receipt,
          Machine.throughout_snoc.2 ⟨htold.joins, sampled_joins htold.tracks q sample receipt⟩⟩
      · rw [Function.update_of_ne hside]
        exact htold.skip (Ne.symm hside) not_false
  | invalidate wheel =>
    by_cases hwheel : wheelAt wheel = some side
    · have := h.ending (c := .invalidate wheel) hwheel (m.wheels side).sampleNs (m.wheels side).receiptNs
      simpa [Machine.told, ticker, invalidateWheel, hwheel, invalidate] using this
    · have htold : Keeps m.timeoutNs side (log ++ [.inl (.invalidate wheel)]) (m.wheels side) :=
        h.skip not_false hwheel
      cases hother : wheelAt wheel with
      | none => simpa [Machine.told, ticker, invalidateWheel, hother] using htold
      | some side' =>
        have hside : side ≠ side' := by
          rintro rfl
          exact hwheel hother
        simpa [Machine.told, ticker, invalidateWheel, hother, invalidate, Function.update_of_ne hside] using htold
  | resetReferences =>
    have := h.ending (c := .resetReferences) trivial 0 0
    simpa [Machine.told, ticker, resetReferences] using this

/-- The log of every run tells the wheel. -/
theorem run_keeps (timeoutNs : Int) (calls : List TickCall) (side : Side) :
    Keeps timeoutNs side (ticker.told.log { timeoutNs := timeoutNs } calls)
      ((ticker.final { timeoutNs := timeoutNs } calls).wheels side) := by
  have halong : ticker.told.Along (fun _ _ => True) { timeoutNs := timeoutNs } calls :=
    Machine.along_of_forall fun _ _ => trivial
  have hrun := Machine.history (m := ticker.told) (A := fun _ _ => True)
    (H := fun log m => m.timeoutNs = timeoutNs ∧ Keeps timeoutNs side log (m.wheels side)) ?_
    (s := { timeoutNs := timeoutNs }) (l := []) ⟨rfl, .fresh⟩ halong
  · simpa using hrun.2
  · rintro log m c ⟨rfl, hkeeps⟩ -
    exact ⟨step_timeoutNs m c, step_keeps hkeeps c⟩

/-! ### What is refused -/

/-- The sample is refused: there is no such wheel, its speed is not finite, one of its stamps is not positive,
or the last sample of the wheel is still valid and this one is not measured after it or was received before
it. -/
def Refused (log : List (TickCall ⊕ TickSample)) (wheel : Nat) (rpm : Option Rat) (sample receipt : Int) : Prop :=
  wheelAt wheel = none ∨ rpm = none ∨ sample ≤ 0 ∨ receipt ≤ 0 ∨
    ∃ side x, wheelAt wheel = some side ∧ Standing side log x ∧ (sample ≤ x.sampleNs ∨ receipt < x.receiptNs)

theorem admits_iff {log : List (TickCall ⊕ TickSample)} (h : Tracks m.timeoutNs side log (m.wheels side))
    (htimeout : 0 < m.timeoutNs) (sample receipt : Int) :
    m.Admits side sample receipt ↔ 0 < sample ∧ 0 < receipt ∧
      ¬ ∃ x, Standing side log x ∧ (sample ≤ x.sampleNs ∨ receipt < x.receiptNs) := by
  unfold Admits
  constructor
  · rintro ⟨hsample, hreceipt, -, hfresh⟩
    refine ⟨hsample, hreceipt, ?_⟩
    rintro ⟨x, hx, hold⟩
    obtain ⟨-, hsampleNs, hreceiptNs⟩ := h.standing x hx
    refine hfresh ⟨h.valid.2 ⟨x, hx⟩, ?_⟩
    rwa [hsampleNs, hreceiptNs]
  · rintro ⟨hsample, hreceipt, hfresh⟩
    refine ⟨hsample, hreceipt, htimeout, ?_⟩
    rintro ⟨hvalid, hold⟩
    obtain ⟨x, hx⟩ := h.valid.1 hvalid
    obtain ⟨-, hsampleNs, hreceiptNs⟩ := h.standing x hx
    rw [hsampleNs, hreceiptNs] at hold
    exact hfresh ⟨x, hx, hold⟩

theorem observeWheel_false_iff {log : List (TickCall ⊕ TickSample)}
    (h : ∀ side, Tracks m.timeoutNs side log (m.wheels side)) (htimeout : 0 < m.timeoutNs) :
    (m.observeWheel wheel rpm sample receipt).2 = false ↔ Refused log wheel rpm sample receipt := by
  unfold Refused
  rcases observeWheel_cases m wheel rpm sample receipt with ⟨hm, -, hno⟩ | ⟨side, q, hside, rfl, hadmits, hm, -⟩
  · simp only [hm, true_iff]
    cases hside : wheelAt wheel with
    | none => exact .inl rfl
    | some side =>
      cases hq : rpm with
      | none => exact .inr (.inl rfl)
      | some q =>
        have hrefused := hno side hside (by simp [hq])
        rw [admits_iff (h side) htimeout] at hrefused
        by_contra hall
        simp only [reduceCtorEq, false_or, not_or, not_le] at hall
        obtain ⟨hsample, hreceipt, hfresh⟩ := hall
        refine hrefused ⟨hsample, hreceipt, ?_⟩
        rintro ⟨x, hx, hold⟩
        exact hfresh ⟨side, x, rfl, hx, hold⟩
  · obtain ⟨hsample, hreceipt, hfresh⟩ := (admits_iff (h side) htimeout sample receipt).1 hadmits
    rw [hm]
    constructor
    · intro h
      cases h
    · rintro (hnone | hnone | hold | hold | ⟨side', x, hside', hx, hold⟩)
      · rw [hside] at hnone
        cases hnone
      · cases hnone
      · omega
      · omega
      · obtain rfl : side = side' := Option.some.inj (hside.symm.trans hside')
        exact absurd ⟨x, hx, hold⟩ hfresh

/-! ### One wheel alone -/

/-- The call is about the wheel. -/
def Concerns (side : Side) : TickCall → Prop
  | .observe wheel _ _ _ | .invalidate wheel => wheelAt wheel = some side
  | .resetReferences => True

instance (side : Side) : DecidablePred (Concerns side) := fun c => by
  cases c <;> (unfold Concerns; infer_instance)

/-- A call about the other wheel leaves this one alone. -/
theorem step_other {c : TickCall} (h : ¬ Concerns side c) : (ticker.step m c).1.wheels side = m.wheels side := by
  cases c with
  | observe wheel rpm sample receipt =>
    rcases observeWheel_cases m wheel rpm sample receipt with ⟨hm, -, -⟩ | ⟨side', q, hside', -, -, hm, -⟩
    · simp [ticker, hm]
    · have hne : side ≠ side' := by
        rintro rfl
        exact h hside'
      simp [ticker, hm, Function.update_of_ne hne]
  | invalidate wheel =>
    cases hside' : wheelAt wheel with
    | none => simp [ticker, invalidateWheel, hside']
    | some side' =>
      have hne : side ≠ side' := by
        rintro rfl
        exact h hside'
      simp [ticker, invalidateWheel, hside', invalidate, Function.update_of_ne hne]
  | resetReferences => exact absurd trivial h

/-- What a call does to its wheel depends on that wheel. -/
theorem step_congr {m' : MotorTickIntegrator} {c : TickCall} (hwheel : m.wheels side = m'.wheels side)
    (htimeout : m.timeoutNs = m'.timeoutNs) (h : Concerns side c) :
    (ticker.step m c).1.wheels side = (ticker.step m' c).1.wheels side := by
  cases c with
  | observe wheel rpm sample receipt =>
    have hside : wheelAt wheel = some side := h
    cases rpm with
    | none => simpa [ticker, observeWheel, hside] using hwheel
    | some q =>
      by_cases hadmits : m.Admits side sample receipt
      · have hadmits' : m'.Admits side sample receipt := by
          unfold Admits at hadmits ⊢
          rwa [← hwheel, ← htimeout]
        simp [ticker, observeWheel, hside, observe, hadmits, hadmits', sampled, Contiguous, hwheel, htimeout]
      · have hadmits' : ¬ m'.Admits side sample receipt := by
          unfold Admits at hadmits ⊢
          rwa [← hwheel, ← htimeout]
        simpa [ticker, observeWheel, hside, observe, hadmits, hadmits'] using hwheel
  | invalidate wheel =>
    have hside : wheelAt wheel = some side := h
    simp [ticker, invalidateWheel, hside, invalidate, hwheel]
  | resetReferences => simp [ticker, resetReferences, hwheel]

theorem final_filter {m' : MotorTickIntegrator} (hwheel : m.wheels side = m'.wheels side)
    (htimeout : m.timeoutNs = m'.timeoutNs) (calls : List TickCall) :
    (ticker.final m calls).wheels side = (ticker.final m' (calls.filter (Concerns side))).wheels side := by
  induction calls generalizing m m' with
  | nil => exact hwheel
  | cons c calls ih =>
    by_cases hc : Concerns side c
    · rw [List.filter_cons_of_pos (by simpa using hc), Machine.final_cons, Machine.final_cons]
      exact ih (step_congr hwheel htimeout hc) (by rw [step_timeoutNs, step_timeoutNs, htimeout])
    · rw [List.filter_cons_of_neg (by simpa using hc), Machine.final_cons]
      exact ih ((step_other hc).trans hwheel) ((step_timeoutNs m c).trans htimeout)

/-! ### The law of all runs -/

/-- The integrator after the calls. -/
abbrev afterCalls (timeoutNs : Int) (calls : List TickCall) : MotorTickIntegrator :=
  ticker.final { timeoutNs := timeoutNs } calls

/-- The calls, each followed by the sample that it had accepted. -/
abbrev callLog (timeoutNs : Int) (calls : List TickCall) : List (TickCall ⊕ TickSample) :=
  ticker.told.log { timeoutNs := timeoutNs } calls

structure IntegralLaw (timeoutNs : Int) (calls : List TickCall) : Prop where
  /-- The ticks are the integral over the consecutive samples of one segment. -/
  ticks : ∀ side, ((afterCalls timeoutNs calls).state.wheels side).ticks =
    integral (samples side (callLog timeoutNs calls))
  /-- Consecutive samples are in one segment as long as the earlier one is valid and the gaps are in time. -/
  joined : ∀ side pre y post, callLog timeoutNs calls = pre ++ .inr y :: post → y.side = side →
    ∀ x, (samples side pre).getLast? = some x →
      (x.segment = y.segment ↔ Standing side pre x ∧ y.sampleNs - x.sampleNs ≤ timeoutNs ∧
        y.receiptNs - x.receiptNs ≤ timeoutNs)
  segment : ∀ side, ((afterCalls timeoutNs calls).state.wheels side).segment =
    starts (samples side (callLog timeoutNs calls))
  valid : ∀ side, ((afterCalls timeoutNs calls).state.wheels side).valid = true ↔
    ∃ x, Standing side (callLog timeoutNs calls) x
  /-- What the next call refuses. -/
  refused : ∀ wheel rpm sample receipt,
    ((afterCalls timeoutNs calls).observeWheel wheel rpm sample receipt).2 = false ↔
      Refused (callLog timeoutNs calls) wheel rpm sample receipt
  unchanged : ∀ wheel rpm sample receipt, Refused (callLog timeoutNs calls) wheel rpm sample receipt →
    ((afterCalls timeoutNs calls).observeWheel wheel rpm sample receipt).1 = afterCalls timeoutNs calls
  /-- A wheel does not depend on the calls about the other one. -/
  alone : ∀ side, (afterCalls timeoutNs calls).wheels side =
    (afterCalls timeoutNs (calls.filter (Concerns side))).wheels side

theorem afterCalls_timeoutNs (timeoutNs : Int) (calls : List TickCall) :
    (afterCalls timeoutNs calls).timeoutNs = timeoutNs :=
  Machine.inv_final (A := fun _ _ => True) (I := fun m => m.timeoutNs = timeoutNs)
    (fun m c hm _ => (step_timeoutNs m c).trans hm) rfl (Machine.along_of_forall fun _ _ => trivial)

/-- The ticks of every run are the integral of its accepted samples, and the log of the run says which these
are. -/
theorem motor_tick_integral {timeoutNs : Int} (htimeout : 0 < timeoutNs) (calls : List TickCall) :
    IntegralLaw timeoutNs calls := by
  have hkeeps := run_keeps timeoutNs calls
  have htime := afterCalls_timeoutNs timeoutNs calls
  have htracks : ∀ side, Tracks (afterCalls timeoutNs calls).timeoutNs side (callLog timeoutNs calls)
      ((afterCalls timeoutNs calls).wheels side) := by
    intro side
    rw [htime]
    exact (hkeeps side).tracks
  have hrefused : ∀ wheel rpm sample receipt, _ ↔ Refused (callLog timeoutNs calls) wheel rpm sample receipt :=
    fun wheel rpm sample receipt => observeWheel_false_iff htracks (by rwa [htime])
  constructor
  · exact fun side => (htracks side).ticks
  · rintro side pre y post hlog hy
    exact (hkeeps side).joins pre (.inr y) post hlog hy
  · exact fun side => (htracks side).segment
  · exact fun side => (htracks side).valid
  · exact hrefused
  · intro wheel rpm sample receipt h
    rcases observeWheel_cases (afterCalls timeoutNs calls) wheel rpm sample receipt with
      ⟨hm, -, -⟩ | ⟨side, q, -, -, -, hm, -⟩
    · rw [hm]
    · have := (hrefused wheel rpm sample receipt).2 h
      rw [hm] at this
      cases this
  · exact fun side => final_filter rfl rfl calls

/-- Two samples a second apart at 60 and 120 revolutions a minute, one that repeats a stamp, and one after an
invalidation. -/
theorem motor_tick_integral_holds :
    IntegralLaw 2000000000
      [.observe 0 (some 60) 1000000000 1000000000, .observe 0 (some 120) 2000000000 2000000000,
        .observe 0 (some 90) 2000000000 2000000000, .invalidate 0, .observe 0 (some 30) 1500000000 1500000000] :=
  motor_tick_integral (by decide) _

end MotorTickIntegrator
end Odometry
end MowgliMavros
