import MowgliMavros.FixDelivery
import MowgliMavros.Lib.Behind

/-!
# No fix is lost

A pending fix and an accepted stamp stay in their queues for 31 more entries each. `Calm` is what keeps the
rest of the adapter out of the way: it is read along a state and the calls still to come, so a step only
takes something off it (`calm_step`). At the first take that finds the fix due, the fixes before it are due
too and have smaller stamps, so the loop comes to it and delivers it (`takeDue_delivers`, `fixes_kept`).
-/

namespace MowgliMavros
open Queue

/-- The fixes of the calls, each with the time of its arrival. -/
def arrivals (calls : List AdapterCall) : List PendingFix :=
  calls.filterMap fun
    | .fix fix steadyNs => some ⟨fix, steadyNs⟩
    | _ => none

/-- The statuses that are new positions after this sequence. -/
def positions (sequence : UInt64) : List AdapterCall → List UniversalStatus
  | [] => []
  | .status input _ :: calls =>
    if input.positionObservationSequence ≠ sequence then input :: positions input.positionObservationSequence calls
    else positions sequence calls
  | _ :: calls => positions sequence calls

/-- The sequence after these calls. -/
def sequenceAfter (sequence : UInt64) (calls : List AdapterCall) : UInt64 :=
  ((statuses calls).getLast?.map (·.positionObservationSequence)).getD sequence

/-- The second position is later than the first. -/
def UniversalStatus.Before (i j : UniversalStatus) : Prop :=
  i.positionObservationSequence < j.positionObservationSequence ∧ stampNs i.stamp < stampNs j.stamp

/-- The second fix is of a later position; it comes no earlier, since the clock is steady. -/
def PendingFix.Before (p q : PendingFix) : Prop :=
  p.receiptNs ≤ q.receiptNs ∧ stampNs p.fix.stamp < stampNs q.fix.stamp

namespace AdapterState

/-- The position, where there is one, is fresh when the call looks at it. -/
def LooksFresh (s : AdapterState) : AdapterCall → Prop
  | .status input t => ((s.ofIdentity input.identity).advance input t).fresh t = true
  | .expire t | .take t => s.sequence ≠ 0 → s.fresh t = true
  | .altitude _ | .fix _ _ => True

/-- The runs of one source whose positions are valid, come in order and do not get stale, with the fixes in
the order of their positions. -/
structure InOrder (s : AdapterState) (run : List AdapterCall) : Prop where
  source : ∀ i ∈ statuses run, ∀ j ∈ statuses run, i.identity = j.identity
  valid : ∀ input ∈ statuses run, (mapStatus input s.source).fixValid = true
  ordered : (positions 0 run).Pairwise UniversalStatus.Before
  positive : ∀ input ∈ positions 0 run, 0 < stampNs input.stamp
  fresh : machine.Along LooksFresh s run
  arriving : (arrivals run).Pairwise PendingFix.Before
  usable : ∀ p ∈ arrivals run, p.fix.status ≠ -1

/-- After the calls `before`, the window holds the arrival of the fix and the acceptance of its position, with
at most 31 other fixes and 31 other positions, and no take finds the fix due. -/
structure Window (p : PendingFix) (before window : List AdapterCall) : Prop where
  arrives : ∃ pre post, window = pre ++ .fix p.fix p.receiptNs :: post ∧
    ∀ now, .take now ∈ post → now - p.receiptNs < 100000000
  accepted : ∃ input ∈ positions (sequenceAfter 0 before) window, stampNs input.stamp = stampNs p.fix.stamp
  fewPositions : (positions (sequenceAfter 0 before) window).length ≤ 32
  fewFixes : (arrivals window).length ≤ 32

/-! ### Calls -/

section Calls
variable {sequence : UInt64} {calls as bs : List AdapterCall}

theorem arrivals_append (as bs : List AdapterCall) : arrivals (as ++ bs) = arrivals as ++ arrivals bs :=
  List.filterMap_append

@[simp] theorem arrivals_fix (fix : NavSatFix) (t : Int) (calls : List AdapterCall) :
    arrivals (.fix fix t :: calls) = ⟨fix, t⟩ :: arrivals calls := rfl

theorem sequenceAfter_status (input : UniversalStatus) (t : Int) (calls : List AdapterCall) :
    sequenceAfter sequence (.status input t :: calls) = sequenceAfter input.positionObservationSequence calls := by
  unfold sequenceAfter
  rw [statuses_status, List.getLast?_cons]
  cases (statuses calls).getLast? <;> rfl

theorem positions_append (sequence : UInt64) (as bs : List AdapterCall) :
    positions sequence (as ++ bs) = positions sequence as ++ positions (sequenceAfter sequence as) bs := by
  induction as generalizing sequence with
  | nil => rfl
  | cons call as ih =>
    cases call with
    | status input t =>
      rw [List.cons_append, positions, positions, sequenceAfter_status, ih]
      split
      · rfl
      · rename_i hsame
        rw [not_not.1 hsame, ih]
    | _ => exact ih sequence

theorem sequenceAfter_append (as bs : List AdapterCall) :
    sequenceAfter sequence (as ++ bs) = sequenceAfter (sequenceAfter sequence as) bs := by
  unfold sequenceAfter
  rw [statuses_append, List.getLast?_append]
  cases (statuses bs).getLast? <;> rfl

theorem positions_new (input : UniversalStatus) (t : Int) (hnew : input.positionObservationSequence ≠ sequence) :
    positions sequence (.status input t :: calls) = input :: positions input.positionObservationSequence calls :=
  if_pos hnew

theorem positions_first {input : UniversalStatus} (h : (positions sequence calls).head? = some input) :
    input.positionObservationSequence ≠ sequence := by
  induction calls with
  | nil => cases h
  | cons call calls ih =>
    cases call with
    | status input' t =>
      rw [positions] at h
      split at h
      · rename_i hnew
        obtain rfl : input' = input := by simpa using h
        exact hnew
      · exact ih h
    | _ => exact ih h

/-- In order, the positions come after the sequence 0. -/
theorem positions_pos (h : (positions 0 calls).Pairwise UniversalStatus.Before) :
    ∀ input ∈ positions 0 calls, 0 < input.positionObservationSequence := by
  intro input hinput
  have hfirst (first : UniversalStatus) : (positions 0 calls).head? = some first →
      0 < first.positionObservationSequence := fun h => UInt64.pos_iff_ne_zero.2 (positions_first h)
  cases hpositions : positions 0 calls with
  | nil =>
    rw [hpositions] at hinput
    cases hinput
  | cons first rest =>
    rw [hpositions] at hinput hfirst h
    have hpos := hfirst first rfl
    rcases List.mem_cons.1 hinput with rfl | hrest
    · exact hpos
    · exact UInt64.lt_trans hpos ((List.pairwise_cons.1 h).1 input hrest).1

theorem mem_positions {input : UniversalStatus} (h : input ∈ positions sequence calls) : ∃ pre t post,
    calls = pre ++ .status input t :: post ∧ input.positionObservationSequence ≠ sequenceAfter sequence pre := by
  induction calls generalizing sequence with
  | nil => cases h
  | cons call calls ih =>
    have hlater (sequence' : UInt64) (h : input ∈ positions sequence' calls)
        (hcall : ∀ pre, sequenceAfter sequence (call :: pre) = sequenceAfter sequence' pre) : ∃ pre t post,
        call :: calls = pre ++ .status input t :: post ∧
          input.positionObservationSequence ≠ sequenceAfter sequence pre := by
      obtain ⟨pre, t, post, rfl, hnew⟩ := ih h
      exact ⟨call :: pre, t, post, rfl, by rwa [hcall]⟩
    cases call with
    | status input' t =>
      rw [positions] at h
      split at h
      · rename_i hnew
        rcases List.mem_cons.1 h with rfl | h
        · exact ⟨[], t, calls, rfl, hnew⟩
        · exact hlater _ h (sequenceAfter_status input' t)
      · rename_i hsame
        exact hlater _ h fun pre => by rw [sequenceAfter_status, not_not.1 hsame]
    | _ => exact hlater _ h fun pre => rfl

end Calls

/-! ### Bounded queues -/

section Bounded
variable {α : Type*} {queue : List α} {a : α} {n : Nat}

theorem behind_pushBounded (h : Behind n a queue) (hn : n < 31) (b : α) : Behind (n + 1) a (pushBounded queue b) := by
  have hpush := h.push b
  unfold pushBounded
  split
  · exact hpush.tail (by omega)
  · exact hpush

theorem behind_pushBounded_self (queue : List α) (a : α) : Behind 0 a (pushBounded queue a) := by
  have hlast := Behind.last queue a
  unfold pushBounded
  split
  · exact hlast.tail (by omega)
  · exact hlast

end Bounded

/-! ### Calm runs -/

/-- The statuses still to come are of the source that the adapter has, valid, and in order. -/
structure Calm (s : AdapterState) (calls : List AdapterCall) : Prop where
  source : ∀ i ∈ statuses calls, ∀ j ∈ statuses calls, i.identity = j.identity
  begun : s.sequence = 0 ∧ s.identity = "" ∧ s.status.fixValid = false ∧ s.acceptedStamps = [] ∨
    s.sequence ≠ 0 ∧ s.status.fixValid = true ∧ ∀ i ∈ statuses calls, i.identity = s.identity
  valid : ∀ input ∈ statuses calls, (mapStatus input s.source).fixValid = true
  ordered : (s.sequence :: (positions s.sequence calls).map (·.positionObservationSequence)).Pairwise (· < ·)
  fresh : machine.Along LooksFresh s calls

variable {s : AdapterState} {call : AdapterCall} {calls mid : List AdapterCall} {input : UniversalStatus}
  {p : PendingFix} {t now : Int}

theorem ofIdentity_calm (h : Calm s (.status input t :: calls)) : ∃ stamp receipt last,
    s.ofIdentity input.identity = { s with
      identity := input.identity, positionStamp := stamp, positionReceipt := receipt, lastFixStamp := last } ∧
      (last = 0 ∨ last = s.lastFixStamp) := by
  rcases h.begun with ⟨hsequence, hidentity, -, -⟩ | ⟨-, -, hidentity⟩
  · refine ⟨⟨0, 0⟩, none, 0, ?_, .inl rfl⟩
    unfold ofIdentity
    rw [if_pos (by rw [hidentity]; exact input.identity_ne), if_neg (not_not.2 hidentity), hsequence]
  · have hsame := hidentity input (by simp)
    refine ⟨s.positionStamp, s.positionReceipt, s.lastFixStamp, ?_, .inr rfl⟩
    rw [ofIdentity_same hsame, hsame]

theorem report_calm (hfresh : s.fresh t = true) (hvalid : (mapStatus input s.source).fixValid = true) :
    s.report input t = { s with status := { mapStatus input s.source with stamp := s.positionStamp } } := by
  have hreported (status : GnssStatus) : ({ s with status := status } : AdapterState).fresh t = true := hfresh
  unfold report
  dsimp only
  rw [if_neg (not_not.2 (hreported _)), if_neg (not_not.2 hvalid)]

theorem Calm.sequence_le (h : Calm s (.status input t :: calls)) :
    ¬ input.positionObservationSequence < s.sequence := by
  have hordered := h.ordered
  rw [positions] at hordered
  split at hordered
  · rw [List.map_cons] at hordered
    have hlt := (List.pairwise_cons.1 hordered).1 _ (List.mem_cons_self ..)
    exact UInt64.not_lt.2 (UInt64.le_of_lt hlt)
  · rename_i hsame
    rw [not_not.1 hsame]
    exact UInt64.lt_irrefl _

/-- A status queues its stamp, where its position is new, and clears nothing. -/
theorem observeStatus_calm (h : Calm s (.status input t :: calls)) : ∃ stamp receipt last status,
    s.observeStatus input t = { s with
      identity := input.identity
      sequence := input.positionObservationSequence
      positionStamp := stamp
      positionReceipt := receipt
      lastFixStamp := last
      status := status
      acceptedStamps := if input.positionObservationSequence ≠ s.sequence then
          pushBounded s.acceptedStamps (stampNs input.stamp)
        else s.acceptedStamps } ∧
      input.positionObservationSequence ≠ 0 ∧ status.fixValid = true ∧ (last = 0 ∨ last = s.lastFixStamp) := by
  obtain ⟨stamp, receipt, last, hidentity, hlast⟩ := ofIdentity_calm h
  have hvalid := h.valid input (by simp)
  have hle := h.sequence_le
  have hfresh : ((s.ofIdentity input.identity).advance input t).fresh t = true := h.fresh.1
  unfold observeStatus
  rw [hidentity] at hfresh ⊢
  dsimp only
  rw [if_neg hle]
  unfold advance at hfresh ⊢
  dsimp only at hfresh ⊢
  split at hfresh
  · rename_i hnew
    rw [if_pos hnew, report_calm hfresh hvalid]
    refine ⟨input.stamp, some t, last, { mapStatus input s.source with stamp := input.stamp }, ?_, ?_, hvalid, hlast⟩
    · rw [if_pos hnew]
    · intro hzero
      simp [fresh, hzero] at hfresh
  · rename_i hsame
    rw [if_neg hsame, report_calm hfresh hvalid]
    refine ⟨stamp, receipt, last, { mapStatus input s.source with stamp := stamp }, ?_, ?_, hvalid, hlast⟩
    · rw [if_neg hsame, not_not.1 hsame]
    · intro hzero
      simp [fresh, ← not_not.1 hsame, hzero] at hfresh

theorem expire_calm (h : Calm s (.expire t :: calls)) : s.expire t = s := by
  have hexpires : s.expires t = false := by
    rcases h.begun with ⟨-, -, hinvalid, -⟩ | ⟨hsequence, -, -⟩
    · simp [expires, hinvalid]
    · simp [expires, show s.fresh t = true from h.fresh.1 hsequence]
  unfold expire
  rw [if_neg (by simp [hexpires])]

/-- The other calls only write the queues they work on and the last stamp. -/
theorem step_calm (h : Calm s (call :: calls)) (hcall : call.isStatus = false) : ∃ pending altitudes last,
    (s.step call).1 = { s with pending := pending, altitudes := altitudes, lastFixStamp := last } := by
  cases call with
  | status input t => cases hcall
  | expire t =>
    exact ⟨s.pending, s.altitudes, s.lastFixStamp, expire_calm h⟩
  | altitude sample => exact ⟨_, _, _, rfl⟩
  | fix fix t => exact ⟨_, _, _, rfl⟩
  | take t =>
    obtain ⟨pending, altitudes, last, hframe, -⟩ := takeDue_frame t s.pending s
    exact ⟨pending, altitudes, last, hframe⟩

theorem statuses_aside (hcall : call.isStatus = false) : statuses (call :: calls) = statuses calls := by
  cases call with
  | status input t => cases hcall
  | _ => rfl

theorem positions_aside (hcall : call.isStatus = false) (sequence : UInt64) :
    positions sequence (call :: calls) = positions sequence calls := by
  cases call with
  | status input t => cases hcall
  | _ => rfl

theorem calm_step (h : Calm s (call :: calls)) : Calm (s.step call).1 calls := by
  cases hcall : call.isStatus with
  | false =>
    have hfresh : machine.Along LooksFresh (s.step call).1 calls := h.fresh.2
    obtain ⟨pending, altitudes, last, hframe⟩ := step_calm h hcall
    obtain ⟨hsource, hbegun, hvalid, hordered, -⟩ := h
    rw [statuses_aside hcall] at hsource hbegun hvalid
    rw [positions_aside hcall] at hordered
    rw [hframe] at hfresh ⊢
    exact ⟨hsource, hbegun, hvalid, hordered, hfresh⟩
  | true =>
    cases call with
    | status input t =>
      have hfresh : machine.Along LooksFresh (s.observeStatus input t) calls := h.fresh.2
      obtain ⟨stamp, receipt, last, status, hobserved, hsequence, hvalid, -⟩ := observeStatus_calm h
      change Calm (s.observeStatus input t) calls
      rw [hobserved] at hfresh ⊢
      refine ⟨fun i hi j hj => h.source i (by simp [hi]) j (by simp [hj]), .inr ⟨hsequence, hvalid, ?_⟩,
        fun i hi => h.valid i (by simp [hi]), ?_, hfresh⟩
      · intro i hi
        exact h.source i (by simp [hi]) input (by simp)
      · have hordered := h.ordered
        rw [positions] at hordered
        split at hordered
        · exact (List.pairwise_cons.1 hordered).2
        · rename_i hsame
          rw [← not_not.1 hsame] at hordered
          exact hordered
    | _ => cases hcall

theorem calm_final (h : Calm s (mid ++ calls)) : Calm (machine.final s mid) calls := by
  induction mid generalizing s with
  | nil => exact h
  | cons call mid ih => exact ih (calm_step h)

theorem calm_sequence (h : Calm s (mid ++ calls)) :
    (machine.final s mid).sequence = sequenceAfter s.sequence mid := by
  induction mid generalizing s with
  | nil => rfl
  | cons call mid ih =>
    have hnext := ih (calm_step h)
    rw [Machine.final_cons]
    cases hcall : call.isStatus with
    | false =>
      obtain ⟨pending, altitudes, last, hframe⟩ := step_calm h hcall
      refine hnext.trans ?_
      rw [show (s.step call).1.sequence = s.sequence by rw [hframe], sequenceAfter, sequenceAfter,
        statuses_aside hcall]
    | true =>
      cases call with
      | status input t =>
        obtain ⟨stamp, receipt, last, status, hobserved, -⟩ := observeStatus_calm h
        refine hnext.trans ?_
        rw [sequenceAfter_status, show (s.step (.status input t)).1 = _ from hobserved]
      | _ => cases hcall

section Stamp
variable {stamp : Int} {n : Nat}

theorem accepted_step (h : Calm s (call :: calls)) (hstamp : Behind n stamp s.acceptedStamps)
    (hfew : n + (positions s.sequence (call :: mid)).length ≤ 31) :
    ∃ m, Behind m stamp (machine.step s call).1.acceptedStamps ∧
      m + (positions (machine.step s call).1.sequence mid).length ≤ 31 := by
  cases hcall : call.isStatus with
  | false =>
    obtain ⟨pending, altitudes, last, hframe⟩ := step_calm h hcall
    rw [positions_aside hcall] at hfew
    rw [show (machine.step s call).1 = _ from hframe]
    exact ⟨n, hstamp, hfew⟩
  | true =>
    cases call with
    | status input t =>
      obtain ⟨_, _, _, _, hobserved, -⟩ := observeStatus_calm h
      rw [show (machine.step s (.status input t)).1 = _ from hobserved]
      rw [positions] at hfew
      dsimp only
      split at hfew
      · rename_i hnew
        rw [List.length_cons] at hfew
        rw [if_pos hnew]
        exact ⟨n + 1, behind_pushBounded hstamp (by omega) _, by omega⟩
      · rename_i hsame
        rw [if_neg hsame, not_not.1 hsame]
        exact ⟨n, hstamp, hfew⟩
    | _ => cases hcall

/-- An accepted stamp stays for 31 more positions. -/
theorem accepted_kept (h : Calm s (mid ++ calls)) (hstamp : Behind n stamp s.acceptedStamps)
    (hfew : n + (positions s.sequence mid).length ≤ 31) : stamp ∈ (machine.final s mid).acceptedStamps := by
  induction mid generalizing s n with
  | nil => exact hstamp.mem
  | cons call mid ih =>
    obtain ⟨m, hstamp, hfew⟩ := accepted_step h hstamp hfew
    exact ih (calm_step h) hstamp hfew

end Stamp

/-! ### Pending fixes -/

/-- The fixes of a take that are due. -/
def due (now : Int) (p : PendingFix) : Bool := now - p.receiptNs ≥ 100000000

theorem takeDue_pending (now : Int) (pending : List PendingFix) (s : AdapterState) :
    (takeDue now pending s).1.pending = pending.dropWhile (due now) := by
  induction pending generalizing s with
  | nil => rfl
  | cons p pending ih =>
    unfold takeDue
    split
    · rename_i hdue
      rw [List.dropWhile_cons_of_pos (p := due now) (decide_eq_true hdue)]
      exact ih _
    · rename_i hdue
      rw [List.dropWhile_cons_of_neg (by simp [due, hdue])]

/-- The last stamp is that of a fix that the take has come to. -/
theorem takeDue_last (now : Int) (pending : List PendingFix) (s : AdapterState) :
    (takeDue now pending s).1.lastFixStamp = s.lastFixStamp ∨
      ∃ p ∈ pending.takeWhile (due now), (takeDue now pending s).1.lastFixStamp = stampNs p.fix.stamp := by
  induction pending generalizing s with
  | nil => exact .inl rfl
  | cons p pending ih =>
    unfold takeDue
    split
    · rename_i hdue
      rw [List.takeWhile_cons_of_pos (p := due now) (decide_eq_true hdue)]
      rcases ih (s.takeFix p now).1 with hlast | ⟨q, hq, hlast⟩
      · rcases takeFix_cases s p now with hnone | ⟨d, hsome, -⟩
        · left
          rw [hnone] at hlast ⊢
          exact hlast
        · right
          refine ⟨p, List.mem_cons_self .., ?_⟩
          rw [hsome] at hlast ⊢
          exact hlast
      · exact .inr ⟨q, List.mem_cons_of_mem _ hq, hlast⟩
    · exact .inl rfl

/-- The fixes still to be delivered are in order and newer than the last one. -/
structure Ahead (s : AdapterState) (calls : List AdapterCall) : Prop where
  arriving : (s.pending ++ arrivals calls).Pairwise PendingFix.Before
  newer : ∀ p ∈ s.pending ++ arrivals calls, s.lastFixStamp = 0 ∨ s.lastFixStamp < stampNs p.fix.stamp

theorem Ahead.mono {s' : AdapterState} {calls' : List AdapterCall} (h : Ahead s calls)
    (hsub : (s'.pending ++ arrivals calls').Sublist (s.pending ++ arrivals calls))
    (hlast : s'.lastFixStamp = 0 ∨ s'.lastFixStamp = s.lastFixStamp) : Ahead s' calls' := by
  refine ⟨h.arriving.sublist hsub, fun p hp => ?_⟩
  rcases hlast with hzero | hsame
  · exact .inl hzero
  · rw [hsame]
    exact h.newer p (hsub.subset hp)

theorem ahead_take (h : Ahead s (.take now :: calls)) : Ahead (s.takeFixes now).1 calls := by
  have hpending := takeDue_pending now s.pending s
  obtain ⟨harriving, hnewer⟩ := h
  change (s.pending ++ arrivals calls).Pairwise _ at harriving
  change ∀ p ∈ s.pending ++ arrivals calls, _ at hnewer
  have hsub : ((s.takeFixes now).1.pending ++ arrivals calls).Sublist (s.pending ++ arrivals calls) := by
    rw [takeFixes, hpending]
    exact (List.dropWhile_sublist _).append_right _
  refine ⟨harriving.sublist hsub, fun p hp => ?_⟩
  rcases takeDue_last now s.pending s with hsame | ⟨q, hq, hlast⟩
  · rw [takeFixes, hsame]
    exact hnewer p (hsub.subset hp)
  · right
    rw [takeFixes, hpending] at hp
    rw [takeFixes, hlast]
    rw [← List.takeWhile_append_dropWhile (p := due now) (l := s.pending), List.append_assoc] at harriving
    exact ((List.pairwise_append.1 harriving).2.2 q hq p hp).2

theorem ahead_step (hcalm : Calm s (call :: calls)) (h : Ahead s (call :: calls)) : Ahead (s.step call).1 calls := by
  cases call with
  | status input t =>
    obtain ⟨_, _, _, _, hobserved, -, -, hlast⟩ := observeStatus_calm hcalm
    refine h.mono ?_ ?_ <;> rw [show (s.step (.status input t)).1 = _ from hobserved]
    · exact List.Sublist.refl _
    · exact hlast
  | expire t =>
    rw [show (s.step (.expire t)).1 = s from expire_calm hcalm]
    exact h.mono (List.Sublist.refl _) (.inr rfl)
  | altitude sample => exact h.mono (List.Sublist.refl _) (.inr rfl)
  | fix fix t =>
    refine h.mono ?_ (.inr rfl)
    have hpush := (pushBounded_sublist s.pending ⟨fix, t⟩).append_right (arrivals calls)
    rw [List.append_assoc] at hpush
    exact hpush
  | take t => exact ahead_take h

theorem ahead_final (hcalm : Calm s (mid ++ calls)) (h : Ahead s (mid ++ calls)) :
    Ahead (machine.final s mid) calls := by
  induction mid generalizing s with
  | nil => exact h
  | cons call mid ih => exact ih (calm_step hcalm) (ahead_step hcalm h)

section Pending
variable {n : Nat}

theorem pending_step (h : Calm s (call :: calls)) (hp : Behind n p s.pending)
    (hfew : n + (arrivals (call :: mid)).length ≤ 31)
    (hwait : ∀ now, .take now ∈ call :: mid → now - p.receiptNs < 100000000) :
    ∃ m, Behind m p (machine.step s call).1.pending ∧ m + (arrivals mid).length ≤ 31 := by
  cases call with
  | status input t =>
    obtain ⟨_, _, _, _, hobserved, -⟩ := observeStatus_calm h
    rw [show (machine.step s (.status input t)).1 = _ from hobserved]
    exact ⟨n, hp, hfew⟩
  | expire t =>
    rw [show (machine.step s (.expire t)).1 = s from expire_calm h]
    exact ⟨n, hp, hfew⟩
  | altitude sample => exact ⟨n, hp, hfew⟩
  | fix fix t =>
    rw [arrivals_fix, List.length_cons] at hfew
    exact ⟨n + 1, behind_pushBounded hp (by omega) _, by omega⟩
  | take now =>
    have hnot : due now p = false := by
      have hlt := hwait now (by simp)
      exact decide_eq_false (by omega)
    refine ⟨n, ?_, hfew⟩
    rw [show (machine.step s (.take now)).1.pending = _ from takeDue_pending now s.pending s]
    exact hp.dropWhile hnot

/-- A pending fix stays for 31 more fixes, until a take finds it due. -/
theorem pending_kept (h : Calm s (mid ++ calls)) (hp : Behind n p s.pending)
    (hfew : n + (arrivals mid).length ≤ 31) (hwait : ∀ now, .take now ∈ mid → now - p.receiptNs < 100000000) :
    p ∈ (machine.final s mid).pending := by
  induction mid generalizing s n with
  | nil => exact hp.mem
  | cons call mid ih =>
    obtain ⟨m, hp, hfew⟩ := pending_step h hp hfew hwait
    exact ih (calm_step h) hp hfew fun now hnow => hwait now (by simp [hnow])

end Pending

/-- The loop comes to a pending fix that is due and delivers it. -/
theorem takeDue_delivers {pending : List PendingFix} (hp : p ∈ pending) (horder : pending.Pairwise PendingFix.Before)
    (hdue : now - p.receiptNs ≥ 100000000) (hfresh : s.fresh now = true) (hvalid : s.status.fixValid = true)
    (haccepted : stampNs p.fix.stamp ∈ s.acceptedStamps) (hnewer : s.lastFixStamp < stampNs p.fix.stamp)
    (husable : p.fix.status ≠ -1) : ∃ d ∈ (takeDue now pending s).2, d.pending = p := by
  induction pending generalizing s with
  | nil => cases hp
  | cons q pending ih =>
    obtain ⟨hfirst, horder⟩ := List.pairwise_cons.1 horder
    have hqdue : now - q.receiptNs ≥ 100000000 := by
      rcases List.mem_cons.1 hp with rfl | hp
      · exact hdue
      · have hle := (hfirst p hp).1
        omega
    unfold takeDue
    rw [if_pos hqdue]
    dsimp only
    rcases List.mem_cons.1 hp with rfl | hp
    · rcases takeFix_cases s p now with hnone | ⟨d, hsome, hd, -⟩
      · unfold takeFix at hnone
        dsimp only at hnone
        rw [if_neg (by simp [hfresh, hvalid, haccepted, hnewer, husable])] at hnone
        exact absurd (congrArg Prod.snd hnone) (by simp)
      · rw [hsome]
        exact ⟨d, by simp, hd⟩
    · obtain ⟨altitudes, last, hframe, -⟩ := takeFix_frame s q now
      have hlast : (s.takeFix q now).1.lastFixStamp < stampNs p.fix.stamp := by
        rcases takeFix_cases s q now with hnone | ⟨d, hsome, -⟩
        · rw [hnone]
          exact hnewer
        · rw [hsome]
          exact (hfirst p hp).2
      obtain ⟨d, hd, hpending⟩ := ih (s := (s.takeFix q now).1) hp horder (by rw [hframe]; exact hfresh)
        (by rw [hframe]; exact hvalid) (by rw [hframe]; exact haccepted) hlast
      exact ⟨d, List.mem_append_right _ hd, hpending⟩

/-! ### Runs -/

section Runs
variable {source : String} {timeoutNs : Int} {run before window after : List AdapterCall}

theorem calm_start (h : InOrder { source := source, timeoutNs := timeoutNs } run) :
    Calm { source := source, timeoutNs := timeoutNs } run := by
  refine ⟨h.source, .inl ⟨rfl, rfl, rfl, rfl⟩, h.valid, List.pairwise_cons.2 ⟨?_, ?_⟩, h.fresh⟩
  · intro sequence hsequence
    obtain ⟨input, hinput, rfl⟩ := List.mem_map.1 hsequence
    exact positions_pos h.ordered input hinput
  · exact List.pairwise_map.2 (h.ordered.imp And.left)

theorem window_pending (hcalm : Calm s (before ++ window ++ calls)) (hwindow : Window p before window) :
    p ∈ (machine.final s (before ++ window)).pending := by
  obtain ⟨pre, post, rfl, hwait⟩ := hwindow.arrives
  have hfew := hwindow.fewFixes
  rw [arrivals_append, arrivals_fix, List.length_append, List.length_cons] at hfew
  rw [← List.append_assoc, List.append_assoc _ _ calls, List.cons_append] at hcalm
  rw [← List.append_assoc, Machine.final_append, Machine.final_cons]
  exact pending_kept (n := 0) (calm_step (calm_final hcalm)) (behind_pushBounded_self _ p) (by omega) hwait

theorem window_accepted (hcalm : Calm s (before ++ window ++ calls)) (hsequence : s.sequence = 0)
    (hwindow : Window p before window) :
    stampNs p.fix.stamp ∈ (machine.final s (before ++ window)).acceptedStamps := by
  obtain ⟨input, hinput, hstamp⟩ := hwindow.accepted
  obtain ⟨pre, t, post, rfl, hnew⟩ := mem_positions hinput
  have hfew := hwindow.fewPositions
  rw [positions_append, positions_new input t hnew, List.length_append, List.length_cons] at hfew
  rw [← List.append_assoc, List.append_assoc _ _ calls, List.cons_append] at hcalm
  have hcalm' := calm_final hcalm
  have hstep := calm_step hcalm'
  obtain ⟨_, _, _, _, hobserved, -⟩ := observeStatus_calm hcalm'
  rw [← sequenceAfter_append, ← hsequence, ← calm_sequence hcalm] at hnew
  rw [show (step _ (.status input t)).1 = _ from hobserved] at hstep
  rw [← List.append_assoc, Machine.final_append, Machine.final_cons,
    show (machine.step _ (.status input t)).1 = _ from hobserved, ← hstamp]
  refine accepted_kept (n := 0) hstep ?_ ?_
  · rw [if_pos hnew]
    exact behind_pushBounded_self _ _
  · dsimp only
    omega

/-- The first take that finds the fix due delivers it. -/
theorem window_delivers (h : InOrder { source := source, timeoutNs := timeoutNs } run)
    (hwindow : Window p before window)
    (hrun : run = before ++ window ++ .take now :: after) (hdue : now - p.receiptNs ≥ 100000000) :
    ∃ d ∈ ((machine.final { source := source, timeoutNs := timeoutNs } (before ++ window)).takeFixes now).2,
      d.pending = p := by
  have hcalm := calm_start h
  have hahead : Ahead { source := source, timeoutNs := timeoutNs } run := ⟨h.arriving, fun _ _ => .inl rfl⟩
  rw [hrun] at hcalm hahead
  have hpending := window_pending hcalm hwindow
  have haccepted := window_accepted hcalm rfl hwindow
  have hahead := ahead_final hcalm hahead
  have hcalm := calm_final hcalm
  rcases hcalm.begun with ⟨-, -, -, hnone⟩ | ⟨hsequence, hvalid, -⟩
  · rw [hnone] at haccepted
    cases haccepted
  · refine takeDue_delivers hpending ?_ hdue (hcalm.fresh.1 hsequence) hvalid haccepted ?_ ?_
    · exact hahead.arriving.sublist (List.sublist_append_left _ _)
    · rcases hahead.newer p (List.mem_append_left _ hpending) with hzero | hlt
      · obtain ⟨input, hinput, hstamp⟩ := hwindow.accepted
        rw [hzero, ← hstamp]
        refine h.positive input ?_
        rw [hrun, positions_append, positions_append]
        simp [hinput]
      · exact hlt
    · obtain ⟨pre, post, rfl, -⟩ := hwindow.arrives
      refine h.usable p ?_
      rw [hrun]
      simp [arrivals_append]

/-- The calls of one source replace nothing. -/
theorem unreplaced_of_inOrder (h : InOrder { source := source, timeoutNs := timeoutNs } run)
    (hrun : run = before ++ .take now :: mid ++ after) :
    Unreplaced UniversalStatus.identity ((statuses before).getLast?.toList ++ statuses mid) := by
  refine List.Pairwise.isChain (List.pairwise_of_forall_mem_list ?_)
  have hmem : ∀ i ∈ (statuses before).getLast?.toList ++ statuses mid, i ∈ statuses run := by
    intro i hi
    rw [hrun, statuses_append, statuses_append, show statuses (.take now :: mid) = statuses mid from rfl]
    rcases List.mem_append.1 hi with hi | hi
    · have hlast := List.mem_of_getLast? (Option.mem_toList.1 hi)
      simp [hlast]
    · simp [hi]
  intro i hi j hj
  exact h.source i (hmem i hi) j (hmem j hj)

/-- Deliveries of different takes have different stamps. -/
theorem stamps_differ (h : InOrder { source := source, timeoutNs := timeoutNs } run)
    (hrun : run = before ++ .take now :: mid ++ .take t :: after) {d d' : Delivery} :
    let s : AdapterState := { source := source, timeoutNs := timeoutNs }
    d ∈ ((machine.final s before).takeFixes now).2 →
      d' ∈ ((machine.final s (before ++ .take now :: mid)).takeFixes t).2 → d.stamp < d'.stamp := by
  intro s hd hd'
  exact (law_identity source timeoutNs run).increasing before now mid t after hrun (unreplaced_of_inOrder h hrun)
    d hd d' hd'

end Runs

theorem split_cases {α : Type*} {pre pre' post post' : List α} {a b : α} (h : pre ++ a :: post = pre' ++ b :: post')
    (hne : pre ≠ pre') : (∃ mid, pre' = pre ++ a :: mid) ∨ ∃ mid, pre = pre' ++ b :: mid := by
  rcases List.append_eq_append_iff.1 h with ⟨mid, hpre, hmid⟩ | ⟨mid, hpre, hmid⟩
  · cases mid with
    | nil =>
      rw [List.append_nil] at hpre
      exact absurd hpre.symm hne
    | cons c mid =>
      obtain ⟨rfl, -⟩ := List.cons.inj hmid
      exact .inl ⟨mid, hpre⟩
  · cases mid with
    | nil =>
      rw [List.append_nil] at hpre
      exact absurd hpre hne
    | cons c mid =>
      obtain ⟨rfl, -⟩ := List.cons.inj hmid
      exact .inr ⟨mid, hpre⟩

/-- In a run in order, the first take that finds a fix due delivers it, and no other take does, where no more
than 31 positions and 31 fixes come between. -/
theorem fixes_kept (source : String) (timeoutNs : Int) (run : List AdapterCall)
    (h : InOrder { source := source, timeoutNs := timeoutNs } run)
    (p : PendingFix) (before window after : List AdapterCall) (now : Int)
    (hrun : run = before ++ window ++ .take now :: after)
    (hwindow : Window p before window) (hdue : now - p.receiptNs ≥ 100000000) :
    let s : AdapterState := { source := source, timeoutNs := timeoutNs }
    (∃ d ∈ ((machine.final s (before ++ window)).takeFixes now).2,
      d.output = { p.fix with altitude := d.output.altitude, frameId := "gps_link" }) ∧
      ∀ pre now' post, run = pre ++ .take now' :: post → pre ≠ before ++ window →
        ∀ d ∈ ((machine.final s pre).takeFixes now').2, d.stamp ≠ stampNs p.fix.stamp := by
  intro s
  obtain ⟨d, hd, hpending⟩ := window_delivers h hwindow hrun hdue
  have hmade := takeDue_made _ _ now d hd
  refine ⟨⟨d, hd, ?_⟩, ?_⟩
  · rw [hmade.output, hpending]
  · intro pre now' post hpre hne d' hd'
    rw [← hpending, ← hmade.stamp_eq]
    rcases split_cases (hpre.symm.trans hrun) hne with ⟨mid, hmid⟩ | ⟨mid, rfl⟩
    · rw [hmid] at hd hrun
      exact (stamps_differ h hrun hd' hd).ne
    · rw [List.append_assoc] at hpre
      exact (stamps_differ h (by simpa using hpre) hd hd').ne'

instance : DecidableRel UniversalStatus.Before := fun _ _ => inferInstanceAs (Decidable (_ ∧ _))

instance : DecidableRel PendingFix.Before := fun _ _ => inferInstanceAs (Decidable (_ ∧ _))

instance (s : AdapterState) : ∀ call, Decidable (LooksFresh s call)
  | .status _ _ => inferInstanceAs (Decidable (_ = true))
  | .expire _ | .take _ => inferInstanceAs (Decidable (_ → _))
  | .altitude _ | .fix _ _ => inferInstanceAs (Decidable True)

/-- A fix before the first status, and what comes until it has waited 100 ms. -/
def startup : List AdapterCall :=
  [.fix (fixAt 1) 1000000000, .take 1050000000, .status (position "gps" "session1" 1 1) 1060000000,
    .expire 1070000000, .status (position "gps" "session1" 2 2) 1080000000, .fix (fixAt 2) 1090000000]

theorem fixes_kept_startup :
    (∃ d ∈ ((machine.final { source := "gps1" } startup).takeFixes 1100000000).2,
      d.output = { fixAt 1 with altitude := d.output.altitude, frameId := "gps_link" }) ∧
      ∀ d ∈ ((machine.final { source := "gps1" } (startup ++ [.take 1100000000])).takeFixes 1200000000).2,
        d.stamp ≠ stampNs (fixAt 1).stamp := by
  have hinOrder : InOrder { source := "gps1" } (startup ++ .take 1100000000 :: [.take 1200000000]) :=
    ⟨by decide +kernel, by decide +kernel, by decide +kernel, by decide +kernel, by decide +kernel, by decide +kernel,
      by decide +kernel⟩
  have hwindow : Window ⟨fixAt 1, 1000000000⟩ [] startup := by
    refine ⟨⟨[], startup.tail, rfl, fun now hnow => ?_⟩, ⟨position "gps" "session1" 1 1, ?_, by decide +kernel⟩,
      by decide +kernel, by decide +kernel⟩
    · obtain rfl : now = 1050000000 := by simpa [startup] using hnow
      decide
    · simp [startup, positions, sequenceAfter, statuses, position]
  obtain ⟨hdelivered, hothers⟩ := fixes_kept "gps1" 3000000000 _ hinOrder ⟨fixAt 1, 1000000000⟩ [] startup
    [.take 1200000000] 1100000000 rfl hwindow (by decide)
  have hlater := hothers (startup ++ [.take 1100000000]) 1200000000 [] (by simp) (by simp)
  exact ⟨hdelivered, hlater⟩

end AdapterState
end MowgliMavros
