import MowgliMavros.GnssAdapter

/-!
# What `take_fixes` delivers

One lemma each for the loop's body and for the loop: what it leaves alone (`takeDue_frame`), what a delivery
is made from (`takeDue_made`), the altitudes that it finds (`takeDue_found`), the order of the delivered stamps
(`takeDue_stamps`) and the heights that are used up (`takeDue_supplies`).
-/

namespace MowgliMavros

/-- The delivered stamp. -/
def Delivery.stamp (d : Delivery) : Int := stampNs d.output.stamp

/-- The height of the delivery is this sample's. -/
def Delivery.suppliedBy (d : Delivery) (sample : AltitudeSample) : Bool := d.pending.fix.matched d.queue = some sample

/-- What the delivery leaves of the altitudes it found: the sample that it took its height from is gone. -/
def Delivery.left (d : Delivery) : List AltitudeSample :=
  if (d.pending.fix.matched d.queue).isSome then d.queue.eraseP d.pending.fix.pairs else d.queue

theorem NavSatFix.matched_iff {fix : NavSatFix} {queue : List AltitudeSample} {sample : AltitudeSample} :
    fix.matched queue = some sample ↔ queue.filter fix.pairs = [sample] := by
  unfold matched
  split
  · rename_i only honly
    simp [honly]
  · rename_i hmany
    simp only [reduceCtorEq, false_iff]
    exact hmany sample

/-- The only sample that pairs is used up. -/
theorem NavSatFix.count_matched {fix : NavSatFix} {queue : List AltitudeSample} {only : AltitudeSample}
    (h : fix.matched queue = some only) (sample : AltitudeSample) :
    (queue.eraseP fix.pairs).count sample + (if only = sample then 1 else 0) = queue.count sample := by
  have honly := matched_iff.1 h
  have hmem : only ∈ queue.filter fix.pairs := by simp [honly]
  obtain ⟨hqueue, hpairs⟩ := List.mem_filter.1 hmem
  obtain ⟨a, before, after, -, ha, rfl, herase⟩ := List.exists_of_eraseP hqueue hpairs
  obtain rfl : a = only := by
    have hmem : a ∈ (before ++ a :: after).filter fix.pairs := List.mem_filter.2 ⟨by simp, ha⟩
    rw [honly] at hmem
    exact List.mem_singleton.1 hmem
  rw [herase, List.count_append, List.count_append, List.count_cons]
  simp only [beq_iff_eq]
  omega

namespace AdapterState
variable {s : AdapterState} {now : Int} {fix : PendingFix} {pending : List PendingFix} {d : Delivery}

/-- What a delivery is made from. -/
structure Made (s : AdapterState) (pending : List PendingFix) (now : Int) (d : Delivery) : Prop where
  pending : d.pending ∈ pending
  waited : now - d.pending.receiptNs ≥ 100000000
  fresh : s.fresh now = true
  valid : s.status.fixValid = true
  accepted : d.stamp ∈ s.acceptedStamps
  usable : d.pending.fix.status ≠ -1
  queue : d.queue.Sublist s.altitudes
  output : d.output = { d.pending.fix with
    altitude := (d.pending.fix.matched d.queue).bind (·.ellipsoidM), frameId := "gps_link" }

/-- The altitude queue and the last stamp after a fix has been delivered. -/
def delivered (s : AdapterState) (fix : PendingFix) : AdapterState :=
  { s with
    altitudes := if (fix.fix.matched s.altitudes).isSome then s.altitudes.eraseP fix.fix.pairs else s.altitudes
    lastFixStamp := stampNs fix.fix.stamp }

theorem takeFix_cases (s : AdapterState) (fix : PendingFix) (now : Int) :
    s.takeFix fix now = (s, none) ∨ ∃ d, s.takeFix fix now = (s.delivered fix, some d) ∧ d.pending = fix ∧
      d.queue = s.altitudes ∧ s.lastFixStamp < d.stamp ∧ d.stamp = stampNs fix.fix.stamp ∧
      (now - fix.receiptNs ≥ 100000000 → s.Made [fix] now d) := by
  unfold takeFix
  dsimp only
  split
  · exact .inl rfl
  · rename_i hguard
    simp only [not_or, not_not, not_le] at hguard
    obtain ⟨hfresh, hvalid, haccepted, hnewer, husable⟩ := hguard
    exact .inr ⟨_, rfl, rfl, rfl, hnewer, rfl, fun hwaited =>
      ⟨by simp, hwaited, hfresh, hvalid, haccepted, husable, List.Sublist.refl _, rfl⟩⟩

theorem delivered_sublist : (s.delivered fix).altitudes.Sublist s.altitudes := by
  unfold delivered
  dsimp only
  split
  · exact List.eraseP_sublist
  · exact List.Sublist.refl _

theorem takeFix_frame (s : AdapterState) (fix : PendingFix) (now : Int) : ∃ altitudes lastFixStamp,
    (s.takeFix fix now).1 = { s with altitudes := altitudes, lastFixStamp := lastFixStamp } ∧
      altitudes.Sublist s.altitudes ∧ s.lastFixStamp ≤ lastFixStamp := by
  rcases takeFix_cases s fix now with h | ⟨d, h, -, -, hnewer, hstamp, -⟩
  · exact ⟨s.altitudes, s.lastFixStamp, by rw [h], List.Sublist.refl _, le_rfl⟩
  · exact ⟨_, _, by rw [h]; rfl, delivered_sublist, hstamp ▸ hnewer.le⟩

theorem takeDue_cons (s : AdapterState) (fix : PendingFix) (pending : List PendingFix) (now : Int) :
    (takeDue now (fix :: pending) s = ({ s with pending := fix :: pending }, [])) ∨
      (now - fix.receiptNs ≥ 100000000 ∧ takeDue now (fix :: pending) s =
        ((takeDue now pending (s.takeFix fix now).1).1,
          (s.takeFix fix now).2.toList ++ (takeDue now pending (s.takeFix fix now).1).2)) := by
  by_cases hdue : now - fix.receiptNs ≥ 100000000
  · exact .inr ⟨hdue, if_pos hdue⟩
  · exact .inl (if_neg hdue)

/-- A take only writes the queues it takes from and the last stamp. -/
theorem takeDue_frame (now : Int) (pending : List PendingFix) (s : AdapterState) : ∃ pending' altitudes lastFixStamp,
    (takeDue now pending s).1 = { s with pending := pending', altitudes := altitudes, lastFixStamp := lastFixStamp } ∧
      pending' ⊆ pending ∧ altitudes.Sublist s.altitudes ∧ s.lastFixStamp ≤ lastFixStamp := by
  induction pending generalizing s with
  | nil => exact ⟨[], s.altitudes, s.lastFixStamp, rfl, List.Subset.refl _, List.Sublist.refl _, le_rfl⟩
  | cons fix pending ih =>
    rcases takeDue_cons s fix pending now with h | ⟨-, h⟩
    · exact ⟨fix :: pending, s.altitudes, s.lastFixStamp, by rw [h], List.Subset.refl _, List.Sublist.refl _, le_rfl⟩
    · obtain ⟨altitudes, lastFixStamp, htaken, hsub, hle⟩ := takeFix_frame s fix now
      obtain ⟨pending', altitudes', lastFixStamp', hrest, hpending, hsub', hle'⟩ := ih (s.takeFix fix now).1
      rw [h]
      dsimp only
      rw [hrest]
      rw [htaken] at hsub' hle' ⊢
      exact ⟨pending', altitudes', lastFixStamp', rfl, List.subset_cons_of_subset _ hpending, hsub'.trans hsub,
        hle.trans hle'⟩

theorem Made.stamp_eq (h : s.Made pending now d) : d.stamp = stampNs d.pending.fix.stamp := by
  rw [Delivery.stamp, h.output]

theorem Made.of_taken (h : (s.takeFix fix now).1.Made pending now d) : s.Made (fix :: pending) now d := by
  obtain ⟨altitudes, lastFixStamp, htaken, hsub, -⟩ := takeFix_frame s fix now
  rw [htaken] at h
  exact ⟨List.mem_cons_of_mem _ h.pending, h.waited, h.fresh, h.valid, h.accepted, h.usable, h.queue.trans hsub,
    h.output⟩

theorem takeDue_made (s : AdapterState) (pending : List PendingFix) (now : Int) :
    ∀ d ∈ (takeDue now pending s).2, s.Made pending now d := by
  induction pending generalizing s with
  | nil => exact fun d hd => by cases hd
  | cons fix pending ih =>
    intro d hd
    rcases takeDue_cons s fix pending now with h | ⟨hdue, h⟩
    · rw [h] at hd
      cases hd
    · rw [h] at hd
      rcases List.mem_append.1 hd with hd | hd
      · rcases takeFix_cases s fix now with hnone | ⟨d', hsome, -, -, -, -, hmade⟩
        · rw [hnone] at hd
          cases hd
        · rw [hsome] at hd
          obtain rfl : d = d' := by simpa using hd
          have hmade := hmade hdue
          exact ⟨List.mem_cons.2 (.inl (List.mem_singleton.1 hmade.pending)), hmade.waited, hmade.fresh, hmade.valid,
            hmade.accepted, hmade.usable, hmade.queue, hmade.output⟩
      · exact (ih _ d hd).of_taken

/-- The delivered stamps increase, from the last one on. -/
theorem takeDue_stamps (s : AdapterState) (pending : List PendingFix) (now : Int) :
    ((takeDue now pending s).2.map (·.stamp)).Pairwise (· < ·) ∧ ∀ d ∈ (takeDue now pending s).2,
      s.lastFixStamp < d.stamp ∧ d.stamp ≤ (takeDue now pending s).1.lastFixStamp := by
  induction pending generalizing s with
  | nil => exact ⟨List.Pairwise.nil, fun d hd => by cases hd⟩
  | cons fix pending ih =>
    rcases takeDue_cons s fix pending now with h | ⟨-, h⟩
    · rw [h]
      exact ⟨List.Pairwise.nil, fun d hd => by cases hd⟩
    · rw [h]
      obtain ⟨hpairwise, hbounds⟩ := ih (s.takeFix fix now).1
      rcases takeFix_cases s fix now with hnone | ⟨d', hsome, -, -, hnewer, hstamp, -⟩
      · rw [hnone] at hpairwise hbounds ⊢
        exact ⟨hpairwise, hbounds⟩
      · obtain ⟨_, _, lastFixStamp, hrest, -, -, hle⟩ := takeDue_frame now pending (s.delivered fix)
        rw [hsome] at hpairwise hbounds ⊢
        have hlast : (s.delivered fix).lastFixStamp = d'.stamp := hstamp.symm
        refine ⟨List.pairwise_cons.2 ⟨fun stamp hmem => ?_, hpairwise⟩, fun d hd => ?_⟩
        · obtain ⟨d, hd, rfl⟩ := List.mem_map.1 hmem
          exact hstamp.trans_lt (hbounds d hd).1
        · rcases List.mem_cons.1 hd with rfl | hd
          · refine ⟨hnewer, ?_⟩
            dsimp only
            rw [hrest, ← hlast]
            exact hle
          · obtain ⟨hgt, hle⟩ := hbounds d hd
            rw [hlast] at hgt
            exact ⟨hnewer.trans hgt, hle⟩

/-- A delivery finds the altitudes that the one before it left. -/
theorem takeDue_found (s : AdapterState) (pending : List PendingFix) (now : Int) {before after : List Delivery}
    (h : (takeDue now pending s).2 = before ++ d :: after) :
    d.queue = before.getLast?.elim s.altitudes Delivery.left := by
  induction pending generalizing s before with
  | nil => simp [takeDue] at h
  | cons fix pending ih =>
    rcases takeDue_cons s fix pending now with hwaits | ⟨-, hdue⟩
    · rw [hwaits] at h
      simp at h
    · rw [hdue] at h
      rcases takeFix_cases s fix now with hnone | ⟨first, hsome, hpending, hqueue, -⟩
      · rw [hnone] at h
        exact ih s h
      · rw [hsome] at h
        have hleft : (s.delivered fix).altitudes = first.left := by
          unfold delivered Delivery.left
          rw [hpending, hqueue]
        cases before with
        | nil =>
          obtain ⟨rfl, -⟩ := List.cons.inj h
          exact hqueue
        | cons first' before =>
          obtain ⟨rfl, hrest⟩ := List.cons.inj h
          rw [ih (s.delivered fix) hrest, hleft, List.getLast?_cons]
          cases before.getLast? <;> rfl

/-- Every height delivered is used up. -/
theorem takeDue_supplies (sample : AltitudeSample) (s : AdapterState) (pending : List PendingFix) (now : Int) :
    (takeDue now pending s).2.countP (·.suppliedBy sample) + (takeDue now pending s).1.altitudes.count sample ≤
      s.altitudes.count sample := by
  induction pending generalizing s with
  | nil => simp [takeDue]
  | cons fix pending ih =>
    rcases takeDue_cons s fix pending now with h | ⟨-, h⟩
    · rw [h]
      simp
    · rw [h]
      have hrest := ih (s.takeFix fix now).1
      rcases takeFix_cases s fix now with hnone | ⟨d, hsome, hpending, hqueue, -⟩
      · rw [hnone] at hrest ⊢
        exact hrest
      · rw [hsome] at hrest ⊢
        have hused : (if d.suppliedBy sample then 1 else 0) + (s.delivered fix).altitudes.count sample ≤
            s.altitudes.count sample := by
          unfold Delivery.suppliedBy delivered
          rw [hpending, hqueue]
          cases hmatched : fix.fix.matched s.altitudes with
          | none => simp
          | some only =>
            have hcount := NavSatFix.count_matched hmatched sample
            simp only [Option.some.injEq, decide_eq_true_eq, Option.isSome_some, if_true]
            rw [add_comm]
            exact hcount.le
        simp only [Option.toList_some, List.singleton_append, List.countP_cons] at hrest ⊢
        omega

end AdapterState
end MowgliMavros
