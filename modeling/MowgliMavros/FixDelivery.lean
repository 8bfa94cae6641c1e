import Mathlib.Data.List.Chain
import Mathlib.Data.List.Induction
import MowgliMavros.ExpiryLaw

/-!
# Fix delivery along a run

`DeliveryLaw key` says what the adapter delivers when two statuses with the same `key` are of one source.
It holds of every run for the string that the adapter joins, and for the pair of id and incarnation where
no two successive statuses of different pairs join to the same string (`fix_delivery`).
-/

namespace MowgliMavros

def statuses (calls : List AdapterCall) : List UniversalStatus :=
  calls.filterMap fun
    | .status input _ => some input
    | _ => none

def deliveries (log : List AdapterEvent) : List Delivery :=
  log.filterMap fun
    | .fix delivery => some delivery
    | .status _ => none

def AdapterCall.isAltitude (sample : AltitudeSample) : AdapterCall → Bool
  | .altitude sample' => sample' = sample
  | _ => false

section Law
variable {κ : Type*} (key : UniversalStatus → κ)

/-- No source of the list replaces the one before. -/
def Unreplaced (statuses : List UniversalStatus) : Prop := statuses.IsChain fun i j => key i = key j

namespace AdapterState
variable (s : AdapterState)

/-- After this run of `s`, the status advances the position sequence of its source. -/
def AdvancesBy (pre : List AdapterCall) (input : UniversalStatus) : Prop :=
  0 < input.positionObservationSequence ∧ ∀ last ∈ (statuses pre).getLast?, key last = key input →
    (machine.final s pre).sequence < input.positionObservationSequence

/-- The stamp is of a status that advanced the sequence of the source that is still the current one. -/
def Accepted (pre : List AdapterCall) (stamp : Int) : Prop :=
  ∃ before input t after, pre = before ++ .status input t :: after ∧ stampNs input.stamp = stamp ∧
    s.AdvancesBy key before input ∧ Unreplaced key (input :: statuses after)

/-- What is right about a fix that is delivered at `now` after this run. -/
structure Delivered (pre : List AdapterCall) (now : Int) (d : Delivery) : Prop where
  observed : .fix d.pending.fix d.pending.receiptNs ∈ pre
  waited : now - d.pending.receiptNs ≥ 100000000
  output : d.output = { d.pending.fix with altitude := d.output.altitude, frameId := "gps_link" }
  accepted : s.Accepted key pre d.stamp
  valid : (machine.final s pre).status.fixValid = true
  fresh : (machine.final s pre).fresh now = true
  altitude : d.output.altitude = none ∨
    ∃ sample, d.queue.filter d.pending.fix.pairs = [sample] ∧ d.output.altitude = sample.ellipsoidM
  queued : ∀ sample ∈ d.queue, .altitude sample ∈ pre

structure DeliveryLaw (run : List AdapterCall) : Prop where
  delivered : ∀ pre now post, run = pre ++ .take now :: post →
    ∀ d ∈ ((machine.final s pre).takeFixes now).2, s.Delivered key pre now d
  /-- The deliveries of a take find the altitudes of the adapter, each what the one before left of them. -/
  found : ∀ pre now post, run = pre ++ .take now :: post → ∀ before d after,
    ((machine.final s pre).takeFixes now).2 = before ++ d :: after →
      d.queue = before.getLast?.elim (machine.final s pre).altitudes Delivery.left
  ordered : ∀ pre now post, run = pre ++ .take now :: post →
    (((machine.final s pre).takeFixes now).2.map (·.stamp)).Pairwise (· < ·)
  /-- Between two replacements the stamps increase from take to take. -/
  increasing : ∀ pre now mid now' post, run = pre ++ .take now :: mid ++ .take now' :: post →
    Unreplaced key ((statuses pre).getLast?.toList ++ statuses mid) →
    ∀ d ∈ ((machine.final s pre).takeFixes now).2,
      ∀ d' ∈ ((machine.final s (pre ++ .take now :: mid)).takeFixes now').2, d.stamp < d'.stamp
  /-- A sample supplies no more deliveries than it was observed. -/
  supplied : ∀ sample, (deliveries (machine.log s run)).countP (·.suppliedBy sample) ≤
    run.countP (·.isAltitude sample)

end AdapterState
end Law

/-- Successive statuses of different sources join to different strings. -/
def ToldApart (run : List AdapterCall) : Prop :=
  (statuses run).IsChain fun i j => i.identity = j.identity → i.pair = j.pair

/-! ### Statuses of a run -/

section Statuses
variable {κ : Type*} {key : UniversalStatus → κ} {i j : UniversalStatus} {l : List UniversalStatus}
  {calls : List AdapterCall} {call : AdapterCall}

theorem statuses_append (as bs : List AdapterCall) : statuses (as ++ bs) = statuses as ++ statuses bs :=
  List.filterMap_append

theorem statuses_snoc (h : call.isStatus = false) : statuses (calls ++ [call]) = statuses calls := by
  rw [statuses_append]
  cases call with
  | status input t => cases h
  | _ => exact List.append_nil _

@[simp] theorem statuses_status (input : UniversalStatus) (t : Int) (calls : List AdapterCall) :
    statuses (.status input t :: calls) = input :: statuses calls := rfl

theorem isChain_mp {α : Type*} {R S : α → α → Prop} {l : List α} (h : l.IsChain fun a b => R a b → S a b)
    (hR : l.IsChain R) : l.IsChain S := by
  induction l with
  | nil => exact List.isChain_nil
  | cons a l ih =>
    obtain ⟨hhead, hl⟩ := List.isChain_cons.1 h
    obtain ⟨hheadR, hlR⟩ := List.isChain_cons.1 hR
    exact List.isChain_cons.2 ⟨fun b hb => hhead b hb (hheadR b hb), ih hl hlR⟩

theorem unreplaced_of_pair (h : Unreplaced UniversalStatus.pair l) : Unreplaced UniversalStatus.identity l :=
  List.IsChain.imp (fun _ _ => UniversalStatus.identity_of_pair) h

theorem unreplaced_cons (h : Unreplaced key (i :: l)) : ∀ j ∈ l, key i = key j := by
  induction l generalizing i with
  | nil => exact fun j hj => by cases hj
  | cons k l ih =>
    obtain ⟨hk, hl⟩ := List.isChain_cons_cons.1 h
    intro j hj
    rcases List.mem_cons.1 hj with rfl | hj
    exacts [hk, hk.trans (ih hl j hj)]

/-- One more status of the same source. -/
theorem unreplaced_snoc (h : Unreplaced key l) (hlast : ∀ last ∈ l.getLast?, key last = key j) :
    Unreplaced key (l ++ [j]) :=
  List.isChain_append.2 ⟨h, List.isChain_singleton j, fun last hl next hnext => by
    rw [← Option.some.inj hnext]
    exact hlast last hl⟩

end Statuses

namespace AdapterState
variable {s s₀ : AdapterState} {key : UniversalStatus → String} {pre mid run calls : List AdapterCall}
  {call : AdapterCall}
  {input : UniversalStatus} {now stamp t : Int} {d : Delivery} {sample : AltitudeSample}

/-! ### What a run has queued -/

theorem Accepted.snoc (h : s₀.Accepted key pre stamp) (hcall : call.isStatus = false) :
    s₀.Accepted key (pre ++ [call]) stamp := by
  obtain ⟨before, input, t, after, rfl, hstamp, hadvances, hsame⟩ := h
  refine ⟨before, input, t, after ++ [call], by simp, hstamp, hadvances, ?_⟩
  rwa [statuses_snoc hcall]

/-- Where the queues of a run come from. -/
structure Queued (s₀ : AdapterState) (pre : List AdapterCall) (s : AdapterState) : Prop where
  identity : ∀ last ∈ (statuses pre).getLast?, s.identity = last.identity
  startup : s.identity = "" → s.acceptedStamps = []
  accepted : ∀ stamp ∈ s.acceptedStamps, s₀.Accepted UniversalStatus.identity pre stamp
  pending : ∀ p ∈ s.pending, .fix p.fix p.receiptNs ∈ pre
  altitudes : ∀ sample ∈ s.altitudes, .altitude sample ∈ pre

/-- The sequence advances whatever the source of the last status was. -/
theorem advancesBy_of_advances (h : Queued s₀ pre s) (hs : s = machine.final s₀ pre)
    (hadvances : s.Advances input = true) :
    s₀.AdvancesBy UniversalStatus.identity pre input := by
  have hlt : (s.ofIdentity input.identity).sequence < input.positionObservationSequence := of_decide_eq_true hadvances
  refine ⟨UInt64.lt_of_le_of_lt (UInt64.zero_le) hlt, fun last hlast hkey => ?_⟩
  rwa [ofIdentity_same (hkey.symm.trans (h.identity last hlast).symm), hs] at hlt

theorem queued_status (h : Queued s₀ pre s) (hs : s = machine.final s₀ pre) (input : UniversalStatus) (t : Int) :
    Queued s₀ (pre ++ [.status input t]) (s.observeStatus input t) where
  identity := by
    rw [show statuses (pre ++ [.status input t]) = statuses pre ++ [input] from statuses_append _ _,
      List.getLast?_concat]
    intro last hlast
    rw [← Option.some.inj hlast]
    exact observeStatus_identity input t
  startup hempty := absurd ((observeStatus_identity input t).symm.trans hempty) input.identity_ne
  accepted stamp hstamp := by
    rcases observeStatus_accepted hstamp with hold | ⟨hadvances, rfl⟩
    · have hsame : input.identity = s.identity := by
        by_contra hnew
        rw [ofIdentity_new h.startup hnew] at hold
        cases hold
      obtain ⟨before, i, ti, after, rfl, hstamp, hadvances, hkept⟩ := h.accepted stamp (ofIdentity_accepted _ hold)
      refine ⟨before, i, ti, after ++ [.status input t], by simp, hstamp, hadvances, ?_⟩
      rw [statuses_append, ← List.cons_append]
      refine unreplaced_snoc hkept fun last hlast => ?_
      rw [← h.identity last (by rw [statuses_append, statuses_status,
        List.getLast?_append_of_ne_nil _ (List.cons_ne_nil _ _)]; exact hlast), hsame]
    · exact ⟨pre, input, t, [], rfl, rfl, advancesBy_of_advances h hs hadvances, List.isChain_singleton _⟩
  pending p hp := List.mem_append_left _ (h.pending p (observeStatus_pending hp))
  altitudes sample hsample := by
    rw [observeStatus_altitudes] at hsample
    exact List.mem_append_left _ (h.altitudes sample ((ofIdentity_altitudes_sublist _).subset hsample))

/-- A call that is not a status keeps the accepted stamps. -/
theorem step_accepted (h : call.isStatus = false) : (s.step call).1.acceptedStamps = s.acceptedStamps := by
  obtain ⟨_, _, _, _, hframe⟩ := s.step_frame call h
  rw [hframe]

theorem queued_call (h : Queued s₀ pre s) (hcall : call.isStatus = false)
    (hpending : ∀ p ∈ (s.step call).1.pending, p ∈ s.pending ∨ call = .fix p.fix p.receiptNs)
    (haltitudes : ∀ sample ∈ (s.step call).1.altitudes, sample ∈ s.altitudes ∨ call = .altitude sample) :
    Queued s₀ (pre ++ [call]) (s.step call).1 where
  identity := by
    rw [statuses_snoc hcall, step_identity _ hcall]
    exact h.identity
  startup := by
    rw [step_identity _ hcall, step_accepted hcall]
    exact h.startup
  accepted stamp hstamp := (h.accepted stamp (step_accepted hcall ▸ hstamp)).snoc hcall
  pending p hp := by
    rcases hpending p hp with hold | rfl
    · exact List.mem_append_left _ (h.pending p hold)
    · simp
  altitudes sample hsample := by
    rcases haltitudes sample hsample with hold | rfl
    · exact List.mem_append_left _ (h.altitudes sample hold)
    · simp

theorem queued_step (h : Queued s₀ pre s) (hs : s = machine.final s₀ pre) :
    Queued s₀ (pre ++ [call]) (s.step call).1 := by
  cases call with
  | status input t => exact queued_status h hs input t
  | expire t =>
    refine queued_call h rfl ?_ ?_ <;> simp only [step, expire]
    all_goals
      split
      · exact fun _ hmem => by cases hmem
      · exact fun _ => .inl
  | altitude sample =>
    exact queued_call h rfl (fun p => .inl) fun a ha => (mem_pushBounded ha).imp_right fun heq => by rw [heq]
  | fix fix t =>
    exact queued_call h rfl (fun p hp => (mem_pushBounded hp).imp_right fun heq => by rw [heq]) fun a => .inl
  | take t =>
    obtain ⟨_, _, _, hframe, hpending, hsub, -⟩ := takeDue_frame t s.pending s
    refine queued_call h rfl ?_ ?_ <;> simp only [step, takeFixes, hframe]
    exacts [fun p hp => .inl (hpending hp), fun a ha => .inl (hsub.subset ha)]

theorem queued_final (source : String) (timeoutNs : Int) (pre : List AdapterCall) :
    let s₀ : AdapterState := { source := source, timeoutNs := timeoutNs }
    Queued s₀ pre (machine.final s₀ pre) := by
  intro s₀
  induction pre using List.reverseRecOn with
  | nil => exact ⟨fun _ h => (by cases h), fun _ => rfl, fun _ h => (by cases h), fun _ h => (by cases h),
      fun _ h => (by cases h)⟩
  | append_singleton pre call ih =>
    rw [Machine.final_append]
    exact queued_step ih rfl

/-! ### The law -/

theorem delivered_take (source : String) (timeoutNs : Int) (pre : List AdapterCall) (now : Int) :
    let s₀ : AdapterState := { source := source, timeoutNs := timeoutNs }
    ∀ d ∈ ((machine.final s₀ pre).takeFixes now).2, s₀.Delivered UniversalStatus.identity pre now d := by
  intro s₀ d hd
  have hqueued := queued_final source timeoutNs pre
  have hmade := takeDue_made _ _ now d hd
  refine ⟨hqueued.pending d.pending hmade.pending, hmade.waited, ?_, hqueued.accepted d.stamp hmade.accepted,
    hmade.valid, hmade.fresh, ?_, fun sample hsample => hqueued.altitudes sample (hmade.queue.subset hsample)⟩
  · rw [hmade.output]
  · rw [hmade.output]
    cases hmatched : d.pending.fix.matched d.queue with
    | none => exact .inl rfl
    | some sample => exact .inr ⟨sample, NavSatFix.matched_iff.1 hmatched, rfl⟩

/-- While the source is not replaced the last stamp does not fall. -/
theorem lastFixStamp_le (hsame : ∀ input ∈ statuses mid, input.identity = s.identity) :
    s.lastFixStamp ≤ (machine.final s mid).lastFixStamp ∧ (machine.final s mid).identity = s.identity := by
  induction mid generalizing s with
  | nil => exact ⟨le_rfl, rfl⟩
  | cons call mid ih =>
    have hstep : s.lastFixStamp ≤ (s.step call).1.lastFixStamp ∧ (s.step call).1.identity = s.identity := by
      cases call with
      | status input t =>
        have hinput := hsame input (by simp)
        refine ⟨?_, (observeStatus_identity input t).trans hinput⟩
        rw [show (s.step (.status input t)).1 = s.observeStatus input t from rfl, observeStatus_lastFixStamp,
          ofIdentity_same hinput]
      | expire t =>
        refine ⟨?_, step_identity (.expire t) rfl⟩
        simp only [step, expire]
        split <;> exact le_rfl
      | altitude sample => exact ⟨le_rfl, rfl⟩
      | fix fix t => exact ⟨le_rfl, rfl⟩
      | take t =>
        obtain ⟨_, _, _, hframe, -, -, hle⟩ := takeDue_frame t s.pending s
        rw [show (s.step (.take t)).1 = _ from hframe]
        exact ⟨hle, rfl⟩
    obtain ⟨hle, hidentity⟩ := ih (s := (s.step call).1) fun input hinput => by
      rw [hstep.2]
      exact hsame input (by
        cases call with
        | status input' t => exact List.mem_cons_of_mem _ hinput
        | _ => exact hinput)
    exact ⟨hstep.1.trans hle, hidentity.trans hstep.2⟩

/-- The statuses since a delivery are of the source that the adapter has. -/
theorem same_source (hmade : s₀.Accepted UniversalStatus.identity pre stamp)
    (hqueued : Queued s₀ pre (machine.final s₀ pre))
    (hsame : Unreplaced UniversalStatus.identity ((statuses pre).getLast?.toList ++ statuses mid)) :
    ∀ input ∈ statuses mid, input.identity = (machine.final s₀ pre).identity := by
  obtain ⟨before, i, ti, after, rfl, -⟩ := hmade
  obtain ⟨last, hlast⟩ := Option.isSome_iff_exists.1
    (show (statuses (before ++ .status i ti :: after)).getLast?.isSome = true by simp [statuses_append])
  rw [hlast] at hsame
  intro input hinput
  exact (unreplaced_cons hsame input hinput).symm.trans (hqueued.identity last hlast).symm

theorem deliveries_append (as bs : List AdapterEvent) : deliveries (as ++ bs) = deliveries as ++ deliveries bs :=
  List.filterMap_append

theorem deliveries_map (ds : List Delivery) : deliveries (ds.map .fix) = ds := by
  rw [deliveries, List.filterMap_map]
  exact List.filterMap_some

theorem pushBounded_sublist {α : Type*} (queue : List α) (a : α) : (pushBounded queue a).Sublist (queue ++ [a]) := by
  unfold pushBounded
  split
  · exact List.tail_sublist _
  · exact List.Sublist.refl _

theorem supplied_step (sample : AltitudeSample) (s : AdapterState) (call : AdapterCall) :
    (deliveries (s.step call).2).countP (·.suppliedBy sample) + (s.step call).1.altitudes.count sample ≤
      s.altitudes.count sample + if call.isAltitude sample then 1 else 0 := by
  cases call with
  | status input t =>
    have hsub := (ofIdentity_altitudes_sublist (s := s) input.identity).count_le sample
    rw [← observeStatus_altitudes input t] at hsub
    simpa [step, deliveries, AdapterCall.isAltitude] using hsub
  | expire t =>
    have hnone : deliveries (s.step (.expire t)).2 = [] := by
      simp only [step]
      split <;> rfl
    rw [hnone]
    simp only [step, expire]
    split <;> simp [AdapterCall.isAltitude]
  | altitude a =>
    have hsub := (pushBounded_sublist s.altitudes a).count_le sample
    rw [List.count_append, List.count_singleton] at hsub
    simpa [step, observeAltitude, deliveries, AdapterCall.isAltitude] using hsub
  | fix fix t => simp [step, observeFix, deliveries, AdapterCall.isAltitude]
  | take t =>
    simp only [step, deliveries_map, AdapterCall.isAltitude, Bool.false_eq_true, if_false, Nat.add_zero]
    exact takeDue_supplies sample s s.pending t

/-- Heights delivered and heights queued are paid for by the samples observed. -/
theorem supplied_run (sample : AltitudeSample) (s : AdapterState) (run : List AdapterCall) :
    (deliveries (machine.log s run)).countP (·.suppliedBy sample) + (machine.final s run).altitudes.count sample ≤
      s.altitudes.count sample + run.countP (·.isAltitude sample) := by
  induction run generalizing s with
  | nil => simp [deliveries]
  | cons call run ih =>
    have hrun := ih (s.step call).1
    have hstep := supplied_step sample s call
    rw [Machine.log_cons, deliveries_append, List.countP_append, Machine.final_cons, List.countP_cons]
    change (deliveries (s.step call).2).countP _ + (deliveries (machine.log (s.step call).1 run)).countP _ +
      (machine.final (s.step call).1 run).altitudes.count sample ≤ _
    omega

theorem law_identity (source : String) (timeoutNs : Int) (run : List AdapterCall) :
    DeliveryLaw UniversalStatus.identity { source := source, timeoutNs := timeoutNs } run where
  delivered pre now post _ := delivered_take source timeoutNs pre now
  found pre now post _ before d after h := takeDue_found _ _ now h
  ordered pre now post _ := (takeDue_stamps _ _ now).1
  increasing pre now mid now' post _ hsame d hd d' hd' := by
    have hqueued := queued_final source timeoutNs pre
    have hbefore := ((takeDue_stamps _ _ now).2 d hd).2
    rw [Machine.final_append, Machine.final_cons] at hd'
    have hafter := ((takeDue_stamps _ _ now').2 d' hd').1
    have hidentity := step_identity (s := machine.final { source := source, timeoutNs := timeoutNs } pre)
      (.take now) rfl
    have hsource := same_source (delivered_take source timeoutNs pre now d hd).accepted hqueued hsame
    exact hbefore.trans_lt ((lastFixStamp_le fun input hinput =>
      (hsource input hinput).trans hidentity.symm).1.trans_lt hafter)
  supplied sample := by
    have h := supplied_run sample { source := source, timeoutNs := timeoutNs } run
    simp only [List.count_nil] at h
    omega

/-- Where the sources are told apart, the law of the joined string is the law of the pair. -/
theorem Accepted.pair (h : s₀.Accepted UniversalStatus.identity pre stamp) (hpre : ToldApart pre) :
    s₀.Accepted UniversalStatus.pair pre stamp := by
  obtain ⟨before, input, t, after, rfl, hstamp, ⟨hpos, hadvances⟩, hsame⟩ := h
  refine ⟨before, input, t, after, rfl, hstamp, ⟨hpos, fun last hlast hkey => ?_⟩, ?_⟩
  · exact hadvances last hlast (UniversalStatus.identity_of_pair hkey)
  · unfold ToldApart at hpre
    rw [statuses_append] at hpre
    exact isChain_mp hpre.right_of_append hsame

theorem DeliveryLaw.pair (h : DeliveryLaw UniversalStatus.identity s run) (hrun : ToldApart run) :
    DeliveryLaw UniversalStatus.pair s run where
  delivered := by
    rintro pre now post rfl d hd
    have hpre : ToldApart pre := by
      unfold ToldApart at hrun
      rw [statuses_append] at hrun
      exact hrun.left_of_append
    have hd := h.delivered pre now post rfl d hd
    exact ⟨hd.observed, hd.waited, hd.output, hd.accepted.pair hpre, hd.valid, hd.fresh, hd.altitude, hd.queued⟩
  found := h.found
  ordered := h.ordered
  increasing pre now mid now' post hsplit hsame :=
    h.increasing pre now mid now' post hsplit (unreplaced_of_pair hsame)
  supplied := h.supplied

/-- What is delivered is right for the sources that the adapter tells apart by their joined string, and for the
pairs of id and incarnation in every run that has no two in succession that join to one string. -/
theorem fix_delivery (source : String) (timeoutNs : Int) (run : List AdapterCall) :
    let s : AdapterState := { source := source, timeoutNs := timeoutNs }
    DeliveryLaw UniversalStatus.identity s run ∧ (ToldApart run → DeliveryLaw UniversalStatus.pair s run) :=
  ⟨law_identity source timeoutNs run, (law_identity source timeoutNs run).pair⟩

instance (run : List AdapterCall) : Decidable (ToldApart run) := inferInstanceAs (Decidable (List.IsChain _ _))

/-- A height of this second. -/
def heightAt (sec : Int) : AltitudeSample := ⟨sec * 1000000000 + 5000000, 480000000, 20000000, 180000, some 230⟩

/-- Two fixes of a source, one height. -/
def twoFixes : List AdapterCall :=
  [.status (position "gps" "session1" 1 1) 1000000000, .altitude (heightAt 1), .fix (fixAt 1) 1000000000,
    .status (position "gps" "session1" 2 2) 2000000000, .fix (fixAt 2) 2000000000, .take 2200000000]

theorem fix_delivery_two :
    DeliveryLaw UniversalStatus.pair { source := "gps1" } twoFixes ∧
      (deliveries (machine.log { source := "gps1" } twoFixes)).map (·.output.altitude) = [some 230, none] :=
  ⟨(fix_delivery "gps1" 3000000000 twoFixes).2 (by decide +kernel), by decide +kernel⟩

/-- A fix of one source comes out under another that joins to the same string. -/
def joinedSources : List AdapterCall :=
  [.status (position "a/b" "c" 1 1) 1000000000, .fix (fixAt 1) 1000000000,
    .status (position "a" "b/c" 2 2) 1010000000]

theorem joined_sources_delivered :
    ¬ DeliveryLaw UniversalStatus.pair { source := "gps1" } (joinedSources ++ [.take 1200000000]) := by
  intro h
  have hany : ((machine.final ({ source := "gps1" } : AdapterState) joinedSources).takeFixes 1200000000).2.any
      (fun d => d.stamp = 1000000000) = true := by decide +kernel
  obtain ⟨d, hd, hstamp⟩ := List.any_eq_true.1 hany
  obtain ⟨before, input, t, after, hsplit, hinput, -, hsame⟩ :=
    (h.delivered joinedSources 1200000000 [] rfl d hd).accepted
  have hstatuses := congrArg statuses hsplit
  rw [statuses_append, statuses_status] at hstatuses
  -- the stamp is of the first source, which the second has replaced
  cases hbefore : statuses before with
  | nil =>
    rw [hbefore] at hstatuses
    obtain ⟨rfl, hafter⟩ := List.cons.inj hstatuses
    rw [← hafter] at hsame
    exact absurd hsame.rel (by decide)
  | cons first rest =>
    rw [hbefore] at hstatuses
    have htail := (List.cons.inj hstatuses).2
    have hrest : rest = [] := by
      cases rest with
      | nil => rfl
      | cons second rest => simp [statuses] at htail
    rw [hrest] at htail
    obtain rfl := (List.cons.inj htail).1
    exact absurd (hinput.trans (of_decide_eq_true hstamp)) (by decide)

end AdapterState
end MowgliMavros
