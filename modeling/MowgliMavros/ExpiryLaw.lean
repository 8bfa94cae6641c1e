import MowgliMavros.SourceReplacement

/-!
# Deliveries after an expiry

`expire` clears the pending fixes but not the accepted stamps, so a fix that comes late can be delivered
although its stamp was accepted before the expiry only. In the runs without such a fix every delivered stamp
was accepted since the last expiry (`no_delivery_across_expiry`).
-/

namespace MowgliMavros.AdapterState
variable {s : AdapterState} {x : AdapterState × List Int} {call : AdapterCall}
  {input : UniversalStatus} {stamp t : Int}

/-- The status is accepted as a new position of its source. -/
def Advances (s : AdapterState) (input : UniversalStatus) : Bool :=
  (s.ofIdentity input.identity).sequence < input.positionObservationSequence

/-- The stamps accepted since the last expiry that returned a status, after one more call. -/
def recentStep (s : AdapterState) (recent : List Int) : AdapterCall → List Int
  | .status input _ => if s.Advances input then recent ++ [stampNs input.stamp] else recent
  | .expire t => if s.expires t then [] else recent
  | .altitude _ | .fix _ _ | .take _ => recent

/-- The adapter with the stamps accepted since the last expiry. -/
def tracked : Machine (AdapterState × List Int) AdapterCall AdapterEvent :=
  ⟨fun x call => (((x.1.step call).1, recentStep x.1 x.2 call), (x.1.step call).2)⟩

/-- The adapter would deliver the fix if its position were fresh. -/
def Deliverable (s : AdapterState) (fix : NavSatFix) : Prop :=
  stampNs fix.stamp ∈ s.acceptedStamps ∧ s.lastFixStamp < stampNs fix.stamp ∧ fix.status ≠ -1

instance (s : AdapterState) (fix : NavSatFix) : Decidable (s.Deliverable fix) := inferInstanceAs (Decidable (_ ∧ _))

/-- A deliverable fix whose stamp was not accepted since the last expiry. -/
def LateFix (x : AdapterState × List Int) : AdapterCall → Prop
  | .fix fix _ => x.1.Deliverable fix ∧ stampNs fix.stamp ∉ x.2
  | _ => False

instance (x : AdapterState × List Int) : ∀ call, Decidable (LateFix x call)
  | .fix _ _ => inferInstanceAs (Decidable (_ ∧ _))
  | .status _ _ | .expire _ | .altitude _ | .take _ => inferInstanceAs (Decidable False)

/-! ### The queues of a status -/

theorem mem_pushBounded {α : Type*} {queue : List α} {a b : α} (h : b ∈ pushBounded queue a) : b ∈ queue ∨ b = a := by
  have hmem : b ∈ queue ++ [a] := by
    unfold pushBounded at h
    split at h
    · exact List.mem_of_mem_tail h
    · exact h
  simpa using hmem

theorem ofIdentity_accepted (identity : String) (h : stamp ∈ (s.ofIdentity identity).acceptedStamps) :
    stamp ∈ s.acceptedStamps := by
  unfold ofIdentity at h
  dsimp only at h
  split at h
  · split at h
    · cases h
    · exact h
  · exact h

theorem report_accepted (h : stamp ∈ (s.report input t).acceptedStamps) : stamp ∈ s.acceptedStamps := by
  obtain ⟨_, accepted, _, hframe, hkept, -⟩ := s.report_frame input t
  rw [hframe] at h
  rcases hkept with rfl | rfl
  · exact h
  · cases h

theorem advance_accepted (h : stamp ∈ (s.advance input t).acceptedStamps) :
    stamp ∈ s.acceptedStamps ∨ input.positionObservationSequence ≠ s.sequence ∧ stamp = stampNs input.stamp := by
  unfold advance at h
  split at h
  · exact (mem_pushBounded h).imp_right fun heq => ⟨‹_›, heq⟩
  · exact .inl h

/-- A stamp is accepted by the status that advances the sequence. -/
theorem observeStatus_accepted (h : stamp ∈ (s.observeStatus input t).acceptedStamps) :
    stamp ∈ (s.ofIdentity input.identity).acceptedStamps ∨ s.Advances input = true ∧ stamp = stampNs input.stamp := by
  unfold observeStatus at h
  dsimp only at h
  split at h
  · exact .inl h
  · rename_i hle
    rcases advance_accepted (report_accepted h) with hold | ⟨hne, rfl⟩
    · exact .inl hold
    · exact .inr ⟨decide_eq_true (UInt64.lt_of_le_of_ne (UInt64.not_lt.1 hle) hne.symm), rfl⟩

theorem ofIdentity_pending (identity : String) : (s.ofIdentity identity).pending ⊆ s.pending := by
  unfold ofIdentity
  dsimp only
  repeat' split
  exacts [List.nil_subset _, List.Subset.refl _, List.Subset.refl _]

theorem observeStatus_pending : (s.observeStatus input t).pending ⊆ s.pending := by
  obtain ⟨_, _, _, _, _, pending, hframe, hpending⟩ := s.observeStatus_frame input t
  rw [hframe]
  rcases hpending with rfl | rfl
  · exact ofIdentity_pending _
  · exact List.nil_subset _

/-- A replacement starts with no accepted stamps. -/
theorem ofIdentity_new (hstart : s.identity = "" → s.acceptedStamps = []) (hnew : input.identity ≠ s.identity) :
    (s.ofIdentity input.identity).acceptedStamps = [] := by
  unfold ofIdentity
  rw [if_pos hnew]
  dsimp only
  split
  · rfl
  · exact hstart (not_not.1 ‹¬ s.identity ≠ ""›)

theorem observeStatus_lastFixStamp :
    (s.observeStatus input t).lastFixStamp = (s.ofIdentity input.identity).lastFixStamp := by
  obtain ⟨_, _, _, _, _, _, hframe, -⟩ := s.observeStatus_frame input t
  rw [hframe]

/-! ### Runs -/

/-- A deliverable pending fix is of a stamp accepted since the last expiry. -/
structure Timely (x : AdapterState × List Int) : Prop where
  startup : x.1.identity = "" → x.1.acceptedStamps = []
  pending : ∀ p ∈ x.1.pending, x.1.Deliverable p.fix → stampNs p.fix.stamp ∈ x.2

theorem timely_status (hx : Timely x) (input : UniversalStatus) (t : Int) :
    Timely (tracked.step x (.status input t)).1 := by
  obtain ⟨s, recent⟩ := x
  refine ⟨fun h => absurd ((observeStatus_identity input t).symm.trans h) input.identity_ne, ?_⟩
  rintro p hp ⟨haccepted, hnewer, husable⟩
  change _ ∈ if s.Advances input then recent ++ [stampNs input.stamp] else recent
  rcases observeStatus_accepted haccepted with hold | ⟨hadvances, hstamp⟩
  · have hsame : input.identity = s.identity := by
      by_contra hnew
      rw [ofIdentity_new hx.startup hnew] at hold
      cases hold
    have hnewer : (s.observeStatus input t).lastFixStamp < stampNs p.fix.stamp := hnewer
    rw [observeStatus_lastFixStamp, ofIdentity_same hsame] at hnewer
    have hrecent := hx.pending p (observeStatus_pending hp) ⟨ofIdentity_accepted _ hold, hnewer, husable⟩
    split
    · exact List.mem_append_left _ hrecent
    · exact hrecent
  · rw [if_pos hadvances, hstamp]
    simp

theorem timely_step (hx : Timely x) (h : ¬ LateFix x call) : Timely (tracked.step x call).1 := by
  obtain ⟨s, recent⟩ := x
  cases call with
  | status input t => exact timely_status hx input t
  | expire t =>
    by_cases hexpires : s.expires t = true
    · refine ⟨?_, ?_⟩ <;> simp only [tracked, step, expire, if_pos hexpires]
      · exact hx.startup
      · exact fun p hp => by cases hp
    · refine ⟨?_, ?_⟩ <;> simp only [tracked, step, expire, recentStep, if_neg hexpires]
      · exact hx.startup
      · exact hx.pending
  | altitude sample => exact ⟨hx.startup, hx.pending⟩
  | fix fix t =>
    refine ⟨hx.startup, fun p hp hdeliverable => ?_⟩
    rcases mem_pushBounded (show p ∈ pushBounded s.pending ⟨fix, t⟩ from hp) with hold | rfl
    · exact hx.pending p hold hdeliverable
    · exact not_not.1 fun hrecent => h ⟨hdeliverable, hrecent⟩
  | take t =>
    obtain ⟨pending', _, _, hframe, hpending, -, hle⟩ := takeDue_frame t s.pending s
    refine ⟨?_, ?_⟩ <;> simp only [tracked, step, takeFixes, hframe]
    · exact hx.startup
    · rintro p hp ⟨haccepted, hnewer, husable⟩
      exact hx.pending p (hpending hp) ⟨haccepted, hle.trans_lt hnewer, husable⟩

/-- In every run without late fixes, what is delivered was accepted since the last expiry. -/
theorem no_delivery_across_expiry (source : String) (timeoutNs : Int) (run : List AdapterCall)
    (h : tracked.Along (fun x call => ¬ LateFix x call) ({ source := source, timeoutNs := timeoutNs }, []) run) :
    ∀ pre now post, run = pre ++ .take now :: post →
      let x := tracked.final ({ source := source, timeoutNs := timeoutNs }, []) pre
      ∀ d ∈ (x.1.takeFixes now).2, d.stamp ∈ x.2 := by
  rintro pre now post rfl x d hd
  have htimely : Timely x := Machine.inv_final (fun x call hx hcall => timely_step hx hcall)
    ⟨fun _ => rfl, fun p hp => by cases hp⟩ ((Machine.along_append _ _).1 h).1
  have hmade := takeDue_made x.1 x.1.pending now d hd
  have hnewer := ((takeDue_stamps x.1 x.1.pending now).2 d hd).1
  have haccepted := hmade.accepted
  rw [hmade.stamp_eq] at hnewer haccepted ⊢
  exact htimely.pending d.pending hmade.pending ⟨haccepted, hnewer, hmade.usable⟩

/-- A fix of this second. -/
def fixAt (sec : Int) : NavSatFix :=
  { stamp := ⟨sec, 0⟩, latitude := some 48, longitude := some 2, altitude := some 180 }

/-- An expiry and the recovery of the same source. -/
def recovery : List AdapterCall :=
  [.status (position "gps" "session1" 1 1) 1000000000, .fix (fixAt 1) 1000000000, .expire 5000000000,
    .status (position "gps" "session1" 2 6) 6000000000, .fix (fixAt 6) 6000000000]

theorem no_delivery_across_expiry_recovery :
    let x := tracked.final ({ source := "gps1" }, []) recovery
    x.2 = [6000000000] ∧ (x.1.takeFixes 6200000000).2.map (·.stamp) = [6000000000] ∧
      ∀ d ∈ (x.1.takeFixes 6200000000).2, d.stamp ∈ x.2 :=
  ⟨by decide +kernel, by decide +kernel, no_delivery_across_expiry "gps1" 3000000000 (recovery ++ [.take 6200000000])
    (by decide +kernel) recovery 6200000000 [] rfl⟩

/-- The fix of the position that expired comes after the recovery. -/
def lateFix : List AdapterCall :=
  [.status (position "gps" "session1" 1 1) 1000000000, .expire 5000000000,
    .status (position "gps" "session1" 2 6) 6000000000, .fix (fixAt 1) 6000000000]

theorem late_fix_delivered :
    let x := tracked.final ({ source := "gps1" }, []) lateFix
    ∃ d ∈ (x.1.takeFixes 6200000000).2, d.stamp ∉ x.2 := by
  have hany : let x := tracked.final (({ source := "gps1" } : AdapterState), []) lateFix
      (x.1.takeFixes 6200000000).2.any (fun d => d.stamp ∉ x.2) = true := by decide +kernel
  obtain ⟨d, hd, hstamp⟩ := List.any_eq_true.1 hany
  exact ⟨d, hd, of_decide_eq_true hstamp⟩

end MowgliMavros.AdapterState
