import MowgliMavros.TakeFixes

/-!
# Replacement of the GNSS source

A status whose source and incarnation join to another string finds the adapter as if it had just been
created (`observeStatus_replaced`); pairs that differ and join to the same string are not told apart.
-/

namespace MowgliMavros

/-- What names a source: its id and its incarnation. -/
def UniversalStatus.pair (input : UniversalStatus) : String × String := (input.sourceId, input.sourceIncarnation)

theorem UniversalStatus.identity_ne (input : UniversalStatus) : input.identity ≠ "" := by
  intro h
  have hlist := congrArg String.toList h
  simp [identity, String.toList_append] at hlist

theorem UniversalStatus.identity_of_pair {i j : UniversalStatus} (h : i.pair = j.pair) : i.identity = j.identity := by
  obtain ⟨hid, hincarnation⟩ := Prod.mk.inj h
  rw [identity, identity, hid, hincarnation]

def AdapterCall.isStatus : AdapterCall → Bool
  | .status _ _ => true
  | _ => false

namespace AdapterState
variable {s : AdapterState} {call : AdapterCall}
  {calls : List AdapterCall} {i j : UniversalStatus}

/-! ### What a call leaves alone -/

theorem advance_frame (input : UniversalStatus) (t : Int) : ∃ sequence stamp receipt accepted, s.advance input t =
    { s with
      sequence := sequence, positionStamp := stamp, positionReceipt := receipt, acceptedStamps := accepted } := by
  unfold advance
  split
  · exact ⟨_, _, _, _, rfl⟩
  · exact ⟨s.sequence, s.positionStamp, s.positionReceipt, s.acceptedStamps, rfl⟩

/-- A report writes the status, and may clear the accepted stamps and the pending fixes. -/
theorem report_frame (input : UniversalStatus) (t : Int) : ∃ status accepted pending, s.report input t =
    { s with status := status, acceptedStamps := accepted, pending := pending } ∧
      (accepted = s.acceptedStamps ∨ accepted = []) ∧ (pending = s.pending ∨ pending = []) := by
  unfold report invalidate
  dsimp only
  split <;> split
  · exact ⟨_, _, _, rfl, .inr rfl, .inr rfl⟩
  · exact ⟨_, _, _, rfl, .inl rfl, .inl rfl⟩
  · exact ⟨_, _, _, rfl, .inr rfl, .inr rfl⟩
  · exact ⟨_, _, _, rfl, .inl rfl, .inl rfl⟩

/-- After the source has been looked at, a status keeps the altitude queue, the last stamp and the parameters. -/
theorem observeStatus_frame (input : UniversalStatus) (t : Int) :
    ∃ sequence stamp receipt status accepted pending, s.observeStatus input t =
      { s.ofIdentity input.identity with
        sequence := sequence, positionStamp := stamp, positionReceipt := receipt, status := status,
        acceptedStamps := accepted, pending := pending } ∧
      (pending = (s.ofIdentity input.identity).pending ∨ pending = []) := by
  unfold observeStatus
  dsimp only
  split
  · exact ⟨_, _, _, _, _, _, rfl, .inl rfl⟩
  · obtain ⟨sequence, stamp, receipt, accepted, hadvance⟩ := (s.ofIdentity input.identity).advance_frame input t
    obtain ⟨status, accepted', pending, hreport, -, hpending⟩ :=
      ((s.ofIdentity input.identity).advance input t).report_frame input t
    rw [hadvance] at hreport hpending
    rw [hadvance, hreport]
    exact ⟨sequence, stamp, receipt, status, accepted', pending, rfl, hpending⟩

theorem ofIdentity_identity (identity : String) : (s.ofIdentity identity).identity = identity := by
  unfold ofIdentity
  split
  · rfl
  · exact (not_not.1 ‹¬ identity ≠ s.identity›).symm

theorem observeStatus_identity (input : UniversalStatus) (t : Int) :
    (s.observeStatus input t).identity = input.identity := by
  obtain ⟨_, _, _, _, _, _, hframe, -⟩ := s.observeStatus_frame input t
  rw [hframe]
  exact ofIdentity_identity _

theorem ofIdentity_same (h : i.identity = s.identity) : s.ofIdentity i.identity = s := if_neg (not_not.2 h)

/-- Only a replacement writes the altitude queue. -/
theorem observeStatus_altitudes (input : UniversalStatus) (t : Int) :
    (s.observeStatus input t).altitudes = (s.ofIdentity input.identity).altitudes := by
  obtain ⟨_, _, _, _, _, _, hframe, -⟩ := s.observeStatus_frame input t
  rw [hframe]

theorem ofIdentity_altitudes_sublist (identity : String) : (s.ofIdentity identity).altitudes.Sublist s.altitudes := by
  unfold ofIdentity
  dsimp only
  repeat' split
  exacts [List.nil_sublist _, List.Sublist.refl _, List.Sublist.refl _]

theorem ofIdentity_parameters (identity : String) :
    (s.ofIdentity identity).source = s.source ∧ (s.ofIdentity identity).timeoutNs = s.timeoutNs := by
  unfold ofIdentity
  dsimp only
  repeat' split
  all_goals exact ⟨rfl, rfl⟩

theorem ofIdentity_altitudes (h : s.altitudes = []) (identity : String) : (s.ofIdentity identity).altitudes = [] :=
  List.sublist_nil.1 (h ▸ ofIdentity_altitudes_sublist identity)

/-- The other calls only write the status, the queues they work on and the last stamp. -/
theorem step_frame (call : AdapterCall) (h : call.isStatus = false) : ∃ status pending altitudes last,
    (s.step call).1 =
      { s with status := status, pending := pending, altitudes := altitudes, lastFixStamp := last } := by
  cases call with
  | status input t => cases h
  | expire t =>
    simp only [step, expire, invalidate]
    split
    · exact ⟨_, _, _, _, rfl⟩
    · exact ⟨s.status, s.pending, s.altitudes, s.lastFixStamp, rfl⟩
  | altitude sample => exact ⟨_, _, _, _, rfl⟩
  | fix fix t => exact ⟨_, _, _, _, rfl⟩
  | take t =>
    obtain ⟨pending, altitudes, last, hframe, -⟩ := takeDue_frame t s.pending s
    exact ⟨s.status, pending, altitudes, last, hframe⟩

theorem step_identity (call : AdapterCall) (h : call.isStatus = false) : (s.step call).1.identity = s.identity := by
  obtain ⟨_, _, _, _, hframe⟩ := s.step_frame call h
  rw [hframe]

theorem final_identity (h : ∀ call ∈ calls, call.isStatus = false) :
    (machine.final s calls).identity = s.identity := by
  induction calls generalizing s with
  | nil => rfl
  | cons call calls ih =>
    exact (ih fun call hcall => h call (by simp [hcall])).trans (step_identity call (h call (by simp)))

/-- The parameters stay as they were created. -/
theorem step_parameters : (s.step call).1.source = s.source ∧ (s.step call).1.timeoutNs = s.timeoutNs := by
  cases hcall : call.isStatus with
  | false =>
    obtain ⟨_, _, _, _, hframe⟩ := s.step_frame call hcall
    rw [hframe]
    exact ⟨rfl, rfl⟩
  | true =>
    cases call with
    | status input t =>
      obtain ⟨_, _, _, _, _, _, hframe, -⟩ := s.observeStatus_frame input t
      rw [show (s.step (.status input t)).1 = _ from hframe]
      exact ofIdentity_parameters _
    | _ => cases hcall

theorem final_parameters (calls : List AdapterCall) :
    (machine.final s calls).source = s.source ∧ (machine.final s calls).timeoutNs = s.timeoutNs := by
  induction calls generalizing s with
  | nil => exact ⟨rfl, rfl⟩
  | cons call calls ih =>
    obtain ⟨hsource, htimeout⟩ := ih (s := (s.step call).1)
    exact ⟨hsource.trans step_parameters.1, htimeout.trans step_parameters.2⟩

/-! ### Replacement -/

/-- The status field is only written by a status that is reported. -/
theorem report_status (status : GnssStatus) (input : UniversalStatus) (t : Int) :
    (({ s with status := status }).advance input t).report input t = (s.advance input t).report input t := by
  unfold advance
  dsimp only
  split <;> rfl

/-- A status of another identity finds the adapter as it was created. -/
theorem observeStatus_replaced (hidentity : s.identity ≠ "") (hreplaced : i.identity ≠ s.identity) (t : Int) :
    s.observeStatus i t = ({ source := s.source, timeoutNs := s.timeoutNs } : AdapterState).observeStatus i t := by
  have hzero : ¬ i.positionObservationSequence < 0 := UInt64.not_lt_zero
  have hold : s.ofIdentity i.identity =
      { source := s.source, timeoutNs := s.timeoutNs, identity := i.identity, status := s.status } := by
    unfold ofIdentity
    rw [if_pos hreplaced, if_pos hidentity]
  have hnew : ({ source := s.source, timeoutNs := s.timeoutNs } : AdapterState).ofIdentity i.identity =
      { source := s.source, timeoutNs := s.timeoutNs, identity := i.identity } := if_pos i.identity_ne
  unfold observeStatus
  dsimp only
  rw [hold, hnew, if_neg hzero, if_neg hzero]
  exact report_status (s := { source := s.source, timeoutNs := s.timeoutNs, identity := i.identity }) s.status i t

/-- Of two statuses that follow each other, the second finds the adapter as it was created: of all that was
queued and counted for the first nothing is left. -/
def Replaces (i j : UniversalStatus) : Prop :=
  ∀ source timeoutNs s, create source timeoutNs = .ok s → ∀ pre ti mid tj, (∀ call ∈ mid, call.isStatus = false) →
    machine.final s (pre ++ .status i ti :: mid ++ [.status j tj]) = machine.final s [.status j tj] ∧
    ∀ later, machine.log (machine.final s (pre ++ .status i ti :: mid)) (.status j tj :: later) =
      machine.log s (.status j tj :: later)

theorem create_eq {source : String} {timeoutNs : Int} (h : create source timeoutNs = .ok s) :
    s = { source := source, timeoutNs := timeoutNs } := by
  unfold create at h
  split at h
  · cases h
  · exact (Except.ok.inj h).symm

/-- A height queued between two statuses of one identity survives the second. -/
theorem altitude_kept (hs : s.altitudes = []) (hjoined : i.identity = j.identity) (sample : AltitudeSample)
    (ti tj : Int) :
    (machine.final s [.status i ti, .altitude sample, .status j tj]).altitudes = [sample] := by
  have hempty : (s.observeStatus i ti).altitudes = [] := by
    rw [observeStatus_altitudes, ofIdentity_altitudes hs]
  have hsame : j.identity = ((s.observeStatus i ti).observeAltitude sample).identity :=
    ((observeStatus_identity i ti).trans hjoined).symm
  change (((s.observeStatus i ti).observeAltitude sample).observeStatus j tj).altitudes = _
  rw [observeStatus_altitudes, ofIdentity_same hsame, observeAltitude, hempty]
  rfl

theorem not_replaces (hjoined : i.identity = j.identity) : ¬ Replaces i j := by
  intro hreplaces
  have hfinal := (hreplaces "gps1" 1 _ rfl [] 0 [.altitude ⟨0, 0, 0, 0, none⟩] 0 (by simp [AdapterCall.isStatus])).1
  have haltitudes := altitude_kept (s := { source := "gps1", timeoutNs := 1 }) rfl hjoined ⟨0, 0, 0, 0, none⟩ 0 0
  rw [show machine.final _ [.status i 0, .altitude ⟨0, 0, 0, 0, none⟩, .status j 0] = _ from hfinal,
    show (machine.final _ [AdapterCall.status j 0]).altitudes = _ from observeStatus_altitudes j 0,
    ofIdentity_altitudes rfl] at haltitudes
  cases haltitudes

theorem replaces (hreplaced : i.identity ≠ j.identity) : Replaces i j := by
  intro source timeoutNs s hs pre ti mid tj hmid
  obtain rfl := create_eq hs
  have hparameters := final_parameters (s := { source := source, timeoutNs := timeoutNs })
    (pre ++ .status i ti :: mid)
  have hidentity :
      (machine.final { source := source, timeoutNs := timeoutNs } (pre ++ .status i ti :: mid)).identity =
        i.identity := by
    rw [Machine.final_append, Machine.final_cons, final_identity hmid]
    exact observeStatus_identity i ti
  have hstatus := observeStatus_replaced (i := j) (by rw [hidentity]; exact i.identity_ne)
    (by rw [hidentity]; exact hreplaced.symm) tj
  rw [hparameters.1, hparameters.2] at hstatus
  have hstep : machine.step (machine.final { source := source, timeoutNs := timeoutNs } (pre ++ .status i ti :: mid))
      (.status j tj) = machine.step { source := source, timeoutNs := timeoutNs } (.status j tj) :=
    congrArg (fun s : AdapterState => (s, [AdapterEvent.status s.status])) hstatus
  refine ⟨?_, fun later => ?_⟩
  · rw [Machine.final_append, Machine.final_cons, Machine.final_cons, hstep]
  · rw [Machine.log_cons, Machine.log_cons, hstep]

/-- Two sources replace each other exactly when their ids and incarnations join to different strings. -/
theorem source_replacement (i j : UniversalStatus) : Replaces i j ↔ i.identity ≠ j.identity :=
  ⟨fun hreplaces hjoined => not_replaces hjoined hreplaces, replaces⟩

/-- A valid position of this source. -/
def position (sourceId sourceIncarnation : String) (sequence : UInt64) (sec : Int) : UniversalStatus where
  stamp := ⟨sec, 0⟩
  sourceId := sourceId
  sourceIncarnation := sourceIncarnation
  positionObservationSequence := sequence
  fixType := .rtkFixed
  fixValid := true

example : Replaces (position "gps" "session1" 100 1) (position "gps" "session2" 1 2) := replaces (by decide +kernel)

/-- Two sources of one joined string are not told apart. -/
theorem joined_sources_kept :
    ¬ ∀ i j : UniversalStatus, i.pair ≠ j.pair → Replaces i j := fun h =>
  not_replaces (by decide +kernel) (h (position "a/b" "c" 1 1) (position "a" "b/c" 2 2) (by decide))

end AdapterState
end MowgliMavros
