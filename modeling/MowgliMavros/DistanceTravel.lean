import Mathlib.Tactic.Ring
import MowgliMavros.Encoder

/-!
# The travel of WHEEL_DISTANCE

`Encoder.verdict` says what `wheel_distance` makes of a packet. An observation has the speeds between two
successive accepted packets of one component, with nothing between them that `Interrupts`; over a stretch
of accepted packets the speeds times the intervals add up to the distance (`distance_travel`).
-/

namespace MowgliMavros
namespace Odometry
open ObservationEngine

/-! ### What becomes of a packet -/

inductive Verdict
  | refused | bad | repeated | contradictory
  | implausibleSpeed (next : Distance)
  | accepted (next : Distance)

namespace Encoder
variable {n : Encoder} {packet : DistancePacket} {receipt : Int} {next : Distance}

/-- The encoder after a component has taken over a stale one. -/
def found (n : Encoder) (component : UInt8) : Encoder := if n.Other component then n.restart else n

def verdict (n : Encoder) (packet : DistancePacket) (receipt : Int) : Verdict :=
  if n.Refuses packet.componentId receipt then .refused
  else
    let n := n.found packet.componentId
    match n.engine.readDistance packet receipt with
    | none => .bad
    | some next =>
      if n.distance.valid ∧ next.timeUs = n.distance.timeUs then
        if next.wheel .left ≠ n.distance.wheel .left ∨ next.wheel .right ≠ n.distance.wheel .right then
          .contradictory
        else .repeated
      else if n.Follows next ∧ n.ImplausibleSpeed next then .implausibleSpeed next
      else .accepted next

def store (n : Encoder) (next : Distance) (component : UInt8) : Encoder :=
  { n with distance := next, component := some component }

/-- The observation of an accepted packet. -/
def observe (n : Encoder) (next : Distance) : Option WheelObservation :=
  if n.Follows next then some (n.drive next) else none

theorem receive_eq (n : Encoder) (packet : DistancePacket) (receipt : Int) : n.receive packet receipt =
    let n' := n.found packet.componentId
    match n.verdict packet receipt with
    | .refused => (n, none)
    | .bad | .contradictory => (n'.drop, none)
    | .repeated => (n', none)
    | .implausibleSpeed next => ((n'.store next packet.componentId).drop, none)
    | .accepted next => (n'.store next packet.componentId, n'.observe next) := by
  unfold receive verdict
  dsimp only
  split
  · rfl
  · rw [show (if n.Other packet.componentId then n.restart else n) = n.found packet.componentId from rfl]
    generalize n.found packet.componentId = n
    cases n.engine.readDistance packet receipt with
    | none => rfl
    | some next =>
      unfold renew
      dsimp only
      by_cases hold : n.distance.valid ∧ next.timeUs = n.distance.timeUs
      · rw [if_pos hold, if_pos hold]
        split
        · rfl
        · rfl
      · rw [if_neg hold, if_neg hold]
        by_cases hfollows : n.Follows next
        · by_cases hspeed : n.ImplausibleSpeed next
          · rw [if_pos hfollows, if_pos hspeed, if_pos ⟨hfollows, hspeed⟩]
            rfl
          · rw [if_pos hfollows, if_neg hspeed, if_neg fun h => hspeed h.2]
            dsimp only
            rw [observe, if_pos hfollows]
            rfl
        · rw [if_neg hfollows, if_neg fun h => hfollows h.1]
          dsimp only
          rw [observe, if_neg hfollows]
          rfl

/-- An accepted packet has a distance, and no implausible speed from the one before. -/
theorem accepted_of_verdict (h : n.verdict packet receipt = .accepted next) :
    n.engine.readDistance packet receipt = some next ∧
      ¬ ((n.found packet.componentId).Follows next ∧ (n.found packet.componentId).ImplausibleSpeed next) ∧
      ¬ ((n.found packet.componentId).distance.valid ∧
        next.timeUs = (n.found packet.componentId).distance.timeUs) := by
  unfold verdict at h
  split at h
  · cases h
  · have hsame : (n.found packet.componentId).engine.readDistance packet receipt =
        n.engine.readDistance packet receipt := by
      unfold found
      split
      · rfl
      · rfl
    dsimp only at h
    rw [hsame] at h
    split at h
    · cases h
    · rename_i hread
      split at h
      · split at h
        · cases h
        · cases h
      · rename_i hold
        split at h
        · cases h
        · rename_i hspeed
          cases h
          exact ⟨hread, hspeed, hold⟩

theorem readDistance_stamp {e : ObservationEngine} (h : e.readDistance packet receipt = some next) :
    next.receiptNs = receipt ∧ next.valid = true := by
  unfold readDistance at h
  split at h
  · obtain rfl := Option.some.inj h
    exact ⟨rfl, rfl⟩
  · cases h

/-- Only the component of the distance goes on from it. -/
theorem found_valid {component : UInt8} (h : (n.found component).distance.valid = true) :
    ¬ n.Other component ∧ n.found component = n := by
  unfold found at h ⊢
  split at h
  · cases h
  · rename_i hother
    exact ⟨hother, if_neg hother⟩

theorem found_of_repeated (h : n.verdict packet receipt = .repeated) : n.found packet.componentId = n := by
  unfold verdict at h
  split at h
  · cases h
  · dsimp only at h
    split at h
    · cases h
    · split at h
      · rename_i hold
        exact (found_valid hold.1).2
      · split at h
        · cases h
        · cases h

end Encoder

namespace ObservationEngine
variable {e e' : ObservationEngine} {c : Call × Int} {d next : Distance} {t : Int}

/-- The distance of an accepted packet. -/
def accepted (e : ObservationEngine) : Call × Int → Option Distance
  | (.wheelDistance packet, receipt) => match e.encoder.verdict packet receipt with
    | .accepted next => some next
    | _ => none
  | _ => none

/-- A rejected or contradictory packet, a takeover, a measurement clock that goes back, a connection or a
configuration. -/
def Breaks (e : ObservationEngine) : Call × Int → Prop
  | (.wheelDistance packet, receipt) => match e.encoder.verdict packet receipt with
    | .bad | .contradictory | .implausibleSpeed _ => True
    | .accepted next =>
      e.encoder.Other packet.componentId ∨ e.distance.valid = true ∧ next.timeUs < e.distance.timeUs
    | .refused | .repeated => False
  | (.connection _, _) | (.replace _ _, _) => True
  | _ => False

/-- Another source is active, the distance has expired, or the call breaks. -/
def Interrupts (e : ObservationEngine) (c : Call × Int) : Prop :=
  e.active ≠ .wheelDistance ∨ ¬ e.Fresh e.distance.receiptNs c.2 ∨ e.Breaks c

/-- What an accepted packet does. -/
theorem step_accepted (h : e.Tracked c.2) (ha : e.accepted c = some next) :
    ∃ packet, c.1 = .wheelDistance packet ∧ e.encoder.verdict packet c.2 = .accepted next ∧
      (e.step c).1.encoder = e.encoder.store next packet.componentId ∧
      (e.step c).2 = (e.encoder.found packet.componentId).observe next := by
  obtain ⟨call, receipt⟩ := c
  cases call with
  | wheelDistance packet =>
    have hmatches := wheelDistance_matches h packet
    unfold accepted at ha
    dsimp only at ha
    split at ha
    · rename_i hverdict
      cases ha
      have hreceive := e.encoder.receive_eq packet receipt
      rw [hverdict] at hreceive
      dsimp only at hreceive
      refine ⟨packet, rfl, hverdict, ?_, ?_⟩
      · dsimp only [step]
        rw [hmatches.encoder, hreceive]
        unfold Encoder.found
        split
        · rfl
        · rfl
      · dsimp only [step]
        rw [hmatches.result, hreceive]
    · cases ha
  | _ => cases ha

/-- Without an accepted packet the encoder stays as it is, or has no distance any more. -/
theorem step_unaccepted (h : e.Tracked c.2) (ha : e.accepted c = none) :
    (c.1.isDistance = true → (e.step c).2 = none) ∧
      (¬ e.Breaks c ∧ (e.step c).1.encoder = e.encoder ∨
        e.Breaks c ∧ (e.step c).1.distance.valid = false) := by
  have hencoder := (step_tracks h).2.1
  obtain ⟨call, receipt⟩ := c
  cases call with
  | wheelDistance packet =>
    have hmatches := wheelDistance_matches h packet
    have hreceive := e.encoder.receive_eq packet receipt
    have hdropped : ∀ n : Encoder, e.encoder.receive packet receipt = (n.drop, none) →
        (e.wheelDistance packet receipt).1.distance.valid = false := by
      intro n heq
      have hsame := congrArg (·.distance.valid) (hmatches.encoder.trans (congrArg (·.1) heq))
      exact hsame
    unfold accepted Breaks at *
    dsimp only [step] at *
    rw [hmatches.result]
    cases hverdict : e.encoder.verdict packet receipt with
    | refused =>
      rw [hverdict] at hreceive
      rw [hreceive]
      exact ⟨fun _ => rfl, .inl ⟨id, by rw [hmatches.encoder, hreceive]⟩⟩
    | bad =>
      rw [hverdict] at hreceive
      rw [hreceive]
      exact ⟨fun _ => rfl, .inr ⟨trivial, hdropped _ hreceive⟩⟩
    | repeated =>
      rw [hverdict] at hreceive
      rw [hreceive]
      refine ⟨fun _ => rfl, .inl ⟨id, ?_⟩⟩
      rw [hmatches.encoder, hreceive]
      exact Encoder.found_of_repeated hverdict
    | contradictory =>
      rw [hverdict] at hreceive
      rw [hreceive]
      exact ⟨fun _ => rfl, .inr ⟨trivial, hdropped _ hreceive⟩⟩
    | implausibleSpeed next =>
      rw [hverdict] at hreceive
      rw [hreceive]
      exact ⟨fun _ => rfl, .inr ⟨trivial, hdropped _ hreceive⟩⟩
    | accepted next => rw [hverdict] at ha; cases ha
  | connection connected => exact ⟨nofun, .inr ⟨trivial, rfl⟩⟩
  | replace config retain => exact ⟨nofun, .inr ⟨trivial, rfl⟩⟩
  | _ => exact ⟨nofun, .inl ⟨id, hencoder⟩⟩

/-- An observation of WHEEL_DISTANCE is the motion since the distance that the engine holds. -/
theorem step_observation {o : WheelObservation} (h : e.Tracked c.2) (hdistance : c.1.isDistance = true)
    (ho : (e.step c).2 = some o) : ∃ packet next, c.1 = .wheelDistance packet ∧ e.accepted c = some next ∧
      ¬ e.encoder.Other packet.componentId ∧ e.encoder.Follows next ∧ ¬ e.encoder.ImplausibleSpeed next ∧
      o = e.encoder.drive next := by
  cases ha : e.accepted c with
  | none =>
    rw [(step_unaccepted h ha).1 hdistance] at ho
    cases ho
  | some next =>
    obtain ⟨packet, hpacket, hverdict, _, hresult⟩ := step_accepted h ha
    rw [hresult, Encoder.observe] at ho
    split at ho
    · rename_i hfollows
      obtain ⟨hother, hfound⟩ := Encoder.found_valid hfollows.2.1.1
      have haccepted := (Encoder.accepted_of_verdict hverdict).2.1
      rw [hfound] at ho hfollows haccepted
      exact ⟨packet, next, hpacket, rfl, hother, hfollows, fun hi => haccepted ⟨hfollows, hi⟩,
        (Option.some.inj ho).symm⟩
    · cases ho

end ObservationEngine

/-! ### The baseline -/

/-- The valid distance is that of the last accepted packet, and no call since breaks. -/
def Baseline (config : ValidConfig) (run : List (Call × Int)) (e : ObservationEngine) : Prop :=
  e.distance.valid = true → ∃ pre packet receipt mid, run = pre ++ (.wheelDistance packet, receipt) :: mid ∧
    (reach config pre).accepted (.wheelDistance packet, receipt) = some e.distance ∧
    e.distanceComponent = some packet.componentId ∧
    machine.Along (fun e c => ¬ e.Breaks c ∧ e.accepted c = none)
      (reach config (pre ++ [(.wheelDistance packet, receipt)])) mid

section Runs
variable {config : ValidConfig} {run pre mid : List (Call × Int)} {c : Call × Int} {d : Distance}

theorem reach_baseline (h : Clocked run) : Baseline config run (reach config run) := by
  refine run_induction (P := Baseline config) config nofun ?_ h
  intro run c hclock _ ih hvalid
  have htracked := reach_tracked config (clocked_snoc.1 hclock).1 (clocked_snoc.1 hclock).2
  cases ha : (reach config run).accepted c with
  | some next =>
    obtain ⟨packet, hpacket, _, hencoder, _⟩ := step_accepted htracked ha
    obtain ⟨call, receipt⟩ := c
    obtain rfl : call = .wheelDistance packet := hpacket
    have hdistance : ((reach config run).step (.wheelDistance packet, receipt)).1.distance = next :=
      congrArg (·.distance) hencoder
    refine ⟨run, packet, receipt, [], rfl, ?_, congrArg (·.component) hencoder, trivial⟩
    rw [hdistance]
    exact ha
  | none =>
    rcases (step_unaccepted htracked ha).2 with ⟨hunbroken, hencoder⟩ | ⟨_, hinvalid⟩
    · have hdistance : ((reach config run).step c).1.distance = (reach config run).distance :=
        congrArg (·.distance) hencoder
      rw [hdistance] at hvalid ⊢
      obtain ⟨pre, packet, receipt, mid, hrun, haccepted, hcomponent, halong⟩ := ih hvalid
      refine ⟨pre, packet, receipt, mid ++ [c], by rw [hrun]; simp, haccepted,
        (congrArg (·.component) hencoder).trans hcomponent, ?_⟩
      refine (Machine.along_append mid [c]).2 ⟨halong, ?_, trivial⟩
      rw [reach, ← Machine.final_append]
      rw [hrun, ← List.singleton_append, ← List.append_assoc] at hunbroken ha
      exact ⟨hunbroken, ha⟩
    · rw [hinvalid] at hvalid
      cases hvalid

/-- Between accepted packets the encoder stays as it is. -/
theorem along_encoder (h : Clocked (pre ++ mid))
    (halong : machine.Along (fun e c => ¬ e.Breaks c ∧ e.accepted c = none) (reach config pre) mid) :
    (reach config (pre ++ mid)).encoder = (reach config pre).encoder := by
  refine later_induction (P := fun e => e.encoder = (reach config pre).encoder) h halong rfl ?_
  rintro run c hclock ⟨hunbroken, hnone⟩ hencoder
  have htracked := reach_tracked config (clocked_snoc.1 hclock).1 (clocked_snoc.1 hclock).2
  rcases (step_unaccepted htracked hnone).2 with ⟨_, hsame⟩ | ⟨hbreaks, _⟩
  · exact hsame.trans hencoder
  · exact absurd hbreaks hunbroken

/-- While a distance that is followed later is held, it is fresh and WHEEL_DISTANCE is active. -/
theorem follows_uninterrupted {e s : ObservationEngine} {x : Call × Int} {next : Distance} {receipt : Int}
    (hfollows : e.encoder.Follows next) (hreceipt : next.receiptNs = receipt) (htracked : s.Tracked x.2)
    (hsame : s.encoder = e.encoder) (hx : x.2 ≤ receipt) (hunbroken : ¬ s.Breaks x) : ¬ s.Interrupts x := by
  rw [← hsame] at hfollows
  obtain ⟨hdrivable, ⟨hvalid, hpos, _, hage⟩, _⟩ := hfollows
  have hstamped := htracked.dated.stamped hvalid
  have hage : next.receiptNs - s.distance.receiptNs ≤ s.config.1.timeoutNs := hage
  have hfresh : s.Fresh s.distance.receiptNs x.2 := ⟨hpos, hstamped, by omega⟩
  rintro (hinactive | hexpired | hbreaks)
  · exact hinactive (htracked.chosen hvalid hfresh hdrivable)
  · exact hexpired hfresh
  · exact hunbroken hbreaks

/-- The observation of the packet `last` at `e'` is the motion since the packet `first` at `e`, the last one
before it that was accepted, with nothing between them that interrupts. -/
structure Measured (e e' : ObservationEngine) (first last : DistancePacket) (sent receipt : Int)
    (mid : List (Call × Int)) (d next : Distance) (o : WheelObservation) : Prop where
  starts : e.accepted (.wheelDistance first, sent) = some d
  ends : e'.accepted (.wheelDistance last, receipt) = some next
  component : last.componentId = first.componentId
  between :
    machine.Along (fun e c => ¬ e.Interrupts c ∧ e.accepted c = none) (e.step (.wheelDistance first, sent)).1 mid
  arrives : ¬ e'.Interrupts (.wheelDistance last, receipt)
  later : d.timeUs < next.timeUs
  timely : ((next.timeUs - d.timeUs : Nat) : Int) * 1000 ≤ e'.config.1.timeoutNs
  bounded : ∀ side, |speed d next side| ≤ e'.config.1.maxDistanceSpeedMps
  motion : o = {
    sampleStampNs := next.timeUs * 1000, receiptStampNs := receipt
    linearXMps := (speed d next .left + speed d next .right) / 2
    angularZRps := (speed d next .right - speed d next .left) / e'.geometry.trackWidthM }

theorem between_uninterrupted {first : Call × Int} {receipt : Int} {next : Distance} {call : Call}
    (h : Clocked (run ++ [(call, receipt)])) (hsplit : run = pre ++ first :: mid)
    (halong : machine.Along (fun e c => ¬ e.Breaks c ∧ e.accepted c = none) (reach config (pre ++ [first])) mid)
    (hfollows : (reach config run).encoder.Follows next) (hstamp : next.receiptNs = receipt) :
    machine.Along (fun e c => ¬ e.Interrupts c ∧ e.accepted c = none) ((reach config pre).step first).1 mid := by
  subst hsplit
  rw [← reach_snoc, Machine.along_iff]
  rintro left x right rfl
  obtain ⟨hleft, hrest⟩ := (Machine.along_append left (x :: right)).1 halong
  have hsplit : pre ++ first :: (left ++ x :: right) = pre ++ [first] ++ left ++ [x] ++ right := by simp
  have hpast := (clocked_snoc.1 h).2 x (by simp)
  have hclock := (clocked_snoc.1 h).1
  rw [hsplit] at hclock
  have hbefore := (List.pairwise_append.1 hclock).1
  have hencoder : (reach config (pre ++ [first] ++ left)).encoder =
      (reach config (pre ++ first :: (left ++ x :: right))).encoder := by
    rw [along_encoder (clocked_snoc.1 hbefore).1 hleft]
    have hall : (reach config (pre ++ [first] ++ (left ++ x :: right))).encoder =
        (reach config (pre ++ [first])).encoder := along_encoder ?_ halong
    · rw [← hall, List.append_assoc, List.singleton_append]
    · rw [List.append_assoc, List.singleton_append]
      exact (clocked_snoc.1 h).1
  rw [reach, ← Machine.final_append, ← reach] at hrest ⊢
  have htracked := reach_tracked config (clocked_snoc.1 hbefore).1 (clocked_snoc.1 hbefore).2
  exact ⟨follows_uninterrupted hfollows hstamp htracked hencoder hpast hrest.1.1, hrest.1.2⟩

theorem observation_measured {packet : DistancePacket} {receipt : Int} {o : WheelObservation}
    (h : Clocked (run ++ [(.wheelDistance packet, receipt)]))
    (ho : ((reach config run).wheelDistance packet receipt).2 = some o) :
    ∃ pre first sent mid d next, run = pre ++ (.wheelDistance first, sent) :: mid ∧
      Measured (reach config pre) (reach config run) first packet sent receipt mid d next o := by
  obtain ⟨hrun, hpast⟩ := clocked_snoc.1 h
  have htracked := reach_tracked config hrun hpast
  obtain ⟨_, next, heq, haccepted, hother, hfollows, hslow, rfl⟩ :=
    step_observation (c := (.wheelDistance packet, receipt)) htracked rfl ho
  cases heq
  obtain ⟨pre, first, sent, mid, hsplit, hfirst, hcomponent, halong⟩ := reach_baseline hrun hfollows.2.1.1
  obtain ⟨_, heq, hverdict, _⟩ := step_accepted htracked haccepted
  cases heq
  have hstamp : next.receiptNs = receipt := (Encoder.readDistance_stamp (Encoder.accepted_of_verdict hverdict).1).1
  have hunbroken : ¬ (reach config run).Breaks (.wheelDistance packet, receipt) := by
    unfold Breaks
    dsimp only at hverdict ⊢
    rw [hverdict]
    rintro (hforeign | ⟨_, hback⟩)
    · exact hother hforeign
    · exact Nat.lt_asymm hback hfollows.2.2.1
  refine ⟨pre, first, sent, mid, _, next, hsplit, hfirst, haccepted, ?_, ?_, ?_, hfollows.2.2.1, ?_, ?_, ?_⟩
  · unfold Encoder.Other encoder at hother
    dsimp only at hother
    rw [hcomponent] at hother
    exact not_not.1 fun hne => hother (decide_eq_true fun heq => hne heq.symm)
  · exact between_uninterrupted h hsplit halong hfollows hstamp
  · exact follows_uninterrupted hfollows hstamp htracked rfl le_rfl hunbroken
  · have hgap : next.timeUs - (reach config run).distance.timeUs ≤
        ((reach config run).config.1.timeoutNs / 1000).toNat := hfollows.2.2.2
    have := (reach config run).config.timeout_pos
    omega
  · unfold Encoder.ImplausibleSpeed at hslow
    rw [not_or, not_lt, not_lt] at hslow
    rintro (_ | _)
    exacts [hslow.1, hslow.2]
  · unfold Encoder.drive
    rw [hstamp]
    rfl

end Runs

/-! ### The travel -/

/-- The accepted packets with the observations that they return. -/
def odometer : Machine ObservationEngine (Call × Int) (Distance × Option WheelObservation) :=
  ⟨fun e c => ((e.step c).1, (e.accepted c).toList.map fun d => (d, (e.step c).2))⟩

/-- The speed of a wheel in an observation. -/
def WheelObservation.wheelMps (o : WheelObservation) (trackWidthM : Rat) : Side → Rat
  | .left => o.linearXMps - o.angularZRps * trackWidthM / 2
  | .right => o.linearXMps + o.angularZRps * trackWidthM / 2

/-- The seconds between the measurement times. -/
def interval (d next : Distance) : Rat := ((next.timeUs - d.timeUs : Nat) : Rat) / 10 ^ 6

/-- The speeds times the intervals of the accepted packets after the distance `d`. -/
def travel (trackWidthM : Rat) (side : Side) : Distance → List (Distance × Option WheelObservation) → Rat
  | _, [] => 0
  | d, (next, o) :: rest =>
    (o.elim 0 fun o => o.wheelMps trackWidthM side * interval d next) + travel trackWidthM side next rest

/-- The packet is accepted after an interval that is longer than the timeout. -/
def ObservationEngine.OverLong (e : ObservationEngine) (c : Call × Int) : Prop :=
  ∃ next ∈ e.accepted c, e.config.1.timeoutNs < ((next.timeUs - e.distance.timeUs : Nat) : Int) * 1000

section Travel
variable {e : ObservationEngine} {c : Call × Int} {next : Distance} {side : Side} {t : Int}

/-- The wheel's speed is the one that the distances give. -/
theorem drive_wheelMps {n : Encoder} (hwidth : 0 < n.config.1.geometry.trackWidthM) :
    (n.drive next).wheelMps n.config.1.geometry.trackWidthM side = speed n.distance next side := by
  have hne : n.config.1.geometry.trackWidthM ≠ 0 := hwidth.ne'
  unfold WheelObservation.wheelMps Encoder.drive
  cases side with
  | left =>
    dsimp only
    rw [div_mul_cancel₀ _ hne]
    ring
  | right =>
    dsimp only
    rw [div_mul_cancel₀ _ hne]
    ring

theorem speed_interval {d : Distance} (h : d.timeUs < next.timeUs) :
    speed d next side * interval d next = next.wheel side - d.wheel side := by
  have hne : ((next.timeUs - d.timeUs : Nat) : Rat) / 10 ^ 6 ≠ 0 :=
    div_ne_zero (Nat.cast_ne_zero.2 (Nat.sub_ne_zero_of_lt h)) (by norm_num)
  unfold speed interval
  exact div_mul_cancel₀ _ hne

/-- An accepted packet that nothing interrupts returns the motion since the one before. -/
theorem accepted_drives (h : e.Tracked c.2) (hvalid : e.distance.valid = true) (ha : e.accepted c = some next)
    (hsteady : ¬ e.Interrupts c) (htimely : ¬ e.OverLong c) :
    e.distance.timeUs < next.timeUs ∧ 0 < e.geometry.trackWidthM ∧
      (e.step c).2 = some (e.encoder.drive next) := by
  obtain ⟨packet, hpacket, hverdict, _, hresult⟩ := step_accepted h ha
  obtain ⟨call, receipt⟩ := c
  obtain rfl : call = .wheelDistance packet := hpacket
  unfold Interrupts at hsteady
  rw [not_or, not_or, not_not, not_not] at hsteady
  obtain ⟨hactive, hfresh, hunbroken⟩ := hsteady
  unfold Breaks at hunbroken
  dsimp only at hunbroken hverdict
  rw [hverdict, not_or] at hunbroken
  have hfound : e.encoder.found packet.componentId = e.encoder := if_neg hunbroken.1
  obtain ⟨hread, _, hnew⟩ := Encoder.accepted_of_verdict hverdict
  rw [hfound] at hresult hnew
  have hlater : e.distance.timeUs < next.timeUs := by
    have hne : next.timeUs ≠ e.distance.timeUs := fun heq => hnew ⟨hvalid, heq⟩
    have hle : ¬ next.timeUs < e.distance.timeUs := fun hlt => hunbroken.2 ⟨hvalid, hlt⟩
    omega
  have hdrivable := (h.live hactive).2
  have hgap : next.timeUs - e.distance.timeUs ≤ (e.config.1.timeoutNs / 1000).toNat := by
    have hle : ¬ e.config.1.timeoutNs < ((next.timeUs - e.distance.timeUs : Nat) : Int) * 1000 :=
      fun hlt => htimely ⟨next, ha, hlt⟩
    omega
  refine ⟨hlater, ?_, ?_⟩
  · have hcore : e.core.valid = true := (h.wired.drivable.1 hdrivable).2.1.1
    unfold WheelOdometryCore.valid at hcore
    rw [h.wired.core] at hcore
    exact of_decide_eq_true hcore
  · rw [hresult]
    refine if_pos ⟨hdrivable, ⟨hvalid, ?_⟩, hlater, hgap⟩
    rw [(Encoder.readDistance_stamp hread).1]
    exact hfresh

/-- The travel over calls that nothing interrupts. -/
theorem travel_eq (side : Side) {calls : List (Call × Int)} (h : e.Tracked t) (hfirst : ∀ a ∈ calls, t ≤ a.2)
    (hsorted : Clocked calls) (hvalid : e.distance.valid = true)
    (halong : machine.Along (fun e c => ¬ e.Interrupts c ∧ ¬ e.OverLong c) e calls) :
    travel e.geometry.trackWidthM side e.distance (odometer.log e calls) =
      (((odometer.log e calls).map Prod.fst).getLastD e.distance).wheel side - e.distance.wheel side := by
  induction calls generalizing e t with
  | nil => exact (sub_self _).symm
  | cons c calls ih =>
    obtain ⟨hc, hlater⟩ := List.pairwise_cons.1 hsorted
    have htracked := h.mono (hfirst c (by simp))
    obtain ⟨⟨hsteady, htimely⟩, hrest⟩ := halong
    have hunbroken : ¬ e.Breaks c := fun hb => hsteady (.inr (.inr hb))
    rw [Machine.log_cons]
    cases ha : e.accepted c with
    | none =>
      obtain ⟨_, hencoder⟩ := ((step_unaccepted htracked ha).2).resolve_right fun hb => hunbroken hb.1
      have hdistance : (e.step c).1.distance = e.distance := congrArg (·.distance) hencoder
      have hgeometry : (e.step c).1.geometry = e.geometry :=
        congrArg (fun n : Encoder => n.config.1.geometry) hencoder
      have ih := ih (step_tracks htracked).1 hc hlater (hdistance ▸ hvalid) hrest
      rw [hdistance, hgeometry] at ih
      have hhead : (odometer.step e c).2 = [] := by
        unfold odometer
        dsimp only
        rw [ha]
        rfl
      rw [hhead, List.nil_append]
      exact ih
    | some next =>
      obtain ⟨packet, _, hverdict, hencoder, _⟩ := step_accepted htracked ha
      obtain ⟨hlt, hwidth, hresult⟩ := accepted_drives htracked hvalid ha hsteady htimely
      have hdistance : (e.step c).1.distance = next := congrArg (·.distance) hencoder
      have hgeometry : (e.step c).1.geometry = e.geometry :=
        congrArg (fun n : Encoder => n.config.1.geometry) hencoder
      have hnext : next.valid = true := (Encoder.readDistance_stamp (Encoder.accepted_of_verdict hverdict).1).2
      have ih := ih (step_tracks htracked).1 hc hlater (hdistance ▸ hnext) hrest
      rw [hdistance, hgeometry] at ih
      have hdrive : (e.encoder.drive next).wheelMps e.geometry.trackWidthM side * interval e.distance next =
          next.wheel side - e.distance.wheel side := by
        rw [show e.geometry = e.encoder.config.1.geometry from rfl, drive_wheelMps hwidth]
        exact speed_interval hlt
      have hhead : (odometer.step e c).2 = [(next, some (e.encoder.drive next))] := by
        unfold odometer
        dsimp only
        rw [ha, hresult]
        rfl
      rw [hhead, List.singleton_append, List.map_cons, List.getLastD_cons]
      change (e.encoder.drive next).wheelMps e.geometry.trackWidthM side * interval e.distance next +
        travel e.geometry.trackWidthM side next (odometer.log (e.step c).1 calls) = _
      rw [hdrive, ih]
      exact sub_add_sub_cancel' _ _ _

end Travel

/-- WHEEL_DISTANCE accounts for the measured travel: every observation is the motion between two successive
accepted packets, and the motions of a stretch add up to its travel. -/
theorem distance_travel (config : ValidConfig) (run : List (Call × Int)) (h : Clocked run) :
    (∀ pre packet receipt o, run = pre ++ [(.wheelDistance packet, receipt)] →
      ((reach config pre).wheelDistance packet receipt).2 = some o →
      ∃ before first sent mid d next, pre = before ++ (.wheelDistance first, sent) :: mid ∧
        Measured (reach config before) (reach config pre) first packet sent receipt mid d next o) ∧
    ∀ pre c post d side, run = pre ++ c :: post → (reach config pre).accepted c = some d →
      machine.Along (fun e c => ¬ e.Interrupts c ∧ ¬ e.OverLong c) (reach config (pre ++ [c])) post →
      travel (reach config pre).geometry.trackWidthM side d (odometer.log (reach config (pre ++ [c])) post) =
        (((odometer.log (reach config (pre ++ [c])) post).map Prod.fst).getLastD d).wheel side - d.wheel side := by
  constructor
  · rintro pre packet receipt o rfl ho
    exact observation_measured h ho
  · rintro pre c post d side rfl ha halong
    obtain ⟨hpre, hlater, hpast⟩ := List.pairwise_append.1 h
    obtain ⟨hfirst, hpost⟩ := List.pairwise_cons.1 hlater
    have htracked := reach_tracked config hpre fun a ha => hpast a ha c (by simp)
    obtain ⟨packet, _, hverdict, hencoder, _⟩ := step_accepted htracked ha
    have hdistance : (reach config (pre ++ [c])).distance = d := by
      rw [reach_snoc]
      exact congrArg (·.distance) hencoder
    have hgeometry : (reach config (pre ++ [c])).geometry = (reach config pre).geometry := by
      rw [reach_snoc]
      exact congrArg (fun n : Encoder => n.config.1.geometry) hencoder
    have hvalid : d.valid = true := (Encoder.readDistance_stamp (Encoder.accepted_of_verdict hverdict).1).2
    have hstep : (reach config (pre ++ [c])).Tracked c.2 := by
      rw [reach_snoc]
      exact (step_tracks htracked).1
    have htravel := travel_eq side hstep hfirst hpost (by rw [hdistance, hvalid]) halong
    rwa [hdistance, hgeometry] at htravel

def wheelPacket (component : UInt8) (timeUs : Nat) (distance : Rat) : Call × Int :=
  (.wheelDistance { timeUs := timeUs, count := 2, distance := fun _ => some distance, componentId := component },
    timeUs * 1000)

/-- Component 2 sends between the packets of component 1. -/
def sharedRun : List (Call × Int) :=
  [(.connection true, 0), wheelPacket 1 1000000 0, wheelPacket 2 1500000 7, wheelPacket 1 2000000 1]

theorem distance_travel_shared : ∃ before first sent mid d next,
    sharedRun.take 3 = before ++ (.wheelDistance first, sent) :: mid ∧
    Measured (reach bothWheels before) (reach bothWheels (sharedRun.take 3)) first
      { timeUs := 2000000, count := 2, distance := fun _ => some 1, componentId := 1 } sent 2000000000 mid d next
      { sampleStampNs := 2000000000, receiptStampNs := 2000000000, linearXMps := 1 } :=
  (distance_travel bothWheels sharedRun (by simp [Clocked, sharedRun, wheelPacket])).1 (sharedRun.take 3)
    { timeUs := 2000000, count := 2, distance := fun _ => some 1, componentId := 1 } 2000000000 _ rfl
    (by decide +kernel)

/-- WHEEL_DISTANCE is no source of this one. -/
def escWheels : ValidConfig :=
  ⟨{ geometry := { leftEscSlot := 0, rightEscSlot := 1, trackWidthM := 1, ticksPerMeter := 1 }
     source := .escStatus, leftWheelIndex := 0, rightWheelIndex := 1 }, by decide +kernel⟩

/-- A packet of another component is rejected between the two packets of an observation; where WHEEL_DISTANCE
is no source, packets are accepted without observations. -/
theorem rejected_spanned :
    (Clocked sharedRun ∧ ((reach bothWheels (sharedRun.take 2)).step (wheelPacket 2 1500000 7)).2 = none ∧
      (reach bothWheels (sharedRun.take 2)).accepted (wheelPacket 2 1500000 7) = none ∧
      ((reach bothWheels (sharedRun.take 3)).step (wheelPacket 1 2000000 1)).2 =
        some { sampleStampNs := 2000000000, receiptStampNs := 2000000000, linearXMps := 1 }) ∧
    ((reach escWheels (sharedRun.take 1)).accepted (wheelPacket 1 1000000 0)).isSome = true ∧
      ((reach escWheels (sharedRun.take 3)).accepted (wheelPacket 1 2000000 1)).isSome = true ∧
      ∀ answer ∈ trace escWheels sharedRun, answer.2 = none := by
  refine ⟨⟨by simp [Clocked, sharedRun, wheelPacket], ?_, ?_, ?_⟩, ?_, ?_, ?_⟩
  · decide +kernel
  · exact Option.isNone_iff_eq_none.1 (by decide +kernel)
  all_goals decide +kernel

end Odometry
end MowgliMavros
