import MowgliMavros.NtripReconnect

/-!
# A stream that is reported as connected is read and watched

`stats_.connected` is only true while the next read of the stream is outstanding and, until `stop`, the read
watchdog is armed. So a stream that ends, or from which nothing more comes, is noticed, whatever handlers of
earlier attempts are called in between.
-/

namespace MowgliMavros
namespace AsioConnection

open Prog (Triple Keeps)

def isStreamRead (a : Async.Pending Operation Completion) : Bool := a.operation = .streamRead

/-- A wait of the watchdog that was not cancelled. -/
def isWatch (a : Async.Pending Operation Completion) : Bool :=
  match a.operation, a.outcome with
  | .watchdogWait, some (.error _) => false
  | .watchdogWait, _ => true
  | _, _ => false

def reads (c : AsioConnection) : Nat := c.pending.countP isStreamRead

def watches (c : AsioConnection) : Nat := c.pending.countP isWatch

def Connected (c : AsioConnection) : Prop := c.connection.stats.connected = true

structure Watched (c : AsioConnection) : Prop where
  complete : c.Connected → c.handshakeComplete
  read : c.Connected → 0 < c.reads
  watched : c.Connected → c.stopped = false → 0 < c.watches

variable {c : AsioConnection}

/-! ### Programs that end with the connection reported as lost -/

/-- The connection is reported as lost. -/
def Dark (c : AsioConnection) (_ : List NtripEvent) : Prop := ¬ c.Connected

theorem dark_update {f : AsioConnection → AsioConnection}
    (h : ∀ c, (f c).connection.stats.connected = c.connection.stats.connected) : Keeps Dark (Prog.update f) := by
  refine Keeps.update fun c l hdark hconnected => hdark ?_
  rwa [Connected, h] at hconnected

theorem postState_dark (state error : String) :
    Triple (fun _ _ => True) (postState false state error) fun _ => Dark :=
  fun _ _ _ hconnected => Bool.false_ne_true hconnected

theorem dark_postState (state error : String) : Keeps Dark (postState false state error) :=
  (postState_dark state error).pre fun _ _ _ => trivial

theorem closeSocket_dark : Keeps Dark closeSocket := by
  refine dark_update fun c => ?_
  split <;> rfl

theorem scheduleResolve_dark (reason : String) (count : Bool) : Keeps Dark (scheduleResolve reason count) := by
  refine Keeps.read fun _ => Keeps.when ?_
  refine closeSocket_dark.seq fun _ => ?_
  refine Keeps.seq (dark_update fun _ => rfl) fun _ => ?_
  refine Keeps.seq (dark_update fun _ => rfl) fun _ => ?_
  refine Keeps.seq (dark_update fun _ => rfl) fun _ => ?_
  refine Keeps.seq (dark_update fun _ => rfl) fun _ => ?_
  refine Keeps.seq (Keeps.when ?_) fun _ => ?_
  · exact Keeps.seq (dark_update fun _ => rfl) fun _ => Triple.emit fun _ _ => id
  · refine (dark_postState _ _).seq fun _ => ?_
    exact Keeps.seq (dark_update fun _ => rfl) fun _ => dark_update fun _ => rfl

theorem fail_dark (state error : String) : Triple (fun _ _ => True) (fail state error) fun _ => Dark :=
  (postState_dark _ _).seq fun _ => scheduleResolve_dark _ _

theorem Watched.of_dark {l : List NtripEvent} (h : Dark c l) : c.Watched :=
  ⟨fun hc => absurd hc h, fun hc => absurd hc h, fun hc => absurd hc h⟩

/-! ### What is outstanding -/

theorem isStreamRead_finish {which : Operation → Bool} {r : Completion} (a : Async.Pending Operation Completion) :
    isStreamRead (a.finish which r) = isStreamRead a := by
  rw [isStreamRead, Async.Pending.finish_operation, isStreamRead]

theorem isWatch_finish {which : Operation → Bool} (hwatch : which .watchdogWait = false) {r : Completion}
    (a : Async.Pending Operation Completion) : isWatch (a.finish which r) = isWatch a := by
  obtain ⟨k, outcome⟩ := a
  cases k with
  | watchdogWait => rw [Async.Pending.finish_other hwatch]
  | _ => unfold Async.Pending.finish; split <;> rfl

theorem isWatch_expire (a : Async.Pending Operation Completion) :
    isWatch (a.finish Operation.isWait (.ok [])) = isWatch a := by
  obtain ⟨k, outcome⟩ := a
  cases outcome <;> cases k <;> rfl

/-- An update of the operations alone. -/
theorem Watched.update (h : c.Watched) {q : List (Async.Pending Operation Completion)}
    (hreads : c.reads ≤ q.countP isStreamRead) (hwatches : c.watches ≤ q.countP isWatch) :
    Watched { c with pending := q } :=
  ⟨h.complete, fun hc => Nat.lt_of_lt_of_le (h.read hc) hreads,
    fun hc hlive => Nat.lt_of_lt_of_le (h.watched hc hlive) hwatches⟩

theorem Watched.begin (h : c.Watched) (k : Operation) : Watched { c with pending := Async.begin k c.pending } :=
  h.update (by simp [reads]) (by simp [watches])

theorem Watched.beginSocket (h : c.Watched) (k : Operation) : ((beginSocket k).after c).Watched := by
  refine h.update (q := if c.socketOpen then _ else _) ?_ ?_
  all_goals split <;> simp [reads, watches]

/-- The handler of an operation that is neither the read nor the watchdog. -/
theorem Watched.taken (h : c.Watched) {i : Nat} {k : Operation} {completion : Completion}
    (hready : Async.ready? c.pending i = some (k, completion)) (hread : k ≠ .streamRead)
    (hwatch : isWatch ⟨k, some completion⟩ = false) : (c.taken i).Watched := by
  have hreads := Async.countP_eraseIdx (p := isStreamRead) hready
  have hwatches := Async.countP_eraseIdx (p := isWatch) hready
  rw [hwatch] at hwatches
  have hread : isStreamRead ⟨k, some completion⟩ = false := by simpa [isStreamRead] using hread
  rw [hread] at hreads
  exact h.update (Nat.le_of_eq hreads) (Nat.le_of_eq hwatches)

/-! ### The handlers -/

theorem startReadWatchdog_watches (c : AsioConnection) : 0 < (startReadWatchdog.after c).watches := by
  have hbegin : (startReadWatchdog.after c).pending =
      Async.begin .watchdogWait ((cancel .watchdogWait).after c).pending := rfl
  rw [watches, hbegin, Async.countP_begin]
  exact Nat.succ_pos _

/-- The next read of a stream that the watchdog watches. -/
theorem doReadStream_watched (hcomplete : c.handshakeComplete) (hwatches : 0 < c.watches) :
    (doReadStream.after c).Watched := by
  have hpending : ∃ outcome, (doReadStream.after c).pending = c.pending ++ [⟨.streamRead, outcome⟩] := by
    show ∃ outcome, (if c.socketOpen then _ else _) = _
    split
    · exact ⟨none, rfl⟩
    · exact ⟨_, rfl⟩
  obtain ⟨outcome, hpending⟩ := hpending
  refine ⟨fun _ => hcomplete, fun _ => ?_, fun _ _ => ?_⟩
  · rw [reads, hpending]
    simp [isStreamRead, List.countP_append]
  · rw [watches, hpending, List.countP_append]
    exact Nat.add_pos_left hwatches _

/-- What both reads of a stream end with. -/
theorem deliver_watched (hcomplete : c.handshakeComplete) (bytes : Bytes) :
    (doReadStream.after ((lift fun n => n.deliver bytes).after (startReadWatchdog.after c))).Watched :=
  doReadStream_watched hcomplete (startReadWatchdog_watches c)

theorem startStreaming_watched (payload : Bytes) : ((startStreaming payload).after c).Watched :=
  let c := (postState true "streaming").after ((cancel .connectWait).after ((setPhase .streaming).after c))
  deliver_watched (c := c) rfl payload

/-- The handler of the read finds the stream complete if it is reported as connected. -/
theorem streamRead_watched (hcomplete : c.Connected → c.handshakeComplete) (bytes : Bytes) :
    ((streamRead bytes).after c).Watched := by
  by_cases hconnected : c.Connected
  · exact deliver_watched (hcomplete hconnected) bytes
  · exact Watched.of_dark (l := []) hconnected

/-- A program under a condition that ends with the connection reported as lost. -/
theorem Watched.when (h : c.Watched) {p : Prop} [Decidable p] {x : Program Unit}
    (hx : Triple (fun _ _ => True) x fun _ => Dark) : ((Prog.when p x).after c).Watched := by
  unfold Prog.when
  split
  · exact Watched.of_dark (hx c [] trivial)
  · exact h

theorem begin_dark (k : Operation) : Keeps Dark (begin k) := dark_update fun _ => rfl

theorem cancel_dark (k : Operation) : Keeps Dark (cancel k) := dark_update fun _ => rfl

theorem doConnect_watched (h : c.Watched) : (doConnect.after c).Watched := by
  refine h.when (p := c.stopped = false) ?_
  refine (postState_dark _ _).seq fun _ => ?_
  refine Keeps.seq (Keeps.seq (cancel_dark _) fun _ => begin_dark _) fun _ => ?_
  exact closeSocket_dark.seq fun _ => Keeps.seq (dark_update fun _ => rfl) fun _ => begin_dark _

theorem doResolve_watched (h : c.Watched) : (doResolve.after c).Watched := by
  refine h.when (p := c.stopped = false) ?_
  exact (postState_dark _ _).seq fun _ => Keeps.seq (Triple.emit fun _ _ => id) fun _ => begin_dark _

theorem scheduleResolve_watched (h : c.Watched) (reason : String) (count : Bool) :
    ((scheduleResolve reason count).after c).Watched := by
  refine h.when (p := c.stopped = false) ?_
  refine Triple.seq (Triple.always _) fun _ => Triple.seq (Triple.always _) fun _ => ?_
  refine Triple.seq (Triple.always _) fun _ => Triple.seq (Triple.always _) fun _ => ?_
  refine Triple.seq (Triple.always _) fun _ => Triple.seq (Triple.always _) fun _ => ?_
  exact (postState_dark _ _).seq fun _ => Keeps.seq (cancel_dark _) fun _ => begin_dark _

/-- The handler of an attempt's operation other than the read of the stream. -/
theorem Watched.attempt (h : c.Watched) {k : Operation} (hk : k.isWait = false) (hread : k ≠ .streamRead)
    (completion : Completion) : ((handle k completion).after c).Watched := by
  have hfail : ∀ state error, ((fail state error).after c).Watched := fun state error =>
    Watched.of_dark (l := []) (fail_dark state error c [] trivial)
  cases completion with
  | error message => cases k <;> first | exact hfail _ _ | cases hk
  | ok bytes =>
    cases k with
    | resolve => exact doConnect_watched h
    | connect =>
      have hdark : Triple (fun _ _ => True) doHandshake fun _ => Dark :=
        (postState_dark _ _).seq fun _ => dark_update fun _ => rfl
      exact Watched.of_dark (hdark c [] trivial)
    | write => exact h.beginSocket .handshakeRead
    | handshakeRead =>
      show ((handshakeRead bytes).after c).Watched
      unfold handshakeRead
      split
      · exact hfail _ _
      · exact startStreaming_watched _
    | streamRead => exact absurd rfl hread
    | _ => cases hk

/-- A timeout that acts. -/
theorem acts_dark {k : Operation} {completion : Completion} (h : c.Acts k completion) :
    Dark ((handle k completion).after c) [] := by
  cases completion with
  | error message => cases k <;> exact h.elim
  | ok bytes =>
    cases k with
    | connectWait =>
      have hconnect : Triple (fun c _ => ¬ (c.stopped ∨ c.handshakeComplete)) connectTimeout fun _ => Dark := by
        refine Triple.read fun n => Triple.when (fun _ => ?_) fun hidle c l hc => ?_
        · refine ((postState_dark _ _).pre fun _ _ _ => trivial).seq fun _ => ?_
          exact closeSocket_dark.seq fun _ => scheduleResolve_dark _ _
        · obtain ⟨rfl, hacts⟩ := hc
          exact absurd hacts hidle
      exact hconnect c [] (by simp [h.1, h.2])
    | watchdogWait =>
      have hread : Triple (fun c _ => ¬ (c.stopped ∨ ¬ c.handshakeComplete)) readTimeout fun _ => Dark := by
        refine Triple.read fun n => Triple.when (fun _ => ?_) fun hidle c l hc => ?_
        · exact ((postState_dark _ _).pre fun _ _ _ => trivial).seq fun _ => scheduleResolve_dark _ _
        · obtain ⟨rfl, hacts⟩ := hc
          exact absurd hacts hidle
      exact hread c [] (by simp [h.1, h.2])
    | _ => exact h.elim

/-- The watchdog's handler does not act when the connection is stopped or not complete. -/
theorem Watched.idle (h : c.Watched) {i : Nat} {k : Operation} {completion : Completion}
    (hready : Async.ready? c.pending i = some (k, completion)) (hk : k.isWait = true)
    (hacts : ¬ c.Acts k completion) : (c.taken i).Watched := by
  have hread : k ≠ .streamRead := by
    rintro rfl
    cases hk
  cases hwatch : isWatch ⟨k, some completion⟩ with
  | false => exact h.taken hready hread hwatch
  | true =>
    obtain ⟨rfl, bytes, rfl⟩ : k = .watchdogWait ∧ ∃ bytes, completion = .ok bytes := by
      cases completion <;> cases k <;> first | exact ⟨rfl, _, rfl⟩ | cases hwatch
    have hreads := Async.countP_eraseIdx (p := isStreamRead) hready
    have hidle : ∀ hc : c.Connected, c.stopped = true := by
      intro hc
      by_contra hlive
      exact hacts ⟨by simpa using hlive, h.complete hc⟩
    refine ⟨h.complete, fun hc => ?_, fun hc hlive => ?_⟩
    · have hpos := h.read hc
      rw [reads, hreads] at hpos
      exact hpos
    · exact absurd (hlive.symm.trans (hidle hc)) (by decide)

theorem Watched.run (h : c.Watched) {i : Nat} {k : Operation} {completion : Completion}
    (hready : Async.ready? c.pending i = some (k, completion)) :
    ((handle k completion).after (c.taken i)).Watched := by
  cases hk : k.isWait with
  | false =>
    by_cases hread : k = .streamRead
    · subst hread
      cases completion with
      | error message => exact Watched.of_dark (l := []) (fail_dark _ _ (c.taken i) [] trivial)
      | ok bytes => exact streamRead_watched (c := c.taken i) h.complete bytes
    · exact (h.taken hready hread (by cases k <;> first | rfl | cases hk)).attempt hk hread completion
  | true =>
    cases hnext : isNext ⟨k, some completion⟩ with
    | true =>
      have htaken : (c.taken i).Watched :=
        h.taken hready (by rintro rfl; cases hk) (by cases k <;> first | rfl | cases hnext)
      cases k with
      | starting => exact scheduleResolve_watched htaken _ _
      | reconnectWait =>
        cases completion with
        | error message => cases hnext
        | ok bytes => exact doResolve_watched htaken
      | _ => cases hnext
    | false =>
      by_cases hacts : (c.taken i).Acts k completion
      · exact Watched.of_dark (acts_dark hacts)
      · have hsame : handle k completion (c.taken i) = ((), c.taken i, []) := handle_idle hk hnext hacts
        rw [Prog.after, hsame]
        exact h.idle hready hk hacts

theorem Watched.step (h : c.Watched) (x : AsioInput) : (machine.step c x).1.Watched := by
  cases x with
  | expire i =>
    refine h.update (Nat.le_of_eq ?_) (Nat.le_of_eq ?_)
    · exact (Async.countP_finishAt isStreamRead_finish i).symm
    · exact (Async.countP_finishAt isWatch_expire i).symm
  | finish i completion =>
    refine h.update (Nat.le_of_eq ?_) (Nat.le_of_eq ?_)
    · exact (Async.countP_finishAt isStreamRead_finish i).symm
    · exact (Async.countP_finishAt (isWatch_finish rfl) i).symm
  | run i =>
    cases hready : Async.ready? c.pending i with
    | none =>
      rw [step_run_none hready]
      exact h
    | some ready =>
      obtain ⟨k, completion⟩ := ready
      rw [step_run hready]
      exact h.run hready
  | stop =>
    refine h.when (p := c.stopped = false) ?_
    refine Triple.seq (Triple.always _) fun _ => Triple.seq (Triple.always _) fun _ => ?_
    refine Triple.seq (Triple.always _) fun _ => Triple.seq (Triple.always _) fun _ => ?_
    exact Triple.seq (Triple.always _) fun _ => Triple.seq (Triple.always _) fun _ => postState_dark _ _

/-- However the handlers of this and of earlier attempts are interleaved: while the connection is reported as
connected, the stream is complete, its next read is outstanding and the watchdog is armed until `stop`. -/
theorem connected_watched (run : List AsioInput) : (reach run).Watched :=
  Machine.inv_final (A := fun _ _ => True) (fun _ x h _ => h.step x)
    (Watched.of_dark (l := []) Bool.false_ne_true)
    (Machine.along_of_forall fun _ _ => trivial)

end AsioConnection
end MowgliMavros
