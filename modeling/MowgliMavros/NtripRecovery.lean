import MowgliMavros.NtripReconnect

/-!
# A connection that runs can always be made

Whatever asio has called so far, the timeouts among it, a connection that is not stopped waits for the next
resolve or has an operation of an attempt outstanding (`Outstanding`). From there a caster that answers brings
it to the stream: what is outstanding fails, and the next attempt goes through.
-/

namespace MowgliMavros
namespace AsioConnection

open Prog (Triple)

/-- Something that leads on is outstanding. -/
def Outstanding (c : AsioConnection) : Prop := c.stopped = false → 0 < c.attempts + c.waits

/-- The last calls of the callbacks when the stream begins with `payload`. -/
def streamBegins (payload : Bytes) : List NtripEvent :=
  .output (.state true "streaming") :: if payload = [] then [] else [.output (.data payload)]

/-- The stream has begun with `payload`. -/
structure Streams (payload : Bytes) (c : AsioConnection) (l : List NtripEvent) : Prop where
  live : c.stopped = false
  complete : c.handshakeComplete
  connected : c.connection.stats.connected = true
  delivered : streamBegins payload <:+ l

/-- At most `n` steps, none of them the call of `stop`, lead to the stream. -/
def Recovers (payload : Bytes) (n : Nat) (c : AsioConnection) : Prop :=
  ∃ post, post.length ≤ n ∧ (∀ x ∈ post, x ≠ .stop) ∧ Streams payload (machine.final c post) (machine.log c post)

variable {c : AsioConnection} {l : List NtripEvent} {first payload : Bytes} {n : Nat}

/-! ### Something is always outstanding -/

theorem outstanding_attempt {k : Operation} (hk : k.isWait = false) (outcome : Option Completion)
    (q : List (Async.Pending Operation Completion)) : Outstanding { c with pending := q ++ [⟨k, outcome⟩] } := by
  intro _
  have hattempts : 0 < attempts { c with pending := q ++ [⟨k, outcome⟩] } :=
    List.countP_pos_iff.2 ⟨⟨k, outcome⟩, by simp, by simp [hk]⟩
  omega

theorem begin_outstanding {k : Operation} (hk : k.isWait = false) :
    Triple (fun _ _ => True) (begin k) fun _ c _ => c.Outstanding :=
  Triple.update fun _ _ _ => outstanding_attempt hk none _

theorem beginSocket_outstanding {k : Operation} (hk : k.isWait = false) :
    Triple (fun _ _ => True) (beginSocket k) fun _ c _ => c.Outstanding := by
  refine Triple.update fun c _ _ => ?_
  split
  · exact outstanding_attempt hk none _
  · exact outstanding_attempt hk _ _

theorem begin_reconnectWait_outstanding :
    Triple (fun _ _ => True) (begin .reconnectWait) fun _ c _ => c.Outstanding := by
  refine Triple.update fun c _ _ _ => ?_
  have hwaits : waits { c with pending := Async.begin .reconnectWait c.pending } = c.waits + 1 := by
    simp [waits, isNext]
  omega

/-- The last thing that the program does, if it does not return at once, leaves something outstanding. -/
theorem unlessStopped_outstanding {x : Program Unit} (hx : Triple (fun _ _ => True) x fun _ c _ => c.Outstanding) :
    Triple (fun _ _ => True) (do let c ← Prog.get; Prog.when (c.stopped = false) x) fun _ c _ => c.Outstanding := by
  refine Triple.read fun n => Triple.when (fun _ => hx.pre fun _ _ _ => trivial) fun hstopped c l hc hlive => ?_
  obtain ⟨rfl, -⟩ := hc
  exact absurd hlive hstopped

theorem scheduleResolve_outstanding (reason : String) (count : Bool) :
    Triple (fun _ _ => True) (scheduleResolve reason count) fun _ c _ => c.Outstanding := by
  refine unlessStopped_outstanding ?_
  refine Triple.seq (Triple.always _) fun _ => Triple.seq (Triple.always _) fun _ => ?_
  refine Triple.seq (Triple.always _) fun _ => Triple.seq (Triple.always _) fun _ => ?_
  refine Triple.seq (Triple.always _) fun _ => Triple.seq (Triple.always _) fun _ => ?_
  refine Triple.seq (Triple.always _) fun _ => Triple.seq (Triple.always _) fun _ => ?_
  exact begin_reconnectWait_outstanding

theorem attempting_outstanding : Attempting (fun _ _ => True) fun c _ => c.Outstanding where
  quiet _ := Triple.always _
  begin hk := begin_outstanding hk
  beginSocket hk := beginSocket_outstanding hk
  stopped _ _ hstopped _ := fun hlive => absurd (hlive.symm.trans hstopped) (by decide)
  fail _ _ := Triple.seq (Triple.always _) fun _ => scheduleResolve_outstanding _ _

/-- A timeout that acts. -/
theorem acts_outstanding {k : Operation} {completion : Completion} (h : c.Acts k completion) :
    ((handle k completion).after c).Outstanding := by
  cases completion with
  | error message => cases k <;> exact h.elim
  | ok bytes =>
    cases k with
    | connectWait =>
      have hconnect : Triple (fun c _ => ¬ (c.stopped ∨ c.handshakeComplete)) connectTimeout
          fun _ c _ => c.Outstanding := by
        refine Triple.read fun n => Triple.when (fun _ => Triple.pre ?_ fun _ _ _ => trivial) ?_
        · refine Triple.seq (Triple.always _) fun _ => Triple.seq (Triple.always _) fun _ => ?_
          exact scheduleResolve_outstanding _ _
        · rintro hidle c l ⟨rfl, hacts⟩
          exact absurd hacts hidle
      exact hconnect c [] (by simp [h.1, h.2])
    | watchdogWait =>
      have hread : Triple (fun c _ => ¬ (c.stopped ∨ ¬ c.handshakeComplete)) readTimeout
          fun _ c _ => c.Outstanding := by
        refine Triple.read fun n => Triple.when (fun _ => Triple.pre ?_ fun _ _ _ => trivial) ?_
        · exact Triple.seq (Triple.always _) fun _ => scheduleResolve_outstanding _ _
        · rintro hidle c l ⟨rfl, hacts⟩
          exact absurd hacts hidle
      exact hread c [] (by simp [h.1, h.2])
    | _ => exact h.elim

/-- A wait that leads to the next resolve. -/
theorem next_outstanding {k : Operation} {completion : Completion} (h : isNext ⟨k, some completion⟩ = true) :
    ((handle k completion).after c).Outstanding := by
  cases k with
  | starting => exact scheduleResolve_outstanding _ _ c [] trivial
  | reconnectWait =>
    cases completion with
    | error message => cases h
    | ok bytes =>
      refine unlessStopped_outstanding ?_ c [] trivial
      exact Triple.seq (Triple.always _) fun _ => Triple.seq (Triple.always _) fun _ => begin_outstanding rfl
  | _ => cases h

theorem Outstanding.quiet (h : c.Outstanding) {x : Program Unit} (hx : Quiet x) : (x.after c).Outstanding := by
  intro hlive
  rw [hx.attempts, hx.waits]
  exact h (hx.stopped c ▸ hlive)

theorem Outstanding.run (h : c.Outstanding) {i : Nat} {k : Operation} {completion : Completion}
    (hready : Async.ready? c.pending i = some (k, completion)) :
    ((handle k completion).after (c.taken i)).Outstanding := by
  cases hk : k.isWait with
  | false => exact attempting_outstanding.handle hk completion (c.taken i) [] trivial
  | true =>
    cases hnext : isNext ⟨k, some completion⟩ with
    | true => exact next_outstanding hnext
    | false =>
      by_cases hacts : (c.taken i).Acts k completion
      · exact acts_outstanding hacts
      · -- the handler does nothing, and was not one of those that lead on
        have hsame : handle k completion (c.taken i) = ((), c.taken i, []) := handle_idle hk hnext hacts
        obtain ⟨hattempts, hwaits⟩ := taken_counts hready
        rw [hk] at hattempts
        rw [hnext] at hwaits
        rw [Prog.after, hsame]
        intro hlive
        have hpos := h hlive
        rwa [hattempts, hwaits] at hpos

theorem Outstanding.step (h : c.Outstanding) (x : AsioInput) : (machine.step c x).1.Outstanding := by
  cases x with
  | expire i =>
    refine h.quiet (Quiet.update (fun _ => rfl) (fun c => ?_) (fun c => ?_) fun _ => rfl)
    · exact Async.countP_finishAt isAttempt_finish i
    · exact Async.countP_finishAt isNext_expire i
  | finish i completion =>
    refine h.quiet (Quiet.update (fun _ => rfl) (fun c => ?_) (fun c => ?_) fun _ => rfl)
    · exact Async.countP_finishAt isAttempt_finish i
    · exact Async.countP_finishAt (isNext_finish rfl rfl) i
  | run i =>
    cases hready : Async.ready? c.pending i with
    | none =>
      rw [step_run_none hready]
      exact h
    | some ready =>
      obtain ⟨k, completion⟩ := ready
      rw [step_run hready]
      exact h.run hready
  | stop =>
    intro hlive
    cases hstopped : c.stopped with
    | true =>
      have hsame : machine.step c .stop = (c, []) := by
        show (Prog.when (c.stopped = false) stop c).2 = _
        rw [Prog.when_neg (by simp [hstopped])]
        rfl
      rw [hsame] at hlive
      exact absurd (hlive.symm.trans hstopped) (by decide)
    | false =>
      have hstop : machine.step c .stop = (stop c).2 := by
        show (Prog.when (c.stopped = false) stop c).2 = _
        rw [Prog.when, if_pos hstopped]
      rw [hstop] at hlive
      obtain ⟨connection, stopped, socketOpen, pending⟩ := c
      cases socketOpen <;> cases hlive

theorem outstanding_reach (run : List AsioInput) : (reach run).Outstanding := by
  refine Machine.inv_final (A := fun _ _ => True) (fun _ x h _ => h.step x) (fun _ => by decide) ?_
  exact Machine.along_of_forall fun _ _ => trivial

/-! ### The attempt that goes through -/

namespace Recovers

theorem mono {m : Nat} (h : Recovers payload n c) (hnm : n ≤ m) : Recovers payload m c := by
  obtain ⟨post, hlength, hpost⟩ := h
  exact ⟨post, Nat.le_trans hlength hnm, hpost⟩

theorem step {x : AsioInput} (hx : x ≠ .stop) (h : Recovers payload n (machine.step c x).1) :
    Recovers payload (n + 1) c := by
  obtain ⟨post, hlength, hpost, hstreams⟩ := h
  refine ⟨x :: post, by simpa using hlength, by simpa using ⟨hx, hpost⟩, ?_⟩
  obtain ⟨live, complete, connected, delivered⟩ := hstreams
  exact ⟨live, complete, connected, delivered.trans (List.suffix_append _ _)⟩

/-- The handler of an operation that has ended is called. -/
theorem run {i : Nat} {k : Operation} {completion : Completion}
    (hready : Async.ready? c.pending i = some (k, completion))
    (h : Recovers payload n ((handle k completion).after (c.taken i))) : Recovers payload (n + 1) c := by
  refine Recovers.step (x := .run i) (by simp) ?_
  rw [step_run hready]
  exact h

/-- An operation that is under way ends, and its handler is called. -/
theorem finish {i : Nat} {k : Operation} (hi : c.pending[i]? = some ⟨k, none⟩) (hk : k.isWait = false)
    (completion : Completion)
    (h : ∀ q, Recovers payload n ((handle k completion).after { c with pending := q })) :
    Recovers payload (n + 2) c := by
  refine Recovers.step (x := .finish i completion) (by simp) ?_
  exact Recovers.run (Async.ready?_finishAt hi (by simp [hk])) (h _)

end Recovers

theorem emitted_startStreaming (c : AsioConnection) (payload : Bytes) :
    (startStreaming payload).emitted c = streamBegins payload := by
  show [NtripEvent.output _] ++ (List.map NtripEvent.output (if payload = [] then [] else _) ++ []) = _
  rw [streamBegins]
  split <;> rfl

/-- The first read is answered with what the handshake takes for a stream. -/
theorem recovers_handshakeRead (hfirst : handshakeVerdict first = .accept payload) (hlive : c.stopped = false)
    {i : Nat} (hi : c.pending[i]? = some ⟨.handshakeRead, none⟩) : Recovers payload 2 c := by
  have hready : Async.ready? (machine.step c (.finish i (.ok first))).1.pending i =
      some (.handshakeRead, .ok first) := Async.ready?_finishAt hi rfl
  refine Recovers.step (x := .finish i (.ok first)) (by simp) ⟨[.run i], Nat.le_refl 1, by simp, ?_⟩
  rw [Machine.final_cons, Machine.final_nil, Machine.log_cons, Machine.log_nil, List.append_nil]
  have hhandle : handle .handshakeRead (.ok first) = startStreaming payload := by
    show handshakeRead first = _
    rw [handshakeRead, hfirst]
  rw [step_run hready, hhandle]
  exact ⟨hlive, rfl, rfl, [], (emitted_startStreaming _ payload).symm⟩

theorem recovers_write (hfirst : handshakeVerdict first = .accept payload) (hlive : c.stopped = false)
    (hopen : c.socketOpen = true) {i : Nat} (hi : c.pending[i]? = some ⟨.write, none⟩) : Recovers payload 4 c := by
  refine Recovers.finish hi rfl (.ok []) fun q => ?_
  have hbegin : (handle .write (.ok [])).after { c with pending := q } =
      { c with pending := Async.begin .handshakeRead q } := by
    show ({ c with pending := if c.socketOpen then _ else _ } : AsioConnection) = _
    rw [if_pos hopen]
  rw [hbegin]
  exact recovers_handshakeRead hfirst hlive Async.getElem?_begin

theorem recovers_connect (hfirst : handshakeVerdict first = .accept payload) (hlive : c.stopped = false)
    (hopen : c.socketOpen = true) {i : Nat} (hi : c.pending[i]? = some ⟨.connect, none⟩) : Recovers payload 6 c := by
  refine Recovers.finish hi rfl (.ok []) fun q => ?_
  obtain ⟨connection, stopped, socketOpen, pending⟩ := c
  cases hopen
  exact recovers_write hfirst hlive rfl (i := q.length) Async.getElem?_begin

theorem recovers_resolve (hfirst : handshakeVerdict first = .accept payload) (hlive : c.stopped = false)
    {i : Nat} (hi : c.pending[i]? = some ⟨.resolve, none⟩) : Recovers payload 8 c := by
  refine Recovers.finish hi rfl (.ok []) fun q => ?_
  obtain ⟨connection, stopped, socketOpen, pending⟩ := c
  cases hlive
  cases socketOpen
  all_goals exact recovers_connect hfirst rfl rfl Async.getElem?_begin

theorem recovers_reconnectWait (hfirst : handshakeVerdict first = .accept payload) (hlive : c.stopped = false)
    {i : Nat} (hi : c.pending[i]? = some ⟨.reconnectWait, none⟩) : Recovers payload 10 c := by
  refine Recovers.step (x := .expire i) (by simp) ?_
  refine Recovers.run (Async.ready?_finishAt hi rfl) ?_
  obtain ⟨connection, stopped, socketOpen, pending⟩ := c
  cases hlive
  exact recovers_resolve hfirst rfl Async.getElem?_begin

theorem recovers_scheduleResolve (hfirst : handshakeVerdict first = .accept payload) (hlive : c.stopped = false)
    (reason : String) (count : Bool) : Recovers payload 10 ((scheduleResolve reason count).after c) := by
  obtain ⟨connection, stopped, socketOpen, pending⟩ := c
  cases hlive
  cases socketOpen <;> cases count
  all_goals exact recovers_reconnectWait hfirst rfl Async.getElem?_begin

/-- A failure of the attempt leads to the next one. -/
theorem recovers_fail (hfirst : handshakeVerdict first = .accept payload) (hlive : c.stopped = false)
    (state error : String) : Recovers payload 10 ((fail state error).after c) :=
  recovers_scheduleResolve (c := (postState false state error).after c) hfirst hlive "reconnecting" true

/-! ### From every state -/

/-- An operation of an attempt that has failed. -/
theorem recovers_error (hfirst : handshakeVerdict first = .accept payload) (hlive : c.stopped = false)
    {i : Nat} {k : Operation} {message : String} (hready : Async.ready? c.pending i = some (k, .error message))
    (hk : k.isWait = false) : Recovers payload 11 c := by
  refine Recovers.run hready ?_
  have hfail : ∀ state error, Recovers payload 10 ((fail state error).after (c.taken i)) :=
    fun state error => recovers_fail (c := c.taken i) hfirst hlive state error
  cases k <;> first | exact hfail _ _ | cases hk

/-- An operation of an attempt that is under way may fail. -/
theorem recovers_none (hfirst : handshakeVerdict first = .accept payload) (hlive : c.stopped = false)
    {i : Nat} {k : Operation} (hi : c.pending[i]? = some ⟨k, none⟩) (hk : k.isWait = false) :
    Recovers payload 12 c := by
  refine Recovers.step (x := .finish i (.error "")) (by simp) ?_
  have hready : Async.ready? (machine.step c (.finish i (.error ""))).1.pending i = some (k, .error "") :=
    Async.ready?_finishAt hi (by simp [hk])
  exact recovers_error (c := (machine.step c (.finish i (.error ""))).1) hfirst hlive hready hk

theorem attempting_recovers (hfirst : handshakeVerdict first = .accept payload) :
    Attempting (fun c _ => c.stopped = false) fun c _ => c.Recovers payload 12 where
  quiet hx := fun c _ hlive => (hx.stopped c).trans hlive
  begin hk := Triple.update fun c _ hlive =>
    recovers_none (c := { c with pending := Async.begin _ c.pending }) hfirst hlive Async.getElem?_begin hk
  beginSocket hk := by
    refine Triple.update fun c _ hlive => ?_
    split
    · exact recovers_none (c := { c with pending := Async.begin _ c.pending }) hfirst hlive Async.getElem?_begin hk
    · refine Recovers.mono ?_ (Nat.le_succ 11)
      exact recovers_error (c := { c with pending := Async.beginEnded _ _ c.pending }) hfirst hlive
        Async.ready?_beginEnded hk
  stopped _ _ hstopped hlive := absurd (hlive.symm.trans hstopped) (by decide)
  fail state error := fun c _ hlive => (recovers_fail hfirst hlive state error).mono (by decide)

/-- The handler of an operation of an attempt, or of a wait that leads to one, has ended. -/
theorem recovers_ready (hfirst : handshakeVerdict first = .accept payload) (hlive : c.stopped = false) {i : Nat}
    {k : Operation} {completion : Completion} (hready : Async.ready? c.pending i = some (k, completion))
    (hk : k.isWait = false ∨ isNext ⟨k, some completion⟩ = true) : Recovers payload 13 c := by
  refine Recovers.run hready ?_
  rcases hk with hk | hk
  · exact (attempting_recovers hfirst).handle hk completion (c.taken i) [] hlive
  · cases k with
    | starting =>
      exact (recovers_scheduleResolve (c := c.taken i) hfirst hlive "starting" false).mono (by decide)
    | reconnectWait =>
      cases completion with
      | error message => cases hk
      | ok bytes =>
        refine Recovers.mono ?_ (show 8 ≤ 12 by decide)
        obtain ⟨connection, stopped, socketOpen, pending⟩ := c
        cases hlive
        exact recovers_resolve hfirst rfl Async.getElem?_begin
    | _ => cases hk

theorem recovers_of_outstanding (hfirst : handshakeVerdict first = .accept payload) (hlive : c.stopped = false)
    (h : c.Outstanding) : Recovers payload 13 c := by
  have hmem : ∃ a ∈ c.pending, (!a.operation.isWait) = true ∨ isNext a = true := by
    rcases Nat.add_pos_iff_pos_or_pos.1 (h hlive) with hpos | hpos
    · obtain ⟨a, ha, hp⟩ := List.countP_pos_iff.1 hpos
      exact ⟨a, ha, .inl hp⟩
    · obtain ⟨a, ha, hp⟩ := List.countP_pos_iff.1 hpos
      exact ⟨a, ha, .inr hp⟩
  obtain ⟨⟨k, outcome⟩, hmem, hk⟩ := hmem
  obtain ⟨i, hi⟩ := List.mem_iff_getElem?.1 hmem
  rw [Bool.not_eq_true'] at hk
  cases outcome with
  | some completion => exact recovers_ready hfirst hlive (Async.ready?_of_getElem? hi) hk
  | none =>
    rcases hk with hk | hk
    · exact (recovers_none hfirst hlive hi hk).mono (by decide)
    · cases k with
      | starting =>
        refine Recovers.step (x := .expire i) (by simp) (Recovers.mono ?_ (show 11 ≤ 12 by decide))
        refine Recovers.run (Async.ready?_finishAt hi rfl) ?_
        exact recovers_scheduleResolve (c := (machine.step c (.expire i)).1.taken i) hfirst hlive "starting" false
      | reconnectWait => exact (recovers_reconnectWait hfirst hlive hi).mono (by decide)
      | _ => cases hk

/-- A connection that is not stopped is never stuck: whatever the handlers have done in any order, at most 13 steps
of asio lead from there to the stream, whose first bytes are passed on. -/
theorem never_stuck {first payload : Bytes} (hfirst : handshakeVerdict first = .accept payload)
    (run : List AsioInput) (hlive : (reach run).stopped = false) :
    0 < (reach run).attempts + (reach run).waits ∧
      ∃ post, post.length ≤ 13 ∧ (∀ x ∈ post, x ≠ .stop) ∧
        Streams payload (reach (run ++ post)) (trace (run ++ post)) := by
  refine ⟨outstanding_reach run hlive, ?_⟩
  obtain ⟨post, hlength, hpost, live, complete, connected, delivered⟩ :=
    recovers_of_outstanding hfirst hlive (outstanding_reach run)
  refine ⟨post, hlength, hpost, ?_⟩
  rw [reach, trace, Machine.final_append, Machine.log_append]
  exact ⟨live, complete, connected, delivered.trans (List.suffix_append _ _)⟩

/-- The connect timeout closes the socket, and the handler of the connect that this aborts has not been called. -/
theorem never_stuck_timedOut :
    handshakeVerdict (ascii "ICY 200 OK\r\n\r\nhello") = .accept (ascii "hello") ∧
      ∃ post, post.length ≤ 13 ∧ (∀ x ∈ post, x ≠ .stop) ∧
        Streams (ascii "hello") (reach (countedTwice.dropLast ++ post)) (trace (countedTwice.dropLast ++ post)) :=
  have hverdict : handshakeVerdict (ascii "ICY 200 OK\r\n\r\nhello") = .accept (ascii "hello") := by
    with_unfolding_all rfl
  ⟨hverdict, (never_stuck hverdict countedTwice.dropLast (by decide +kernel)).2⟩

end AsioConnection
end MowgliMavros
