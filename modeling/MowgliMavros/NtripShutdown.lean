import MowgliMavros.NtripWatchdog

/-!
# What is left to do after `stop`

`stop` waits for the thread that calls the handlers, so what is outstanding has to come to an end. The handlers
of a stopped connection begin no attempt, but they do not all look at `stopped_`: a read that has ended before
delivers, sets the watchdog and begins the next read, which the closed socket ends at once. Each outstanding
operation leads to at most three calls (`Operation.calls`), and only the watchdog can still be under way.
-/

namespace MowgliMavros

open Prog (Triple Keeps)

/-- How many handlers an operation of a stopped connection leads to if it does not fail. -/
def Operation.calls : Operation → Nat
  | handshakeRead | streamRead => 3
  | connect | write => 2
  | starting | reconnectWait | connectWait | watchdogWait | resolve => 1

namespace AsioConnection

/-- How many handlers the operation leads to. -/
def toCall (a : Async.Pending Operation Completion) : Nat :=
  match a.outcome with
  | some (.error _) => 1
  | _ => a.operation.calls

def burden (c : AsioConnection) : Nat := Async.weigh toCall c.pending

/-- The step calls a handler. -/
def callsHandler (c : AsioConnection) : AsioInput → Bool
  | .run i => (Async.ready? c.pending i).isSome
  | .expire _ | .finish _ _ | .stop => false

/-- What may be under way. -/
def MayRun (c : AsioConnection) (k : Operation) : Prop :=
  k ≠ .starting ∧ (k.isSocket = true → c.socketOpen = true) ∧ (c.stopped = true → k = .watchdogWait)

structure Orderly (c : AsioConnection) : Prop where
  closed : c.stopped = true → c.socketOpen = false
  underWay : Async.UnderWay c.MayRun c.pending

variable {c : AsioConnection} {n : Nat}

/-! ### What is under way -/

/-- The programs keep this before and after `stop`. -/
def OrderlyAs (stopped : Bool) (c : AsioConnection) (_ : List NtripEvent) : Prop := c.stopped = stopped ∧ c.Orderly

variable {stopped : Bool}

theorem OrderlyAs.pending {l : List NtripEvent} (h : OrderlyAs stopped c l)
    {q : List (Async.Pending Operation Completion)} (hq : Async.UnderWay c.MayRun q) :
    OrderlyAs stopped { c with pending := q } l :=
  ⟨h.1, h.2.closed, hq⟩

theorem cancel_orderly (k : Operation) : Keeps (OrderlyAs stopped) (cancel k) :=
  Keeps.update fun _ _ h => h.pending ((h.2.underWay.cancel _ _).mono fun _ => And.left)

theorem begin_orderly {k : Operation} (hstart : k ≠ .starting) (hk : k.isSocket = false)
    (hstopped : stopped = true → k = .watchdogWait) : Keeps (OrderlyAs stopped) (begin k) := by
  refine Keeps.update fun c _ h => h.pending (h.2.underWay.begin ⟨hstart, ?_, ?_⟩)
  · intro hsocket
    exact absurd (hk.symm.trans hsocket) (by decide)
  · rw [h.1]
    exact hstopped

theorem beginSocket_orderly {k : Operation} (hk : k.isSocket = true) :
    Keeps (OrderlyAs stopped) (beginSocket k) := by
  refine Keeps.update fun c _ h => h.pending ?_
  split
  · next hopen =>
    refine h.2.underWay.begin ⟨?_, fun _ => hopen, fun hstopped => ?_⟩
    · rintro rfl
      cases hk
    · exact absurd (hopen.symm.trans (h.2.closed hstopped)) (by decide)
  · exact h.2.underWay.beginEnded _ _

theorem closeSocket_orderly : Keeps (OrderlyAs stopped) closeSocket := by
  refine Keeps.update fun c _ h => ?_
  split
  · refine ⟨h.1, fun _ => rfl, (h.2.underWay.cancel _ _).mono ?_⟩
    rintro k ⟨⟨hstart, -, hstopped⟩, hsocket⟩
    exact ⟨hstart, fun hk => absurd (hsocket.symm.trans hk) (by decide), hstopped⟩
  · exact h

/-- Programs about the connection alone. -/
theorem connection_orderly {f : AsioConnection → NtripConnection} :
    Keeps (OrderlyAs stopped) (Prog.update fun c => { c with connection := f c } : Program Unit) :=
  Keeps.update fun _ _ h => ⟨h.1, h.2.closed, h.2.underWay⟩

theorem lift_orderly (f : NtripConnection → NtripConnection × List NtripOutput) :
    Keeps (OrderlyAs stopped) (lift f) :=
  Keeps.read fun _ => Keeps.seq connection_orderly fun _ => Triple.emitAll fun _ _ => id

theorem postState_orderly (connected : Bool) (state error : String) :
    Keeps (OrderlyAs stopped) (postState connected state error) :=
  lift_orderly _

/-- What a handler does unless the connection is stopped. -/
theorem unlessStopped_orderly {x : Program Unit} (hx : Keeps (OrderlyAs false) x) :
    Keeps (OrderlyAs stopped) (do let c ← Prog.get; Prog.when (c.stopped = false) x) := by
  refine Triple.read fun n => Triple.when (fun hlive => ?_) fun _ _ _ => And.right
  intro c l h
  obtain ⟨rfl, hstopped, h⟩ := h
  obtain rfl : stopped = false := hstopped.symm.trans hlive
  exact hx c l ⟨hstopped, h⟩

theorem scheduleResolve_orderly (reason : String) (count : Bool) :
    Keeps (OrderlyAs stopped) (scheduleResolve reason count) := by
  refine unlessStopped_orderly ?_
  refine closeSocket_orderly.seq fun _ => (cancel_orderly _).seq fun _ => (cancel_orderly _).seq fun _ => ?_
  refine (cancel_orderly _).seq fun _ => Keeps.seq connection_orderly fun _ => Keeps.seq (Keeps.when ?_) fun _ => ?_
  · exact Keeps.seq connection_orderly fun _ => Triple.emit fun _ _ => id
  · refine (postState_orderly _ _ _).seq fun _ => (cancel_orderly _).seq fun _ => ?_
    exact begin_orderly (by decide) rfl (by decide)

theorem fail_orderly (state error : String) : Keeps (OrderlyAs stopped) (fail state error) :=
  (postState_orderly _ _ _).seq fun _ => scheduleResolve_orderly _ _

theorem doResolve_orderly : Keeps (OrderlyAs stopped) doResolve := by
  refine unlessStopped_orderly ((postState_orderly _ _ _).seq fun _ => ?_)
  exact Keeps.seq (Triple.emit fun _ _ => id) fun _ => begin_orderly (by decide) rfl (by decide)

theorem asyncConnect_orderly : Keeps (OrderlyAs false) asyncConnect := by
  refine closeSocket_orderly.seq fun _ => ?_
  refine Triple.seq (R := fun c l => OrderlyAs false c l ∧ c.socketOpen = true) (Triple.update fun c l h => ?_)
    fun _ => Triple.update fun c l h => ?_
  · refine ⟨⟨h.1, fun hstopped => absurd (h.1.symm.trans hstopped) (by decide), ?_⟩, rfl⟩
    exact h.2.underWay.mono fun k hk => ⟨hk.1, fun _ => rfl, hk.2.2⟩
  · refine h.1.pending (h.1.2.underWay.begin ⟨by decide, fun _ => h.2, fun hstopped => ?_⟩)
    exact absurd (h.1.1.symm.trans hstopped) (by decide)

theorem doConnect_orderly : Keeps (OrderlyAs stopped) doConnect := by
  refine unlessStopped_orderly ((postState_orderly _ _ _).seq fun _ => Keeps.seq ?_ fun _ => asyncConnect_orderly)
  exact (cancel_orderly _).seq fun _ => begin_orderly (by decide) rfl (by decide)

theorem startReadWatchdog_orderly : Keeps (OrderlyAs stopped) startReadWatchdog :=
  (cancel_orderly _).seq fun _ => begin_orderly (by decide) rfl fun _ => rfl

theorem handle_orderly (k : Operation) (completion : Completion) :
    Keeps (OrderlyAs stopped) (handle k completion) := by
  cases completion with
  | error message =>
    cases k with
    | starting => exact scheduleResolve_orderly _ _
    | reconnectWait | connectWait | watchdogWait => exact Keeps.skip
    | _ => exact fail_orderly _ _
  | ok bytes =>
    cases k with
    | starting => exact scheduleResolve_orderly _ _
    | reconnectWait => exact doResolve_orderly
    | connectWait =>
      refine Keeps.read fun _ => Keeps.when ((postState_orderly _ _ _).seq fun _ => ?_)
      exact closeSocket_orderly.seq fun _ => scheduleResolve_orderly _ _
    | watchdogWait =>
      exact Keeps.read fun _ => Keeps.when ((postState_orderly _ _ _).seq fun _ => scheduleResolve_orderly _ _)
    | resolve => exact doConnect_orderly
    | connect => exact (postState_orderly _ _ _).seq fun _ => beginSocket_orderly rfl
    | write => exact beginSocket_orderly rfl
    | handshakeRead =>
      show Keeps _ (handshakeRead bytes)
      unfold handshakeRead
      split
      · exact fail_orderly _ _
      · refine Keeps.seq connection_orderly fun _ => (cancel_orderly _).seq fun _ => ?_
        refine (postState_orderly _ _ _).seq fun _ => startReadWatchdog_orderly.seq fun _ => ?_
        exact (lift_orderly _).seq fun _ => beginSocket_orderly rfl
    | streamRead =>
      refine startReadWatchdog_orderly.seq fun _ => (lift_orderly _).seq fun _ => beginSocket_orderly rfl

/-- What `stop` does not cancel itself is of the socket. -/
theorem MayRun.isSocket {k : Operation} (h : c.MayRun k) (hreconnect : decide (k = .reconnectWait) = false)
    (hconnect : decide (k = .connectWait) = false) (hwatchdog : decide (k = .watchdogWait) = false)
    (hresolve : decide (k = .resolve) = false) : k.isSocket = true := by
  cases k with
  | starting => exact absurd rfl h.1
  | reconnectWait => exact absurd hreconnect (by decide)
  | connectWait => exact absurd hconnect (by decide)
  | watchdogWait => exact absurd hwatchdog (by decide)
  | resolve => exact absurd hresolve (by decide)
  | _ => rfl

/-- `stop` leaves nothing under way. -/
theorem stop_underWay (h : c.Orderly) : Async.UnderWay (fun _ => False) (stop.after c).pending := by
  obtain ⟨connection, stopped, socketOpen, pending⟩ := c
  have hcancelled := (((h.underWay.cancel (· = .reconnectWait) (.error "Operation canceled")).cancel
    (· = .connectWait) (.error "Operation canceled")).cancel (· = .watchdogWait) (.error "Operation canceled")).cancel
    (· = .resolve) (.error "Operation canceled")
  cases socketOpen with
  | false =>
    refine hcancelled.mono ?_
    rintro k ⟨⟨⟨⟨hmay, hreconnect⟩, hconnect⟩, hwatchdog⟩, hresolve⟩
    exact Bool.false_ne_true (hmay.2.1 (hmay.isSocket hreconnect hconnect hwatchdog hresolve))
  | true =>
    refine (hcancelled.cancel Operation.isSocket (.error "Operation canceled")).mono ?_
    rintro k ⟨⟨⟨⟨⟨hmay, hreconnect⟩, hconnect⟩, hwatchdog⟩, hresolve⟩, hsocket⟩
    exact absurd (hmay.isSocket hreconnect hconnect hwatchdog hresolve) (by simp [hsocket])

theorem stop_closed (c : AsioConnection) : (stop.after c).stopped = true ∧ (stop.after c).socketOpen = false := by
  obtain ⟨connection, stopped, socketOpen, pending⟩ := c
  cases socketOpen <;> exact ⟨rfl, rfl⟩

theorem Orderly.step (h : c.Orderly) (x : AsioInput) : (machine.step c x).1.Orderly := by
  cases x with
  | expire i => exact ⟨h.closed, h.underWay.finishAt _ _ i⟩
  | finish i completion => exact ⟨h.closed, h.underWay.finishAt _ _ i⟩
  | run i =>
    cases hready : Async.ready? c.pending i with
    | none =>
      rw [step_run_none hready]
      exact h
    | some ready =>
      obtain ⟨k, completion⟩ := ready
      rw [step_run hready]
      exact (handle_orderly k completion (c.taken i) [] ⟨rfl, h.closed, h.underWay.eraseIdx i⟩).2
  | stop =>
    show ((Prog.when (c.stopped = false) stop).after c).Orderly
    unfold Prog.when
    split
    · exact ⟨fun _ => (stop_closed c).2, (stop_underWay h).mono fun _ => False.elim⟩
    · exact h

theorem orderly_reach (run : List AsioInput) : (reach run).Orderly := by
  refine Machine.inv_final (A := fun _ _ => True) (fun _ x h _ => h.step x) ⟨nofun, ?_⟩
    (Machine.along_of_forall fun _ _ => trivial)
  intro a ha hnone
  obtain rfl := List.mem_singleton.1 ha
  cases hnone

/-! ### How many handlers are called -/

/-- The connection is stopped, at most `n` handlers are left to call, and the events are calls of the callbacks. -/
structure Draining (n : Nat) (c : AsioConnection) (l : List NtripEvent) : Prop where
  stopped : c.stopped = true
  closed : c.socketOpen = false
  left : c.burden ≤ n
  outputs : ∀ e ∈ l, ∃ o, e = .output o

theorem toCall_pos (a : Async.Pending Operation Completion) : 0 < toCall a := by
  obtain ⟨k, outcome⟩ := a
  cases outcome with
  | none => cases k <;> decide
  | some completion => cases completion <;> cases k <;> exact Nat.succ_pos _

theorem toCall_le (a : Async.Pending Operation Completion) : toCall a ≤ 3 := by
  obtain ⟨k, outcome⟩ := a
  cases outcome with
  | none => cases k <;> decide
  | some completion => cases completion <;> cases k <;> simp [toCall, Operation.calls]

theorem toCall_finish (which : Operation → Bool) (r : Completion) (a : Async.Pending Operation Completion) :
    toCall (a.finish which r) ≤ toCall a := by
  obtain ⟨k, outcome⟩ := a
  unfold Async.Pending.finish
  split
  · next hnone =>
    cases outcome with
    | some _ => cases hnone
    | none => cases r <;> cases k <;> simp [toCall, Operation.calls]
  · exact Nat.le_refl _

namespace Draining
variable {l : List NtripEvent}

theorem cancel (k : Operation) : Keeps (Draining n) (AsioConnection.cancel k) :=
  Keeps.update fun _ _ h => ⟨h.stopped, h.closed,
    Nat.le_trans (Async.weigh_cancel (toCall_finish _ _)) h.left, h.outputs⟩

theorem begin {k : Operation} (hk : k.calls = 1) :
    Triple (Draining n) (AsioConnection.begin k) fun _ => Draining (n + 1) := by
  refine Triple.update fun c l h => ⟨h.stopped, h.closed, ?_, h.outputs⟩
  have := h.left
  simp only [burden, Async.weigh_begin, toCall, hk] at this ⊢
  omega

/-- The closed socket ends the operation at once. -/
theorem beginSocket (k : Operation) :
    Triple (Draining n) (AsioConnection.beginSocket k) fun _ => Draining (n + 1) := by
  refine Triple.update fun c l h => ⟨h.stopped, h.closed, ?_, h.outputs⟩
  have := h.left
  rw [h.closed]
  simp only [burden, Bool.false_eq_true, if_false, Async.weigh_beginEnded, toCall] at this ⊢
  omega

theorem connection {f : AsioConnection → NtripConnection} :
    Keeps (Draining n) (Prog.update fun c => { c with connection := f c } : Program Unit) :=
  Keeps.update fun _ _ h => ⟨h.stopped, h.closed, h.left, h.outputs⟩

theorem lift (f : NtripConnection → NtripConnection × List NtripOutput) :
    Keeps (Draining n) (AsioConnection.lift f) := by
  refine Keeps.read fun _ => Keeps.seq connection fun _ => Keeps.emitMap (fun o c l h => ?_) _
  refine ⟨h.stopped, h.closed, h.left, fun e he => ?_⟩
  rcases List.mem_append.1 he with he | he
  · exact h.outputs e he
  · exact ⟨o, List.mem_singleton.1 he⟩

theorem postState (connected : Bool) (state error : String) :
    Keeps (Draining n) (AsioConnection.postState connected state error) :=
  lift _

/-- What a handler does only if the connection is not stopped. -/
theorem guarded {p : AsioConnection → Prop} [DecidablePred p] (hp : ∀ c, p c → c.stopped = false) (x : Program Unit) :
    Keeps (Draining n) (do let c ← Prog.get; Prog.when (p c) x) := by
  refine Triple.read fun m => Triple.when (fun hlive => ?_) fun _ _ _ => And.right
  intro c l h
  obtain ⟨rfl, h⟩ := h
  exact absurd ((hp c hlive).symm.trans h.stopped) (by decide)

theorem fail (state error : String) : Keeps (Draining n) (AsioConnection.fail state error) :=
  (postState _ _ _).seq fun _ => guarded (fun _ => id) _

theorem mono {m : Nat} (h : Draining n c l) (hnm : n ≤ m) : Draining m c l :=
  ⟨h.stopped, h.closed, Nat.le_trans h.left hnm, h.outputs⟩

/-- A read that has ended before sets the watchdog and begins the next read. -/
theorem deliver (bytes : Bytes) :
    Triple (Draining n) (AsioConnection.streamRead bytes) fun _ => Draining (n + 2) := by
  refine Triple.seq (Triple.seq (cancel _) fun _ => begin rfl) fun _ => ?_
  exact Triple.seq (lift _) fun _ => beginSocket _

theorem startStreaming (payload : Bytes) :
    Triple (Draining n) (AsioConnection.startStreaming payload) fun _ => Draining (n + 2) := by
  refine Triple.seq connection fun _ => Triple.seq (cancel _) fun _ => Triple.seq (postState _ _ _) fun _ => ?_
  exact deliver payload

/-- A handler leaves at most what its operation stands for, less its own call. -/
theorem handle (k : Operation) (completion : Completion) :
    Triple (Draining n) (AsioConnection.handle k completion)
      fun _ => Draining (n + (toCall ⟨k, some completion⟩ - 1)) := by
  have hkeeps : ∀ {x : Program Unit} {m : Nat}, Keeps (Draining n) x →
      Triple (Draining n) x fun _ => Draining (n + m) :=
    fun hx => hx.weaken (fun _ _ => id) fun _ _ _ h => h.mono (Nat.le_add_right _ _)
  cases completion with
  | error message =>
    cases k with
    | starting => exact hkeeps (guarded (fun _ => id) _)
    | reconnectWait | connectWait | watchdogWait => exact hkeeps Keeps.skip
    | _ => exact hkeeps (fail _ _)
  | ok bytes =>
    cases k with
    | starting | reconnectWait | resolve => exact hkeeps (guarded (fun _ => id) _)
    | connectWait | watchdogWait =>
      exact hkeeps (guarded (fun c hacts => Bool.eq_false_iff.2 fun hstopped => hacts (.inl hstopped)) _)
    | connect => exact Triple.seq (postState _ _ _) fun _ => beginSocket _
    | write => exact beginSocket _
    | handshakeRead =>
      show Triple _ (AsioConnection.handshakeRead bytes) _
      unfold AsioConnection.handshakeRead
      split
      · exact hkeeps (fail _ _)
      · exact startStreaming _
    | streamRead => exact deliver bytes

end Draining

/-- The step of a stopped connection. -/
theorem draining_step (hstopped : c.stopped = true) (hclosed : c.socketOpen = false) (x : AsioInput) :
    (machine.step c x).1.stopped = true ∧ (machine.step c x).1.socketOpen = false ∧
      (callsHandler c x).toNat + (machine.step c x).1.burden ≤ c.burden ∧
      ∀ e ∈ (machine.step c x).2, ∃ o, e = .output o := by
  cases x with
  | expire i =>
    refine ⟨hstopped, hclosed, ?_, fun _ he => nomatch he⟩
    exact Nat.le_trans (Nat.le_of_eq (Nat.zero_add _)) (Async.weigh_finishAt (toCall_finish _ _) i)
  | finish i completion =>
    refine ⟨hstopped, hclosed, ?_, fun _ he => nomatch he⟩
    exact Nat.le_trans (Nat.le_of_eq (Nat.zero_add _)) (Async.weigh_finishAt (toCall_finish _ _) i)
  | run i =>
    cases hready : Async.ready? c.pending i with
    | none =>
      rw [step_run_none hready]
      exact ⟨hstopped, hclosed, by simp [callsHandler, hready], fun _ he => nomatch he⟩
    | some ready =>
      obtain ⟨k, completion⟩ := ready
      rw [step_run hready]
      have hdraining : Draining (c.taken i).burden (c.taken i) [] :=
        ⟨hstopped, hclosed, Nat.le_refl _, fun _ he => nomatch he⟩
      have hafter := Draining.handle k completion (c.taken i) [] hdraining
      refine ⟨hafter.stopped, hafter.closed, ?_, hafter.outputs⟩
      have hburden : c.burden = (c.taken i).burden + toCall ⟨k, some completion⟩ := Async.weigh_eraseIdx hready
      have hpos := toCall_pos ⟨k, some completion⟩
      have hleft := hafter.left
      simp only [callsHandler, hready, Option.isSome_some, Bool.toNat_true]
      omega
  | stop =>
    have hsame : machine.step c .stop = (c, []) := by
      show (Prog.when (c.stopped = false) stop c).2 = _
      rw [Prog.when_neg (by simp [hstopped])]
      rfl
    rw [hsame]
    exact ⟨hstopped, hclosed, Nat.le_of_eq (Nat.zero_add _), fun _ he => nomatch he⟩

/-- What the thread still does after the run, when the run has stopped the connection. -/
structure WindsDown (run post : List AsioInput) : Prop where
  /-- Each handler that is called takes away from what is left. -/
  called : machine.tally callsHandler (reach run) post + (reach (run ++ post)).burden ≤ (reach run).burden
  /-- Nothing is resolved or counted any more. -/
  outputs : ∃ es, trace (run ++ post) = trace run ++ es ∧ ∀ e ∈ es, ∃ o, e = .output o
  closed : (reach (run ++ post)).socketOpen = false
  underWay : Async.UnderWay (· = .watchdogWait) (reach (run ++ post)).pending
  /-- A handler may be called, or may once the watchdog has expired. -/
  next : (reach (run ++ post)).pending ≠ [] → ∃ i, callsHandler (reach (run ++ post)) (.run i) = true ∨
    callsHandler (reach (run ++ post ++ [.expire i])) (.run i) = true
  /-- When the thread ends, the connection is reported as lost. -/
  ended : (reach (run ++ post)).pending = [] → ¬ (reach (run ++ post)).Connected

theorem next_call {run : List AsioInput} (h : Async.UnderWay (· = .watchdogWait) (reach run).pending)
    (hpending : (reach run).pending ≠ []) :
    ∃ i, callsHandler (reach run) (.run i) = true ∨ callsHandler (reach (run ++ [.expire i])) (.run i) = true := by
  obtain ⟨⟨k, outcome⟩, hmem⟩ := List.exists_mem_of_ne_nil _ hpending
  obtain ⟨i, hi⟩ := List.mem_iff_getElem?.1 hmem
  refine ⟨i, ?_⟩
  cases outcome with
  | some completion =>
    left
    rw [callsHandler, Async.ready?_of_getElem? hi]
    rfl
  | none =>
    right
    obtain rfl : k = .watchdogWait := h _ hmem rfl
    have hexpired : reach (run ++ [.expire i]) = (machine.step (reach run) (.expire i)).1 := Machine.final_append _ _
    have hready : Async.ready? (machine.step (reach run) (.expire i)).1.pending i = some (.watchdogWait, .ok []) :=
      Async.ready?_finishAt hi rfl
    rw [hexpired, callsHandler, hready]
    rfl

/-- After `stop` the connection winds down whatever asio does next: at most three handlers are called for each
operation that is outstanding, none of them begins an attempt, and what can be under way is the read watchdog. -/
theorem stop_winds_down (run post : List AsioInput) (hstopped : (reach run).stopped = true) :
    (reach run).burden ≤ 3 * (reach run).pending.length ∧ WindsDown run post := by
  have hclosed := (orderly_reach run).closed hstopped
  have hreach : reach (run ++ post) = machine.final (reach run) post := Machine.final_append run post
  have hsteps : machine.Along (fun _ _ => True) (reach run) post := Machine.along_of_forall fun _ _ => trivial
  have hafter : (reach (run ++ post)).stopped = true ∧ (reach (run ++ post)).socketOpen = false := by
    rw [hreach]
    refine Machine.inv_final (I := fun c : AsioConnection => c.stopped = true ∧ c.socketOpen = false)
      (fun c x h _ => ?_) ⟨hstopped, hclosed⟩ hsteps
    obtain ⟨hs, hc, -⟩ := draining_step h.1 h.2 x
    exact ⟨hs, hc⟩
  have hunderWay : Async.UnderWay (· = .watchdogWait) (reach (run ++ post)).pending :=
    (orderly_reach (run ++ post)).underWay.mono fun k hk => hk.2.2 hafter.1
  refine ⟨Async.weigh_le toCall_le, ?_, ?_, hafter.2, hunderWay, next_call hunderWay, fun hpending hconnected => ?_⟩
  · rw [hreach]
    refine Machine.tally_budget (fun c : AsioConnection => c.stopped = true ∧ c.socketOpen = false) callsHandler
      burden (fun c x h _ => ?_) ⟨hstopped, hclosed⟩ hsteps
    obtain ⟨hs, hc, hburden, -⟩ := draining_step h.1 h.2 x
    exact ⟨⟨hs, hc⟩, hburden⟩
  · refine ⟨machine.log (reach run) post, Machine.log_append run post, ?_⟩
    have hlog := Machine.history (l := []) (H := fun l c =>
      (c.stopped = true ∧ c.socketOpen = false) ∧ ∀ e ∈ l, ∃ o, e = NtripEvent.output o) (fun l c x h _ => ?_)
      ⟨⟨hstopped, hclosed⟩, fun _ he => nomatch he⟩ hsteps
    · exact hlog.2
    · obtain ⟨hs, hc, -, houtputs⟩ := draining_step h.1.1 h.1.2 x
      refine ⟨⟨hs, hc⟩, fun e he => ?_⟩
      rcases List.mem_append.1 he with he | he
      · exact h.2 e he
      · exact houtputs e he
  · have hread := (connected_watched (run ++ post)).read hconnected
    rw [reads, hpending] at hread
    exact absurd hread (by decide)

/-- `stop` is called when a read has ended and its handler has not been called. -/
def stoppedInRead : List AsioInput := brokenOff.take 12 ++ [.stop]

/-- The thread ends after as many calls as the bound says, one of them that of the watchdog's handler. -/
def windingDown : List AsioInput := [.run 2, .run 3, .expire 2, .run 2, .run 0, .run 0]

theorem stoppedInRead_winds_down :
    (reach stoppedInRead).stopped = true ∧ WindsDown stoppedInRead windingDown ∧
      machine.tally callsHandler (reach stoppedInRead) windingDown = (reach stoppedInRead).burden ∧
      (reach (stoppedInRead ++ windingDown)).pending = [] :=
  have hstopped : (reach stoppedInRead).stopped = true := by decide +kernel
  ⟨hstopped, (stop_winds_down stoppedInRead windingDown hstopped).2, by decide +kernel, by decide +kernel⟩

end AsioConnection
end MowgliMavros
