import Mathlib.Data.List.Induction
import MowgliMavros.Lib.Monitor
import MowgliMavros.NtripHandlers

/-!
# How often a lost connection is handled

As long as neither the connect timeout nor the read timeout acts, one operation of the resolver or of the
socket is outstanding during an attempt, and none between attempts, when only the wait for the next resolve is
(`Handled`). Then every loss is counted once. A timeout that acts ends the attempt while that operation is still
outstanding; its handler does not look for the cancellation and handles the loss once more (`doomed_of_attempt`).
-/

namespace MowgliMavros

open Prog (Triple Keeps)

/-- An attempt goes from a resolve to the count of its loss; the memory is whether one is under way. -/
def lossLaw : Monitor Bool NtripEvent where
  observe trying e :=
    match e with
    | .resolving => true
    | .counted => false
    | .output _ => trying
  Allows trying e :=
    match e with
    | .resolving => trying = false
    | .counted => trying = true
    | .output _ => True

instance (trying : Bool) : ∀ e, Decidable (lossLaw.Allows trying e)
  | .resolving => inferInstanceAs (Decidable (trying = false))
  | .counted => inferInstanceAs (Decidable (trying = true))
  | .output _ => inferInstanceAs (Decidable True)

def NtripEvent.isCount : NtripEvent → Bool
  | counted => true
  | resolving | output _ => false

namespace AsioConnection

/-- The outstanding operations of the resolver and of the socket. -/
def attempts (c : AsioConnection) : Nat := c.pending.countP fun a => !a.operation.isWait

/-- What will lead to the next resolve: the posted start or a wait that was not cancelled. -/
def isNext (a : Async.Pending Operation Completion) : Bool :=
  match a.operation, a.outcome with
  | .starting, _ => true
  | .reconnectWait, some (.error _) => false
  | .reconnectWait, _ => true
  | _, _ => false

def waits (c : AsioConnection) : Nat := c.pending.countP isNext

/-- The handler of the operation finds that the attempt has failed or the stream is lost. -/
def Fails (c : AsioConnection) : Operation → Completion → Prop
  | .connectWait, .ok _ => ¬ c.handshakeComplete
  | .watchdogWait, .ok _ => c.handshakeComplete
  | .handshakeRead, .ok bytes => ∃ state error, handshakeVerdict bytes = .reject state error
  | .resolve, .error _ | .connect, .error _ | .write, .error _ | .handshakeRead, .error _
  | .streamRead, .error _ => True
  | _, _ => False

/-- The handler is that of a timeout that has not been cancelled, and does not return at once. -/
def Acts (c : AsioConnection) : Operation → Completion → Prop
  | .connectWait, .ok _ => c.stopped = false ∧ ¬ c.handshakeComplete
  | .watchdogWait, .ok _ => c.stopped = false ∧ c.handshakeComplete
  | _, _ => False

/-- The step is the connect timeout or the read timeout. -/
def TimesOut (c : AsioConnection) : AsioInput → Prop
  | .run i => ∃ handler ∈ Async.ready? c.pending i, c.Acts handler.1 handler.2
  | _ => False

instance (c : AsioConnection) (k : Operation) : ∀ completion, Decidable (c.Acts k completion)
  | .error _ => .isFalse fun h => by cases k <;> exact h
  | .ok _ =>
    match k with
    | .connectWait => inferInstanceAs (Decidable (_ ∧ ¬ _))
    | .watchdogWait => inferInstanceAs (Decidable (_ ∧ c.handshakeComplete))
    | .starting | .reconnectWait | .resolve | .connect | .write | .handshakeRead | .streamRead => .isFalse id

instance (c : AsioConnection) : ∀ x, Decidable (c.TimesOut x)
  | .run i => inferInstanceAs (Decidable (∃ handler ∈ Async.ready? c.pending i, c.Acts handler.1 handler.2))
  | .expire _ | .finish _ _ | .stop => .isFalse id

/-- Neither timeout acts in the run from `c`. -/
def Prompt (c : AsioConnection) (run : List AsioInput) : Prop := machine.Along (fun c x => ¬ c.TimesOut x) c run

instance (c : AsioConnection) (run : List AsioInput) : Decidable (c.Prompt run) :=
  inferInstanceAs (Decidable (machine.Along (fun c x => ¬ c.TimesOut x) c run))

/-- Each loss is counted once and leads to one new resolve. -/
structure HandledOnce (run : List AsioInput) : Prop where
  /-- There is one count from each resolve to the next one, and none before the first. -/
  once : lossLaw.Accepts false (trace run)
  counter : (reach run).connection.stats.reconnectCount = ((trace run).countP NtripEvent.isCount).toUInt64
  /-- Whatever ends an attempt is counted. -/
  counted : ∀ i k completion, (reach run).stopped = false →
    Async.ready? (reach run).pending i = some (k, completion) → (reach run).Fails k completion →
    .counted ∈ (machine.step (reach run) (.run i)).2
  /-- Between attempts one wait for the next resolve is outstanding, and nothing else that leads to one. -/
  next : (reach run).stopped = false → lossLaw.after false (trace run) = false →
    (reach run).waits = 1 ∧ (reach run).attempts = 0
  resolved : ∀ i bytes, (reach run).stopped = false →
    Async.ready? (reach run).pending i = some (.reconnectWait, .ok bytes) →
    .resolving ∈ (machine.step (reach run) (.run i)).2

/-! ### What a handler leaves outstanding -/

/-- `attempts` and `waits` are outstanding, and `trying` is what the law remembers of the events so far. -/
structure Counts (attempts waits : Nat) (trying : Bool) (c : AsioConnection) (l : List NtripEvent) : Prop where
  law : lossLaw.Accepts false l
  counter : c.connection.stats.reconnectCount = (l.countP NtripEvent.isCount).toUInt64
  live : c.stopped = false → c.attempts = attempts ∧ c.waits = waits ∧ lossLaw.after false l = trying

def Handled (c : AsioConnection) (l : List NtripEvent) : Prop :=
  ∃ trying : Bool, Counts trying.toNat (!trying).toNat trying c l

/-- The program counts nothing, starts no attempt and leaves the waits for one alone. -/
structure Quiet (x : Program Unit) : Prop where
  stopped : ∀ c, (x.after c).stopped = c.stopped
  attempts : ∀ c, (x.after c).attempts = c.attempts
  waits : ∀ c, (x.after c).waits = c.waits
  counter : ∀ c, (x.after c).connection.stats.reconnectCount = c.connection.stats.reconnectCount
  outputs : ∀ c, ∀ e ∈ x.emitted c, ∃ o, e = .output o

variable {a w : Nat} {trying : Bool} {c : AsioConnection} {l : List NtripEvent}

theorem after_outputs {es : List NtripEvent} (h : ∀ e ∈ es, ∃ o, e = .output o) :
    lossLaw.after trying es = trying := by
  induction es with
  | nil => rfl
  | cons e es ih =>
    obtain ⟨o, rfl⟩ := h e (by simp)
    exact ih fun e he => h e (by simp [he])

theorem accepts_outputs {es : List NtripEvent} (h : ∀ e ∈ es, ∃ o, e = .output o) : lossLaw.Accepts trying es := by
  induction es with
  | nil => trivial
  | cons e es ih =>
    obtain ⟨o, rfl⟩ := h e (by simp)
    exact ⟨trivial, ih fun e he => h e (by simp [he])⟩

theorem count_outputs {es : List NtripEvent} (h : ∀ e ∈ es, ∃ o, e = .output o) :
    es.countP NtripEvent.isCount = 0 := by
  rw [List.countP_eq_zero]
  intro e he
  obtain ⟨o, rfl⟩ := h e he
  simp [NtripEvent.isCount]

theorem isNext_attempt {k : Operation} (hk : k.isWait = false) (outcome : Option Completion) :
    isNext ⟨k, outcome⟩ = false := by
  cases k <;> first | rfl | cases hk

theorem isAttempt_finish {which : Operation → Bool} {r : Completion} (a : Async.Pending Operation Completion) :
    (!(a.finish which r).operation.isWait) = !a.operation.isWait := by
  rw [Async.Pending.finish_operation]

theorem isNext_finish {which : Operation → Bool} (hwait : which .reconnectWait = false)
    (hstart : which .starting = false) {r : Completion} (a : Async.Pending Operation Completion) :
    isNext (a.finish which r) = isNext a := by
  obtain ⟨k, outcome⟩ := a
  cases k with
  | starting => rw [Async.Pending.finish_other hstart]
  | reconnectWait => rw [Async.Pending.finish_other hwait]
  | _ => unfold Async.Pending.finish; split <;> rfl

theorem isNext_expire (a : Async.Pending Operation Completion) :
    isNext (a.finish Operation.isWait (.ok [])) = isNext a := by
  obtain ⟨k, outcome⟩ := a
  cases outcome <;> cases k <;> rfl

namespace Quiet
variable {x : Program Unit}

theorem keeps (h : Quiet x) : Keeps (Counts a w trying) x := by
  intro c l hc
  obtain ⟨law, counter, live⟩ := hc
  refine ⟨?_, ?_, fun hlive => ?_⟩
  · exact (Monitor.accepts_append _ _).2 ⟨law, accepts_outputs (h.outputs c)⟩
  · rw [h.counter, counter, List.countP_append, count_outputs (h.outputs c), Nat.add_zero]
  · rw [h.attempts, h.waits, Monitor.after_append, after_outputs (h.outputs c)]
    exact live (h.stopped c ▸ hlive)

theorem keepsLive (h : Quiet x) {stopped : Bool} :
    Keeps (fun c l => c.stopped = stopped ∧ Counts a w trying c l) x :=
  fun c l hc => ⟨(h.stopped c).trans hc.1, h.keeps c l hc.2⟩

theorem seq {y : Program Unit} (hx : Quiet x) (hy : Quiet y) : Quiet (x >>= fun _ => y) := by
  refine ⟨fun c => ?_, fun c => ?_, fun c => ?_, fun c => ?_, fun c e he => ?_⟩
  · exact (hy.stopped (x.after c)).trans (hx.stopped c)
  · exact (hy.attempts (x.after c)).trans (hx.attempts c)
  · exact (hy.waits (x.after c)).trans (hx.waits c)
  · exact (hy.counter (x.after c)).trans (hx.counter c)
  · rcases List.mem_append.1 he with he | he
    · exact hx.outputs c e he
    · exact hy.outputs (x.after c) e he

theorem update {f : AsioConnection → AsioConnection} (hs : ∀ c, (f c).stopped = c.stopped)
    (ha : ∀ c, (f c).attempts = c.attempts) (hw : ∀ c, (f c).waits = c.waits)
    (hc : ∀ c, (f c).connection.stats.reconnectCount = c.connection.stats.reconnectCount) : Quiet (Prog.update f) :=
  ⟨hs, ha, hw, hc, fun _ _ he => nomatch he⟩

theorem lift {f : NtripConnection → NtripConnection × List NtripOutput}
    (h : ∀ n, (f n).1.stats.reconnectCount = n.stats.reconnectCount) : Quiet (AsioConnection.lift f) := by
  refine ⟨fun _ => rfl, fun _ => rfl, fun _ => rfl, fun c => h c.connection, fun c e he => ?_⟩
  have hmap : (AsioConnection.lift f).emitted c = (f c.connection).2.map .output := List.nil_append _
  rw [hmap] at he
  obtain ⟨o, -, rfl⟩ := List.mem_map.1 he
  exact ⟨o, rfl⟩

theorem postState (connected : Bool) (state error : String) :
    Quiet (AsioConnection.postState connected state error) :=
  lift fun _ => rfl

theorem deliver (bytes : Bytes) : Quiet (AsioConnection.lift fun n => n.deliver bytes) := lift fun _ => rfl

theorem setPhase (phase : NtripPhase) : Quiet (AsioConnection.setPhase phase) :=
  update (fun _ => rfl) (fun _ => rfl) (fun _ => rfl) fun _ => rfl

theorem cancel {k : Operation} (hk : k ≠ .reconnectWait) (hk' : k ≠ .starting) : Quiet (AsioConnection.cancel k) := by
  refine update (fun _ => rfl) (fun c => ?_) (fun c => ?_) fun _ => rfl
  · exact Async.countP_cancel isAttempt_finish
  · exact Async.countP_cancel fun a => isNext_finish (by simpa using hk.symm) (by simpa using hk'.symm) a

theorem closeSocket : Quiet AsioConnection.closeSocket := by
  refine update (fun c => ?_) (fun c => ?_) (fun c => ?_) fun c => ?_
  all_goals split
  any_goals rfl
  · exact Async.countP_cancel isAttempt_finish
  · exact Async.countP_cancel fun a => isNext_finish rfl rfl a

/-- A timer that is set and does not lead to a resolve. -/
theorem begin {k : Operation} (hk : k.isWait = true) (hnext : isNext ⟨k, none⟩ = false) :
    Quiet (AsioConnection.begin k) := by
  refine update (fun _ => rfl) (fun c => ?_) (fun c => ?_) fun _ => rfl
  · simp [AsioConnection.attempts, hk]
  · simp [AsioConnection.waits, hnext]

theorem startConnectTimeout : Quiet AsioConnection.startConnectTimeout :=
  (cancel (by decide) (by decide)).seq (begin rfl rfl)

theorem startReadWatchdog : Quiet AsioConnection.startReadWatchdog :=
  (cancel (by decide) (by decide)).seq (begin rfl rfl)

end Quiet

/-! ### The programs that are not quiet -/

theorem Counts.of_stopped (h : Counts a w trying c l) (hstopped : c.stopped = true) (a' w' : Nat) (trying' : Bool) :
    Counts a' w' trying' c l :=
  ⟨h.law, h.counter, fun hlive => by rw [hstopped] at hlive; cases hlive⟩

theorem begin_attempt {k : Operation} (hk : k.isWait = false) :
    Triple (Counts a w trying) (begin k) fun _ => Counts (a + 1) w trying := by
  refine Triple.update fun c l h => ⟨h.law, h.counter, fun hlive => ?_⟩
  obtain ⟨ha, hw, ht⟩ := h.live hlive
  refine ⟨?_, ?_, ht⟩
  · simp [attempts, hk, ← ha]
  · simp [waits, isNext_attempt hk, ← hw]

theorem beginSocket_counts {k : Operation} (hk : k.isWait = false) :
    Triple (Counts a w trying) (beginSocket k) fun _ => Counts (a + 1) w trying := by
  refine Triple.update fun c l h => ⟨h.law, h.counter, fun hlive => ?_⟩
  obtain ⟨ha, hw, ht⟩ := h.live hlive
  refine ⟨?_, ?_, ht⟩
  · simp only [attempts]
    split <;> simp [hk, ← ha, attempts]
  · simp only [waits]
    split <;> simp [isNext_attempt hk, ← hw, waits]

/-- Setting the timer anew when no wait is outstanding. -/
theorem cancel_reconnectWait : Keeps (Counts a 0 trying) (cancel .reconnectWait) := by
  refine Triple.update fun c l h => ⟨h.law, h.counter, fun hlive => ?_⟩
  obtain ⟨ha, hw, ht⟩ := h.live hlive
  refine ⟨?_, ?_, ht⟩
  · rw [← ha]
    exact Async.countP_cancel isAttempt_finish
  · simp only [waits, Async.cancel, List.countP_eq_zero, List.forall_mem_map] at hw ⊢
    intro a ha hnext
    refine hw a ha ?_
    obtain ⟨k, outcome⟩ := a
    unfold Async.Pending.finish at hnext
    split at hnext
    · cases k <;> cases hnext
      rfl
    · exact hnext

theorem begin_reconnectWait : Triple (Counts a w trying) (begin .reconnectWait) fun _ => Counts a (w + 1) trying := by
  refine Triple.update fun c l h => ⟨h.law, h.counter, fun hlive => ?_⟩
  obtain ⟨ha, hw, ht⟩ := h.live hlive
  refine ⟨?_, ?_, ht⟩
  · simp [attempts, Operation.isWait, ← ha]
  · simp [waits, isNext, ← hw]

theorem countReconnect_counts :
    Triple (fun c l => c.stopped = false ∧ Counts a w true c l) countReconnect fun _ => Counts a w false := by
  rintro c l ⟨hlive, h⟩
  obtain ⟨ha, hw, ht⟩ := h.live hlive
  refine ⟨?_, ?_, fun _ => ⟨ha, hw, ?_⟩⟩
  · exact (Monitor.accepts_append _ _).2 ⟨h.law, ht, trivial⟩
  · show c.connection.stats.reconnectCount + 1 = _
    rw [h.counter]
    show _ = ((l ++ [NtripEvent.counted]).countP NtripEvent.isCount).toUInt64
    simp [NtripEvent.isCount, List.countP_append]
  · show lossLaw.after false (l ++ [NtripEvent.counted]) = false
    rw [Monitor.after_append]
    rfl

/-! ### The handlers -/

/-- A guard on `stopped_`: what is outstanding matters no more once the connection is stopped. -/
theorem unlessStopped {a' w' : Nat} {trying' : Bool} {x : Program Unit}
    (hx : Triple (fun c l => c.stopped = false ∧ Counts a w trying c l) x fun _ => Counts a' w' trying') :
    Triple (Counts a w trying) (do let c ← Prog.get; Prog.when (c.stopped = false) x)
      fun _ => Counts a' w' trying' := by
  refine Triple.read fun n => Triple.when (fun hlive => hx.pre ?_) fun hstopped c l hc => ?_
  · rintro c l ⟨rfl, h⟩
    exact ⟨hlive, h⟩
  · obtain ⟨rfl, h⟩ := hc
    exact h.of_stopped (by simpa using hstopped) _ _ _

theorem scheduleResolve_counts (a : Nat) (reason : String) (count : Bool) :
    Triple (Counts a 0 count) (scheduleResolve reason count) fun _ => Counts a 1 false := by
  refine unlessStopped ?_
  refine Triple.seq (Quiet.closeSocket).keepsLive fun _ => ?_
  refine Triple.seq (Quiet.cancel (by decide) (by decide)).keepsLive fun _ => ?_
  refine Triple.seq (Quiet.cancel (by decide) (by decide)).keepsLive fun _ => ?_
  refine Triple.seq (Quiet.cancel (by decide) (by decide)).keepsLive fun _ => ?_
  refine Triple.seq (Quiet.setPhase _).keepsLive fun _ => ?_
  have hcount : Triple (fun c l => c.stopped = false ∧ Counts a 0 count c l) (Prog.when (count = true) countReconnect)
      fun _ => Counts a 0 false := by
    cases count with
    | true => exact countReconnect_counts
    | false => exact Triple.pure fun _ _ h => h.2
  refine Triple.seq hcount fun _ => ?_
  refine Triple.seq (Quiet.postState _ _ _).keeps fun _ => ?_
  exact Triple.seq cancel_reconnectWait fun _ => begin_reconnectWait

theorem fail_counts (state error : String) : Triple (Counts 0 0 true) (fail state error) fun _ => Counts 0 1 false :=
  Triple.seq (Quiet.postState _ _ _).keeps fun _ => scheduleResolve_counts 0 _ true

theorem doResolve_counts : Triple (Counts 0 0 false) doResolve fun _ => Counts 1 0 true := by
  refine unlessStopped ?_
  refine Triple.seq (Quiet.postState _ _ _).keepsLive fun _ => ?_
  refine Triple.seq (R := Counts 0 0 true) (Triple.emit fun c l hc => ?_) fun _ => begin_attempt rfl
  obtain ⟨hlive, h⟩ := hc
  obtain ⟨ha, hw, ht⟩ := h.live hlive
  refine ⟨?_, ?_, fun _ => ⟨ha, hw, ?_⟩⟩
  · exact (Monitor.accepts_append _ _).2 ⟨h.law, ht, trivial⟩
  · rw [h.counter, List.countP_append]
    rfl
  · rw [Monitor.after_append]
    rfl

/-- `P` holds while no operation of an attempt is outstanding, `Q` once one has begun. -/
structure Attempting (P Q : AsioConnection → List NtripEvent → Prop) : Prop where
  quiet : ∀ {x}, Quiet x → Keeps P x
  begin : ∀ {k : Operation}, k.isWait = false → Triple P (begin k) fun _ => Q
  beginSocket : ∀ {k : Operation}, k.isWait = false → Triple P (beginSocket k) fun _ => Q
  stopped : ∀ c l, c.stopped = true → P c l → Q c l
  fail : ∀ state error, Triple P (fail state error) fun _ => Q

namespace Attempting
variable {P Q : AsioConnection → List NtripEvent → Prop}

theorem doConnect (h : Attempting P Q) : Triple P doConnect fun _ => Q := by
  refine Triple.read fun n => Triple.when (fun _ => Triple.pre ?_ fun _ _ => And.right) fun hstopped c l hc => ?_
  · refine Triple.seq (h.quiet (Quiet.postState _ _ _)) fun _ => ?_
    refine Triple.seq (h.quiet Quiet.startConnectTimeout) fun _ => ?_
    refine Triple.seq (h.quiet Quiet.closeSocket) fun _ => ?_
    refine Triple.seq (h.quiet (Quiet.update ?_ ?_ ?_ ?_)) fun _ => h.begin rfl
    all_goals exact fun _ => rfl
  · obtain ⟨rfl, hc⟩ := hc
    exact h.stopped c l (by simpa using hstopped) hc

theorem doHandshake (h : Attempting P Q) : Triple P doHandshake fun _ => Q :=
  Triple.seq (h.quiet (Quiet.postState _ _ _)) fun _ => h.beginSocket rfl

theorem startStreaming (h : Attempting P Q) (payload : Bytes) : Triple P (startStreaming payload) fun _ => Q := by
  refine Triple.seq (h.quiet (Quiet.setPhase _)) fun _ => ?_
  refine Triple.seq (h.quiet (Quiet.cancel (by decide) (by decide))) fun _ => ?_
  refine Triple.seq (h.quiet (Quiet.postState _ _ _)) fun _ => ?_
  refine Triple.seq (h.quiet Quiet.startReadWatchdog) fun _ => ?_
  exact Triple.seq (h.quiet (Quiet.deliver _)) fun _ => h.beginSocket rfl

theorem streamRead (h : Attempting P Q) (bytes : Bytes) : Triple P (streamRead bytes) fun _ => Q := by
  refine Triple.seq (h.quiet Quiet.startReadWatchdog) fun _ => ?_
  exact Triple.seq (h.quiet (Quiet.deliver _)) fun _ => h.beginSocket rfl

/-- The handler of an operation of the resolver or of the socket begins the next one or fails. -/
theorem handle (h : Attempting P Q) {k : Operation} (hk : k.isWait = false) (completion : Completion) :
    Triple P (handle k completion) fun _ => Q := by
  cases completion with
  | error message => cases k <;> first | exact h.fail _ _ | cases hk
  | ok bytes =>
    cases k with
    | resolve => exact h.doConnect
    | connect => exact h.doHandshake
    | write => exact h.beginSocket rfl
    | handshakeRead =>
      show Triple P (handshakeRead bytes) _
      unfold handshakeRead
      split
      · exact h.fail _ _
      · exact h.startStreaming _
    | streamRead => exact h.streamRead _
    | _ => cases hk

end Attempting

theorem ended {x : Program Unit} {trying : Bool} (hx : Triple (Counts 0 0 trying) x fun _ => Counts 0 1 false) :
    Triple (Counts 0 0 trying) x fun _ => Handled :=
  hx.weaken (fun _ _ => id) fun _ _ _ h => ⟨false, h⟩

theorem attempting_counts : Attempting (Counts 0 0 true) Handled where
  quiet hx := hx.keeps
  begin hk := (begin_attempt hk).weaken (fun _ _ => id) fun _ _ _ h => ⟨true, h⟩
  beginSocket hk := (beginSocket_counts hk).weaken (fun _ _ => id) fun _ _ _ h => ⟨true, h⟩
  stopped _ _ hstopped h := ⟨true, h.of_stopped hstopped _ _ _⟩
  fail state error := ended (fail_counts state error)

/-- The handler that leads to the next resolve. -/
theorem handle_next {k : Operation} {completion : Completion} (hk : isNext ⟨k, some completion⟩ = true) :
    Triple (Counts 0 0 false) (handle k completion) fun _ => Handled := by
  cases k with
  | starting => exact ended (scheduleResolve_counts 0 _ false)
  | reconnectWait =>
    cases completion with
    | ok bytes => exact doResolve_counts.weaken (fun _ _ => id) fun _ _ _ h => ⟨true, h⟩
    | error message => cases hk
  | _ => cases hk

/-! ### Every step -/

theorem Handled.quiet (h : Handled c l) {x : Program Unit} (hx : Quiet x) :
    Handled (x.after c) (l ++ x.emitted c) := by
  obtain ⟨trying, h⟩ := h
  exact ⟨trying, hx.keeps c l h⟩

/-- The waits of a connection that has stopped lead to no resolve. -/
theorem cancel_stopped (k : Operation) :
    Keeps (fun c l => c.stopped = true ∧ Counts a w trying c l) (cancel k) := by
  refine Triple.update fun c l h => ?_
  obtain ⟨hstopped, h⟩ := h
  exact ⟨hstopped, h.law, h.counter, fun hlive => absurd (hlive.symm.trans hstopped) (by decide)⟩

theorem stop_keeps : Keeps Handled stop := by
  refine Triple.seq (R := fun c l => c.stopped = true ∧ Counts 0 1 false c l) (Triple.update fun c l h => ?_)
    fun _ => ?_
  · obtain ⟨trying, h⟩ := h
    exact ⟨rfl, h.law, h.counter, nofun⟩
  refine Triple.seq (cancel_stopped _) fun _ => ?_
  refine Triple.seq (cancel_stopped _) fun _ => ?_
  refine Triple.seq (cancel_stopped _) fun _ => ?_
  refine Triple.seq (cancel_stopped _) fun _ => ?_
  refine Triple.seq (Quiet.closeSocket).keepsLive fun _ => ?_
  exact (Quiet.postState _ _ _).keepsLive.weaken (fun _ _ => id) fun _ _ _ h => ⟨false, h.2⟩

theorem Handled.stop (h : Handled c l) : Handled (machine.step c .stop).1 (l ++ (machine.step c .stop).2) :=
  Triple.read (P := Handled)
    (fun _ => Triple.when (fun _ => stop_keeps.pre fun _ _ => And.right) fun _ _ _ => And.right) c l h

theorem connectTimeout_idle (h : c.stopped = true ∨ c.handshakeComplete) : connectTimeout c = ((), c, []) := by
  show Prog.when _ _ c = _
  rw [Prog.when_neg (not_not.2 h)]
  rfl

theorem readTimeout_idle (h : c.stopped = true ∨ ¬ c.handshakeComplete) : readTimeout c = ((), c, []) := by
  show Prog.when _ _ c = _
  rw [Prog.when_neg (not_not.2 h)]
  rfl

/-- The state in which the handler at place `i` is called. -/
def taken (c : AsioConnection) (i : Nat) : AsioConnection := { c with pending := c.pending.eraseIdx i }

theorem step_run {i : Nat} {k : Operation} {completion : Completion}
    (h : Async.ready? c.pending i = some (k, completion)) :
    machine.step c (.run i) =
      ((handle k completion).after (c.taken i), (handle k completion).emitted (c.taken i)) := by
  show (call i (Async.ready? c.pending i) c).2 = _
  rw [h]
  rfl

theorem step_run_none {i : Nat} (h : Async.ready? c.pending i = none) : machine.step c (.run i) = (c, []) := by
  show (call i (Async.ready? c.pending i) c).2 = _
  rw [h]
  rfl

/-- A wait that was cancelled, or that of a timeout that does not act. -/
theorem handle_idle {k : Operation} {completion : Completion} (hwait : k.isWait = true)
    (hnext : isNext ⟨k, some completion⟩ = false) (hidle : ¬ c.Acts k completion) :
    handle k completion c = ((), c, []) := by
  cases k with
  | starting => cases hnext
  | reconnectWait =>
    cases completion with
    | ok bytes => cases hnext
    | error message => rfl
  | connectWait =>
    cases completion with
    | ok bytes =>
      refine connectTimeout_idle ?_
      by_contra h
      rw [not_or, Bool.not_eq_true] at h
      exact hidle h
    | error message => rfl
  | watchdogWait =>
    cases completion with
    | ok bytes =>
      refine readTimeout_idle ?_
      by_contra h
      rw [not_or, Bool.not_eq_true, not_not] at h
      exact hidle h
    | error message => rfl
  | _ => cases hwait

/-- What is outstanding apart from the operation whose handler is called. -/
theorem taken_counts {i : Nat} {k : Operation} {completion : Completion}
    (hready : Async.ready? c.pending i = some (k, completion)) :
    c.attempts = (c.taken i).attempts + (if !k.isWait then 1 else 0) ∧
      c.waits = (c.taken i).waits + if isNext ⟨k, some completion⟩ then 1 else 0 :=
  ⟨Async.countP_eraseIdx hready, Async.countP_eraseIdx hready⟩

theorem Handled.run (h : Handled c l) {i : Nat} {k : Operation} {completion : Completion}
    (hready : Async.ready? c.pending i = some (k, completion)) (hidle : ¬ c.Acts k completion) :
    Handled ((handle k completion).after (c.taken i)) (l ++ (handle k completion).emitted (c.taken i)) := by
  obtain ⟨trying, law, counter, live⟩ := h
  obtain ⟨hattempts, hwaits⟩ := taken_counts hready
  cases hk : k.isWait with
  | false =>
    rw [hk] at hattempts
    rw [isNext_attempt hk] at hwaits
    refine attempting_counts.handle hk completion _ _ ⟨law, counter, fun hlive => ?_⟩
    obtain ⟨ha, hw, ht⟩ := live hlive
    cases trying with
    | false => exact absurd (hattempts.symm.trans ha) (Nat.succ_ne_zero _)
    | true => exact ⟨Nat.succ.inj (hattempts.symm.trans ha), hwaits.symm.trans hw, ht⟩
  | true =>
    rw [hk] at hattempts
    cases hnext : isNext ⟨k, some completion⟩ with
    | true =>
      rw [hnext] at hwaits
      refine handle_next hnext _ _ ⟨law, counter, fun hlive => ?_⟩
      obtain ⟨ha, hw, ht⟩ := live hlive
      cases trying with
      | false => exact ⟨hattempts.symm.trans ha, Nat.succ.inj (hwaits.symm.trans hw), ht⟩
      | true => exact absurd (hwaits.symm.trans hw) (Nat.succ_ne_zero _)
    | false =>
      rw [hnext] at hwaits
      have hsame : handle k completion (c.taken i) = ((), c.taken i, []) := handle_idle hk hnext hidle
      simp only [Prog.after, Prog.emitted, hsame, List.append_nil]
      refine ⟨trying, law, counter, fun hlive => ?_⟩
      obtain ⟨ha, hw, ht⟩ := live hlive
      exact ⟨hattempts.symm.trans ha, hwaits.symm.trans hw, ht⟩

/-- Every step but a timeout that acts. -/
theorem Handled.step (h : Handled c l) {x : AsioInput} (hx : ¬ c.TimesOut x) :
    Handled (machine.step c x).1 (l ++ (machine.step c x).2) := by
  cases x with
  | expire i =>
    refine h.quiet (Quiet.update (fun _ => rfl) (fun c => ?_) (fun c => ?_) fun _ => rfl)
    · exact Async.countP_finishAt isAttempt_finish i
    · exact Async.countP_finishAt isNext_expire i
  | finish i completion =>
    refine h.quiet (Quiet.update (fun _ => rfl) (fun c => ?_) (fun c => ?_) fun _ => rfl)
    · exact Async.countP_finishAt isAttempt_finish i
    · exact Async.countP_finishAt (isNext_finish rfl rfl) i
  | run i =>
    cases hready : Async.ready? c.pending i with
    | none =>
      rw [step_run_none hready]
      simpa using h
    | some ready =>
      obtain ⟨k, completion⟩ := ready
      rw [step_run hready]
      exact h.run hready fun hacts => hx ⟨(k, completion), hready, hacts⟩
  | stop => exact h.stop

/-! ### What the handlers emit -/

theorem emitted_fail (hlive : c.stopped = false) (state error : String) :
    (fail state error).emitted c =
      [.output (.state false state), .counted, .output (.state false "reconnecting")] := by
  obtain ⟨connection, stopped, socketOpen, pending⟩ := c
  cases hlive
  cases socketOpen <;> rfl

/-- A timeout that acts counts, and the connection still runs. -/
theorem handle_acts {k : Operation} {completion : Completion} (h : c.Acts k completion) :
    (∃ state, (handle k completion).emitted c =
      [.output (.state false state), .counted, .output (.state false "reconnecting")]) ∧
    ((handle k completion).after c).stopped = false := by
  obtain ⟨⟨phase, stats⟩, stopped, socketOpen, pending⟩ := c
  cases completion with
  | error message => cases k <;> exact h.elim
  | ok bytes =>
    cases k with
    | connectWait =>
      obtain ⟨hlive, hphase⟩ := h
      cases hlive
      cases phase with
      | streaming => exact absurd rfl hphase
      | handshake | reconnecting => cases socketOpen <;> exact ⟨⟨_, rfl⟩, rfl⟩
    | watchdogWait =>
      obtain ⟨hlive, hphase⟩ := h
      cases hlive
      cases hphase
      cases socketOpen <;> exact ⟨⟨_, rfl⟩, rfl⟩
    | _ => exact h.elim

theorem emitted_doResolve (hlive : c.stopped = false) :
    doResolve.emitted c = [.output (.state false "resolving"), .resolving] := by
  obtain ⟨connection, stopped, socketOpen, pending⟩ := c
  cases hlive
  rfl

theorem counted_of_fails (hlive : c.stopped = false) {k : Operation} {completion : Completion}
    (h : c.Fails k completion) : .counted ∈ (handle k completion).emitted c := by
  have hfail : ∀ state error, .counted ∈ (fail state error).emitted c := by
    intro state error
    rw [emitted_fail hlive]
    simp
  have hacts : ∀ {k completion}, c.Acts k completion → .counted ∈ (handle k completion).emitted c := by
    intro k completion hacts
    obtain ⟨⟨state, hemitted⟩, -⟩ := handle_acts hacts
    rw [hemitted]
    simp
  cases completion with
  | error message =>
    cases k with
    | starting | reconnectWait | connectWait | watchdogWait => exact h.elim
    | _ => exact hfail _ _
  | ok bytes =>
    cases k with
    | connectWait => exact hacts ⟨hlive, h⟩
    | watchdogWait => exact hacts ⟨hlive, h⟩
    | handshakeRead =>
      obtain ⟨state, error, hverdict⟩ := h
      show _ ∈ (handshakeRead bytes).emitted c
      rw [handshakeRead, hverdict]
      exact hfail state error
    | _ => exact h.elim

/-! ### Every run without a timeout -/

theorem handled_init : Handled {} [] := ⟨false, trivial, rfl, fun _ => ⟨rfl, rfl, rfl⟩⟩

theorem handled_reach {run : List AsioInput} (h : Prompt {} run) : Handled (reach run) (trace run) :=
  Machine.history (A := fun c x => ¬ TimesOut c x) (H := fun l c => Handled c l) (l := [])
    (fun _ _ _ h hx => h.step hx) handled_init h

theorem HandledOnce.of_handled {run : List AsioInput} (h : Handled (reach run) (trace run)) : HandledOnce run := by
  obtain ⟨trying, law, counter, live⟩ := h
  refine ⟨law, counter, ?_, ?_, ?_⟩
  · intro i k completion hlive hready hfails
    rw [step_run hready]
    exact counted_of_fails (c := (reach run).taken i) hlive hfails
  · intro hlive hwaiting
    obtain ⟨ha, hw, ht⟩ := live hlive
    obtain rfl : false = trying := hwaiting.symm.trans ht
    exact ⟨hw, ha⟩
  · intro i bytes hlive hready
    rw [step_run hready]
    show _ ∈ doResolve.emitted ((reach run).taken i)
    rw [emitted_doResolve (c := (reach run).taken i) hlive]
    simp

/-! ### After a timeout -/

/-- Some continuation without a further timeout breaks the law. -/
def Doomed (c : AsioConnection) (l : List NtripEvent) : Prop :=
  ∃ post, c.Prompt post ∧ ¬ lossLaw.Accepts false (l ++ machine.log c post)

/-- The connection runs between two attempts. -/
def Resting (c : AsioConnection) (l : List NtripEvent) : Prop := c.stopped = false ∧ lossLaw.after false l = false

theorem Doomed.step {x : AsioInput} (hx : ¬ c.TimesOut x)
    (h : Doomed (machine.step c x).1 (l ++ (machine.step c x).2)) : Doomed c l := by
  obtain ⟨post, hprompt, h⟩ := h
  refine ⟨x :: post, ⟨hx, hprompt⟩, ?_⟩
  rwa [Machine.log_cons, ← List.append_assoc]

/-- The handler of an operation of the resolver or of the socket. -/
theorem not_timesOut {i : Nat} {k : Operation} {completion : Completion}
    (hready : Async.ready? c.pending i = some (k, completion)) (hk : k.isWait = false) : ¬ c.TimesOut (.run i) := by
  rintro ⟨handler, hhandler, hacts⟩
  obtain rfl : (k, completion) = handler := Option.some.inj (hready.symm.trans hhandler)
  cases completion <;> cases k <;> first | exact hacts | cases hk

/-- A count comes between two attempts. -/
theorem Resting.not_accepts (h : Resting c l) (o : NtripOutput) (rest : List NtripEvent) :
    ¬ lossLaw.Accepts false (l ++ .output o :: .counted :: rest) := by
  intro haccepts
  have hcount := ((Monitor.accepts_append _ _).1 haccepts).2.2.1
  rw [h.2] at hcount
  cases hcount

theorem Resting.doomed_fail (h : Resting c l) (state error : String) :
    Doomed ((fail state error).after c) (l ++ (fail state error).emitted c) := by
  refine ⟨[], trivial, ?_⟩
  rw [emitted_fail h.1, Machine.log_nil, List.append_nil]
  exact h.not_accepts _ _

/-- An operation that has failed. -/
theorem Resting.doomed_error (h : Resting c l) {i : Nat} {k : Operation} {message : String}
    (hready : Async.ready? c.pending i = some (k, .error message)) (hk : k.isWait = false) : Doomed c l := by
  refine Doomed.step (not_timesOut hready hk) ?_
  rw [step_run hready]
  have hresting : Resting (c.taken i) l := h
  cases k <;> first | exact hresting.doomed_fail _ _ | cases hk

/-- An operation that is under way may fail. -/
theorem Resting.doomed_none (h : Resting c l) {i : Nat} {k : Operation} (hi : c.pending[i]? = some ⟨k, none⟩)
    (hk : k.isWait = false) : Doomed c l := by
  refine Doomed.step (x := .finish i (.error "")) id ?_
  have hfails : Async.ready? (machine.step c (.finish i (.error ""))).1.pending i = some (k, .error "") :=
    Async.ready?_finishAt hi (by simp [hk])
  refine Resting.doomed_error ⟨h.1, ?_⟩ hfails hk
  show lossLaw.after false (l ++ []) = false
  rw [List.append_nil]
  exact h.2

theorem attempting_resting : Attempting Resting Doomed where
  quiet hx := by
    intro c l h
    refine ⟨(hx.stopped c).trans h.1, ?_⟩
    rw [Monitor.after_append, after_outputs (hx.outputs c)]
    exact h.2
  begin := by
    intro k hk
    refine Triple.update fun c l h => ?_
    exact Resting.doomed_none (c := { c with pending := Async.begin k c.pending }) h Async.getElem?_begin hk
  beginSocket := by
    intro k hk
    refine Triple.update fun c l h => ?_
    split
    · exact Resting.doomed_none (c := { c with pending := Async.begin k c.pending }) h Async.getElem?_begin hk
    · exact Resting.doomed_error (c := { c with pending := Async.beginEnded k _ c.pending }) h
        Async.ready?_beginEnded hk
  stopped c l hstopped h := absurd (h.1.symm.trans hstopped) (by decide)
  fail state error := fun c l h => h.doomed_fail state error

/-- An operation of an attempt that is outstanding when no attempt is under way. -/
theorem doomed_of_attempt (h : Resting c l) (hattempts : 0 < c.attempts) : Doomed c l := by
  obtain ⟨⟨k, outcome⟩, hmem, hk⟩ := List.countP_pos_iff.1 hattempts
  rw [Bool.not_eq_true'] at hk
  obtain ⟨i, hi⟩ := List.mem_iff_getElem?.1 hmem
  cases outcome with
  | none => exact h.doomed_none hi hk
  | some completion =>
    have hready := Async.ready?_of_getElem? hi
    refine Doomed.step (not_timesOut hready hk) ?_
    rw [step_run hready]
    exact attempting_resting.handle hk completion (c.taken i) l h

/-- A timeout leaves the operation of the attempt outstanding. -/
theorem acts_attempts {k : Operation} {completion : Completion} (h : c.Acts k completion) :
    Triple (Counts a 0 true) (handle k completion) fun _ c _ => c.stopped = false → c.attempts = a := by
  have hkeeps : ∀ {w trying} (c : AsioConnection) (l : List NtripEvent), Counts a w trying c l →
      c.stopped = false → c.attempts = a := fun _ _ h hlive => (h.live hlive).1
  have hresolve : Triple (Counts a 0 true) (scheduleResolve "reconnecting" true) fun _ c _ =>
      c.stopped = false → c.attempts = a :=
    (scheduleResolve_counts a _ true).weaken (fun _ _ => id) fun _ => hkeeps
  cases completion with
  | error message => cases k <;> exact h.elim
  | ok bytes =>
    cases k with
    | connectWait =>
      refine Triple.peek fun n => Triple.when (fun _ => ?_) fun _ => hkeeps
      refine Triple.seq (Quiet.postState _ _ _).keeps fun _ => ?_
      exact Triple.seq (Quiet.closeSocket).keeps fun _ => hresolve
    | watchdogWait =>
      refine Triple.peek fun n => Triple.when (fun _ => ?_) fun _ => hkeeps
      exact Triple.seq (Quiet.postState _ _ _).keeps fun _ => hresolve
    | _ => exact h.elim

theorem Acts.live {k : Operation} {completion : Completion} (h : c.Acts k completion) :
    c.stopped = false ∧ k.isWait = true ∧ isNext ⟨k, some completion⟩ = false := by
  cases completion with
  | error message => cases k <;> exact h.elim
  | ok bytes =>
    cases k with
    | connectWait | watchdogWait => exact ⟨h.1, rfl, rfl⟩
    | _ => exact h.elim

/-- A timeout that acts between attempts breaks the law, one that acts during an attempt leads to a run that does. -/
theorem Handled.doomed (h : Handled c l) {x : AsioInput} (hx : c.TimesOut x) :
    Doomed (machine.step c x).1 (l ++ (machine.step c x).2) := by
  cases x with
  | run i =>
    obtain ⟨⟨k, completion⟩, hready, hacts⟩ := hx
    obtain ⟨trying, law, counter, live⟩ := h
    obtain ⟨hlive, hwait, hnext⟩ := hacts.live
    obtain ⟨ha, hw, ht⟩ := live hlive
    obtain ⟨hattempts, hwaits⟩ := taken_counts hready
    rw [hwait] at hattempts
    rw [hnext] at hwaits
    obtain ⟨⟨state, hemitted⟩, hstopped⟩ := handle_acts (c := c.taken i) hacts
    rw [step_run hready]
    cases trying with
    | false =>
      refine ⟨[], trivial, ?_⟩
      rw [hemitted, Machine.log_nil, List.append_nil]
      exact Resting.not_accepts (c := c.taken i) ⟨hlive, ht⟩ _ _
    | true =>
      have hcounts : Counts 1 0 true (c.taken i) l :=
        ⟨law, counter, fun _ => ⟨hattempts.symm.trans ha, hwaits.symm.trans hw, ht⟩⟩
      have hone := acts_attempts (c := c.taken i) hacts (c.taken i) l hcounts hstopped
      refine doomed_of_attempt ⟨hstopped, ?_⟩ (hone ▸ Nat.one_pos)
      rw [hemitted, Monitor.after_append]
      rfl
  | expire i => exact hx.elim
  | finish i completion => exact hx.elim
  | stop => exact hx.elim

/-- Each loss is handled once as long as neither timeout acts. Conversely, if it is in every state that the run
reaches, however what is outstanding ends, then neither has acted. -/
theorem handledOnce_without_timeouts (run : List AsioInput) :
    (Prompt {} run → HandledOnce run) ∧
    ((∀ pre post, pre <+: run → (reach pre).Prompt post → HandledOnce (pre ++ post)) → Prompt {} run) := by
  constructor
  · intro h
    exact HandledOnce.of_handled (handled_reach h)
  · intro h
    induction run using List.reverseRecOn with
    | nil => trivial
    | append_singleton run x ih =>
      have hrun : Prompt {} run := ih fun pre post hpre => h pre post (hpre.trans (List.prefix_append run [x]))
      refine (Machine.along_append _ _).2 ⟨hrun, fun hx => ?_, trivial⟩
      -- the timeout has acted: what was outstanding then breaks the law
      obtain ⟨post, hprompt, hpost⟩ := (handled_reach hrun).doomed hx
      have hreach : reach (run ++ [x]) = (machine.step (reach run) x).1 := Machine.final_append _ _
      refine hpost ?_
      have hlaw := (h (run ++ [x]) post (List.prefix_refl _) (hreach ▸ hprompt)).once
      rwa [trace, List.append_assoc, Machine.log_append, List.singleton_append, Machine.log_cons,
        ← List.append_assoc] at hlaw

/-- The connection is established, delivers, breaks off and is made again. -/
def brokenOff : List AsioInput :=
  [.run 0, .expire 0, .run 0, .finish 0 (.ok []), .run 0, .finish 1 (.ok []), .run 1, .finish 1 (.ok []), .run 1,
    .finish 1 (.ok (ascii "ICY 200 OK\r\n\r\nhello")), .run 1, .finish 2 (.ok (ascii "more")), .run 2,
    .finish 3 (.error "End of file"), .run 3, .expire 3, .run 3]

/-- The caster does not answer: the connect timeout closes the socket, and the handler of the connect that this
aborts is called too. -/
def countedTwice : List AsioInput :=
  [.run 0, .expire 0, .run 0, .finish 0 (.ok []), .run 0, .expire 0, .run 0, .run 0]

theorem handledOnce_brokenOff : HandledOnce brokenOff ∧ (trace brokenOff).countP NtripEvent.isCount = 1 :=
  ⟨(handledOnce_without_timeouts brokenOff).1 (by decide +kernel), by decide +kernel⟩

theorem countedTwice_not_handledOnce :
    ¬ HandledOnce countedTwice ∧ (reach countedTwice).connection.stats.reconnectCount = 2 := by
  refine ⟨fun h => ?_, by decide +kernel⟩
  have hlaw : ¬ lossLaw.Accepts false (trace countedTwice) := by decide +kernel
  exact hlaw h.once

end AsioConnection

end MowgliMavros
