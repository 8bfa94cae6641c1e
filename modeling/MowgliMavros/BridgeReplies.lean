import MowgliMavros.BladeIntent
import MowgliMavros.BridgeBlade
import MowgliMavros.BridgeCallers

/-!
# What a MowerControl reply means

The transcript of a run tells the callbacks between the effects. The blade controller mirrors it: what
is in flight is the last servo command, and a confirmed direction was accepted by the ACK of that
command (`Mirrors`). A caller in `bladeReplies` is bound to the revision of its own direction
(`Promises`), so a reply with success is sound when it leaves (`mower_replies`).
-/

namespace MowgliMavros
namespace Bridge
open Prog (Triple Keeps)
open BladeControl (Direction Command)

abbrev Transcript := List ((Callback × Env) ⊕ Effect)

def transcript (l : Launch) (run : List (Callback × Env)) : Transcript := machine.told.log l.node run

/-- The direction that `on_mower_control` reads from a request, if it accepts the encoding. -/
def requestedDirection (mowEnabled mowDirection : UInt8) : Option Direction :=
  if mowEnabled = 0 then some .off
  else if mowEnabled = 1 ∧ mowDirection = 0 then some .forward
  else if mowEnabled = 1 ∧ mowDirection = 1 then some .reverse
  else none

/-- The transcript has a request of this header for direction `d`. -/
def Asked (T : Transcript) (header : Nat) (d : Direction) : Prop :=
  ∃ mowEnabled mowDirection env, requestedDirection mowEnabled mowDirection = some d ∧
    .inl (.mowerControl header mowEnabled mowDirection, env) ∈ T

/-- `c` is the last servo command of the transcript, and `since` is what came after it. -/
def LastServo (c : Command) (since T : Transcript) : Prop :=
  ∃ before steady sent, T = before ++ .inr (.servo c.channel c.pwm steady sent) :: since ∧
    sent.bladeControl.inFlight = some c ∧ ∀ e, .inr e ∈ since → e.isServo = false

/-- The ACK of the token with success. -/
def Acked (token : Nat) (since : Transcript) : Prop :=
  ∃ env, .inl (.servoResponse token (some (true, 0)), env) ∈ since

/-- A request answered with success is settled, by the ACK of the last servo command. -/
def Sound (before : Transcript) : (Callback × Env) ⊕ Effect → Prop
  | .inr (.mowerReply header true sent) => ∃ d c since, Asked before header d ∧ sent.bladeControl.Settled d ∧
      LastServo c since before ∧ Acked c.token since ∧ c.pwm = sent.bladeControl.pwm d
  | _ => True

structure Mirrors (n : Node) (T : Transcript) : Prop where
  flight : ∀ c, n.bladeControl.inFlight = some c →
    c.pwm = n.bladeControl.pwm c.direction ∧ ∃ since, LastServo c since T
  confirmed : n.bladeControl.fault = false → n.bladeControl.inFlight = none → n.bladeControl.confirmed ≠ .unknown →
    ∃ c since, c.direction = n.bladeControl.confirmed ∧ c.pwm = n.bladeControl.pwm c.direction ∧
      LastServo c since T ∧ Acked c.token since

/-- The callers that wait did ask, and the ones of the current revision asked for its direction. -/
structure Promises (T : Transcript) (n : Node) : Prop where
  starts : ∀ p ∈ n.pendingBladeStarts, Asked T p.header p.direction
  replies : ∀ r ∈ n.bladeReplies, r.revision ≤ n.bladeControl.revision ∧ ∃ d, Asked T r.header d ∧
    (r.revision = n.bladeControl.revision → n.bladeControl.requested = d)

structure Honest (T : Transcript) (n : Node) (log : List Effect) : Prop where
  mirrors : Mirrors n (T ++ log.map .inr)
  promises : Promises T n
  sound : Machine.Throughout Sound (T ++ log.map .inr)

variable {T : Transcript} {n n' : Node} {log : List Effect} {c : Command} {d : Direction} {header : Nat}

theorem Asked.mono {T' : Transcript} (h : Asked T header d) (hsub : T ⊆ T') : Asked T' header d := by
  obtain ⟨e, m, env, hd, hmem⟩ := h
  exact ⟨e, m, env, hd, hsub hmem⟩

theorem Asked.known (h : Asked T header d) : d ≠ .unknown := by
  obtain ⟨e, m, env, hd, -⟩ := h
  rintro rfl
  unfold requestedDirection at hd
  split_ifs at hd <;> cases hd

theorem LastServo.snoc {since : Transcript} {x : (Callback × Env) ⊕ Effect} (h : LastServo c since T)
    (hx : ∀ e, x = .inr e → e.isServo = false) : LastServo c (since ++ [x]) (T ++ [x]) := by
  obtain ⟨before, steady, sent, hT, hsent, hsince⟩ := h
  refine ⟨before, steady, sent, by simp [hT], hsent, fun e he => ?_⟩
  rcases List.mem_append.1 he with he | he
  · exact hsince e he
  · exact hx e (List.mem_singleton.1 he).symm

theorem Acked.snoc {token : Nat} {since : Transcript} (h : Acked token since) (x : (Callback × Env) ⊕ Effect) :
    Acked token (since ++ [x]) := by
  obtain ⟨env, hmem⟩ := h
  exact ⟨env, List.mem_append_left _ hmem⟩

/-! ### The mirror -/

namespace Mirrors

theorem frame (h : Mirrors n T) (hb : n'.bladeControl = n.bladeControl) : Mirrors n' T :=
  ⟨hb ▸ h.flight, hb ▸ h.confirmed⟩

theorem snoc (h : Mirrors n T) {x : (Callback × Env) ⊕ Effect} (hx : ∀ e, x = .inr e → e.isServo = false) :
    Mirrors n (T ++ [x]) := by
  constructor
  · intro c hc
    obtain ⟨hpwm, since, hlast⟩ := h.flight c hc
    exact ⟨hpwm, _, hlast.snoc hx⟩
  · intro hf hi hc
    obtain ⟨c, since, hd, hpwm, hlast, hack⟩ := h.confirmed hf hi hc
    exact ⟨c, _, hd, hpwm, hlast.snoc hx, hack.snoc x⟩

theorem dims (h : Mirrors n T) {b : BladeControl} (hb : BladeControl.Dims n.bladeControl b) :
    Mirrors { n with bladeControl := b } T := by
  have hpwm : ∀ d, b.pwm d = n.bladeControl.pwm d := fun d => by
    simp only [BladeControl.pwm, hb.config]
  constructor
  · intro c hc
    obtain ⟨hc', hlast⟩ := h.flight c (hb.flight c hc)
    exact ⟨hc'.trans (hpwm _).symm, hlast⟩
  · intro hf hi hc
    obtain ⟨hf', hi', he⟩ := hb.confirmed hf hi hc
    obtain ⟨c, since, hd, hc', hlast, hack⟩ := h.confirmed hf' hi' (he ▸ hc)
    exact ⟨c, since, hd.trans he.symm, hc'.trans (hpwm _).symm, hlast, hack⟩

/-- A command that leaves is the last one, and nothing is confirmed while it is in flight. -/
theorem hand (hflight : n.bladeControl.inFlight = some c) (hpwm : c.pwm = n.bladeControl.pwm c.direction)
    (steady : Int) : Mirrors n (T ++ [.inr (.servo c.channel c.pwm steady n)]) := by
  constructor
  · intro c' hc'
    obtain rfl : c = c' := Option.some.inj (hflight.symm.trans hc')
    exact ⟨hpwm, [], T, steady, n, rfl, hflight, by simp⟩
  · intro _ hi
    rw [hflight] at hi; cases hi

/-- The ACK of what is in flight comes after the last servo command. -/
theorem complete {token : Nat} {accepted : Bool} {now : Int} (h : Mirrors n T)
    (hack : accepted = true → ∀ c, n.bladeControl.inFlight = some c → c.token = token →
      ∃ since, LastServo c since T ∧ Acked c.token since) :
    Mirrors { n with bladeControl := n.bladeControl.complete token accepted now } T := by
  rcases n.bladeControl.complete_cases token accepted now with
    ⟨he, -⟩ | ⟨c, hc, htoken, ⟨-, he⟩ | ⟨ha, hoff, he⟩ | ⟨ha, -, he⟩⟩
  · rw [he]; exact h
  · rw [he]; exact h.dims (BladeControl.dims_drop_fail _ _)
  all_goals
    obtain ⟨hpwm, -⟩ := h.flight c hc
    obtain ⟨since, hlast, hacked⟩ := hack ha c hc htoken
    rw [he]
    refine ⟨nofun, fun _ _ _ => ⟨c, since, ?_, hpwm, hlast, hacked⟩⟩
  exacts [hoff, rfl]

end Mirrors

/-! ### What the pieces keep -/

theorem Promises.intent (h : Promises T n) {b : BladeControl} (hb : BladeControl.Intent n.bladeControl b) :
    Promises T { n with bladeControl := b } := by
  refine ⟨h.starts, fun r hr => ?_⟩
  obtain ⟨hle, d, hasked, hd⟩ := h.replies r hr
  have hrevision := hb.revision
  refine ⟨Nat.le_trans hle hrevision, d, hasked, fun he => ?_⟩
  have he' : r.revision = b.revision := he
  exact (hb.requested (by omega)).trans (hd (by omega))

namespace Honest

theorem snoc_eq (T : Transcript) (log : List Effect) (e : Effect) :
    T ++ (log ++ [e]).map .inr = (T ++ log.map .inr) ++ [.inr e] := by simp

theorem emit (h : Honest T n log) {e : Effect} (he : e.isServo = false)
    (hsound : Sound (T ++ log.map .inr) (.inr e)) :
    Honest T n (log ++ [e]) := by
  refine ⟨?_, h.promises, ?_⟩ <;> rw [snoc_eq]
  · exact h.mirrors.snoc fun _ hx => Sum.inr.inj hx ▸ he
  · exact Machine.throughout_snoc.2 ⟨h.sound, hsound⟩

theorem refuse (h : Honest T n log) (header : Nat) (sent : Node) :
    Honest T n (log ++ [.mowerReply header false sent]) :=
  h.emit rfl trivial

/-- A caller for a settled direction is answered with success. -/
theorem confirm (h : Honest T n log) (hasked : Asked T header d) (hsettled : n.bladeControl.Settled d) :
    Honest T n (log ++ [.mowerReply header true n]) := by
  have ⟨hi, _, hf, _, hc⟩ := hsettled
  obtain ⟨c, since, hd, hpwm, hlast, hack⟩ := h.mirrors.confirmed hf hi (hc ▸ hasked.known)
  refine h.emit rfl ⟨d, c, since, hasked.mono (List.subset_append_left _ _), hsettled, hlast, hack, ?_⟩
  rw [hpwm, hd, hc]

theorem reply (h : Honest T n log) {success : Bool}
    (hsettled : success = true → ∃ d, Asked T header d ∧ n.bladeControl.Settled d) :
    Honest T n (log ++ [.mowerReply header success n]) := by
  cases success with
  | false => exact h.refuse header n
  | true =>
    obtain ⟨d, hasked, hd⟩ := hsettled rfl
    exact h.confirm hasked hd

theorem apply (h : Honest T n log) (op : BladeControl.Op) (hop : op.Inward) :
    Honest T { n with bladeControl := n.bladeControl.apply op } log :=
  ⟨h.mirrors.dims (BladeControl.dims_apply _ hop), h.promises.intent (BladeControl.intent_apply _ op), h.sound⟩

theorem sessionFree : SessionFree (Honest T) where
  frame {n n' l} hn h := by
    simp only [Node.bladeSide, Prod.mk.injEq] at hn
    obtain ⟨hb, hp, hr⟩ := hn
    refine ⟨h.mirrors.frame hb, ⟨hp ▸ h.promises.starts, ?_⟩, h.sound⟩
    rw [hr, hb]; exact h.promises.replies
  emit n l e he h := by
    refine h.emit (by cases e <;> simp_all [Effect.isServed, Effect.isServo]) ?_
    cases e with
    | mowerReply header success sent => cases he
    | _ => trivial

theorem updateBlade {f : BladeControl → BladeControl} (op : BladeControl.Op) (hop : op.Inward)
    (hf : ∀ b, f b = b.apply op) : Keeps (Honest T) (updateBlade f) :=
  Keeps.update fun n l h => by rw [hf]; exact h.apply op hop

theorem cancelPendingBladeStarts : Keeps (Honest T) cancelPendingBladeStarts := by
  refine Keeps.read fun n => Keeps.seq (Keeps.forEach fun pending _ => Keeps.read fun sent => ?_) fun _ => ?_
  · exact Triple.emit fun _ _ h => h.refuse pending.header sent
  · exact Keeps.update fun n l h => ⟨h.mirrors.frame rfl, ⟨by simp, h.promises.replies⟩, h.sound⟩

theorem endFailed (env : EndEnv) : Keeps (Honest T) (endFailedBladeTestLocked env) :=
  sessionFree.endFailed cancelPendingBladeStarts (fun now => updateBlade (.forceOff now) trivial fun _ => rfl) env

theorem permitBlade (steady nowNs now : Int) : Keeps (Honest T) (permitBlade steady nowNs now) :=
  Keeps.update fun n _ h => h.apply (.permission (n.bladeAllowed steady nowNs) now) trivial

/-! ### Requests -/

/-- What the result of a request for `d` says of the controller. -/
def Answerable (d : Direction) (result : BladeControl.Result) (n : Node) : Prop :=
  (result = .confirmed → n.bladeControl.Settled d) ∧ (result = .pending → n.bladeControl.requested = d)

theorem requestBlade (d : Direction) (steady : Int) :
    Triple (Honest T) (requestBlade d steady) fun result n log => Honest T n log ∧ Answerable d result n := by
  refine Triple.read fun n => Triple.bind (R := fun _ n' log => Honest T n' log ∧
    Answerable d (n.bladeControl.request d steady).2 n') (Triple.update ?_) fun _ => Triple.pure fun _ _ h => h
  rintro _ log ⟨rfl, h⟩
  refine ⟨h.apply (.request d steady) trivial, fun hc => ?_, BladeControl.request_pending⟩
  obtain ⟨he, hsettled⟩ := BladeControl.request_confirmed hc
  rw [he]; exact hsettled

/-- A caller that waits is bound to the revision of its direction. -/
theorem hold (h : Honest T n log) (hasked : Asked T header d) (hd : n.bladeControl.requested = d) (startedMs : Int) :
    Honest T { n with bladeReplies := n.bladeReplies ++ [⟨header, n.bladeControl.revision, startedMs⟩] } log := by
  refine ⟨h.mirrors.frame rfl, ⟨h.promises.starts, fun r hr => ?_⟩, h.sound⟩
  rcases List.mem_append.1 hr with hr | hr
  · exact h.promises.replies r hr
  · rw [List.mem_singleton.1 hr]
    exact ⟨Nat.le_refl _, d, hasked, fun _ => hd⟩

theorem answerRequest (hasked : Asked T header d) (result : BladeControl.Result) (startedMs : Int) :
    Triple (fun n log => Honest T n log ∧ Answerable d result n) (answerRequest header result startedMs)
      fun _ => Honest T := by
  refine Triple.read fun n => Triple.ite (fun hpending => Triple.update ?_) fun _ => Triple.read
    fun n' => Triple.emit ?_
  · rintro _ log ⟨rfl, h, hanswer⟩
    exact h.hold hasked (hanswer.2 hpending.1) startedMs
  · rintro _ log ⟨rfl, rfl, h, hanswer⟩
    exact h.reply fun hc => ⟨d, hasked, hanswer.1 (by simpa using hc)⟩

theorem answerOff (hasked : Asked T header .off) (result : BladeControl.Result) (env : Env) :
    Triple (fun n log => Honest T n log ∧ Answerable .off result n) (answerOff header result env)
      fun _ => Honest T := by
  refine Triple.read fun n => Triple.ite (fun hpending => Triple.update ?_) fun _ => Triple.read
    fun n' => Triple.emit ?_
  · rintro _ log ⟨rfl, h, hanswer⟩
    exact h.hold hasked (hanswer.2 hpending.1) _
  · rintro _ log ⟨rfl, rfl, h, hanswer⟩
    refine h.reply fun hc => ⟨_, hasked, hanswer.1 ?_⟩
    simp only [Bool.and_eq_true, decide_eq_true_eq] at hc
    exact hc.2

/-! ### The blade drive -/

def AllAsked (T : Transcript) (starts : List PendingBladeStart) : Prop := ∀ p ∈ starts, Asked T p.header p.direction

theorem promote (emergency : Bool) (steady : Int) (starts : List PendingBladeStart) :
    Triple (fun n log => Honest T n log ∧ AllAsked T starts) (promote emergency steady starts)
      fun kept n log => Honest T n log ∧ AllAsked T kept := by
  induction starts with
  | nil => exact Triple.pure fun _ _ h => h
  | cons pending rest ih =>
    have hrest : AllAsked T (pending :: rest) → AllAsked T rest := fun h p hp => h p (List.mem_cons_of_mem _ hp)
    refine Triple.peek fun n => Triple.ite (fun _ => ?_) fun _ => Triple.ite (fun _ => ?_) fun _ => ?_
    · refine Triple.bind (R := fun _ n log => Honest T n log ∧ AllAsked T rest) ?_ fun _ => ih
      exact Triple.peek fun sent => Triple.emit fun _ _ h => ⟨h.1.refuse pending.header sent, hrest h.2⟩
    · refine Triple.assume (p := AllAsked T (pending :: rest)) (fun hall => ?_) fun _ _ => And.right
      refine Triple.bind ((requestBlade pending.direction steady).pre fun _ _ => And.left) fun result => ?_
      refine Triple.bind (answerRequest (hall pending (by simp)) result _) fun _ => ?_
      exact ih.pre fun _ _ h => ⟨h, hrest hall⟩
    · refine Triple.assume (p := AllAsked T (pending :: rest)) (fun hall => ?_) fun _ _ => And.right
      refine Triple.bind (ih.pre fun _ _ h => ⟨h.1, hrest hall⟩) fun kept => Triple.pure fun _ _ h => ⟨h.1, ?_⟩
      intro p hp
      rcases List.mem_cons.1 hp with rfl | hp
      · exact hall p (by simp)
      · exact h.2 p hp

theorem promoteBladeStarts (emergency : Bool) (steady : Int) :
    Keeps (Honest T) (promoteBladeStarts emergency steady) := by
  refine Triple.read fun n => Triple.bind ((promote (T := T) emergency steady n.pendingBladeStarts).pre ?_)
    fun kept => ?_
  · rintro _ log ⟨rfl, h⟩
    exact ⟨h, h.promises.starts⟩
  · exact Triple.update fun n log h => ⟨h.1.mirrors.frame rfl, ⟨h.2, h.1.promises.replies⟩, h.1.sound⟩

theorem answerBladeReplies (steady : Int) : Keeps (Honest T) (answerBladeReplies steady) := by
  refine Triple.read fun n => Triple.bind (R := fun _ => Honest T) ?_ fun _ => ?_
  · refine Triple.weaken (S := fun n' log => n' = n ∧ Honest T n' log) (Keeps.emitEach fun r hr n' log h => ?_)
      (fun _ _ => id) fun _ _ _ => And.right
    obtain ⟨rfl, h⟩ := h
    refine ⟨rfl, h.reply fun hvalid => ?_⟩
    obtain ⟨hr, hp⟩ := List.mem_filter.1 hr
    obtain ⟨-, d, hasked, hd⟩ := h.promises.replies r hr
    have hvalid' : r.invalid n' steady = false := by simpa using hvalid
    have hsatisfied : n'.bladeControl.satisfied = true := by simpa [hvalid'] using hp
    have hcurrent : r.revision = n'.bladeControl.revision := by
      simp only [BladeReply.invalid, Bool.or_eq_false_iff, decide_eq_false_iff_not, not_not] at hvalid'
      exact hvalid'.1.1
    exact ⟨d, hasked, hd hcurrent ▸ BladeControl.satisfied_iff.1 hsatisfied⟩
  · refine Triple.update fun n log h => ⟨h.mirrors.frame rfl, ⟨h.promises.starts, fun r hr => ?_⟩, h.sound⟩
    exact h.promises.replies r (List.mem_filter.1 hr).1

/-- The command in hand. -/
def Handing (T : Transcript) (c : Command) : Assertion := fun n log =>
  n.bladeControl.inFlight = some c ∧ c.pwm = n.bladeControl.pwm c.direction ∧ Promises T n ∧
    Machine.Throughout Sound (T ++ log.map .inr)

theorem handBlade (c : Command) (env : BladeEnv) : Triple (Handing T c) (handBlade c env) fun _ => Honest T := by
  refine Triple.ite (fun _ => Triple.update fun n log h => ?_) fun _ => ?_
  · obtain ⟨hflight, -, hpromises, hsound⟩ := h
    refine ⟨?_, hpromises.intent (BladeControl.complete_intent _ _ _ _), hsound⟩
    rcases n.bladeControl.complete_cases c.token false env.failedSteady with
      ⟨-, hforeign⟩ | ⟨c', -, -, ⟨-, he⟩ | ⟨ha, -⟩ | ⟨ha, -⟩⟩
    · exact absurd rfl (hforeign c hflight)
    · dsimp only
      rw [he]
      exact ⟨fun _ hc => by simp [BladeControl.fail] at hc, nofun⟩
    · cases ha
    · cases ha
  · refine Triple.bind (R := fun _ => Handing T c) (Triple.update fun n log h => ?_) fun _ => Triple.read fun n => ?_
    · exact ⟨h.1, h.2.1, ⟨h.2.2.1.starts, h.2.2.1.replies⟩, h.2.2.2⟩
    refine Triple.bind (R := fun _ => Honest T) (Triple.emit ?_) fun _ => sessionFree.side fun _ => rfl
    rintro _ log ⟨rfl, hflight, hpwm, hpromises, hsound⟩
    refine ⟨?_, hpromises, ?_⟩ <;> rw [snoc_eq]
    · exact Mirrors.hand hflight hpwm env.steady
    · exact Machine.throughout_snoc.2 ⟨hsound, trivial⟩

theorem sendBlade (env : BladeEnv) : Keeps (Honest T) (sendBlade env) := by
  refine Triple.read fun n => Triple.ite (fun _ => Triple.pure fun _ _ => And.right) fun _ => ?_
  cases hcommand : (n.bladeControl.next env.steady).2 with
  | none =>
    refine Triple.bind (R := fun _ => Honest T) (Triple.update ?_) fun _ => Keeps.skip
    rintro _ log ⟨rfl, h⟩
    exact ⟨h.mirrors.dims (BladeControl.next_dims hcommand), h.promises.intent (BladeControl.next_intent _ _),
      h.sound⟩
  | some command =>
    refine Triple.bind (R := fun _ => Handing T command) (Triple.update ?_) fun _ => handBlade command env
    rintro _ log ⟨rfl, h⟩
    obtain ⟨hflight, hpwm, -⟩ := BladeControl.next_flight hcommand
    exact ⟨hflight, hpwm, h.promises.intent (BladeControl.next_intent _ _), h.sound⟩

theorem timeOutBladeReplies (steady : Int) : Keeps (Honest T) (timeOutBladeReplies steady) :=
  Keeps.update fun n l h => by
    split
    · exact h.apply (.serviceTimeout steady) trivial
    · exact h

theorem driveBladeLocked (env : BladeEnv) : Keeps (Honest T) (driveBladeLocked env) := by
  have hforget : Keeps (Honest T) forgetBladeRpcs :=
    Keeps.read fun _ => (Keeps.emitMap (fun _ n l => sessionFree.emit n l _ rfl) _).seq fun _ =>
      sessionFree.side fun _ => rfl
  exact keeps_driveBladeLocked (sessionFree.side fun _ => rfl) (endFailed _) (permitBlade _ _ _)
    (updateBlade (.tick env.steady) trivial fun _ => rfl) endFailed (promoteBladeStarts · _)
    (timeOutBladeReplies _) hforget (answerBladeReplies _) (sendBlade env)

theorem walk : Walk (Honest T) := by
  refine sessionFree.walk (fun op hop => ?_) (fun connected now => ?_) cancelPendingBladeStarts driveBladeLocked
  · exact updateBlade op (by cases op <;> simp_all [Outside, BladeControl.Op.Inward]) fun _ => rfl
  · exact updateBlade (.connection connected now) trivial fun _ => rfl

/-! ### The callbacks -/

theorem complete (h : Honest T n log) {token : Nat} {accepted : Bool} (now : Int)
    (hack : accepted = true → ∀ c, n.bladeControl.inFlight = some c → c.token = token →
      ∃ since, LastServo c since (T ++ log.map .inr) ∧ Acked c.token since) :
    Honest T { n with bladeControl := n.bladeControl.complete token accepted now } log :=
  ⟨h.mirrors.complete hack, h.promises.intent (BladeControl.complete_intent _ _ _ _), h.sound⟩

theorem onServoResponse (token : Nat) (response : Option (Bool × Nat)) (env : Env) :
    Triple (fun n log => Honest T n log ∧ (response = some (true, 0) → ∀ c, n.bladeControl.inFlight = some c →
        c.token = token → ∃ since, LastServo c since (T ++ log.map .inr) ∧ Acked c.token since))
      (onServoResponse token response env) fun _ => Honest T := by
  refine Triple.seq (Keeps.update fun n log h => ⟨sessionFree.frame (by rfl) h.1, h.2⟩) fun _ => ?_
  refine Triple.bind (R := fun _ => Honest T) (Triple.update fun n log h => ?_) fun _ => driveBladeLocked _
  exact h.1.complete _ fun ha => h.2 (by simpa using ha)

theorem onMowerOff (hasked : Asked T header .off) (env : Env) : Keeps (Honest T) (onMowerOff header env) := by
  refine cancelPendingBladeStarts.seq fun _ => Keeps.seq (sessionFree.side fun _ => rfl) fun _ => Keeps.read
    fun n => ?_
  refine Keeps.seq (Keeps.when ?_) fun _ => Triple.bind (requestBlade .off _) fun result => ?_
  · exact Keeps.seq (sessionFree.side fun _ => rfl) fun _ => permitBlade _ _ _
  refine Triple.bind (answerOff hasked result env) fun _ => ?_
  exact (driveBladeLocked _).seq fun _ => walk.driveSession _

theorem startBlade (hasked : Asked T header d) (env : Env) : Keeps (Honest T) (startBlade header d env) := by
  refine Keeps.read fun n => Keeps.ite (Keeps.ite (Keeps.read fun sent => ?_) (Keeps.update fun n log h => ?_)) ?_
  · exact Triple.emit fun _ _ h => h.refuse header sent
  · refine ⟨h.mirrors.frame rfl, ⟨fun p hp => ?_, h.promises.replies⟩, h.sound⟩
    rcases List.mem_append.1 hp with hp | hp
    · exact h.promises.starts p hp
    · rw [List.mem_singleton.1 hp]; exact hasked
  · refine (permitBlade _ _ _).seq fun _ => Triple.bind (requestBlade d _) fun result => ?_
    exact Triple.bind (answerRequest hasked result _) fun _ => driveBladeLocked _

theorem onMowerOn (hasked : Asked T header d) (env : Env) : Keeps (Honest T) (onMowerOn header d env) := by
  refine walk.onMowerOn header d env (Keeps.read fun sent => Triple.emit fun _ _ h => h.refuse header sent)
    (endFailed _) (fun n _ => Triple.pre (sessionFree.side fun _ => rfl) fun _ _ => And.right) (startBlade hasked env)

theorem onMowerControl (mowEnabled mowDirection : UInt8) (env : Env)
    (hasked : ∀ d, requestedDirection mowEnabled mowDirection = some d → Asked T header d) :
    Keeps (Honest T) (onMowerControl header mowEnabled mowDirection env) := by
  have hrefuse : Keeps (Honest T) (replyBlade header false) :=
    Keeps.read fun sent => Triple.emit fun _ _ h => h.refuse header sent
  refine Triple.ite (fun _ => hrefuse) fun hvalid => Triple.ite (fun hoff => ?_) fun hon => ?_
  · exact onMowerOff (hasked .off (by simp [requestedDirection, hoff])) env
  · obtain ⟨rfl, hdirection⟩ : mowEnabled = 1 ∧ (mowDirection = 0 ∨ mowDirection = 1) := by
      rw [not_or, not_and] at hvalid
      have hd := hvalid.2 hon
      constructor <;> grind
    refine onMowerOn (hasked _ ?_) env
    rcases hdirection with rfl | rfl <;> rfl

theorem inl_not_servo (c : Callback × Env) : ∀ e : Effect, (Sum.inl c : (Callback × Env) ⊕ Effect) = .inr e →
    e.isServo = false := by
  intro e h
  cases h

theorem heard (h : Honest T n []) (c : Callback × Env) : Honest (T ++ [.inl c]) n [] := by
  have hmono : T ⊆ T ++ [.inl c] := List.subset_append_left _ _
  have hmirrors : Mirrors n T := by simpa using h.mirrors
  have hsound : Machine.Throughout Sound T := by simpa using h.sound
  refine ⟨?_, ⟨fun p hp => (h.promises.starts p hp).mono hmono, fun r hr => ?_⟩, ?_⟩
  · simpa using hmirrors.snoc (inl_not_servo c)
  · obtain ⟨hle, d, hasked, hd⟩ := h.promises.replies r hr
    exact ⟨hle, d, hasked.mono hmono, hd⟩
  · have hboth : Machine.Throughout Sound (T ++ [.inl c]) := Machine.throughout_snoc.2 ⟨hsound, trivial⟩
    simpa using hboth

theorem told (h : Honest T n log) : Honest (T ++ log.map .inr) n [] := by
  have hmono : T ⊆ T ++ log.map .inr := List.subset_append_left _ _
  refine ⟨?_, ⟨fun p hp => (h.promises.starts p hp).mono hmono, fun r hr => ?_⟩, ?_⟩
  · simpa using h.mirrors
  · obtain ⟨hle, d, hasked, hd⟩ := h.promises.replies r hr
    exact ⟨hle, d, hasked.mono hmono, hd⟩
  · simpa using h.sound

/-- The ACK of the command in flight comes after the last servo command. -/
theorem heard_ack (h : Honest T n []) (token : Nat) (env : Env) (hc : n.bladeControl.inFlight = some c)
    (htoken : c.token = token) : ∃ since,
      LastServo c since (T ++ [.inl (.servoResponse token (some (true, 0)), env)]) ∧ Acked c.token since := by
  obtain ⟨-, since, hlast⟩ := h.mirrors.flight c hc
  rw [List.map_nil, List.append_nil] at hlast
  exact ⟨_, hlast.snoc (inl_not_servo _), env, by simp [htoken]⟩

theorem callback (c : Callback) (env : Env) (h : Honest T n []) :
    Honest (T ++ [.inl (c, env)]) ((c.program env).after n) ((c.program env).emitted n) := by
  by_cases hservo : ∃ token response, c = .servoResponse token response
  · obtain ⟨token, response, rfl⟩ := hservo
    refine onServoResponse token response env n [] ⟨h.heard _, ?_⟩
    rintro rfl c hc htoken
    rw [List.map_nil, List.append_nil]
    exact h.heard_ack token env hc htoken
  · refine sessionFree.callback walk c env (fun header e m hc => ?_) (fun token response hc => ?_) n [] (h.heard _)
    · exact onMowerControl e m env fun d hd => ⟨e, m, env, hd, by simp [hc]⟩
    · exact absurd ⟨token, response, hc⟩ hservo

theorem run (l : Launch) (run : List (Callback × Env)) : Honest (transcript l run) (reach l run) [] := by
  have hinit : Honest [] l.node [] :=
    ⟨⟨nofun, fun _ _ h => absurd rfl h⟩, ⟨nofun, nofun⟩, by simpa using Machine.throughout_nil⟩
  have hstep : ∀ T n c, Honest T n [] → Honest (T ++ (machine.told.step n c).2) (machine.told.step n c).1 [] := by
    intro T n c h
    have := (h.callback c.1 c.2).told
    rw [List.append_assoc] at this
    exact this
  have hrun := Machine.history (m := machine.told) (H := fun T n => Honest T n []) (fun T n c h _ => hstep T n c h)
    hinit (show machine.told.Along _ _ run from Machine.along_of_forall (A := fun _ => True) fun _ _ => trivial)
  rw [Machine.final_told] at hrun
  exact hrun

end Honest

/-! ### The service -/

theorem owes_run (l : Launch) (run : List (Callback × Env)) :
    Owes (fun header => run.countP fun c => c.1.asks header) [] (reach l run) (trace l run) := by
  have hrun : ∀ (run : List (Callback × Env)) k n log, Owes k [] n log →
      Owes (fun header => k header + run.countP fun c => c.1.asks header) [] (machine.final n run)
        (log ++ machine.log n run) := by
    intro run
    induction run with
    | nil => intro k n log h; simpa using h
    | cons c cs ih =>
      intro k n log h
      have hstep := ih _ _ _ (Owes.callback c.1 c.2 n log h)
      rw [List.append_assoc] at hstep
      intro header
      have := hstep header
      simp only [List.countP_cons]
      simp only [Machine.final_cons, Machine.log_cons, machine] at this ⊢
      omega
  have hall := hrun run (fun _ => 0) l.node [] fun _ => rfl
  simp only [Nat.zero_add, List.nil_append] at hall
  exact hall

/-- Every MowerControl request is answered or held, once and in one place; and a reply with success is
sound when it leaves. -/
theorem mower_replies (l : Launch) (run : List (Callback × Env)) :
    (∀ header, (trace l run).countP (Effect.answers header) +
        (reach l run).pendingBladeStarts.countP (·.header = header) +
        (reach l run).bladeReplies.countP (·.header = header) = run.countP fun c => c.1.asks header) ∧
      Machine.Throughout Sound (transcript l run) := by
  refine ⟨fun header => ?_, by simpa using (Honest.run l run).sound⟩
  have htally := owes_run l run header
  have hcount : ∀ {α : Type} (f : α → Nat) (as : List α), (as.map f).count header = as.countP (f · = header) := by
    intro α f as
    rw [List.count, List.countP_map]
    rfl
  simp only [List.nil_append, held, hcount] at htally
  omega

end Bridge
end MowgliMavros
