import MowgliMavros.BladeFailsafe
import MowgliMavros.BridgeRefine
import MowgliMavros.BridgeSession

/-!
# The blade commands of the node

A command 183 that is not neutral leaves only while everything that permits cutting holds
(`blade_on_gated`), and none leaves after an OFF until a valid ON is received (`off_cancels`).
Permission is sampled at the start of `drive_blade_locked`; what may still change before the send also
makes the confirmed direction unknown, so that `next` only returns a neutral (`Watched`).
-/

namespace MowgliMavros
namespace Bridge
open Prog (Triple Keeps)

/-- What permits FWD or REV, with the ages taken at the drive's clock reading. -/
structure Node.MayCut (n : Node) (steady : Int) : Prop where
  ready : n.sessionControl.ready = true
  requestedArm : n.sessionControl.wantedArm = true
  mowingEnabled : n.mowingEnabled = true
  connected : n.mavrosState.connected = true
  armed : n.mavrosState.armed = true
  fcuReceipt : 0 ≤ n.lastFcuReceiptMs ∧ steady - n.lastFcuReceiptMs ≤ 2500
  hardwareSafety : 0 ≤ n.lastHardwareSafetyMs ∧ steady - n.lastHardwareSafetyMs ≤ 3000
  released : n.safetyState.hardwareSafetyState = .released
  noEmergency : ∀ nowNs, n.emergency nowNs = false
  bladeRole : 0 ≤ n.roles.1.blade

/-- The effect is a command 183 with another PWM than `neutral`. -/
def Effect.Cuts (neutral : Int) : Effect → Prop
  | servo _ pwm _ _ => pwm ≠ neutral
  | _ => False

/-- The effect is a permitted command 183 for the requested direction. -/
def Effect.Gated : Effect → Prop
  | servo _ pwm steady sent => sent.MayCut steady ∧ pwm = sent.bladeControl.pwm sent.bladeControl.requested
  | _ => False

variable {l : Launch} {n : Node}

theorem Effect.not_cuts {e : Effect} (h : e.isServo = false) (neutral : Int) : ¬ e.Cuts neutral := by
  cases e <;> simp_all [Effect.Cuts, Effect.isServo]

theorem bladeAllowed_iff (steady nowNs : Int) : n.bladeAllowed steady nowNs = true ↔ n.MayCut steady := by
  constructor
  · intro h
    simp only [Node.bladeAllowed, SafetyState.project_active, SafetyState.project_latched, Bool.and_eq_true,
      decide_eq_true_eq, beq_iff_eq, Bool.not_eq_true'] at h
    obtain ⟨⟨⟨⟨⟨⟨⟨⟨⟨⟨⟨⟨hr, hw⟩, hm⟩, hc⟩, ha⟩, hf⟩, hf'⟩, hs⟩, hs'⟩, hrel⟩, hact⟩, hlat⟩, hrole⟩ := h
    exact ⟨hr, hw, hm, hc, ha, ⟨hf, hf'⟩, ⟨hs, hs'⟩, hrel, by simp [hact, hlat], hrole⟩
  · intro h
    have hem := h.noEmergency nowNs
    rw [emergency_flags, Bool.or_eq_false_iff] at hem
    simp [Node.bladeAllowed, h.ready, h.requestedArm, h.mowingEnabled, h.connected, h.armed, h.fcuReceipt,
      h.hardwareSafety, h.released, hem, h.bladeRole]

/-! ### Between the permission and the send -/

/-- The changes of the blade controller inside a drive. -/
def Wary (b b' : BladeControl) : Prop :=
  b'.allowed = b.allowed ∧ (b'.confirmed = b.confirmed ∨ b'.confirmed = .unknown)

theorem wary_tick (b : BladeControl) (now : Int) : Wary b (b.tick now) := by
  rcases b.tick_cases now with he | ⟨_, _, _, _, he, -⟩ <;> rw [he]
  exacts [⟨rfl, .inl rfl⟩, ⟨rfl, .inl rfl⟩]

theorem wary_request (b : BladeControl) (direction : BladeControl.Direction) (now : Int) :
    Wary b (b.request direction now).1 := by
  rcases b.request_cases direction now with he | ⟨-, -, -, -, he⟩
  · rw [he]; exact ⟨rfl, .inl rfl⟩
  · rcases he with ⟨-, he⟩ | ⟨-, -, he⟩ | ⟨-, -, he⟩ | ⟨-, -, -, -, he⟩ <;> rw [he]
    exacts [⟨rfl, .inr rfl⟩, ⟨rfl, .inr rfl⟩, ⟨rfl, .inl rfl⟩, ⟨rfl, .inl rfl⟩]

/-- A granted ON has its permission. -/
def Watched (env : BladeEnv) : Assertion := fun n _ =>
  n.bladeControl.allowed = true → n.bladeControl.confirmed ≠ .unknown → n.bladeAllowed env.steady env.nowNs = true

namespace Watched

theorem applyBlade {env : BladeEnv} {log : List Effect} (h : Watched env n log) {b : BladeControl}
    (hb : Wary n.bladeControl b) : Watched env { n with bladeControl := b } log := by
  intro ha hc
  obtain ⟨hallowed, hconfirmed⟩ := hb
  refine h (hallowed ▸ ha) ?_
  rcases hconfirmed with he | he
  · exact he ▸ hc
  · exact absurd he hc

variable {env : BladeEnv}

theorem keeps_emit (e : Effect) : Keeps (Watched env) (Prog.emit e) := Triple.emit fun _ _ => id

theorem replyBlade (header : Nat) (success : Bool) : Keeps (Watched env) (replyBlade header success) :=
  Keeps.read fun _ => keeps_emit _

/-- The end of a blade test leaves the confirmed direction unknown. -/
theorem endFailedBladeTestLocked (ended : EndEnv) :
    Keeps (Watched env) (endFailedBladeTestLocked ended) := by
  have hcancel : Keeps (Watched env) cancelPendingBladeStarts :=
    Keeps.read fun _ => (Keeps.forEach fun _ _ => replyBlade _ _).seq fun _ => Keeps.update fun _ _ => id
  refine Keeps.read fun n => Keeps.skip.ite ?_
  refine Keeps.seq (Keeps.update fun _ _ => id) fun _ => hcancel.seq fun _ => ?_
  refine Triple.bind (R := fun _ n _ => n.bladeControl.confirmed = .unknown) ?_ fun _ => ?_
  · exact Triple.update fun _ _ _ => rfl
  refine Keeps.seq ?_ fun _ => Triple.update fun n _ hu _ hc => absurd hu hc
  exact keeps_publishNeutralManualControl (fun _ _ _ => Triple.emit fun _ _ => id)
    fun _ _ _ => Triple.emit fun _ _ => id

theorem promoteBladeStarts (emergency : Bool) : Keeps (Watched env) (promoteBladeStarts emergency env.steady) :=
  keeps_promoteBladeStarts replyBlade
    (fun direction =>
      keeps_requestBlade fun n _ h => h.applyBlade (wary_request n.bladeControl direction env.steady))
    (fun _ _ _ => Keeps.read fun _ => Keeps.ite (Keeps.update fun _ _ => id) (replyBlade _ _))
    (fun _ _ _ => id) emergency

theorem timeOutBladeReplies : Keeps (Watched env) (timeOutBladeReplies env.steady) :=
  Keeps.update fun n _ h => by
    split
    · exact h.applyBlade ⟨rfl, .inr rfl⟩
    · exact h

end Watched

/-! ### The gate -/

def Clean (l : Launch) : Assertion := fun n log =>
  Refines l n ∧ ∀ e ∈ log, e.Cuts l.blade.1.neutral → e.Gated

theorem clean_stable (l : Launch) : Stable (Clean l) :=
  Refines.stable.and (Stable.forall_log fun e he hc => absurd hc (e.not_cuts he _))

theorem clean_indifferent (l : Launch) : Indifferent (Clean l) where
  toStable := clean_stable l
  starts n log starts h := ⟨Refines.indifferent.starts n log starts h.1, h.2⟩
  request _ _ _ _ h := ⟨h.1.applyBlade _, h.2⟩

/-- `next` returns the neutral, or the requested direction by permission and after a confirmed neutral. -/
theorem next_pwm (b : BladeControl) (now : Int) {command : BladeControl.Command}
    (h : (b.next now).2 = some command) :
    command.pwm = b.config.1.neutral ∨
      b.allowed = true ∧ b.confirmed = .off ∧ command.pwm = (b.next now).1.pwm (b.next now).1.requested := by
  rcases b.next_cases now with ⟨he, -⟩ | ⟨-, target, -, hgrant, he⟩ <;> rw [he] at h ⊢
  · cases h
  obtain rfl := Option.some.inj h
  obtain ⟨hallowed, hconfirmed⟩ := wary_tick b now
  rcases hgrant with ⟨-, rfl⟩ | ⟨-, -, -, ha, -, hc, -, rfl⟩
  · exact .inl (congrArg (·.1.neutral) (b.tick_config now))
  · refine .inr ⟨hallowed ▸ ha, ?_, rfl⟩
    rcases hconfirmed with hu | hu
    · exact hu ▸ hc
    · rw [hu] at hc; cases hc

def Permitted (l : Launch) (env : BladeEnv) (command : BladeControl.Command) (n : Node) : Prop :=
  command.pwm = l.blade.1.neutral ∨
    n.bladeAllowed env.steady env.nowNs = true ∧ command.pwm = n.bladeControl.pwm n.bladeControl.requested

theorem handBlade_clean (l : Launch) (env : BladeEnv) (command : BladeControl.Command) :
    Triple (fun n log => Clean l n log ∧ Permitted l env command n) (handBlade command env) fun _ => Clean l := by
  have h := clean_stable l
  refine Triple.ite (fun _ => Triple.pre ?_ fun _ _ => And.left) fun _ => ?_
  · exact h.updateBlade (.complete _ false _) (by simp [Quiet]) fun _ => rfl
  refine Keeps.seq (Triple.and (h.side fun _ => rfl) ?_) fun _ => ?_
  · exact Keeps.update fun _ _ => id
  refine Triple.read fun n => Triple.bind (R := fun _ => Clean l) (Triple.emit ?_) fun _ => h.side fun _ => rfl
  rintro _ log ⟨rfl, ⟨hrefines, hlog⟩, hperm⟩
  refine ⟨hrefines, fun e he hcuts => ?_⟩
  rcases List.mem_append.1 he with he | he
  · exact hlog e he hcuts
  · obtain rfl := List.mem_singleton.1 he
    obtain ⟨hallowed, hpwm⟩ := hperm.resolve_left hcuts
    exact ⟨(bladeAllowed_iff _ _).1 hallowed, hpwm⟩

theorem sendBlade_clean (l : Launch) (env : BladeEnv) :
    Triple (fun n log => Clean l n log ∧ Watched env n log) (sendBlade env) fun _ => Clean l := by
  refine Triple.read fun n => Triple.ite (fun _ => Triple.pure fun _ _ h => h.2.1) fun _ => ?_
  cases hcommand : (n.bladeControl.next env.steady).2 with
  | none =>
    refine Triple.bind (R := fun _ => Clean l) (Triple.update ?_) fun _ => Keeps.skip
    rintro _ log ⟨rfl, hclean, -⟩
    exact (clean_stable l).blade _ _ (.next env.steady) (by simp [Quiet]) hclean
  | some command =>
    refine Triple.bind (Triple.update ?_) fun _ => handBlade_clean l env command
    rintro _ log ⟨rfl, hclean, hwatched⟩
    refine ⟨(clean_stable l).blade _ _ (.next env.steady) (by simp [Quiet]) hclean, ?_⟩
    rcases next_pwm _ _ hcommand with hneutral | ⟨hallowed, hconfirmed, hpwm⟩
    · exact .inl (hneutral.trans (by rw [hclean.1.bladeConfig]))
    · exact .inr ⟨hwatched hallowed (by rw [hconfirmed]; decide), hpwm⟩

theorem driveBladeLocked_clean (l : Launch) (env : BladeEnv) : Keeps (Clean l) (driveBladeLocked env) := by
  have h := clean_stable l
  let J : Assertion := fun n log => Clean l n log ∧ Watched env n log
  have hpermit : Triple (Clean l) (permitBlade env.steady env.nowNs env.steady) fun _ => J :=
    Triple.update fun n log hc => ⟨h.blade n log (.permission _ _) (by simp [Quiet]) hc, fun ha _ => ha⟩
  have htick : Keeps J (updateBlade (·.tick env.steady)) :=
    (h.updateBlade (.tick _) (by simp [Quiet]) fun _ => rfl).and
      (Keeps.update fun n _ hw => hw.applyBlade (wary_tick _ _))
  have hended : ∀ ended, Keeps J (endFailedBladeTestLocked ended) := fun ended =>
    (h.endFailedBladeTestLocked ended).and (Watched.endFailedBladeTestLocked ended)
  have hpromote : ∀ emergency, Keeps J (promoteBladeStarts emergency env.steady) := fun emergency =>
    ((clean_indifferent l).promoteBladeStarts emergency _).and (Watched.promoteBladeStarts emergency)
  have htimeOut : Keeps J (timeOutBladeReplies env.steady) :=
    (h.timeOutBladeReplies _).and Watched.timeOutBladeReplies
  have hforget : Keeps J forgetBladeRpcs := by
    refine h.forgetBladeRpcs.and (Keeps.read fun _ => ?_)
    exact Keeps.seq (Triple.emitAll fun _ _ => id) fun _ => Keeps.update fun _ _ => id
  have hanswer : Keeps J (answerBladeReplies env.steady) := by
    refine (h.answerBladeReplies _).and (Keeps.read fun _ => ?_)
    exact Keeps.seq (Triple.emitAll fun _ _ => id) fun _ => Keeps.update fun _ _ => id
  exact keeps_driveBladeLocked (h.expireWireExpectations _) (h.endFailedBladeTestLocked _) hpermit htick hended
    hpromote htimeOut hforget hanswer (sendBlade_clean l env)

/-- Every command 183 that is not neutral is sent while everything that permits cutting holds, and its
PWM is the one of the direction the blade controller has requested. -/
theorem blade_on_gated (l : Launch) (run : List (Callback × Env)) :
    ∀ e ∈ trace l run, e.Cuts l.blade.1.neutral → e.Gated := by
  have hinit : Clean l l.node [] := ⟨Refines.reach l [], by simp⟩
  exact ((clean_indifferent l).run hinit (driveBladeLocked_clean l) run).2

/-! ### A run that cuts -/

def defaultLaunch : Launch where
  provider := .ardupilot
  blade := BladeControl.defaultConfig
  roles := ⟨{}, by decide⟩

def Env.clock (t : Int) : Env where
  steady _ := t
  nowNs := t * 1000000
  ended := { steady := t, nowNs := t * 1000000 }
  blade _ := { steady := t, nowNs := t * 1000000 }
  session _ := { steady := t, nowNs := t * 1000000 }

def zeroObservation (t : Nat) : EscObservation where
  escIndex := 2
  stamp := ⟨t / 1000, t % 1000 * 1000000⟩
  metadataStamp := ⟨0, 0⟩
  source := 1
  rpmValid := true
  valid := true

def standing (t : Nat) : Callback × Env := (.escTelemetry (zeroObservation t), .clock t)

/-- AUTONOMOUS up to the confirmed GUIDED and ARM. -/
def armedRun : List (Callback × Env) := [
  (.mavrosState { connected := true, mode := "HOLD" }, .clock 1),
  (.mavrosSysStatus true true, .clock 1),
  (.servoResponse 2 (some (true, 0)), .clock 2),
  (.highLevelStatus 2, .clock 3),
  (.modeResponse 1 (some true), .clock 4),
  (.mavrosState { connected := true, mode := "GUIDED" }, .clock 5),
  (.armResponse 2 (some (true, 0)), .clock 6),
  (.mavrosState { connected := true, armed := true, mode := "GUIDED" }, .clock 7)]

def cuttingRun : List (Callback × Env) :=
  armedRun ++ [standing 100, (.mowerControl 1 1 0, .clock 150), standing 300, standing 500, standing 700,
    standing 900, standing 1100]

instance (neutral : Int) (e : Effect) : Decidable (e.Cuts neutral) := by
  cases e <;> unfold Effect.Cuts <;> infer_instance

/-- `blade_on_gated` on a run that does send FWD. -/
theorem blade_on_gated_forward :
    ∃ e ∈ trace defaultLaunch cuttingRun, e.Cuts defaultLaunch.blade.1.neutral ∧ e.Gated := by
  have h : (trace defaultLaunch cuttingRun).any (·.Cuts defaultLaunch.blade.1.neutral) = true := by decide +kernel
  obtain ⟨e, he, hcuts⟩ := List.any_eq_true.1 h
  exact ⟨e, he, by simpa using hcuts, blade_on_gated _ _ e he (by simpa using hcuts)⟩

/-! ### OFF -/

open BladeControl in
theorem apply_requested_off {b : BladeControl} (op : Op) (hop : Quiet op) (h : b.requested = .off) :
    (b.apply op).requested = .off := by
  have keeps : ∀ {b' : BladeControl}, b' = b → b'.requested = .off := fun he => by rw [he]; exact h
  have htick : ∀ now, (b.tick now).requested = .off := fun now => by
    rcases b.tick_cases now with he | ⟨_, _, _, _, he, -⟩
    · exact keeps he
    · exact congrArg requested he
  cases op with
  | connection connected now =>
    rcases b.connection_cases connected now with ⟨-, he⟩ | ⟨-, he⟩
    · exact keeps he
    · exact congrArg requested he
  | permission allowed now =>
    simp only [apply, permission]; split_ifs
    exacts [rfl, h]
  | request direction now =>
    obtain rfl := hop direction now rfl
    rcases b.request_cases .off now with he | ⟨-, -, -, hne, -⟩
    · exact keeps he
    · exact absurd h.symm hne
  | forceOff now => rfl
  | serviceTimeout now => rfl
  | sample x now =>
    obtain ⟨_, _, _, _, _, _, _, he⟩ := b.sample_frame x now
    exact (congrArg requested he).trans h
  | tick now => exact htick now
  | next now =>
    rcases b.next_cases now with ⟨he, -⟩ | ⟨-, target, -, -, he⟩
    · exact (congrArg (·.1.requested) he).trans (htick now)
    · exact (congrArg (·.1.requested) he).trans (htick now)
  | complete token accepted now =>
    rcases b.complete_cases token accepted now with ⟨he, -⟩ | ⟨c, -, -, ⟨-, he⟩ | ⟨-, -, he⟩ | ⟨-, -, he⟩⟩
    · exact keeps he
    · exact congrArg requested he
    all_goals exact (congrArg requested he).trans h
  | output pwmValue now =>
    rcases b.output_cases pwmValue now with he | he
    · exact keeps he
    · exact congrArg requested he

open BladeControl in
/-- An OFF request leaves the OFF intent, also when it is rejected. -/
theorem request_off_requested {last acked : Option Command} {b : BladeControl} (h : Rep last acked b) (now : Int) :
    (b.request .off now).1.requested = .off := by
  by_cases hidle : b.fault = true ∨ b.connected = false
  · exact apply_requested_off (.request .off now) (by simp [Quiet]) (h.idle hidle)
  by_cases hsame : b.requested = .off
  · exact apply_requested_off (.request .off now) (by simp [Quiet]) hsame
  · rw [not_or, Bool.not_eq_true, Bool.not_eq_false] at hidle
    simp [request, hidle, Ne.symm hsame, forceOff]

def Calm (l : Launch) : Assertion := fun n log =>
  (Refines l n ∧ ∀ e ∈ log, ¬ e.Cuts l.blade.1.neutral) ∧ n.pendingBladeStarts = []

/-- No ON is left: neither a waiting one nor the intent of the blade controller. -/
def Off (l : Launch) : Assertion := fun n log => Calm l n log ∧ n.bladeControl.requested = .off

theorem calm_stable (l : Launch) : Stable (Calm l) := by
  refine (Refines.stable.and (Stable.forall_log fun e he => e.not_cuts he _)).and ?_
  exact {
    frame := fun _ _ _ hp h => hp.trans h
    cancel := fun _ _ _ => rfl
    blade := fun _ _ _ _ h => h
    session := fun _ _ _ _ _ h => h
    observe := fun _ _ _ h => h
    emit := fun _ _ _ _ h => h }

theorem off_stable (l : Launch) : Stable (Off l) := by
  refine (calm_stable l).and ?_
  exact {
    frame := fun hb _ _ _ h => by rw [hb]; exact h
    cancel := fun _ _ h => h
    blade := fun _ _ _ hop h => apply_requested_off _ hop h
    session := fun _ _ _ _ _ h => h
    observe := fun _ _ _ h => h
    emit := fun _ _ _ _ h => h }

theorem next_off {b : BladeControl} (h : b.requested = .off) {now : Int} {command : BladeControl.Command}
    (hcommand : (b.next now).2 = some command) : command.pwm = b.config.1.neutral := by
  rcases next_pwm b now hcommand with hpwm | ⟨-, -, hpwm⟩
  · exact hpwm
  · have hoff : (b.next now).1.requested = .off := apply_requested_off (.next now) (by simp [Quiet]) h
    have hconfig : (b.next now).1.config = b.config := b.apply_config (.next now)
    rw [hpwm, hoff, ← hconfig]; rfl

theorem sendBlade_off (l : Launch) (env : BladeEnv) : Keeps (Off l) (sendBlade env) := by
  have h := off_stable l
  refine Triple.read fun n => Triple.ite (fun _ => Triple.pure fun _ _ => And.right) fun _ => ?_
  cases hcommand : (n.bladeControl.next env.steady).2 with
  | none =>
    refine Triple.bind (R := fun _ => Off l) (Triple.update ?_) fun _ => Keeps.skip
    rintro _ log ⟨rfl, ho⟩
    exact h.blade _ log (.next _) (by simp [Quiet]) ho
  | some command =>
    refine Triple.bind (R := fun _ n log => Off l n log ∧ command.pwm = l.blade.1.neutral) ?_ fun _ => ?_
    · refine Triple.update ?_
      rintro _ log ⟨rfl, ho⟩
      refine ⟨h.blade _ log (.next _) (by simp [Quiet]) ho, ?_⟩
      rw [next_off ho.2 hcommand, ho.1.1.1.bladeConfig]
    refine Triple.assume (fun hpwm => Triple.pre ?_ fun _ _ => And.left) fun _ _ => And.right
    refine Keeps.ite (h.updateBlade (.complete _ false _) (by simp [Quiet]) fun _ => rfl) ?_
    refine Keeps.seq (h.side fun _ => rfl) fun _ => Keeps.read fun n => ?_
    refine Keeps.seq (Triple.emit ?_) fun _ => h.side fun _ => rfl
    rintro n' log ⟨⟨⟨hrefines, hlog⟩, hpending⟩, hoff⟩
    refine ⟨⟨⟨hrefines, fun e he => ?_⟩, hpending⟩, hoff⟩
    rcases List.mem_append.1 he with he | he
    · exact hlog e he
    · rw [List.mem_singleton.1 he]
      intro hcuts
      exact hcuts hpwm

theorem driveBladeLocked_off (l : Launch) (env : BladeEnv) : Keeps (Off l) (driveBladeLocked env) := by
  refine (off_stable l).driveBladeLocked env (fun emergency => ?_) (sendBlade_off l env)
  refine Triple.read fun n => ?_
  refine Triple.assume (p := n.pendingBladeStarts = []) (fun hp => ?_) ?_
  · rw [hp]
    refine Triple.bind (R := fun kept n log => kept = [] ∧ Off l n log) ?_ fun kept => ?_
    · exact Triple.pure fun _ _ h => ⟨rfl, h.2⟩
    refine Triple.update fun n log ⟨hkept, ho⟩ => ?_
    rw [hkept]
    exact (off_stable l).cancel n log ho
  · rintro _ log ⟨rfl, h⟩
    exact h.1.2

/-- The OFF service cancels what waits and takes the ON intent back, whether the request is served,
rejected by a failure or made while the FCU is away. -/
theorem onMowerOff_off (l : Launch) (header : Nat) (env : Env) :
    Triple (fun n log => Refines l n ∧ ∀ e ∈ log, ¬ e.Cuts l.blade.1.neutral) (onMowerOff header env)
      fun _ => Off l := by
  have hbase : Stable fun n log => Refines l n ∧ ∀ e ∈ log, ¬ e.Cuts l.blade.1.neutral :=
    Refines.stable.and (Stable.forall_log fun e he => e.not_cuts he _)
  have hcalm := calm_stable l
  have hcancel : Triple (fun n log => Refines l n ∧ ∀ e ∈ log, ¬ e.Cuts l.blade.1.neutral) cancelPendingBladeStarts
      fun _ => Calm l := by
    refine Triple.read fun n => Triple.pre ?_ fun _ _ => And.right
    exact (Keeps.forEach fun pending _ => hbase.replyBlade pending.header false).seq fun _ =>
      Triple.update fun n log h => ⟨hbase.cancel n log h, rfl⟩
  have hrequest : Triple (Calm l) (requestBlade .off (env.steady 2)) fun _ => Off l := by
    refine Triple.read fun n => Triple.bind (R := fun _ => Off l) (Triple.update ?_) fun _ => Keeps.skip
    rintro _ log ⟨rfl, hc⟩
    refine ⟨hcalm.blade _ log (.request .off _) (by simp [Quiet]) hc, ?_⟩
    obtain ⟨last, acked, hrep⟩ := hc.1.1.bladeRep
    exact request_off_requested hrep _
  refine hcancel.bind fun _ => hcalm.endBladeTest.seq fun _ => ?_
  refine Triple.peek fun n => Keeps.seq (Keeps.when ?_) fun _ => ?_
  · refine Keeps.seq (Keeps.update fun n' log => ?_) fun _ => hcalm.permitBlade _ _ _
    exact hcalm.demand n' log "HOLD" false _ fun _ => rfl
  · have h := off_stable l
    exact hrequest.bind fun result => (h.answerOff header result env).seq fun _ =>
      (driveBladeLocked_off l _).seq fun _ => h.driveSessionLocked _

theorem off_run {n : Node} {log : List Effect} (h : Off l n log) {post : List (Callback × Env)}
    (hpost : ∀ c ∈ post, ¬ c.1.IsOn) : Off l (machine.final n post) (log ++ machine.log n post) :=
  Machine.history (m := machine) (H := fun log n => Off l n log) (A := fun _ c => ¬ c.1.IsOn)
    (fun log n c h hc =>
      (off_stable l).callback (driveBladeLocked_off l) c.1 c.2 (fun hon => absurd hon hc) n log h)
    h (Machine.along_of_forall hpost)

theorem step_off (n : Node) (header : Nat) (mowDirection : UInt8) (env : Env) :
    machine.step n (.mowerControl header 0 mowDirection, env) =
      ((onMowerOff header env).after n, (onMowerOff header env).emitted n) := by
  have hprogram : (Callback.mowerControl header 0 mowDirection).program env = onMowerOff header env := by
    simp [Callback.program, onMowerControl]
  simp [machine, hprogram]

/-- From an OFF request on no command 183 but the neutral is sent until a valid ON is received. -/
theorem off_cancels (l : Launch) (pre : List (Callback × Env)) (header : Nat) (mowDirection : UInt8) (env : Env)
    (post : List (Callback × Env)) (hpost : ∀ c ∈ post, ¬ c.1.IsOn) :
    ∀ e ∈ machine.log (reach l pre) ((.mowerControl header 0 mowDirection, env) :: post),
      ¬ e.Cuts l.blade.1.neutral := by
  have hoff : Off l ((onMowerOff header env).after (reach l pre))
      ([] ++ (onMowerOff header env).emitted (reach l pre)) :=
    onMowerOff_off l header env (reach l pre) [] ⟨Refines.reach l pre, by simp⟩
  rw [List.nil_append] at hoff
  simp only [Machine.log_cons, step_off]
  exact (off_run hoff hpost).1.1.2

/-- `off_cancels` on an OFF while FWD is in flight, with the late ACK and the telemetry that follow. -/
theorem off_cancels_forward :
    ∃ e ∈ machine.log (reach defaultLaunch cuttingRun) ((.mowerControl 2 0 0, .clock 1150) ::
        [(.servoResponse 3 (some (true, 0)), .clock 1160), standing 1200, (.bladeTimer, .clock 1250)]),
      e.isServo = true ∧ ¬ e.Cuts defaultLaunch.blade.1.neutral := by
  have h : (machine.log (reach defaultLaunch cuttingRun) ((.mowerControl 2 0 0, .clock 1150) ::
      [(.servoResponse 3 (some (true, 0)), .clock 1160), standing 1200, (.bladeTimer, .clock 1250)])).any
        (·.isServo) = true := by decide +kernel
  obtain ⟨e, he, hservo⟩ := List.any_eq_true.1 h
  exact ⟨e, he, hservo, off_cancels defaultLaunch cuttingRun 2 0 (.clock 1150) _ (by decide) e he⟩

end Bridge
end MowgliMavros
