import MowgliMavros.BladeIntent
import MowgliMavros.BridgeWalk
import MowgliMavros.SessionSpec

/-!
# The outstanding requests

A MODE, ARM or servo request that the node has sent stays in `session_rpc_ids_` or `blade_rpc_ids_` until its
response comes or `remove_pending_request` withdraws it. `Booked` counts the requests of each client: what
is held, what was answered and what was withdrawn make up what was sent. Every piece of the node keeps it, a
response moves its request from the held ones to the answered ones, and so the books balance in every run
(`rpc_ledger`).
-/

namespace MowgliMavros

/-! ### What the controllers wait for -/

namespace FcuSessionController

/-- Nothing new is pending, and what still is keeps its ACK. -/
structure Drains (s s' : FcuSessionController) : Prop where
  serial : s'.serial = s.serial
  pending : ∀ c, s'.pending = some c → s.pending = some c
  acked : ∀ c, s'.pending = some c → s'.acked = false → s.acked = false

section Drains
variable {s s' s'' : FcuSessionController} {now : Int} {c : Command}

theorem Drains.refl (s : FcuSessionController) : Drains s s := ⟨rfl, fun _ => id, fun _ _ => id⟩

theorem Drains.trans (h : Drains s s') (h' : Drains s' s'') : Drains s s'' where
  serial := h'.serial.trans h.serial
  pending c hc := h.pending c (h'.pending c hc)
  acked c hc hacked := h.acked c (h'.pending c hc) (h'.acked c hc hacked)

theorem Drains.of_idle (hserial : s'.serial = s.serial) (hpending : s'.pending = none) : Drains s s' :=
  ⟨hserial, fun _ hc => absurd (hpending.symm.trans hc) nofun, fun _ hc => absurd (hpending.symm.trans hc) nofun⟩

theorem drains_fail (s : FcuSessionController) (reason : String) : Drains s (s.fail reason) := by
  cases hc : s.pending with
  | none =>
    have hsame : s.fail reason = s := by simp [fail, hc]
    rw [hsame]
    exact .refl s
  | some c =>
    rw [fail_eq hc]
    exact .of_idle rfl rfl

theorem drains_settle (s : FcuSessionController) : Drains s s.settle := by
  rcases settle_cases s with h | ⟨_, _, -, -, -, h⟩ <;> rw [h]
  · exact .refl s
  · exact .of_idle rfl rfl

theorem drains_tick (s : FcuSessionController) (now : Int) : Drains s (s.tick now) := by
  rcases tick_cases s now with h | ⟨_, -, -, h⟩ <;> rw [h]
  · exact .refl s
  · exact drains_fail s _

theorem drains_demand (s : FcuSessionController) (mode : String) (arm safetyDisarm : Bool) :
    Drains s (s.demand mode arm safetyDisarm) := by
  unfold demand
  split
  · exact .refl s
  · refine ⟨rfl, fun c hc => ?_, fun _ _ => id⟩
    dsimp only at hc
    split at hc
    · cases hc
    · exact hc

theorem drains_observe (s : FcuSessionController) (connected armed : Bool) (mode : String) :
    Drains s (s.observe connected armed mode) := by
  rw [observe_eq]
  refine Drains.trans ?_ (drains_settle _)
  refine ⟨rfl, fun c hc => ?_, fun _ _ => id⟩
  simp only [seen] at hc
  split at hc
  · exact hc
  · cases hc

theorem drains_complete (s : FcuSessionController) (serial : Nat) (accepted : Bool) (now : Int) :
    Drains s (s.complete serial accepted now) := by
  refine (drains_tick s now).trans ?_
  rcases complete_cases s serial accepted now with h | ⟨c, -, -, -, h⟩ | ⟨-, h⟩ <;> rw [h]
  · exact .refl _
  · exact drains_fail _ _
  · refine Drains.trans ?_ (drains_settle _)
    exact ⟨rfl, fun _ => id, nofun⟩

/-- After the response to its request a command that is still pending has its ACK. -/
theorem complete_answers {serial : Nat} {accepted : Bool} (hc : (s.complete serial accepted now).pending = some c)
    (hserial : c.serial = serial) : (s.complete serial accepted now).acked = true := by
  unfold complete at hc ⊢
  generalize s.tick now = s at hc ⊢
  dsimp only at hc ⊢
  split at hc
  · rename_i hforeign
    exact absurd (by simp [current, hc, hserial]) hforeign
  rename_i hcurrent
  rw [if_neg hcurrent]
  split at hc
  · obtain ⟨c', hc', -⟩ := Option.any_eq_true _ _ |>.1 (not_not.1 hcurrent)
    rw [fail_eq hc'] at hc
    cases hc
  · rename_i haccepted
    rw [if_neg haccepted]
    rcases settle_cases { s with acked := true } with h | ⟨_, _, -, -, -, h⟩ <;> rw [h]

theorem next_drains {modeService armService allowArm : Bool}
    (h : (s.next now modeService armService allowArm).2 = none) :
    Drains s (s.next now modeService armService allowArm).1 := by
  unfold next at h ⊢
  rw [issue_none h]
  exact drains_tick s now

theorem next_issues {modeService armService allowArm : Bool}
    (h : (s.next now modeService armService allowArm).2 = some c) :
    (s.tick now).pending = none ∧ c.serial = s.serial + 1 ∧
      (s.next now modeService armService allowArm).1.serial = s.serial + 1 ∧
      (s.next now modeService armService allowArm).1.pending = some c ∧
      (s.next now modeService armService allowArm).1.sentAt = now := by
  unfold next at h ⊢
  have hserial := (drains_tick s now).serial
  rcases issue_cases (s.tick now) now modeService armService allowArm with he | ⟨-, hidle, kind, arm, force, -, he⟩
  · rw [he] at h
    cases h
  · rw [he] at h ⊢
    cases h
    refine ⟨hidle, ?_, ?_, rfl, rfl⟩
    · show (s.tick now).serial + 1 = s.serial + 1
      rw [hserial]
    · show (s.tick now).serial + 1 = s.serial + 1
      rw [hserial]

end Drains
end FcuSessionController

namespace BladeControl

/-- Nothing new is in flight. -/
structure Drains (s s' : BladeControl) : Prop where
  token : s.token ≤ s'.token
  inFlight : ∀ c, s'.inFlight = some c → s.inFlight = some c

section Drains
variable {s s' s'' : BladeControl} {now : Int} {c : Command}

theorem Drains.refl (s : BladeControl) : Drains s s := ⟨Nat.le_refl _, fun _ => id⟩

theorem Drains.trans (h : Drains s s') (h' : Drains s' s'') : Drains s s'' :=
  ⟨Nat.le_trans h.token h'.token, fun c hc => h.inFlight c (h'.inFlight c hc)⟩

theorem Drains.of_idle (htoken : s.token ≤ s'.token) (hidle : s'.inFlight = none) : Drains s s' :=
  ⟨htoken, fun _ hc => absurd (hidle.symm.trans hc) nofun⟩

theorem drains_forceOff (s : BladeControl) (now : Int) : Drains s (s.forceOff now) := .of_idle (Nat.le_succ _) rfl

theorem drains_fail (s : BladeControl) (sendNeutral : Bool) : Drains s (s.fail sendNeutral) := by
  refine ⟨?_, fun c hc => ?_⟩
  · unfold fail
    dsimp only
    split <;> omega
  · unfold fail at hc
    dsimp only at hc
    split at hc
    · cases hc
    · exact hc

/-- The operations that hand out nothing. -/
def Op.Hands : Op → Prop
  | .next _ => True
  | _ => False

theorem drains_drop_fail (s : BladeControl) (sendNeutral : Bool) :
    Drains s ({ s with inFlight := none }.fail sendNeutral) := by
  have hdrop : Drains s { s with inFlight := none } := .of_idle (Nat.le_refl _) rfl
  exact hdrop.trans (drains_fail _ _)

theorem drains_tick (s : BladeControl) (now : Int) : Drains s (s.tick now) := by
  have hack : Drains s (s.ackDeadline now) := by
    unfold ackDeadline
    split
    · split
      · exact drains_drop_fail _ _
      · exact .refl _
    · exact .refl _
  have hstale (s : BladeControl) : Drains s (s.staleDeadline now) := by
    unfold staleDeadline
    split
    · exact drains_fail _ _
    · exact .refl _
  have hstop (s : BladeControl) : Drains s (s.stopDeadline now) := by
    unfold stopDeadline
    split
    · exact drains_fail _ _
    · exact .refl _
  exact (hack.trans (hstale _)).trans (hstop _)

theorem drains_complete (s : BladeControl) (token : Nat) (accepted : Bool) (now : Int) :
    Drains s (s.complete token accepted now) := by
  rcases s.complete_cases token accepted now with ⟨he, -⟩ | ⟨c, -, -, ⟨-, he⟩ | ⟨-, -, he⟩ | ⟨-, -, he⟩⟩ <;> rw [he]
  · exact .refl _
  · exact drains_drop_fail _ _
  · exact .of_idle (Nat.le_refl _) rfl
  · exact .of_idle (Nat.le_refl _) rfl

/-- The response to a request leaves its command not in flight. -/
theorem complete_answers {token : Nat} {accepted : Bool} (hc : (s.complete token accepted now).inFlight = some c) :
    c.token ≠ token := by
  rcases s.complete_cases token accepted now with ⟨he, hforeign⟩ | ⟨_, -, -, ⟨-, he⟩ | ⟨-, -, he⟩ | ⟨-, -, he⟩⟩ <;>
    rw [he] at hc
  · exact hforeign c hc
  · simp [fail] at hc
  · cases hc
  · cases hc

theorem drains_request (s : BladeControl) (direction : Direction) (now : Int) :
    Drains s (s.request direction now).1 := by
  rcases s.request_cases direction now with he | ⟨-, -, -, -, hcase⟩
  · rw [he]
    exact .refl s
  rcases hcase with ⟨-, he⟩ | ⟨-, -, he⟩ | ⟨-, -, he⟩ | ⟨-, -, -, -, he⟩ <;> rw [he]
  · exact .of_idle (Nat.le_succ _) rfl
  · exact .of_idle (Nat.le_succ _) rfl
  · exact ⟨Nat.le_refl _, fun _ => id⟩
  · exact ⟨Nat.le_refl _, fun _ => id⟩

theorem drains_apply (s : BladeControl) (op : Op) (hop : ¬ op.Hands) : Drains s (s.apply op) := by
  cases op with
  | connection connected now =>
    rcases s.connection_cases connected now with ⟨-, he⟩ | ⟨-, he⟩ <;> rw [apply, he]
    · exact .refl s
    · exact .of_idle (Nat.le_succ _) rfl
  | permission allowed now =>
    simp only [apply, permission]
    split
    · exact .of_idle (Nat.le_succ _) rfl
    · exact ⟨Nat.le_refl _, fun _ => id⟩
  | request direction now => exact drains_request s direction now
  | forceOff now => exact drains_forceOff s now
  | serviceTimeout now => exact .of_idle (Nat.le_succ _) rfl
  | sample x now =>
    obtain ⟨_, _, _, _, _, _, _, he⟩ := s.sample_frame x now
    rw [apply, he]
    exact ⟨Nat.le_refl _, fun _ => id⟩
  | tick now => exact drains_tick s now
  | next now => exact absurd trivial hop
  | complete token accepted now => exact drains_complete s token accepted now
  | output pwmValue now =>
    rcases s.output_cases pwmValue now with he | he <;> rw [apply, he]
    · exact .refl s
    · exact drains_forceOff s now

theorem next_drains (h : (s.next now).2 = none) : Drains s (s.next now).1 := by
  rcases s.next_cases now with ⟨he, -⟩ | ⟨-, target, -, -, he⟩ <;> rw [he] at h ⊢
  · exact drains_tick s now
  · cases h

theorem next_hands (h : (s.next now).2 = some c) :
    s.token < c.token ∧ (s.next now).1.token = c.token ∧ (s.next now).1.inFlight = some c := by
  have htoken := (drains_tick s now).token
  rcases s.next_cases now with ⟨he, -⟩ | ⟨-, target, -, -, he⟩ <;> rw [he] at h ⊢
  · cases h
  · cases h
    exact ⟨Nat.lt_succ_of_le htoken, rfl, rfl⟩

end Drains
end BladeControl
namespace Bridge
open Prog (Triple Keeps)
open FcuSessionController (Kind Command)

/-! ### The books -/

/-- Of the command client the servo requests: the node keeps no record of the reboot request that it sends through the
same client. -/
def Effect.requests (client : Client) : Effect → Bool
  | setMode _ _ => client == .setMode
  | arming _ _ _ => client == .arming
  | servo _ _ _ _ => client == .command
  | _ => false

def Effect.withdraws (client : Client) : Effect → Bool
  | removePendingRequest withdrawn _ => withdrawn == client
  | _ => false

/-- The effect is about a request that is tracked. -/
def Effect.isRpc : Effect → Bool
  | setMode _ _ | arming _ _ _ | servo _ _ _ _ | removePendingRequest _ _ => true
  | _ => false

/-- How many requests of the client the node holds. -/
def Node.holds (n : Node) : Client → Nat
  | .setMode => n.sessionRpcIds.countP (·.2.1)
  | .arming => n.sessionRpcIds.countP (!·.2.1)
  | .command => n.bladeRpcIds.length

structure SessionBooks (s : FcuSessionController) (ids : List (Nat × Bool × Int)) : Prop where
  sole : ids.length ≤ 1
  keys : ∀ id ∈ ids, id.1 ≤ s.serial
  /-- The request of a pending command without an ACK is held. -/
  awaits : ∀ c, s.pending = some c → s.acked = false →
    ∃ requestId, (c.serial, decide (c.kind = .mode), requestId) ∈ ids

structure BladeBooks (b : BladeControl) (ids : List (Nat × Int)) : Prop where
  few : ids.length ≤ 2
  distinct : (ids.map (·.1)).Nodup
  keys : ∀ id ∈ ids, id.1 ≤ b.token
  /-- The request of a command in flight is held. -/
  awaits : ∀ c, b.inFlight = some c → ∃ requestId, (c.token, requestId) ∈ ids

/-- Every request sent is held, withdrawn or one of the `answered`. -/
structure Booked (answered : Client → Nat) (n : Node) (log : List Effect) : Prop where
  session : SessionBooks n.sessionControl n.sessionRpcIds
  blade : BladeBooks n.bladeControl n.bladeRpcIds
  balance : ∀ client, n.holds client + answered client + log.countP (Effect.withdraws client) =
    log.countP (Effect.requests client)

namespace SessionBooks
variable {s s' : FcuSessionController} {ids : List (Nat × Bool × Int)}

theorem drain (h : SessionBooks s ids) (hs : s.Drains s') : SessionBooks s' ids where
  sole := h.sole
  keys id hid := hs.serial ▸ h.keys id hid
  awaits c hc hacked := h.awaits c (hs.pending c hc) (hs.acked c hc hacked)

theorem forget (h : SessionBooks s ids) : SessionBooks s (ids.filter fun id => s.current id.1) where
  sole := Nat.le_trans (List.length_filter_le _ _) h.sole
  keys id hid := h.keys id (List.mem_filter.1 hid).1
  awaits c hc hacked := by
    obtain ⟨requestId, hid⟩ := h.awaits c hc hacked
    exact ⟨requestId, List.mem_filter.2 ⟨hid, by simp [FcuSessionController.current, hc]⟩⟩

theorem answered (h : SessionBooks s ids) (serial : Nat) (accepted : Bool) (now : Int) :
    SessionBooks (s.complete serial accepted now) (erase ids serial) where
  sole := Nat.le_trans (List.length_filter_le _ _) h.sole
  keys id hid := by
    rw [(FcuSessionController.drains_complete s serial accepted now).serial]
    exact h.keys id (List.mem_filter.1 hid).1
  awaits c hc hacked := by
    have hdrains := FcuSessionController.drains_complete s serial accepted now
    obtain ⟨requestId, hid⟩ := h.awaits c (hdrains.pending c hc) (hdrains.acked c hc hacked)
    refine ⟨requestId, List.mem_filter.2 ⟨hid, ?_⟩⟩
    have hforeign : c.serial ≠ serial := by
      intro hserial
      rw [FcuSessionController.complete_answers hc hserial] at hacked
      cases hacked
    simpa using hforeign

end SessionBooks

namespace BladeBooks
variable {b b' : BladeControl} {ids : List (Nat × Int)}

theorem drain (h : BladeBooks b ids) (hb : b.Drains b') : BladeBooks b' ids where
  few := h.few
  distinct := h.distinct
  keys id hid := Nat.le_trans (h.keys id hid) hb.token
  awaits c hc := h.awaits c (hb.inFlight c hc)

theorem filter (h : BladeBooks b ids) (p : Nat × Int → Bool)
    (hp : ∀ c requestId, b.inFlight = some c → p (c.token, requestId) = true) : BladeBooks b (ids.filter p) where
  few := Nat.le_trans (List.length_filter_le _ _) h.few
  distinct := h.distinct.sublist (List.filter_sublist.map _)
  keys id hid := h.keys id (List.mem_filter.1 hid).1
  awaits c hc := by
    obtain ⟨requestId, hid⟩ := h.awaits c hc
    exact ⟨requestId, List.mem_filter.2 ⟨hid, hp c requestId hc⟩⟩

/-- At most one request is of the command in flight. -/
theorem current_sole (h : BladeBooks b ids) : (ids.filter fun id => b.current id.1).length ≤ 1 := by
  have hdistinct : ((ids.filter fun id => b.current id.1).map (·.1)).Nodup :=
    h.distinct.sublist (List.filter_sublist.map _)
  have hsame : ∀ key ∈ (ids.filter fun id => b.current id.1).map (·.1), b.current key = true := by
    intro key hkey
    obtain ⟨id, hid, rfl⟩ := List.mem_map.1 hkey
    exact (List.mem_filter.1 hid).2
  rw [← List.length_map (·.1)]
  generalize (ids.filter fun id => b.current id.1).map (·.1) = keys at hdistinct hsame
  cases keys with
  | nil => exact Nat.zero_le 1
  | cons key keys =>
    cases keys with
    | nil => exact Nat.le_refl 1
    | cons key' keys =>
      have hkey := hsame key (by simp)
      have hkey' := hsame key' (by simp)
      unfold BladeControl.current at hkey hkey'
      cases hflight : b.inFlight with
      | none =>
        rw [hflight] at hkey
        cases hkey
      | some c =>
        rw [hflight] at hkey hkey'
        simp at hkey hkey'
        simp [← hkey, ← hkey'] at hdistinct

theorem answered (h : BladeBooks b ids) (token : Nat) (accepted : Bool) (now : Int) :
    BladeBooks (b.complete token accepted now) (erase ids token) := by
  have hdrain := h.drain (BladeControl.drains_complete b token accepted now)
  refine hdrain.filter _ fun c requestId hc => ?_
  simpa using BladeControl.complete_answers hc

end BladeBooks

/-! ### The pieces -/

/-- What the bookkeeping reads. -/
def Node.rpcs (n : Node) := (n.sessionControl, n.bladeControl, n.sessionRpcIds, n.bladeRpcIds)

/-- An assertion about the requests that only a send, a withdrawal or a response endangers. -/
structure Account (I : Assertion) : Prop where
  frame : ∀ {n n' l}, n'.rpcs = n.rpcs → I n l → I n' l
  emit : ∀ {n l e}, e.isRpc = false → I n l → I n (l ++ [e])
  blade : ∀ {n l b}, n.bladeControl.Drains b → I n l → I { n with bladeControl := b } l
  demand : ∀ {n l} mode arm safetyDisarm, I n l →
    I { n with sessionControl := n.sessionControl.demand mode arm safetyDisarm } l

namespace Account
variable {I : Assertion} (h : Account I)
include h

theorem side {f : Node → Node} (hf : ∀ n, (f n).rpcs = n.rpcs) : Keeps I (Prog.update f) :=
  Keeps.update fun n _ => h.frame (hf n)

theorem emitOther {e : Effect} (he : e.isRpc = false) : Keeps I (Prog.emit e) := Triple.emit fun _ _ => h.emit he

theorem updateBlade {f : BladeControl → BladeControl} (hf : ∀ b : BladeControl, b.Drains (f b)) :
    Keeps I (updateBlade f) :=
  Keeps.update fun n _ => h.blade (hf n.bladeControl)

theorem forceOff (now : Int) : Keeps I (Bridge.updateBlade (·.forceOff now)) :=
  h.updateBlade fun b => BladeControl.drains_forceOff b now

theorem replyBlade (header : Nat) (success : Bool) : Keeps I (replyBlade header success) :=
  Keeps.read fun _ => h.emitOther rfl

theorem cancelPendingBladeStarts : Keeps I cancelPendingBladeStarts :=
  Keeps.read fun _ => (Keeps.forEach fun _ _ => h.replyBlade _ _).seq fun _ => h.side fun _ => rfl

theorem publishGuided (source : Option Twist) (linearX angularZ : Rat) :
    Keeps I (publishGuided source linearX angularZ) :=
  keeps_publishGuided (fun _ _ _ => h.emitOther rfl) source linearX angularZ

theorem neutral : Keeps I publishNeutralManualControl :=
  keeps_publishNeutralManualControl (fun _ _ _ => h.emitOther rfl) fun _ _ _ => h.emitOther rfl

theorem endFailed (env : EndEnv) : Keeps I (endFailedBladeTestLocked env) := by
  refine Keeps.read fun _ => Keeps.skip.ite (Keeps.seq (h.side fun _ => rfl) fun _ => ?_)
  exact h.cancelPendingBladeStarts.seq fun _ => (h.forceOff _).seq fun _ => h.neutral.seq fun _ =>
    Keeps.update fun _ _ => h.demand _ _ _

theorem neutralizeTraction (env : SessionEnv) : Keeps I (neutralizeTraction env) :=
  Keeps.read fun _ => Keeps.seq h.neutral.when fun _ => h.side fun _ => rfl

theorem permitBlade (steady nowNs now : Int) : Keeps I (permitBlade steady nowNs now) :=
  Keeps.update fun n _ => h.blade (n.bladeControl.drains_apply (.permission _ now) not_false)

theorem requestBlade (direction : BladeControl.Direction) (steady : Int) : Keeps I (requestBlade direction steady) :=
  keeps_requestBlade fun n _ => h.blade (n.bladeControl.drains_request direction steady)

theorem answerRequest (header : Nat) (result : BladeControl.Result) (startedMs : Int) :
    Keeps I (answerRequest header result startedMs) :=
  Keeps.read fun _ => Keeps.ite (h.side fun _ => rfl) (h.replyBlade _ _)

theorem answerOff (header : Nat) (result : BladeControl.Result) (env : Env) : Keeps I (answerOff header result env) :=
  Keeps.read fun _ => Keeps.ite (h.side fun _ => rfl) (h.replyBlade _ _)

theorem promoteBladeStarts (emergency : Bool) (steady : Int) : Keeps I (promoteBladeStarts emergency steady) :=
  keeps_promoteBladeStarts h.replyBlade (h.requestBlade · steady) h.answerRequest (fun _ _ _ => h.frame rfl) emergency

theorem timeOutBladeReplies (steady : Int) : Keeps I (timeOutBladeReplies steady) :=
  Keeps.update fun n _ hi => by
    split
    · exact h.blade (n.bladeControl.drains_apply (.serviceTimeout steady) not_false) hi
    · exact hi

theorem answerBladeReplies (steady : Int) : Keeps I (answerBladeReplies steady) :=
  Keeps.read fun _ => (Keeps.emitMap (fun _ _ _ => h.emit rfl) _).seq fun _ => h.side fun _ => rfl

end Account

namespace Booked
variable {answered : Client → Nat} {n : Node} {log : List Effect}

theorem frame {n' : Node} (h : Booked answered n log) (hn : n'.rpcs = n.rpcs) : Booked answered n' log := by
  simp only [Node.rpcs, Prod.mk.injEq] at hn
  obtain ⟨hs, hb, hsession, hblade⟩ := hn
  refine ⟨?_, ?_, fun client => ?_⟩
  · rw [hs, hsession]
    exact h.session
  · rw [hb, hblade]
    exact h.blade
  · have hbalance := h.balance client
    cases client <;> simpa only [Node.holds, hsession, hblade] using hbalance

theorem emit {e : Effect} (h : Booked answered n log) (he : e.isRpc = false) : Booked answered n (log ++ [e]) := by
  refine ⟨h.session, h.blade, fun client => ?_⟩
  have hneither : e.withdraws client = false ∧ e.requests client = false := by
    cases e <;> first | exact ⟨rfl, rfl⟩ | cases he
  simpa [List.countP_append, hneither] using h.balance client

theorem drainBlade {b : BladeControl} (h : Booked answered n log) (hb : n.bladeControl.Drains b) :
    Booked answered { n with bladeControl := b } log :=
  ⟨h.session, h.blade.drain hb, h.balance⟩

theorem drainSession {s : FcuSessionController} (h : Booked answered n log) (hs : n.sessionControl.Drains s) :
    Booked answered { n with sessionControl := s } log :=
  ⟨h.session.drain hs, h.blade, h.balance⟩

theorem account (answered : Client → Nat) : Account (Booked answered) where
  frame hn h := h.frame hn
  emit he h := h.emit he
  blade hb h := h.drainBlade hb
  demand _ _ _ h := h.drainSession (FcuSessionController.drains_demand _ _ _ _)

end Booked

/-- With a pending command that has not expired. -/
def Timely (answered : Client → Nat) (steady : Int) : Assertion := fun n log =>
  Booked answered n log ∧ n.sessionControl.tick steady = n.sessionControl

theorem timely_account (answered : Client → Nat) (steady : Int) : Account (Timely answered steady) where
  frame {n n' l} hn h := by
    have hs : n'.sessionControl = n.sessionControl := congrArg Prod.fst hn
    exact ⟨h.1.frame hn, hs ▸ h.2⟩
  emit he h := ⟨h.1.emit he, h.2⟩
  blade hb h := ⟨h.1.drainBlade hb, h.2⟩
  demand mode arm safetyDisarm h :=
    ⟨h.1.drainSession (FcuSessionController.drains_demand _ _ _ _),
      FcuSessionController.tick_demand h.2 mode arm safetyDisarm⟩

/-- With at most one servo request held. -/
def Alone (answered : Client → Nat) : Assertion := fun n log => Booked answered n log ∧ n.bladeRpcIds.length ≤ 1

theorem alone_account (answered : Client → Nat) : Account (Alone answered) where
  frame {n n' l} hn h := by
    have hids : n'.bladeRpcIds = n.bladeRpcIds := congrArg (·.2.2.2) hn
    exact ⟨h.1.frame hn, hids ▸ h.2⟩
  emit he h := ⟨h.1.emit he, h.2⟩
  blade hb h := ⟨h.1.drainBlade hb, h.2⟩
  demand _ _ _ h := ⟨h.1.drainSession (FcuSessionController.drains_demand _ _ _ _), h.2⟩

/-! ### The drives -/

section Drives
variable {answered : Client → Nat}

/-- What is withdrawn of the requests of the session. -/
def letGo (n : Node) : List Effect :=
  (n.sessionRpcIds.filter fun id => !n.sessionControl.current id.1).map fun id =>
    .removePendingRequest (if id.2.1 then .setMode else .arming) id.2.2

def Node.forgotten (n : Node) : Node :=
  { n with sessionRpcIds := n.sessionRpcIds.filter fun id => n.sessionControl.current id.1 }

theorem holds_forgotten (n : Node) (client : Client) :
    n.forgotten.holds client + (letGo n).countP (Effect.withdraws client) = n.holds client := by
  have hsplit (q : Nat × Bool × Int → Bool) :=
    List.countP_eq_countP_filter_add n.sessionRpcIds q fun id => n.sessionControl.current id.1
  unfold letGo
  rw [List.countP_map]
  cases client with
  | setMode =>
    simp only [Node.holds, Node.forgotten]
    rw [hsplit (·.2.1)]
    congr 2
    funext id
    cases hkind : id.2.1 <;> simp [Effect.withdraws, hkind]
  | arming =>
    simp only [Node.holds, Node.forgotten]
    rw [hsplit (!·.2.1)]
    congr 2
    funext id
    cases hkind : id.2.1 <;> simp [Effect.withdraws, hkind]
  | command =>
    simp only [Node.holds, Node.forgotten, Nat.add_eq_left, List.countP_eq_zero]
    intro id _
    cases hkind : id.2.1 <;> simp [Effect.withdraws, hkind]

theorem booked_forgetSession (steady : Int) : Triple (Timely answered steady) forgetSessionRpcs fun _ n l =>
    Timely answered steady n l ∧ ∀ id ∈ n.sessionRpcIds, n.sessionControl.current id.1 = true := by
  refine Triple.read fun n => ?_
  change Triple _ (Prog.emitAll (letGo n) >>= _) _
  refine Triple.bind (R := fun _ n' l => n' = n ∧ Timely answered steady n.forgotten l) (Triple.emitAll ?_) fun _ =>
    Triple.update ?_
  · rintro n l ⟨rfl, h, htick⟩
    refine ⟨rfl, ⟨h.session.forget, h.blade, fun client => ?_⟩, htick⟩
    have hbalance := h.balance client
    have hforgotten := holds_forgotten n client
    have hsilent : (letGo n).countP (Effect.requests client) = 0 := by
      simp [letGo, List.countP_eq_zero, Effect.requests]
    rw [List.countP_append, List.countP_append, hsilent]
    omega
  · rintro n l ⟨rfl, h⟩
    exact ⟨h, fun id hid => (List.mem_filter.1 hid).2⟩

/-- A command of the session is at hand; every earlier request is gone. -/
structure Handing (answered : Client → Nat) (c : Command) (n : Node) (log : List Effect) : Prop where
  ids : n.sessionRpcIds = []
  pending : n.sessionControl.pending = some c
  serial : c.serial ≤ n.sessionControl.serial
  blade : BladeBooks n.bladeControl n.bladeRpcIds
  balance : ∀ client, n.holds client + answered client + log.countP (Effect.withdraws client) =
    log.countP (Effect.requests client)

theorem Handing.emit {c : Command} {n : Node} {log : List Effect} {e : Effect} (h : Handing answered c n log)
    (he : e.isRpc = false) : Handing answered c n (log ++ [e]) := by
  have hneither : ∀ client, e.withdraws client = false ∧ e.requests client = false := by
    intro client
    cases e <;> first | exact ⟨rfl, rfl⟩ | cases he
  exact { h with balance := fun client => by simpa [List.countP_append, hneither client] using h.balance client }

theorem requests_commandRequest (c : Command) (asked : FcuSessionController) (n : Node) (client : Client) :
    (commandRequest c asked n).requests client = (client == if c.kind = .mode then .setMode else .arming) := by
  unfold commandRequest
  split <;> rename_i hkind <;> rw [hkind] <;> cases client <;> rfl

theorem holds_handed {n : Node} (hids : n.sessionRpcIds = []) (serial : Nat) (kind : Kind) (requestId : Int)
    (client : Client) :
    ({ n with sessionRpcIds := [(serial, decide (kind = .mode), requestId)] } : Node).holds client =
      n.holds client + if client = (if kind = .mode then .setMode else .arming) then 1 else 0 := by
  cases client <;> cases kind <;> simp [Node.holds, hids]

theorem handSession_booked (c : Command) (asked : FcuSessionController) (env : SessionEnv) :
    Triple (Handing answered c) (handSession c asked env) fun _ => Booked answered := by
  have hneutral : Keeps (Handing answered c) publishNeutralManualControl :=
    keeps_publishNeutralManualControl (fun _ _ _ => Triple.emit fun _ _ h => h.emit rfl)
      fun _ _ _ => Triple.emit fun _ _ h => h.emit rfl
  refine Keeps.seq hneutral.when fun _ => Triple.ite (fun _ => ?_) fun _ => Triple.peek fun sent => ?_
  -- a send that throws ends its command at once
  · refine Triple.update fun n l h => ⟨⟨?_, ?_, fun c' hc' hacked => ?_⟩, h.blade, h.balance⟩
    · rw [h.ids]
      exact Nat.zero_le 1
    · rw [h.ids]
      exact nofun
    · have hdrains := FcuSessionController.drains_complete n.sessionControl c.serial false env.steady
      have hsame : some c = some c' := h.pending.symm.trans (hdrains.pending c' hc')
      have hserial : c'.serial = c.serial := congrArg Command.serial (Option.some.inj hsame).symm
      have hanswered := FcuSessionController.complete_answers hc' hserial
      rw [hanswered] at hacked
      cases hacked
  · refine Triple.bind (R := fun _ n l => ∃ l', l = l' ++ [commandRequest c asked sent] ∧ Handing answered c n l')
      (Triple.emit fun n l h => ⟨l, rfl, h⟩) fun _ => Triple.update ?_
    rintro n l ⟨l', rfl, h⟩
    have hids : assign n.sessionRpcIds c.serial (decide (c.kind = .mode), env.requestId) =
        [(c.serial, decide (c.kind = .mode), env.requestId)] := by
      rw [h.ids]
      rfl
    refine ⟨?_, h.blade, fun client => ?_⟩
    · dsimp only
      rw [hids]
      refine ⟨Nat.le_refl 1, ?_, ?_⟩
      · intro id hid
        rw [List.mem_singleton.1 hid]
        exact h.serial
      · intro c' hc' _
        obtain rfl : c = c' := Option.some.inj (h.pending.symm.trans hc')
        exact ⟨env.requestId, by simp⟩
    · have hbalance := h.balance client
      have hwithdraws : (commandRequest c asked sent).withdraws client = false := by
        unfold commandRequest
        split <;> rfl
      have hholds := holds_handed h.ids c.serial c.kind env.requestId client
      rw [← hids] at hholds
      rw [hholds, List.countP_append, List.countP_append, List.countP_singleton, List.countP_singleton, hwithdraws,
        requests_commandRequest]
      simp only [Bool.false_eq_true, if_false, beq_iff_eq]
      omega

theorem sendSession_booked (env : SessionEnv) :
    Triple (fun n l => Timely answered env.steady n l ∧ ∀ id ∈ n.sessionRpcIds, n.sessionControl.current id.1 = true)
      (sendSession env) fun _ => Booked answered := by
  refine Triple.read fun n => Triple.assume (p := n.sessionControl.tick env.steady = n.sessionControl)
    (fun htick => ?_) ?_
  · refine Triple.bind (R := fun _ n' l => (n.sessionControl.next env.steady env.modeReady env.armReady
      (n.allowArm env.nowNs)).2.elim (Booked answered n' l) fun c => Handing answered c n' l) (Triple.update ?_)
      fun _ => ?_
    · rintro n l ⟨rfl, ⟨h, -⟩, hcurrent⟩
      cases hnext : (n.sessionControl.next env.steady env.modeReady env.armReady (n.allowArm env.nowNs)).2 with
      | none => exact h.drainSession (FcuSessionController.next_drains hnext)
      | some c =>
        obtain ⟨hidle, hserial, hserial', hpending, -⟩ := FcuSessionController.next_issues hnext
        refine ⟨?_, hpending, ?_, h.blade, h.balance⟩
        · rw [htick] at hidle
          refine List.eq_nil_iff_forall_not_mem.2 fun id hid => ?_
          have := hcurrent id hid
          simp [FcuSessionController.current, hidle] at this
        · dsimp only
          omega
    · cases (n.sessionControl.next env.steady env.modeReady env.armReady (n.allowArm env.nowNs)).2 with
      | none => exact Keeps.skip
      | some c => exact handSession_booked c _ env
  · rintro _ l ⟨rfl, h, -⟩
    exact h.2

theorem driveSession_booked (env : SessionEnv) : Keeps (Booked answered) (driveSessionLocked env) := by
  have hdemand : Triple (Booked answered) (demandSession env) fun _ => Timely answered env.steady := by
    refine Triple.update fun n l h => ⟨h.drainSession ?_, FcuSessionController.tick_tick env.steady⟩
    exact (FcuSessionController.drains_demand _ _ _ _).trans (FcuSessionController.drains_tick _ _)
  have haccount := timely_account answered env.steady
  unfold driveSessionLocked
  refine hdemand.seq fun _ => (haccount.neutralizeTraction env).seq fun _ => Triple.peek fun n => ?_
  refine (haccount.endFailed env.ended).when.seq fun _ => (booked_forgetSession env.steady).seq fun _ => ?_
  exact (sendSession_booked env).seq fun _ => Keeps.read fun _ => (Booked.account answered).emitOther rfl

theorem booked_forgetBlade : Triple (Booked answered) forgetBladeRpcs fun _ => Alone answered := by
  refine Triple.read fun n => Triple.bind (R := fun _ n' l => n' = n ∧ Alone answered
    { n with bladeRpcIds := n.bladeRpcIds.filter fun id => n.bladeControl.current id.1 } l)
    (Triple.emitAll ?_) fun _ => Triple.update ?_
  · rintro n l ⟨rfl, h⟩
    have hcurrent := h.blade.filter (fun id => n.bladeControl.current id.1) fun c requestId hc => by
      simp [BladeControl.current, hc]
    refine ⟨rfl, ⟨h.session, hcurrent, fun client => ?_⟩, h.blade.current_sole⟩
    have hbalance := h.balance client
    rw [List.countP_append, List.countP_append, List.countP_map, List.countP_map]
    have hsilent : (n.bladeRpcIds.filter fun id => !n.bladeControl.current id.1).countP (Effect.requests client ∘
        fun id => .removePendingRequest .command id.2) = 0 :=
      List.countP_eq_zero.2 fun _ _ => by simp [Effect.requests]
    rw [hsilent]
    cases client with
    | setMode =>
      have hother : (n.bladeRpcIds.filter fun id => !n.bladeControl.current id.1).countP (Effect.withdraws .setMode ∘
          fun id => .removePendingRequest .command id.2) = 0 :=
        List.countP_eq_zero.2 fun _ _ => by simp [Effect.withdraws]
      rw [hother]
      exact hbalance
    | arming =>
      have hother : (n.bladeRpcIds.filter fun id => !n.bladeControl.current id.1).countP (Effect.withdraws .arming ∘
          fun id => .removePendingRequest .command id.2) = 0 :=
        List.countP_eq_zero.2 fun _ _ => by simp [Effect.withdraws]
      rw [hother]
      exact hbalance
    | command =>
      have hall : (n.bladeRpcIds.filter fun id => !n.bladeControl.current id.1).countP (Effect.withdraws .command ∘
          fun id => .removePendingRequest .command id.2) =
            (n.bladeRpcIds.filter fun id => !n.bladeControl.current id.1).length :=
        List.countP_eq_length.2 fun _ _ => by simp [Effect.withdraws]
      have hsplit := List.countP_eq_countP_filter_add n.bladeRpcIds (fun _ => true) fun id =>
        n.bladeControl.current id.1
      simp only [List.countP_true] at hsplit
      rw [hall]
      simp only [Node.holds] at hbalance ⊢
      omega
  · rintro n l ⟨rfl, h⟩
    exact h

/-- A servo command is at hand, and it has a new token. -/
structure HandingBlade (answered : Client → Nat) (c : BladeControl.Command) (n : Node) (log : List Effect) :
    Prop where
  alone : n.bladeRpcIds.length ≤ 1
  distinct : (n.bladeRpcIds.map (·.1)).Nodup
  keys : ∀ id ∈ n.bladeRpcIds, id.1 < c.token
  inFlight : n.bladeControl.inFlight = some c
  token : n.bladeControl.token = c.token
  session : SessionBooks n.sessionControl n.sessionRpcIds
  balance : ∀ client, n.holds client + answered client + log.countP (Effect.withdraws client) =
    log.countP (Effect.requests client)

theorem handBlade_booked (c : BladeControl.Command) (env : BladeEnv) :
    Triple (HandingBlade answered c) (handBlade c env) fun _ => Booked answered := by
  refine Triple.ite (fun _ => Triple.update fun n l h => ?_) fun _ => ?_
  -- a send that throws leaves nothing in flight
  · have hdrains := BladeControl.drains_complete n.bladeControl c.token false env.failedSteady
    refine ⟨h.session, ⟨Nat.le_succ_of_le h.alone, h.distinct, fun id hid => ?_, fun c' hc' => ?_⟩, h.balance⟩
    · have hkey := h.keys id hid
      have htoken := hdrains.token
      rw [h.token] at htoken
      exact Nat.le_trans (Nat.le_of_lt hkey) htoken
    · have hsame : some c = some c' := h.inFlight.symm.trans (hdrains.inFlight c' hc')
      have hforeign := BladeControl.complete_answers hc'
      exact absurd (congrArg BladeControl.Command.token (Option.some.inj hsame)).symm hforeign
  refine Triple.bind (R := fun _ => HandingBlade answered c) (Triple.update fun n l h => ?_) fun _ =>
    Triple.peek fun sent => ?_
  · exact ⟨h.alone, h.distinct, h.keys, h.inFlight, h.token, h.session, h.balance⟩
  refine Triple.bind (R := fun _ n l => ∃ l', l = l' ++ [.servo c.channel c.pwm env.steady sent] ∧
    HandingBlade answered c n l') (Triple.emit fun n l h => ⟨l, rfl, h⟩) fun _ => Triple.update ?_
  rintro n l ⟨l', rfl, h⟩
  have hids : assign n.bladeRpcIds c.token env.requestId = n.bladeRpcIds ++ [(c.token, env.requestId)] := by
    unfold assign
    rw [List.filter_eq_self.2 fun id hid => by simpa using Nat.ne_of_lt (h.keys id hid)]
  refine ⟨h.session, ?_, fun client => ?_⟩
  · dsimp only
    rw [hids]
    refine ⟨?_, ?_, ?_, ?_⟩
    · have := h.alone
      rw [List.length_append, List.length_singleton]
      omega
    · rw [List.map_append, List.nodup_append]
      refine ⟨h.distinct, by simp, fun key hkey key' hkey' => ?_⟩
      obtain ⟨id, hid, rfl⟩ := List.mem_map.1 hkey
      rw [List.mem_singleton.1 hkey']
      exact Nat.ne_of_lt (h.keys id hid)
    · intro id hid
      rw [h.token]
      rcases List.mem_append.1 hid with hid | hid
      · exact Nat.le_of_lt (h.keys id hid)
      · exact Nat.le_of_eq (congrArg (·.1) (List.mem_singleton.1 hid))
    · intro c' hc'
      obtain rfl : c = c' := Option.some.inj (h.inFlight.symm.trans hc')
      exact ⟨env.requestId, by simp⟩
  · have hbalance := h.balance client
    rw [List.countP_append, List.countP_append, List.countP_singleton, List.countP_singleton]
    cases client <;> simp [Node.holds, hids, Effect.withdraws, Effect.requests] at hbalance ⊢ <;> omega

theorem sendBlade_booked (env : BladeEnv) : Triple (Alone answered) (sendBlade env) fun _ => Booked answered := by
  refine Triple.read fun n => Triple.ite (fun _ => Triple.pure fun _ _ h => h.2.1) fun _ => ?_
  refine Triple.bind (R := fun _ n' l => (n.bladeControl.next env.steady).2.elim (Booked answered n' l) fun c =>
    HandingBlade answered c n' l) (Triple.update ?_) fun _ => ?_
  · rintro n l ⟨rfl, h, halone⟩
    cases hnext : (n.bladeControl.next env.steady).2 with
    | none => exact h.drainBlade (BladeControl.next_drains hnext)
    | some c =>
      obtain ⟨hnew, htoken, hflight⟩ := BladeControl.next_hands hnext
      exact ⟨halone, h.blade.distinct, fun id hid => Nat.lt_of_le_of_lt (h.blade.keys id hid) hnew, hflight, htoken,
        h.session, h.balance⟩
  · cases (n.bladeControl.next env.steady).2 with
    | none => exact Keeps.skip
    | some c => exact handBlade_booked c env

theorem driveBlade_booked (env : BladeEnv) : Keeps (Booked answered) (driveBladeLocked env) := by
  have haccount := Booked.account answered
  have halone := alone_account answered
  unfold driveBladeLocked
  refine Keeps.seq (haccount.side fun _ => rfl) fun _ => Triple.peek fun n => ?_
  refine (haccount.endFailed _).when.seq fun _ => (haccount.permitBlade _ _ _).seq fun _ => ?_
  refine (haccount.updateBlade fun b => b.drains_tick _).seq fun _ => ?_
  refine Keeps.seq (Keeps.read fun _ => (haccount.endFailed _).when) fun _ => ?_
  refine (haccount.promoteBladeStarts _ _).seq fun _ => (haccount.timeOutBladeReplies _).seq fun _ => ?_
  refine booked_forgetBlade.seq fun _ => (halone.answerBladeReplies _).seq fun _ => ?_
  exact Keeps.seq (Keeps.read fun _ => (halone.endFailed _).when) fun _ => sendBlade_booked env

theorem drives_booked (env : Env) (i j : Nat) :
    Keeps (Booked answered) (do
      driveSessionLocked (env.session i)
      driveBladeLocked (env.blade j)) :=
  (driveSession_booked _).seq fun _ => driveBlade_booked _

theorem requestSafetyDisarm_booked (hold : Bool) (env : Env) :
    Keeps (Booked answered) (requestSafetyDisarm hold env) := by
  have haccount := Booked.account answered
  refine Keeps.seq (haccount.side fun _ => rfl) fun _ => haccount.cancelPendingBladeStarts.seq fun _ => ?_
  refine (haccount.forceOff _).seq fun _ => haccount.neutral.seq fun _ => ?_
  refine Keeps.seq (Keeps.update fun _ _ => haccount.demand _ _ _) fun _ => ?_
  exact (driveBlade_booked _).seq fun _ => (driveSession_booked _).seq fun _ => Keeps.read fun _ => Keeps.skip

end Drives

/-! ### The callbacks -/

/-- The response with this key is for a request that is held. -/
def Node.awaits (n : Node) : Client → Nat → Bool
  | .setMode, serial => n.sessionRpcIds.any fun id => id.1 == serial && id.2.1
  | .arming, serial => n.sessionRpcIds.any fun id => id.1 == serial && !id.2.1
  | .command, token => n.bladeRpcIds.any fun id => id.1 == token

/-- The callback is the response to a held request of the client. -/
def Callback.answers (client : Client) (n : Node) (c : Callback × Env) : Bool :=
  match c.1 with
  | .modeResponse serial _ | .armResponse serial _ => client != .command && n.awaits client serial
  | .servoResponse token _ => client == .command && n.awaits client token
  | _ => false

def Callback.IsResponse : Callback → Prop
  | .modeResponse _ _ | .armResponse _ _ | .servoResponse _ _ => True
  | _ => False

section Callbacks
variable {answered : Client → Nat}

theorem booked_onSetParameters (parameters : List Parameter) (env : Env) :
    Keeps (Booked answered) (onSetParameters parameters env) := by
  have haccount := Booked.account answered
  refine Keeps.read fun n => ?_
  split
  · exact Keeps.skip
  · refine Keeps.seq (haccount.side fun n => ?_) fun _ => Keeps.when ?_
    · obtain ⟨linear, yaw, hfold⟩ := foldl_setScale parameters n
      rw [hfold]
      rfl
    · exact Keeps.seq (haccount.side fun _ => rfl) fun _ => (haccount.forceOff _).seq fun _ => driveBlade_booked _

theorem booked_onBladeWire (message : Option WireCommand) (env : Env) :
    Keeps (Booked answered) (onBladeWire message env) := by
  have haccount := Booked.account answered
  refine Keeps.read fun n => ?_
  split
  · exact Keeps.skip
  refine Keeps.skip.ite (Keeps.seq (haccount.side fun _ => rfl) fun _ => Keeps.read fun n => ?_)
  split
  · exact haccount.side fun _ => rfl
  · exact (haccount.forceOff _).seq fun _ => driveBlade_booked _

theorem booked_onBladeOutput (message : RCOut) (env : Env) : Keeps (Booked answered) (onBladeOutput message env) := by
  have haccount := Booked.account answered
  refine Keeps.read fun n => Keeps.skip.ite ?_
  split
  · exact Keeps.skip
  · refine Keeps.ite (Keeps.seq (haccount.side fun _ => rfl) fun _ => ?_) Keeps.skip
    exact (haccount.updateBlade fun b => b.drains_apply (.output _ _) not_false).seq fun _ => driveBlade_booked _

theorem booked_onCmdVel (twist : Twist) (env : Env) : Keeps (Booked answered) (onCmdVel twist env) := by
  have haccount := Booked.account answered
  refine (driveSession_booked _).seq fun _ => ?_
  split
  · refine Keeps.read fun n => haccount.neutral.ite ((haccount.publishGuided _ _ _).ite ?_)
    exact haccount.emitOther rfl
  · exact Keeps.skip

theorem booked_onHighLevelStatus (state : UInt8) (env : Env) :
    Keeps (Booked answered) (onHighLevelStatus state env) := by
  have haccount := Booked.account answered
  refine Keeps.read fun n => Keeps.seq (haccount.side fun _ => rfl) fun _ => Keeps.seq (Keeps.when ?_) fun _ =>
    drives_booked env 0 1
  refine Keeps.seq (haccount.side fun _ => rfl) fun _ => haccount.cancelPendingBladeStarts.seq fun _ => ?_
  exact (haccount.forceOff _).seq fun _ => haccount.neutral.seq fun _ => driveBlade_booked _

theorem booked_onMavrosState (message : FcuState) (env : Env) :
    Keeps (Booked answered) (onMavrosState message env) := by
  have haccount := Booked.account answered
  refine Keeps.read fun n => Keeps.seq (Keeps.update fun n l h => ?_) fun _ => ?_
  · have hdrain := n.bladeControl.drains_apply (.connection message.connected (env.steady 0)) not_false
    exact (h.drainBlade hdrain).frame rfl
  refine Keeps.seq haccount.cancelPendingBladeStarts.when fun _ => Keeps.seq (Keeps.update fun n l h => ?_) fun _ =>
    drives_booked env 0 0
  have hdrain := n.sessionControl.drains_observe message.connected message.armed message.mode
  exact (h.drainSession hdrain).frame rfl

theorem booked_onMavrosSysStatus (present enabled : Bool) (env : Env) :
    Keeps (Booked answered) (onMavrosSysStatus present enabled env) := by
  have haccount := Booked.account answered
  refine Keeps.read fun n => Keeps.when (Keeps.seq (haccount.side fun _ => rfl) fun _ => Keeps.when ?_)
  exact (requestSafetyDisarm_booked true env).seq fun _ => Keeps.skip

theorem booked_onButtonChange (state : UInt8) (env : Env) : Keeps (Booked answered) (onButtonChange state env) := by
  have haccount := Booked.account answered
  refine Keeps.read fun n => Keeps.when (Keeps.seq (haccount.side fun _ => rfl) fun _ => ?_)
  refine Keeps.seq (haccount.side fun _ => rfl) fun _ => Keeps.when ?_
  exact (requestSafetyDisarm_booked false env).seq fun _ => Keeps.skip

theorem booked_onMavrosImu (tilted : Bool) (env : Env) : Keeps (Booked answered) (onMavrosImu tilted env) := by
  have haccount := Booked.account answered
  refine Keeps.read fun n => Keeps.ite (Keeps.seq (haccount.side fun _ => rfl) fun _ => Keeps.when ?_)
    (haccount.side fun _ => rfl)
  exact (requestSafetyDisarm_booked false env).seq fun _ => Keeps.skip

theorem booked_onEscTelemetry (message : EscObservation) (env : Env) :
    Keeps (Booked answered) (onEscTelemetry message env) := by
  have haccount := Booked.account answered
  refine Keeps.read fun n => Keeps.when (Keeps.seq (haccount.side fun _ => rfl) fun _ => Keeps.when ?_)
  refine Keeps.read fun n => Keeps.seq (haccount.updateBlade fun b => ?_) fun _ => driveBlade_booked _
  exact b.drains_apply (.sample _ _) not_false

theorem booked_onMowerOff (header : Nat) (env : Env) : Keeps (Booked answered) (onMowerOff header env) := by
  have haccount := Booked.account answered
  refine haccount.cancelPendingBladeStarts.seq fun _ => Keeps.seq (haccount.side fun _ => rfl) fun _ => ?_
  refine Keeps.read fun n => Keeps.seq (Keeps.when ?_) fun _ => ?_
  · exact Keeps.seq (Keeps.update fun _ _ => haccount.demand _ _ _) fun _ => haccount.permitBlade _ _ _
  · refine (haccount.requestBlade _ _).seq fun result => (haccount.answerOff _ _ _).seq fun _ => ?_
    exact (driveBlade_booked _).seq fun _ => driveSession_booked _

theorem booked_startBlade (header : Nat) (direction : BladeControl.Direction) (env : Env) :
    Keeps (Booked answered) (startBlade header direction env) := by
  have haccount := Booked.account answered
  refine Keeps.read fun n => Keeps.ite (Keeps.ite (haccount.replyBlade _ _) (haccount.side fun _ => rfl)) ?_
  refine (haccount.permitBlade _ _ _).seq fun _ => (haccount.requestBlade _ _).seq fun result => ?_
  exact (haccount.answerRequest _ _ _).seq fun _ => driveBlade_booked _

theorem booked_onMowerOn (header : Nat) (direction : BladeControl.Direction) (env : Env) :
    Keeps (Booked answered) (onMowerOn header direction env) := by
  have haccount := Booked.account answered
  refine Keeps.read fun n => Keeps.seq haccount.cancelPendingBladeStarts.when fun _ => ?_
  refine (driveSession_booked _).seq fun _ => (driveBlade_booked _).seq fun _ => Keeps.read fun n => ?_
  refine Keeps.ite (haccount.replyBlade _ _) (Keeps.seq (Keeps.when ?_) fun _ => ?_)
  · exact Keeps.seq (haccount.side fun _ => rfl) fun _ => haccount.neutral
  · refine (driveSession_booked _).seq fun _ => Keeps.read fun n => Keeps.ite ?_ (booked_startBlade _ _ _)
    exact (haccount.endFailed _).seq fun _ => haccount.replyBlade _ _

theorem booked_onEmergencyStop (emergency : UInt8) (env : Env) :
    Keeps (Booked answered) (onEmergencyStop emergency env) := by
  have haccount := Booked.account answered
  refine Keeps.seq (haccount.side fun _ => rfl) fun _ => Keeps.ite ?_ ?_
  · refine Keeps.seq (haccount.side fun _ => rfl) fun _ => (driveSession_booked _).seq fun _ => ?_
    exact (driveBlade_booked _).seq fun _ => haccount.emitOther rfl
  · exact (requestSafetyDisarm_booked true env).seq fun _ => haccount.emitOther rfl

theorem booked_onRebootBoard (env : Env) : Keeps (Booked answered) (onRebootBoard env) := by
  have haccount := Booked.account answered
  exact Keeps.ite (haccount.emitOther rfl) <| Keeps.seq (haccount.emitOther rfl) fun _ => haccount.emitOther rfl

theorem booked_callback {c : Callback} (hc : ¬ c.IsResponse) (env : Env) :
    Keeps (Booked answered) (c.program env) := by
  cases c with
  | setParameters parameters => exact booked_onSetParameters parameters env
  | bladeWire message => exact booked_onBladeWire message env
  | bladeOutput message => exact booked_onBladeOutput message env
  | cmdVel twist => exact booked_onCmdVel twist env
  | highLevelStatus state => exact booked_onHighLevelStatus state env
  | mavrosState message => exact booked_onMavrosState message env
  | mavrosSysStatus present enabled => exact booked_onMavrosSysStatus present enabled env
  | buttonChange state => exact booked_onButtonChange state env
  | mavrosImu tilted => exact booked_onMavrosImu tilted env
  | escTelemetry message => exact booked_onEscTelemetry message env
  | mowerControl header mowEnabled mowDirection =>
    refine Keeps.ite ((Booked.account answered).replyBlade _ _) (Keeps.ite (booked_onMowerOff header env) ?_)
    exact booked_onMowerOn header _ env
  | emergencyStop emergency => exact booked_onEmergencyStop emergency env
  | rebootBoard => exact booked_onRebootBoard env
  | bladeTimer => exact drives_booked env 0 0
  | modeResponse serial response => exact absurd trivial hc
  | armResponse serial response => exact absurd trivial hc
  | servoResponse token response => exact absurd trivial hc

/-! ### The responses -/

theorem erase_sole {ids : List (Nat × Bool × Int)} (hsole : ids.length ≤ 1) (serial : Nat)
    (q : Nat × Bool × Int → Bool) :
    (erase ids serial).countP q + (ids.any fun id => id.1 == serial && q id).toNat = ids.countP q := by
  cases ids with
  | nil => rfl
  | cons id ids =>
    obtain rfl : ids = [] := List.eq_nil_of_length_eq_zero (by rw [List.length_cons] at hsole; omega)
    by_cases hserial : id.1 = serial <;> cases hq : q id <;> simp [erase, hserial, hq]

theorem erase_distinct {ids : List (Nat × Int)} (hdistinct : (ids.map (·.1)).Nodup) (token : Nat) :
    (erase ids token).length + (ids.any fun id => id.1 == token).toNat = ids.length := by
  induction ids with
  | nil => rfl
  | cons id ids ih =>
    rw [List.map_cons, List.nodup_cons] at hdistinct
    have hrest := ih hdistinct.2
    unfold erase at hrest ⊢
    by_cases htoken : id.1 = token
    · have hnone : (ids.any fun id => id.1 == token) = false := by
        refine List.any_eq_false.2 fun id' hid' => ?_
        have hne : id'.1 ≠ token := fun h => hdistinct.1 (List.mem_map.2 ⟨id', hid', h.trans htoken.symm⟩)
        simpa using hne
      rw [hnone] at hrest
      simp only [List.filter_cons, List.any_cons, htoken]
      simpa using hrest
    · rw [List.filter_cons_of_pos (by simpa using htoken), List.any_cons, beq_eq_false_iff_ne.2 htoken, Bool.false_or,
        List.length_cons, List.length_cons, ← hrest]
      omega

/-- The answered requests with the ones that the callback answers. -/
def answeredAfter (answered : Client → Nat) (n : Node) (c : Callback × Env) (client : Client) : Nat :=
  answered client + (Callback.answers client n c).toNat

theorem booked_answerSession {n : Node} {log : List Effect} (h : Booked answered n log) {c : Callback × Env}
    {serial : Nat} (hc : ∀ client, Callback.answers client n c = (client != .command && n.awaits client serial))
    (accepted : Bool) (now : Int) :
    Booked (answeredAfter answered n c)
      { n with
        sessionRpcIds := erase n.sessionRpcIds serial
        sessionControl := n.sessionControl.complete serial accepted now } log := by
  refine ⟨h.session.answered serial accepted now, h.blade, fun client => ?_⟩
  have hbalance := h.balance client
  rw [answeredAfter, hc]
  cases client with
  | setMode =>
    have herase := erase_sole h.session.sole serial (·.2.1)
    have hawaits : (Client.setMode != .command && n.awaits .setMode serial) =
        n.sessionRpcIds.any fun id => id.1 == serial && id.2.1 := rfl
    simp only [Node.holds, hawaits] at hbalance ⊢
    omega
  | arming =>
    have herase := erase_sole h.session.sole serial (!·.2.1)
    have hawaits : (Client.arming != .command && n.awaits .arming serial) =
        n.sessionRpcIds.any fun id => id.1 == serial && !id.2.1 := rfl
    simp only [Node.holds, hawaits] at hbalance ⊢
    omega
  | command => exact hbalance

theorem booked_answerBlade {n : Node} {log : List Effect} (h : Booked answered n log) {c : Callback × Env}
    {token : Nat} (hc : ∀ client, Callback.answers client n c = (client == .command && n.awaits client token))
    (accepted : Bool) (now : Int) :
    Booked (answeredAfter answered n c)
      { n with
        bladeRpcIds := erase n.bladeRpcIds token
        bladeControl := n.bladeControl.complete token accepted now } log := by
  refine ⟨h.session, h.blade.answered token accepted now, fun client => ?_⟩
  have hbalance := h.balance client
  rw [answeredAfter, hc]
  cases client with
  | setMode => exact hbalance
  | arming => exact hbalance
  | command =>
    have herase := erase_distinct h.blade.distinct token
    have hawaits : (Client.command == .command && n.awaits .command token) =
        n.bladeRpcIds.any fun id => id.1 == token := rfl
    simp only [Node.holds, hawaits] at hbalance ⊢
    omega

theorem booked_onModeResponse (n : Node) (serial : Nat) (response : Option Bool) (env : Env) :
    Triple (fun n' l => n' = n ∧ Booked answered n l) (onModeResponse serial response env) fun _ =>
      Booked (answeredAfter answered n (.modeResponse serial response, env)) := by
  refine Triple.seq (R := fun n' l => n' = { n with sessionRpcIds := erase n.sessionRpcIds serial } ∧
    Booked answered n l) (Triple.update ?_) fun _ => Triple.seq (Triple.update ?_) fun _ => drives_booked env 0 0
  · rintro _ l ⟨rfl, h⟩
    exact ⟨rfl, h⟩
  · rintro _ l ⟨rfl, h⟩
    exact booked_answerSession h (fun _ => rfl) _ _

theorem booked_onArmResponse (n : Node) (serial : Nat) (response : Option (Bool × Nat)) (env : Env) :
    Triple (fun n' l => n' = n ∧ Booked answered n l) (onArmResponse serial response env) fun _ =>
      Booked (answeredAfter answered n (.armResponse serial response, env)) := by
  refine Triple.seq (R := fun n' l => n' = { n with sessionRpcIds := erase n.sessionRpcIds serial } ∧
    Booked answered n l) (Triple.update ?_) fun _ => Triple.seq (Triple.update ?_) fun _ => drives_booked env 0 0
  · rintro _ l ⟨rfl, h⟩
    exact ⟨rfl, h⟩
  · rintro _ l ⟨rfl, h⟩
    exact booked_answerSession h (fun _ => rfl) _ _

theorem booked_onServoResponse (n : Node) (token : Nat) (response : Option (Bool × Nat)) (env : Env) :
    Triple (fun n' l => n' = n ∧ Booked answered n l) (onServoResponse token response env) fun _ =>
      Booked (answeredAfter answered n (.servoResponse token response, env)) := by
  refine Triple.seq (R := fun n' l => n' = { n with bladeRpcIds := erase n.bladeRpcIds token } ∧
    Booked answered n l) (Triple.update ?_) fun _ => Triple.seq (Triple.update ?_) fun _ => driveBlade_booked _
  · rintro _ l ⟨rfl, h⟩
    exact ⟨rfl, h⟩
  · rintro _ l ⟨rfl, h⟩
    exact booked_answerBlade h (fun _ => rfl) _ _

/-- A callback keeps the books, and a response adds its request to the answered ones. -/
theorem callback_booked (n : Node) (c : Callback) (env : Env) :
    Triple (fun n' l => n' = n ∧ Booked answered n l) (c.program env) fun _ =>
      Booked (answeredAfter answered n (c, env)) := by
  by_cases hresponse : c.IsResponse
  · cases c with
    | modeResponse serial response => exact booked_onModeResponse n serial response env
    | armResponse serial response => exact booked_onArmResponse n serial response env
    | servoResponse token response => exact booked_onServoResponse n token response env
    | _ => exact absurd hresponse not_false
  · have hsame : answeredAfter answered n (c, env) = answered := by
      funext client
      cases c <;> first | rfl | exact absurd trivial hresponse
    rw [hsame]
    exact (booked_callback hresponse env).pre fun _ _ h => h.1 ▸ h.2

theorem step_booked {n : Node} {log : List Effect} (c : Callback × Env) (h : Booked answered n log) :
    Booked (answeredAfter answered n c) (machine.step n c).1 (log ++ (machine.step n c).2) :=
  callback_booked n c.1 c.2 n log ⟨rfl, h⟩

end Callbacks

/-! ### Runs -/

theorem run_booked {answered : Client → Nat} {n : Node} {log : List Effect} (run : List (Callback × Env))
    (h : Booked answered n log) :
    Booked (fun client => answered client + machine.tally (Callback.answers client) n run) (machine.final n run)
      (log ++ machine.log n run) := by
  induction run generalizing answered n log with
  | nil => simpa [Machine.tally] using h
  | cons c run ih =>
    have hrun := ih (step_booked c h)
    rw [List.append_assoc] at hrun
    simpa only [answeredAfter, Nat.add_assoc, Machine.tally, Machine.final_cons, Machine.log_cons] using hrun

theorem booked_launch (l : Launch) : Booked (fun _ => 0) l.node [] where
  session := ⟨Nat.zero_le 1, nofun, nofun⟩
  blade := ⟨Nat.zero_le 2, List.nodup_nil, nofun, nofun⟩
  balance client := by cases client <;> rfl

/-- The books balance in every run: a request that was sent is held, answered or withdrawn. -/
theorem rpc_ledger (l : Launch) (run : List (Callback × Env)) :
    Booked (fun client => machine.tally (Callback.answers client) l.node run) (reach l run) (trace l run) := by
  have hrun := run_booked run (booked_launch l)
  simp only [Nat.zero_add] at hrun
  exact hrun

end Bridge
end MowgliMavros
