import MowgliMavros.BridgeWalk

/-!
# The callers of the MowerControl service

`SessionFree I` says that `I` is about what the session side does not touch: the blade controller, the
two queues of callers, the servo commands and the replies. `Owes k owed` counts the requests of each
header: what is answered, what is held in one of the queues and what is `owed` make `k` of them. Every
piece of the node keeps it, and the MowerControl service passes its own request from `owed` to one of
the others (`Owes.onMowerControl`).
-/

namespace MowgliMavros
namespace Bridge
open Prog (Triple Keeps)

def Node.bladeSide (n : Node) := (n.bladeControl, n.pendingBladeStarts, n.bladeReplies)

def Effect.isServed : Effect → Bool
  | servo _ _ _ _ | mowerReply _ _ _ => true
  | _ => false

structure SessionFree (I : Assertion) : Prop where
  frame : ∀ {n n' l}, n'.bladeSide = n.bladeSide → I n l → I n' l
  emit : ∀ n l e, e.isServed = false → I n l → I n (l ++ [e])

namespace SessionFree
variable {I : Assertion} (h : SessionFree I)
include h

theorem side {f : Node → Node} (hf : ∀ n, (f n).bladeSide = n.bladeSide) : Keeps I (Prog.update f) :=
  Keeps.update fun n _ => h.frame (hf n)

theorem emitOther {e : Effect} (he : e.isServed = false) : Keeps I (Prog.emit e) :=
  Triple.emit fun n l => h.emit n l e he

theorem neutral : Keeps I publishNeutralManualControl :=
  keeps_publishNeutralManualControl (fun _ _ _ => h.emitOther rfl) fun _ _ _ => h.emitOther rfl

theorem endFailed (hcancel : Keeps I cancelPendingBladeStarts)
    (hoff : ∀ now, Keeps I (updateBlade (·.forceOff now))) (env : EndEnv) :
    Keeps I (endFailedBladeTestLocked env) := by
  refine Keeps.read fun n => Keeps.skip.ite (Keeps.seq (h.side fun _ => rfl) fun _ => ?_)
  exact hcancel.seq fun _ => (hoff _).seq fun _ => h.neutral.seq fun _ => h.side fun _ => rfl

theorem driveSessionLocked (hended : ∀ env, Keeps I (endFailedBladeTestLocked env)) (env : SessionEnv) :
    Keeps I (driveSessionLocked env) := by
  have hneutral : Keeps I (neutralizeTraction env) :=
    Keeps.read fun _ => Keeps.seq h.neutral.when fun _ => h.side fun _ => rfl
  have hforget : Keeps I forgetSessionRpcs :=
    Keeps.read fun _ => (Keeps.emitMap (fun _ n l => h.emit n l _ rfl) _).seq fun _ => h.side fun _ => rfl
  have hhand : ∀ command asked, Keeps I (handSession command asked env) := fun command asked => by
    refine Keeps.seq h.neutral.when fun _ => Keeps.ite (h.side fun _ => rfl) (Keeps.read fun n => ?_)
    refine Keeps.seq (h.emitOther ?_) fun _ => h.side fun _ => rfl
    unfold commandRequest; split <;> rfl
  have hsend : Keeps I (sendSession env) := by
    refine Keeps.read fun n => Keeps.seq (h.side fun _ => rfl) fun _ => ?_
    split
    · exact Keeps.skip
    · exact hhand _ _
  exact triple_driveSessionLocked (h.side fun _ => rfl) hneutral (hended _) hforget hsend
    (Keeps.read fun _ => h.emitOther rfl)

theorem walk (hblade : ∀ op, Outside op → Keeps I (updateBlade (·.apply op)))
    (hconnection : ∀ connected now, Keeps I (updateBlade (·.connection connected now)))
    (hcancel : Keeps I cancelPendingBladeStarts) (hdrive : ∀ env, Keeps I (driveBladeLocked env)) : Walk I where
  books hf := h.side fun n => by
    have hn := hf n
    simp only [Node.walked, Prod.mk.injEq] at hn
    simp only [Node.bladeSide, Prod.mk.injEq]
    exact ⟨hn.2.1, hn.2.2.2.2.2.1, hn.2.2.2.2.2.2.1⟩
  endTest := h.side fun _ => rfl
  heard message env := fun n l hi => by
    have hlinked := hconnection message.connected (env.steady 0) n l hi
    refine h.frame ?_ hlinked
    rfl
  observe _ := h.side fun _ => rfl
  blade := hblade
  demand _ := h.side fun _ => rfl
  complete _ _ _ := h.side fun _ => rfl
  cancel := hcancel
  neutral := h.neutral
  driveSession := h.driveSessionLocked (h.endFailed hcancel fun now => hblade (.forceOff now) trivial)
  driveBlade := hdrive
  answer e he := h.emitOther (by cases e <;> simp_all [Effect.isAnswer, Effect.isServed])

theorem safety {f : Node → Node} (hf : ∀ n, ({ f n with
      safetyState := n.safetyState, tiltDisarmSent := n.tiltDisarmSent } : Node).walked = n.walked) :
    Keeps I (Prog.update f) :=
  h.side fun n => by
    have hn := hf n
    simp only [Node.walked, Prod.mk.injEq] at hn
    simp only [Node.bladeSide, Prod.mk.injEq]
    exact ⟨hn.2.1, hn.2.2.2.2.2.1, hn.2.2.2.2.2.2.1⟩

/-- All callbacks but the MowerControl requests and the ACKs of servo commands. -/
theorem callback (hwalk : Walk I) (c : Callback) (env : Env)
    (hmower : ∀ header mowEnabled mowDirection, c = .mowerControl header mowEnabled mowDirection →
      Keeps I (onMowerControl header mowEnabled mowDirection env))
    (hservo : ∀ token response, c = .servoResponse token response → Keeps I (onServoResponse token response env)) :
    Keeps I (c.program env) :=
  hwalk.callback_plain (fun _ _ _ => h.emitOther rfl) (fun _ _ _ => h.emitOther rfl) h.safety
    (fun _ => h.side fun _ => rfl) c env hmower hservo

end SessionFree

/-! ### Counting the callers -/

def Effect.answers (header : Nat) : Effect → Bool
  | mowerReply answered _ _ => answered == header
  | _ => false

def Callback.asks (header : Nat) : Callback → Bool
  | mowerControl asked _ _ => asked == header
  | _ => false

def held (starts : List PendingBladeStart) : List Nat := starts.map (·.header)

/-- The requests of each header that are answered, in `bladeReplies` or in `owed` are `k` of them. -/
def Tallies (k : Nat → Nat) (owed : List Nat) : Assertion := fun n log => ∀ header,
  log.countP (Effect.answers header) + (n.bladeReplies.map (·.header)).count header + owed.count header = k header

/-- `Tallies` with the waiting starts. -/
def Owes (k : Nat → Nat) (owed : List Nat) : Assertion := fun n log =>
  Tallies k (owed ++ held n.pendingBladeStarts) n log

variable {k : Nat → Nat} {owed rest : List Nat} {n : Node} {log : List Effect}

namespace Tallies

theorem frame {n' : Node} (hn : n'.bladeReplies = n.bladeReplies) (h : Tallies k owed n log) :
    Tallies k owed n' log := by
  intro header
  rw [hn]; exact h header

theorem perm {owed' : List Nat} (hp : owed.Perm owed') (h : Tallies k owed n log) : Tallies k owed' n log := by
  intro header
  rw [← hp.count_eq]; exact h header

theorem emit {e : Effect} (he : e.isServed = false) (h : Tallies k owed n log) : Tallies k owed n (log ++ [e]) := by
  intro header
  have hno : e.answers header = false := by cases e <;> simp_all [Effect.isServed, Effect.answers]
  simpa [List.countP_append, hno] using h header

theorem answer {header : Nat} (h : Tallies k (header :: rest) n log) (success : Bool) (sent : Node) :
    Tallies k rest n (log ++ [.mowerReply header success sent]) := by
  intro header'
  have := h header'
  by_cases he : header = header' <;>
    simp [List.countP_append, Effect.answers, he] at this ⊢ <;> omega

theorem hold {header revision : Nat} {startedMs : Int} (h : Tallies k (header :: rest) n log) :
    Tallies k rest { n with bladeReplies := n.bladeReplies ++ [⟨header, revision, startedMs⟩] } log := by
  intro header'
  have := h header'
  by_cases he : header = header' <;>
    simp [List.count_append, he] at this ⊢ <;> omega

theorem replyBlade (header : Nat) (success : Bool) :
    Triple (Tallies k (header :: rest)) (replyBlade header success) fun _ => Tallies k rest :=
  Triple.peek fun n => Triple.emit fun _ _ h => h.answer success n

theorem answerRequest (header : Nat) (result : BladeControl.Result) (startedMs : Int) :
    Triple (Tallies k (header :: rest)) (answerRequest header result startedMs) fun _ => Tallies k rest :=
  Triple.read fun n => Triple.ite (fun _ => Triple.update fun _ _ h => by obtain ⟨rfl, h⟩ := h; exact h.hold) fun _ =>
    (replyBlade _ _).pre fun _ _ => And.right

/-- The callers answered false leave `owed`. -/
theorem cancelAll (starts : List PendingBladeStart) :
    Triple (Tallies k (held starts ++ owed)) (starts.forM fun pending => Bridge.replyBlade pending.header false)
      fun _ => Tallies k owed := by
  induction starts with
  | nil => exact Triple.pure fun _ _ => id
  | cons pending rest ih => exact (replyBlade pending.header false).seq fun _ => ih

theorem promote (emergency : Bool) (steady : Int) (starts : List PendingBladeStart) :
    Triple (Tallies k (held starts ++ owed)) (promote emergency steady starts)
      fun kept => Tallies k (held kept ++ owed) := by
  induction starts generalizing owed with
  | nil => exact Triple.pure fun _ _ => id
  | cons pending rest ih =>
    refine Triple.peek fun n => Triple.ite (fun _ => ?_) fun _ => Triple.ite (fun _ => ?_) fun _ => ?_
    · exact (replyBlade pending.header false).seq fun _ => ih
    · refine Triple.seq (keeps_requestBlade fun n l h => h.frame rfl) fun result => ?_
      exact (answerRequest pending.header result _).seq fun _ => ih
    · -- the kept start is owed by the rest of the loop
      have hmove : (held (pending :: rest) ++ owed).Perm (held rest ++ (pending.header :: owed)) :=
        List.perm_middle.symm
      refine Triple.bind (ih.pre fun _ _ h => h.perm hmove) fun kept => Triple.pure fun _ _ h => ?_
      exact h.perm List.perm_middle

end Tallies

namespace Owes

theorem sessionFree : SessionFree (Owes k owed) where
  frame {n n' l} hn h := by
    simp only [Node.bladeSide, Prod.mk.injEq] at hn
    unfold Owes at h ⊢
    rw [hn.2.1]
    exact h.frame hn.2.2
  emit _ _ _ he h := Tallies.emit he h

theorem updateBlade (f : BladeControl → BladeControl) : Keeps (Owes k owed) (updateBlade f) :=
  Keeps.update fun _ _ h => h.frame rfl

theorem permitBlade (steady nowNs now : Int) : Keeps (Owes k owed) (permitBlade steady nowNs now) :=
  Keeps.update fun _ _ h => h.frame rfl

theorem cancelPendingBladeStarts : Keeps (Owes k owed) cancelPendingBladeStarts := by
  refine Triple.read fun n => Triple.bind (R := fun _ => Tallies k owed) ?_ fun _ => Triple.update fun _ _ h => ?_
  · refine (Tallies.cancelAll n.pendingBladeStarts).pre ?_
    rintro n l ⟨rfl, h⟩
    exact h.perm List.perm_append_comm
  · unfold Owes held
    rw [List.map_nil, List.append_nil]
    exact h.frame rfl

theorem promoteBladeStarts (emergency : Bool) (steady : Int) :
    Keeps (Owes k owed) (promoteBladeStarts emergency steady) := by
  refine Triple.read fun n => Triple.bind (R := fun kept => Tallies k (held kept ++ owed)) ?_ fun kept => ?_
  · refine (Tallies.promote emergency steady n.pendingBladeStarts).pre ?_
    rintro n l ⟨rfl, h⟩
    exact h.perm List.perm_append_comm
  · exact Triple.update fun n l h => (h.perm List.perm_append_comm).frame rfl

/-- The replies that are sent leave the queue. -/
theorem answerBladeReplies (steady : Int) : Keeps (Owes k owed) (answerBladeReplies steady) := by
  have hsplit : ∀ (replies : List BladeReply) (p success : BladeReply → Bool) (n : Node) (header : Nat),
      ((replies.filter p).map fun reply => Effect.mowerReply reply.header (success reply) n).countP
        (Effect.answers header) +
          ((replies.filter fun reply => !p reply).map (·.header)).count header =
        (replies.map (·.header)).count header := by
    intro replies p success n header
    induction replies with
    | nil => rfl
    | cons r rs ih =>
      by_cases he : r.header = header <;> cases hp : p r <;>
        simp [hp, Effect.answers, he] at ih ⊢ <;> omega
  refine Triple.read fun n => Triple.bind
    (R := fun _ n' log' => n' = n ∧ ∃ before, Owes k owed n before ∧ log' = before ++
    ((n.bladeReplies.filter fun reply => reply.invalid n steady || n.bladeControl.satisfied).map fun reply =>
      .mowerReply reply.header (!reply.invalid n steady) n)) (Triple.emitAll ?_) fun _ => Triple.update ?_
  · rintro n' before ⟨rfl, h⟩
    exact ⟨rfl, before, h, rfl⟩
  · rintro n' after ⟨rfl, before, h, hafter⟩ header
    have hcount := h header
    have := hsplit n'.bladeReplies (fun reply => reply.invalid n' steady || n'.bladeControl.satisfied)
      (fun reply => !reply.invalid n' steady) n' header
    rw [hafter, List.countP_append]
    dsimp only
    omega

theorem driveBladeLocked (env : BladeEnv) : Keeps (Owes k owed) (driveBladeLocked env) := by
  have hfree : SessionFree (Owes k owed) := sessionFree
  have hended := hfree.endFailed cancelPendingBladeStarts fun now => updateBlade _
  have htimeOut : Keeps (Owes k owed) (timeOutBladeReplies env.steady) :=
    Keeps.update fun n l h => by split <;> exact h.frame rfl
  have hforget : Keeps (Owes k owed) forgetBladeRpcs :=
    Keeps.read fun _ => (Keeps.emitMap (fun _ n l => hfree.emit n l _ rfl) _).seq fun _ => hfree.side fun _ => rfl
  have hsend : Keeps (Owes k owed) (sendBlade env) := by
    refine keeps_sendBlade (fun n l h => h.frame rfl) fun command => Keeps.ite (updateBlade _) ?_
    refine Keeps.seq (hfree.side fun _ => rfl) fun _ => Keeps.read fun n => ?_
    refine Keeps.seq (Triple.emit fun n l h header => ?_) fun _ => hfree.side fun _ => rfl
    simpa [List.countP_append, Effect.answers] using h header
  exact keeps_driveBladeLocked (hfree.side fun _ => rfl) (hended _) (permitBlade _ _ _) (updateBlade _) hended
    (promoteBladeStarts · _) htimeOut hforget (answerBladeReplies _) hsend

theorem walk : Walk (Owes k owed) :=
  sessionFree.walk (fun _ _ => updateBlade _) (fun _ _ => updateBlade _) cancelPendingBladeStarts driveBladeLocked

/-! ### The service -/

variable {header : Nat}

theorem replyBlade (success : Bool) : Triple (Owes k [header]) (replyBlade header success) fun _ => Owes k [] :=
  Triple.peek fun n => Triple.emit fun _ _ h => Tallies.answer h success n

theorem answerRequest (result : BladeControl.Result) (startedMs : Int) :
    Triple (Owes k [header]) (answerRequest header result startedMs) fun _ => Owes k [] := by
  refine Triple.peek fun n => Triple.ite (fun _ => Triple.update fun n l h => ?_) fun _ => replyBlade _
  exact Tallies.hold h

theorem answerOff (result : BladeControl.Result) (env : Env) :
    Triple (Owes k [header]) (answerOff header result env) fun _ => Owes k [] := by
  refine Triple.peek fun n => Triple.ite (fun _ => Triple.update fun n l h => ?_) fun _ => replyBlade _
  exact Tallies.hold h

theorem onMowerOff (env : Env) : Triple (Owes k [header]) (onMowerOff header env) fun _ => Owes k [] := by
  have hfree : SessionFree (Owes k [header]) := sessionFree
  refine cancelPendingBladeStarts.seq fun _ => Keeps.seq (hfree.side fun _ => rfl) fun _ => Triple.peek fun n => ?_
  refine Keeps.seq (Keeps.when ?_) fun _ => ?_
  · exact Keeps.seq (hfree.side fun _ => rfl) fun _ => permitBlade _ _ _
  refine Keeps.seq (keeps_requestBlade fun n l h => h.frame rfl) fun result => (answerOff result env).seq fun _ => ?_
  exact (driveBladeLocked _).seq fun _ => walk.driveSession _

theorem startBlade (direction : BladeControl.Direction) (env : Env) :
    Triple (Owes k [header]) (startBlade header direction env) fun _ => Owes k [] := by
  refine Triple.peek fun n => Triple.ite (fun _ => Triple.ite (fun _ => replyBlade _) fun _ => ?_) fun _ => ?_
  · refine Triple.update fun n l h => ?_
    have hmove : ([header] ++ held n.pendingBladeStarts).Perm
        (held (n.pendingBladeStarts ++ [⟨header, direction, env.steady 0⟩])) := by
      have hcomm : ([header] ++ held n.pendingBladeStarts).Perm (held n.pendingBladeStarts ++ [header]) :=
        List.perm_append_comm
      simpa [held] using hcomm
    exact (Tallies.perm hmove h).frame rfl
  · refine (permitBlade _ _ _).seq fun _ => Keeps.seq (keeps_requestBlade fun n l h => h.frame rfl) fun result => ?_
    exact (answerRequest result _).seq fun _ => driveBladeLocked _

theorem onMowerOn (direction : BladeControl.Direction) (env : Env) :
    Triple (Owes k [header]) (onMowerOn header direction env) fun _ => Owes k [] := by
  have hfree : SessionFree (Owes k [header]) := sessionFree
  have hwalk : Walk (Owes k [header]) := walk
  refine Triple.peek fun n => (hwalk.cancel.when).seq fun _ => (hwalk.driveSession _).seq fun _ => ?_
  refine (driveBladeLocked _).seq fun _ => Triple.peek fun n => Triple.ite (fun _ => replyBlade _) fun _ => ?_
  refine Keeps.seq (Keeps.when (Keeps.seq (hfree.side fun _ => rfl) fun _ => hfree.neutral)) fun _ => ?_
  refine (hwalk.driveSession _).seq fun _ => Triple.peek fun n => Triple.ite (fun _ => ?_) fun _ => startBlade _ _
  exact (hfree.endFailed cancelPendingBladeStarts (fun _ => updateBlade _) _).seq fun _ => replyBlade _

/-- A MowerControl request ends up answered or held. -/
theorem onMowerControl (mowEnabled mowDirection : UInt8) (env : Env) :
    Triple (Owes k [header]) (onMowerControl header mowEnabled mowDirection env) fun _ => Owes k [] :=
  Triple.ite (fun _ => replyBlade _) fun _ => Triple.ite (fun _ => onMowerOff env) fun _ => onMowerOn _ env

/-- A callback adds its own request to the ones counted, and answers or holds it. -/
theorem callback (c : Callback) (env : Env) :
    Triple (Owes k []) (c.program env) fun _ => Owes (fun header => k header + if c.asks header then 1 else 0)
    [] := by
  by_cases hmower : ∃ header mowEnabled mowDirection, c = .mowerControl header mowEnabled mowDirection
  · obtain ⟨header, mowEnabled, mowDirection, rfl⟩ := hmower
    refine (onMowerControl mowEnabled mowDirection env).pre fun n l h header' => ?_
    have := h header'
    by_cases he : header = header' <;> simp [Callback.asks, he] at this ⊢ <;> omega
  · have hkeeps : Keeps (Owes k []) (c.program env) :=
      sessionFree.callback walk c env (fun h e d hc => absurd ⟨h, e, d, hc⟩ hmower) fun token response _ =>
        walk.onServoResponse token response env fun _ => updateBlade _
    have hno : ∀ header, c.asks header = false := by
      cases c with
      | mowerControl header e d => exact absurd ⟨header, e, d, rfl⟩ hmower
      | _ => exact fun _ => rfl
    refine hkeeps.weaken (fun _ _ => id) fun _ n l h header => ?_
    simpa [hno] using h header

end Owes

end Bridge
end MowgliMavros
