import MowgliMavros.BladeDeadline
import MowgliMavros.BridgeBlade
import MowgliMavros.BridgeReplies

/-!
# The deadline of an ON

A live ON has a caller of its revision, or one that was answered with success (`Claimed`). A drive takes
the ON back when such a caller is late and the controller is not satisfied; a controller that is
satisfied has answered all its callers (`Met`), unless the ACK of the ON came in just now, after the
deadline of every caller. The other way to a live ON that nobody waits for is a queue with no room for
the caller of an ON that starts (`Spare`). Without these two (`Orderly`) no ON outlives the caller that
expired for it (`on_deadline`).
-/

namespace MowgliMavros
namespace Bridge
open Prog (Triple Keeps)
open BladeControl (Direction Idle Lapses)

/-- More than 20000 ms before the clock of a blade drive. -/
def Late (env : Env) (startedMs : Int) : Prop := ∃ i, (env.blade i).steady - startedMs > 20000

/-- A caller of this header waits in `sent` since more than 20000 ms. -/
def Overdue (env : Env) (sent : Node) (header : Nat) : Prop :=
  (∃ p ∈ sent.pendingBladeStarts, p.header = header ∧ Late env p.startedMs) ∨
    ∃ r ∈ sent.bladeReplies, r.header = header ∧ Late env r.startedMs

/-- An overdue caller for `d` is answered without success. -/
def Expired (T : Transcript) (env : Env) (d : Direction) (log : List Effect) : Prop :=
  ∃ header sent, .mowerReply header false sent ∈ log ∧ Asked T header d ∧ Overdue env sent header

/-- A caller of the intention was answered with success. -/
def Served (T : Transcript) (b : BladeControl) : Prop :=
  ∃ header sent, .inr (.mowerReply header true sent) ∈ T ∧ Asked T header b.requested ∧
    sent.bladeControl.revision = b.revision

/-- A caller for `d` waits, or one was answered with success. -/
def Attended (T : Transcript) (n : Node) (d : Direction) : Prop :=
  (∃ p ∈ n.pendingBladeStarts, p.direction = d) ∨ (∃ r ∈ n.bladeReplies, Asked T r.header d) ∨
    Served T n.bladeControl

/-- No ON that an overdue caller asked for stays the intention, unless somebody else wants it. -/
def DeadlineKept (T : Transcript) (env : Env) (log : List Effect) (n : Node) : Prop :=
  ∀ d, d ≠ .off → Expired T env d log → n.bladeControl.requested = d → Attended (T ++ log.map .inr) n d

/-- The callers that an ON may still be started for. -/
def Node.startable (n : Node) (c : Callback) : Nat := n.pendingBladeStarts.length + if c.IsOn then 1 else 0

/-- The step is neither of the two after which a live ON may have nobody: more than 32 callers, of whom
some wait for the session, or an accepted ACK of the ON when all its callers are late. -/
structure Orderly (n : Node) (c : Callback × Env) : Prop where
  room : n.startable c.1 ≠ 0 → n.bladeReplies.length + n.startable c.1 ≤ 32
  ack : ∀ command ∈ n.bladeControl.inFlight,
    c.1 = .servoResponse command.token (some (true, 0)) → command.direction = n.bladeControl.requested →
      n.bladeControl.requested ≠ .off →
        n.bladeAllowed (c.2.blade 0).steady (c.2.blade 0).nowNs = true → 0 ≤ n.bladeControl.sampleReceipt →
          (c.2.blade 0).steady - n.bladeControl.sampleReceipt ≤ n.bladeControl.config.1.freshnessMs →
            (∃ r ∈ n.bladeReplies, r.revision = n.bladeControl.revision) →
              ∃ r ∈ n.bladeReplies, r.revision = n.bladeControl.revision ∧
                (c.2.blade 0).steady - r.startedMs ≤ 20000

/-! ### The invariant -/

structure Claimed (T : Transcript) (n : Node) (log : List Effect) : Prop where
  idle : n.bladeControl.Idle
  owner : n.bladeControl.requested ≠ .off →
    (∃ r ∈ n.bladeReplies, r.revision = n.bladeControl.revision) ∨ Served (T ++ log.map .inr) n.bladeControl

/-- A satisfied ON has no caller left, or one that is in time. -/
def Met (inTime : Int → Prop) : Assertion := fun n _ =>
  n.bladeControl.requested ≠ .off → n.bladeControl.satisfied = true →
    (∀ r ∈ n.bladeReplies, r.revision ≠ n.bladeControl.revision) ∨
      ∃ r ∈ n.bladeReplies, r.revision = n.bladeControl.revision ∧ inTime r.startedMs

/-- The queue has room for `m` callers. -/
def Spare (m : Nat) : Assertion := fun n _ => m ≠ 0 → n.bladeReplies.length + m ≤ 32

/-- There is room for the waiting starts and `k` callers. -/
def Room (k : Nat) : Assertion := fun n log => Spare (n.pendingBladeStarts.length + k) n log

/-! ### What lasts -/

theorem SessionFree.and {I J : Assertion} (h : SessionFree I) (h' : SessionFree J) :
    SessionFree fun n l => I n l ∧ J n l where
  frame hn hi := ⟨h.frame hn hi.1, h'.frame hn hi.2⟩
  emit n l e he hi := ⟨h.emit n l e he hi.1, h'.emit n l e he hi.2⟩

theorem SessionFree.forgetBladeRpcs {I : Assertion} (h : SessionFree I) : Keeps I forgetBladeRpcs :=
  Keeps.read fun _ => (Keeps.emitMap (fun _ n l => h.emit n l _ rfl) _).seq fun _ => h.side fun _ => rfl

/-- An assertion about the callers that survives when the intention lapses. -/
structure Lasting (I : Assertion) : Prop extends SessionFree I where
  lapse : ∀ n l b, Lapses n.bladeControl b → (n.bladeControl.Idle → b.Idle) → I n l →
    I { n with bladeControl := b } l
  told : ∀ n l e, I n l → I n (l ++ [e])
  clear : ∀ n l, I n l → I { n with pendingBladeStarts := [] } l

namespace Lasting
variable {I J : Assertion} (h : Lasting I)
include h

theorem and (h' : Lasting J) : Lasting fun n l => I n l ∧ J n l where
  toSessionFree := h.toSessionFree.and h'.toSessionFree
  lapse n l b hb hidle hi := ⟨h.lapse n l b hb hidle hi.1, h'.lapse n l b hb hidle hi.2⟩
  told n l e hi := ⟨h.told n l e hi.1, h'.told n l e hi.2⟩
  clear n l hi := ⟨h.clear n l hi.1, h'.clear n l hi.2⟩

theorem updateBlade {f : BladeControl → BladeControl} (op : BladeControl.Op) (hop : op.Inward)
    (hrequest : ∀ d now, op ≠ .request d now) (hf : ∀ b, f b = b.apply op) : Keeps I (updateBlade f) :=
  Keeps.update fun n l hi => by
    rw [hf]
    exact h.lapse n l _ (BladeControl.lapses_apply _ _ hop hrequest) (fun hidle => hidle.apply op) hi

theorem forceOff (now : Int) : Keeps I (Bridge.updateBlade (·.forceOff now)) :=
  h.updateBlade (.forceOff now) trivial (by simp) fun _ => rfl

theorem permitBlade (steady nowNs now : Int) : Keeps I (permitBlade steady nowNs now) :=
  Keeps.update fun n l hi => h.lapse n l _ (BladeControl.lapses_apply _ (.permission _ now) trivial (by simp))
    (fun hidle => hidle.apply (.permission (n.bladeAllowed steady nowNs) now)) hi

theorem replyBlade (header : Nat) (success : Bool) : Keeps I (replyBlade header success) :=
  Keeps.read fun _ => Triple.emit fun n l => h.told n l _

theorem cancelPendingBladeStarts : Keeps I cancelPendingBladeStarts :=
  Keeps.read fun _ => (Keeps.forEach fun pending _ => h.replyBlade pending.header false).seq fun _ =>
    Keeps.update fun n l hi => h.clear n l hi

theorem endFailed (env : EndEnv) : Keeps I (endFailedBladeTestLocked env) :=
  h.toSessionFree.endFailed h.cancelPendingBladeStarts h.forceOff env

theorem timeOutBladeReplies (steady : Int) : Keeps I (timeOutBladeReplies steady) :=
  Keeps.update fun n l hi => by
    split
    · exact h.lapse n l _ (BladeControl.lapses_apply _ (.serviceTimeout steady) trivial (by simp))
        (fun hidle => hidle.apply (.serviceTimeout steady)) hi
    · exact hi

theorem sendBlade (env : BladeEnv) : Keeps I (sendBlade env) := by
  refine keeps_sendBlade (fun n l hi => ?_) fun command => Keeps.ite ?_ ?_
  · exact h.lapse n l _ (BladeControl.lapses_next _ _) (fun hidle => hidle.next _) hi
  · exact h.updateBlade (.complete command.token false env.failedSteady) rfl (by simp) fun _ => rfl
  · refine Keeps.seq (h.side fun _ => rfl) fun _ => Keeps.read fun n => ?_
    exact Keeps.seq (Triple.emit fun n l => h.told n l _) fun _ => h.side fun _ => rfl

end Lasting

variable {T : Transcript} {n : Node} {log : List Effect} {d : Direction} {inTime : Int → Prop} {k m : Nat}
  {header : Nat}

theorem Served.append {b : BladeControl} (h : Served (T ++ log.map .inr) b) (es : List Effect) :
    Served (T ++ (log ++ es).map .inr) b := by
  obtain ⟨header, sent, hmem, hasked, hrevision⟩ := h
  have hsub : (T ++ log.map .inr : Transcript) ⊆ T ++ (log ++ es).map .inr := by
    rw [List.map_append, ← List.append_assoc]
    exact List.subset_append_left _ _
  exact ⟨header, sent, hsub hmem, hasked.mono hsub, hrevision⟩

theorem claimed_lasting : Lasting (Claimed T) where
  frame {n n' l} hn h := by
    simp only [Node.bladeSide, Prod.mk.injEq] at hn
    obtain ⟨hb, -, hr⟩ := hn
    refine ⟨hb ▸ h.idle, ?_⟩
    rw [hb, hr]
    exact h.owner
  emit n l e _ h := ⟨h.idle, fun hon => (h.owner hon).imp_right (·.append [e])⟩
  lapse n l b hb hidle h := by
    refine ⟨hidle h.idle, fun hon => ?_⟩
    rcases hb with hoff | ⟨hr, hv, -⟩
    · exact absurd hoff hon
    · have howner := h.owner (hr ▸ hon)
      rw [← hv, Served, ← hr, ← hv] at howner
      exact howner
  told n l e h := ⟨h.idle, fun hon => (h.owner hon).imp_right (·.append [e])⟩
  clear n l h := ⟨h.idle, h.owner⟩

theorem met_lasting : Lasting (Met inTime) where
  frame {n n' l} hn h := by
    simp only [Node.bladeSide, Prod.mk.injEq] at hn
    simp only [Met, hn.1, hn.2.2]
    exact h
  emit _ _ _ _ h := h
  lapse n l b hb _ h hon hsat := by
    rcases hb with hoff | ⟨hr, hv, hs⟩
    · exact absurd hoff hon
    · have hmet := h (hr ▸ hon) (hs hsat)
      rw [← hv] at hmet
      exact hmet
  told _ _ _ h := h
  clear _ _ h := h

theorem room_lasting : Lasting (Room k) where
  frame {n n' l} hn h := by
    simp only [Node.bladeSide, Prod.mk.injEq] at hn
    simp only [Room, Spare, hn.2.1, hn.2.2]
    exact h
  emit _ _ _ _ h := h
  lapse _ _ _ _ _ h := h
  told _ _ _ h := h
  clear n l h hk := by
    have hroom := h (by simp at hk; omega)
    simp only [List.length_nil] at hk ⊢
    omega

theorem Spare.mono {m' : Nat} (h : Spare m n log) (hm : m' ≤ m) : Spare m' n log := by
  intro hne
  have := h (by omega)
  omega

theorem Room.mono {k' : Nat} (h : Room k n log) (hk : k' ≤ k) : Room k' n log := Spare.mono h (by omega)

theorem Met.mono {inTime' : Int → Prop} (h : Met inTime n log) (hle : ∀ t, inTime t → inTime' t) :
    Met inTime' n log :=
  fun hon hsat => (h hon hsat).imp_right fun ⟨r, hr, hv, ht⟩ => ⟨r, hr, hv, hle _ ht⟩

theorem Claimed.of_off (hoff : n.bladeControl.requested = .off) : Claimed T n log :=
  ⟨fun _ => hoff, fun hon => absurd hoff hon⟩

theorem Met.of_off (hoff : n.bladeControl.requested = .off) : Met inTime n log := fun hon => absurd hoff hon

/-! ### An ON starts -/

/-- What holds where an ON may start, with room for `m` callers. -/
structure Ready (T : Transcript) (inTime : Int → Prop) (m : Nat) (n : Node) (log : List Effect) : Prop where
  honest : Honest T n log
  claimed : Claimed T n log
  met : Met inTime n log
  spare : Spare m n log

/-- The caller of an ON that is pending is still owed its place. -/
structure Asking (T : Transcript) (inTime : Int → Prop) (m : Nat) (d : Direction) (result : BladeControl.Result)
    (n : Node) (log : List Effect) : Prop where
  honest : Honest T n log
  answerable : Honest.Answerable d result n
  idle : n.bladeControl.Idle
  spare : Spare (m + 1) n log
  waits : result = .pending → n.bladeControl.requested ≠ .off → n.bladeControl.satisfied = false
  kept : result ≠ .pending → Claimed T n log ∧ Met inTime n log

theorem requestOn (d : Direction) (steady : Int) :
    Triple (Ready T inTime (m + 1)) (requestBlade d steady) fun result => Asking T inTime m d result := by
  refine Triple.read fun n => Triple.bind (R := fun _ => Asking T inTime m d (n.bladeControl.request d steady).2)
    (Triple.update ?_) fun _ => Triple.pure fun _ _ h => h
  rintro n log ⟨rfl, h⟩
  refine ⟨h.honest.apply (.request d steady) trivial, ⟨fun hc => ?_, BladeControl.request_pending⟩,
    h.claimed.idle.apply (.request d steady), h.spare, fun hp hon => ?_, fun hp => ?_⟩
  · obtain ⟨he, hsettled⟩ := BladeControl.request_confirmed hc
    rw [he]
    exact hsettled
  · have hrequested := BladeControl.request_pending hp
    dsimp only at hon
    exact (BladeControl.request_waits (hrequested ▸ hon) hp).1
  · have hsame : (n.bladeControl.request d steady).1 = n.bladeControl := by
      cases hresult : (n.bladeControl.request d steady).2 with
      | rejected => exact BladeControl.request_rejected hresult
      | pending => exact absurd hresult hp
      | confirmed => exact (BladeControl.request_confirmed hresult).1
    rw [hsame]
    exact ⟨h.claimed, h.met⟩

/-- The caller of a pending ON owns it from now on. -/
theorem answerOn (hasked : Asked T header d) (result : BladeControl.Result) (startedMs : Int) :
    Triple (Asking T inTime m d result) (answerRequest header result startedMs) fun _ => Ready T inTime m := by
  refine Triple.read fun n => Triple.ite (fun hpending => Triple.update ?_) fun hfull => Triple.read fun sent =>
    Triple.emit ?_
  · rintro n log ⟨rfl, h⟩
    have hroom := h.spare (by omega)
    refine ⟨h.honest.hold hasked (h.answerable.2 hpending.1) startedMs, ⟨h.idle, fun _ => .inl ?_⟩,
      fun hon hsat => ?_,
      fun _ => ?_⟩
    · exact ⟨_, List.mem_append_right _ (List.mem_singleton.2 rfl), rfl⟩
    · rw [h.waits hpending.1 hon] at hsat
      cases hsat
    · simp only [List.length_append, List.length_singleton]
      omega
  · rintro n log ⟨rfl, rfl, h⟩
    have hroom := h.spare (by omega)
    have hp : result ≠ .pending := fun hp => hfull ⟨hp, by omega⟩
    obtain ⟨hclaimed, hmet⟩ := h.kept hp
    refine ⟨h.honest.reply fun hc => ⟨d, hasked, h.answerable.1 (by simpa using hc)⟩,
      claimed_lasting.told _ _ _ hclaimed, hmet, h.spare.mono (by omega)⟩

theorem promote_ready (inTime : Int → Prop) (emergency : Bool) (steady : Int) (starts : List PendingBladeStart)
    (k : Nat) :
    Triple (fun n l => Ready T inTime (starts.length + k) n l ∧ Honest.AllAsked T starts)
      (promote emergency steady starts)
      fun kept n l => Ready T inTime (kept.length + k) n l ∧ Honest.AllAsked T kept := by
  induction starts generalizing k with
  | nil => exact Triple.pure fun _ _ h => h
  | cons pending rest ih =>
    refine Triple.assume (p := Honest.AllAsked T (pending :: rest)) (fun hall => ?_) fun _ _ => And.right
    have hrest : Honest.AllAsked T rest := fun p hp => hall p (List.mem_cons_of_mem _ hp)
    have hlength : (pending :: rest).length + k = rest.length + k + 1 := by simp only [List.length_cons]; omega
    rw [hlength]
    refine Triple.peek fun n => Triple.ite (fun _ => ?_) fun _ => Triple.ite (fun _ => ?_) fun _ => ?_
    · refine Triple.bind (R := fun _ n l => Ready T inTime (rest.length + k) n l ∧ Honest.AllAsked T rest) ?_
        fun _ => ih k
      refine Triple.read fun sent => Triple.emit ?_
      rintro n l ⟨rfl, h, -⟩
      exact ⟨⟨h.honest.refuse _ _, claimed_lasting.told _ _ _ h.claimed, h.met, h.spare.mono (by omega)⟩, hrest⟩
    · refine Triple.bind ((requestOn pending.direction steady).pre fun _ _ => And.left) fun result => ?_
      refine Triple.bind (answerOn (hall pending (by simp)) result _) fun _ => ?_
      exact (ih k).pre fun _ _ h => ⟨h, hrest⟩
    · refine Triple.bind ((ih (k + 1)).pre fun _ _ h => ⟨h.1, hrest⟩) fun kept => Triple.pure fun _ _ h => ⟨?_, ?_⟩
      · have hkept : (pending :: kept).length + k = kept.length + (k + 1) := by simp only [List.length_cons]; omega
        rw [hkept]
        exact h.1
      · intro p hp
        rcases List.mem_cons.1 hp with rfl | hp
        · exact hall p (by simp)
        · exact h.2 p hp

/-- What the callbacks keep for the callers, with room for `k` more. -/
def Tended (T : Transcript) (inTime : Int → Prop) (k : Nat) : Assertion := fun n log =>
  Claimed T n log ∧ Met inTime n log ∧ Room k n log

theorem tended_lasting : Lasting (Tended T inTime k) := claimed_lasting.and (met_lasting.and room_lasting)

theorem promoteBladeStarts_tended (emergency : Bool) (steady : Int) :
    Keeps (fun n l => Honest T n l ∧ Tended T inTime k n l) (promoteBladeStarts emergency steady) := by
  refine Triple.read fun n => Triple.bind
    ((promote_ready (T := T) (k := k) inTime emergency steady n.pendingBladeStarts).pre ?_)
    fun kept => Triple.update fun n l h => ?_
  · rintro n l ⟨rfl, hhonest, hclaimed, hmet, hroom⟩
    exact ⟨⟨hhonest, hclaimed, hmet, hroom⟩, hhonest.promises.starts⟩
  · obtain ⟨h, hkept⟩ := h
    exact ⟨⟨h.honest.mirrors.frame rfl, ⟨hkept, h.honest.promises.replies⟩, h.honest.sound⟩,
      ⟨h.claimed.idle, h.claimed.owner⟩, h.met, h.spare⟩

/-! ### The blade drive -/

/-- No caller of an ON that is not satisfied is late. -/
def Prompt (steady : Int) : Assertion := fun n _ =>
  n.bladeControl.requested ≠ .off → n.bladeControl.satisfied = false →
    ∀ r ∈ n.bladeReplies, r.revision = n.bladeControl.revision → steady - r.startedMs ≤ 20000

theorem timeOutBladeReplies_prompt (steady : Int) :
    Triple (fun _ _ => True) (timeOutBladeReplies steady) fun _ => Prompt steady := by
  refine Triple.update fun n l _ hon hsat r hr hv => ?_
  split at hon
  · exact absurd rfl hon
  · rename_i hlate
    rw [if_neg hlate] at hsat hr hv
    by_contra ht
    exact hlate ⟨by simp [hsat], List.any_eq_true.2 ⟨r, hr, by simpa using ⟨hv, by omega⟩⟩⟩

theorem prompt_sessionFree (steady : Int) : SessionFree (Prompt steady) where
  frame {n n' l} hn h := by
    simp only [Node.bladeSide, Prod.mk.injEq] at hn
    simp only [Prompt, hn.1, hn.2.2]
    exact h
  emit _ _ _ _ h := h

/-- A satisfied ON answers all its callers, with success if they are in time. -/
theorem answerBladeReplies_tended (steady : Int) :
    Triple (fun n l => Promises T n ∧ Tended T (steady - · ≤ 20000) k n l ∧ Prompt steady n l)
      (answerBladeReplies steady) fun _ => Tended T (fun _ => False) k := by
  refine Triple.read fun n => Triple.bind (R := fun _ n' log' => n' = n ∧ ∃ before,
    (Promises T n ∧ Tended T (steady - · ≤ 20000) k n before ∧ Prompt steady n before) ∧ log' = before ++
      ((n.bladeReplies.filter fun reply => reply.invalid n steady || n.bladeControl.satisfied).map fun reply =>
        .mowerReply reply.header (!reply.invalid n steady) n)) (Triple.emitAll ?_) fun _ => Triple.update ?_
  · rintro n before ⟨rfl, h⟩
    exact ⟨rfl, before, h, rfl⟩
  rintro n after ⟨rfl, before, ⟨hpromises, ⟨hclaimed, hmet, hroom⟩, hprompt⟩, hafter⟩
  have hinvalid : n.bladeControl.requested ≠ .off → ∀ r ∈ n.bladeReplies, r.revision = n.bladeControl.revision →
      steady - r.startedMs ≤ 20000 → r.invalid n steady = false := by
    intro hon r hr hv ht
    have hfault : n.bladeControl.fault = false := by
      by_contra hf
      exact hon (hclaimed.idle (.inr (.inr (by simpa using hf))))
    simp [BladeReply.invalid, hv, BladeControl.failed, hfault, ht]
  refine ⟨⟨hclaimed.idle, fun hon => ?_⟩, fun hon hsat => .inl fun r hr => ?_, fun hk => ?_⟩
  · rw [hafter]
    rcases hclaimed.owner hon with ⟨r, hr, hv⟩ | hserved
    swap
    · exact .inr (hserved.append _)
    cases hsat : n.bladeControl.satisfied with
    | false =>
      have hkept := hinvalid hon r hr hv (hprompt hon hsat r hr hv)
      exact .inl ⟨r, List.mem_filter.2 ⟨hr, by simp [hkept]⟩, hv⟩
    | true =>
      rcases hmet hon hsat with hnone | ⟨r', hr', hv', ht⟩
      · exact absurd hv (hnone r hr)
      have hvalid := hinvalid hon r' hr' hv' ht
      obtain ⟨-, d, hasked, hd⟩ := hpromises.replies r' hr'
      refine .inr ⟨r'.header, n, ?_, ?_, rfl⟩
      · refine List.mem_append_right _ (List.mem_map_of_mem (List.mem_append_right _ ?_))
        exact List.mem_map.2 ⟨r', List.mem_filter.2 ⟨hr', by simp⟩, by simp [hvalid]⟩
      · exact (hd hv' ▸ hasked).mono (List.subset_append_left _ _)
  · dsimp only at hr hsat
    simp [hsat] at hr
  · have hroom' := hroom hk
    have hle := List.length_filter_le
      (fun reply => !(reply.invalid n steady || n.bladeControl.satisfied)) n.bladeReplies
    dsimp only at hk ⊢
    omega

/-- A sample that is due at the clock of the drive. -/
def Stale (env : BladeEnv) : Assertion := fun n _ => ¬ (0 ≤ n.bladeControl.sampleReceipt ∧
  env.steady - n.bladeControl.sampleReceipt ≤ n.bladeControl.config.1.freshnessMs)

/-- The controller is not satisfied without an answer, or the drive takes the ON back. -/
def Excused (env : BladeEnv) : Assertion := fun n log =>
  Met (env.steady - · ≤ 20000) n log ∨ n.bladeAllowed env.steady env.nowNs = false ∨ Stale env n log

theorem excused_endFailed {env : BladeEnv} (ended : EndEnv) :
    Keeps (Excused env) (endFailedBladeTestLocked ended) := by
  have hoff : SessionFree fun n _ => n.bladeControl.requested = .off :=
    ⟨fun hn h => by simp only [Node.bladeSide, Prod.mk.injEq] at hn; rw [hn.1]; exact h, fun _ _ _ _ h => h⟩
  refine Keeps.read fun n => Keeps.skip.ite (Triple.weaken (S := fun _ _ => True) ?_ (fun _ _ _ => trivial)
    fun _ _ _ h => .inl (Met.of_off h))
  refine Triple.bind (R := fun _ _ _ => True) (fun _ _ h => h) fun _ => ?_
  refine Triple.bind (R := fun _ _ _ => True) (fun _ _ h => h) fun _ => ?_
  refine Triple.bind (R := fun _ n _ => n.bladeControl.requested = .off) (Triple.update fun _ _ _ => rfl) fun _ => ?_
  exact hoff.neutral.seq fun _ => hoff.side fun _ => rfl

/-- Without permission there is no ON after `permission`. -/
theorem excused_permit (env : BladeEnv) :
    Triple (fun n l => n.bladeControl.Idle ∧ Excused env n l) (permitBlade env.steady env.nowNs env.steady)
      fun _ n l => Met (env.steady - · ≤ 20000) n l ∨ Stale env n l := by
  refine Triple.update fun n l ⟨hidle, hexcused⟩ => ?_
  rcases hexcused with hmet | hrefused | hstale
  · exact .inl (met_lasting.lapse n l _ (BladeControl.lapses_apply n.bladeControl
      (.permission (n.bladeAllowed env.steady env.nowNs) env.steady) trivial (by simp)) (fun hidle => hidle.apply
        (.permission (n.bladeAllowed env.steady env.nowNs) env.steady)) hmet)
  · refine .inl (Met.of_off ?_)
    dsimp only
    rw [hrefused, BladeControl.permission]
    split
    · rfl
    · rename_i hedge
      exact hidle (.inr (.inl (by simpa using hedge)))
  · refine .inr fun hfresh => hstale ?_
    dsimp only [BladeControl.permission] at hfresh
    split at hfresh
    exacts [hfresh, hfresh]

theorem excused_tick (env : BladeEnv) :
    Triple (fun n l => Met (env.steady - · ≤ 20000) n l ∨ Stale env n l) (updateBlade (·.tick env.steady))
      fun _ => Met (env.steady - · ≤ 20000) := by
  refine Triple.update fun n l h => ?_
  rcases h with hmet | hstale
  · exact met_lasting.lapse n l _ (BladeControl.lapses_tick _ _) (fun hidle => hidle.apply (.tick env.steady)) hmet
  · refine Met.of_off ?_
    dsimp only
    rcases n.bladeControl.tick_cases env.steady with he | ⟨_, _, _, _, he, -⟩
    · by_contra hon
      have hfresh := (BladeControl.Timely.tick n.bladeControl env.steady).fresh hon
      rw [he] at hfresh
      exact hstale hfresh
    · rw [he]

theorem driveBladeLocked_tended (env : BladeEnv) :
    Triple (fun n l => Honest T n l ∧ Claimed T n l ∧ Room k n l ∧ Excused env n l) (driveBladeLocked env)
      fun _ n l => Honest T n l ∧ Tended T (fun _ => False) k n l := by
  have hhonest := Honest.sessionFree (T := T)
  have htended : Lasting (Tended T (env.steady - · ≤ 20000) k) := tended_lasting
  have hwire : Keeps (fun n l => Honest T n l ∧ Claimed T n l ∧ Room k n l ∧ Excused env n l)
      (expireWireExpectations env.steady) :=
    Triple.and (hhonest.side fun _ => rfl) (Triple.and (claimed_lasting.side fun _ => rfl)
      (Triple.and (room_lasting.side fun _ => rfl) (Keeps.update fun _ _ h => h)))
  unfold driveBladeLocked
  refine hwire.seq fun _ => Triple.peek fun n => Triple.seq (Keeps.when ?_) fun _ => ?_
  · exact (Honest.endFailed _).and ((claimed_lasting.endFailed _).and ((room_lasting.endFailed _).and
      (excused_endFailed _)))
  refine Triple.bind (R := fun _ n l => (Honest T n l ∧ Claimed T n l ∧ Room k n l) ∧
    (Met (env.steady - · ≤ 20000) n l ∨ Stale env n l)) ?_ fun _ => ?_
  · refine Triple.pre (((Honest.permitBlade _ _ _).and ((claimed_lasting.permitBlade _ _ _).and
      (room_lasting.permitBlade _ _ _))).and (excused_permit env)) fun n l h => ?_
    exact ⟨⟨h.1, h.2.1, h.2.2.1⟩, h.2.1.idle, h.2.2.2⟩
  refine Triple.bind (R := fun _ n l => Honest T n l ∧ Tended T (env.steady - · ≤ 20000) k n l) ?_ fun _ => ?_
  · refine (((Honest.updateBlade (.tick env.steady) trivial fun _ => rfl).and ((claimed_lasting.updateBlade
      (.tick env.steady) trivial (by simp) fun _ => rfl).and (room_lasting.updateBlade (.tick env.steady)
        trivial (by simp) fun _ => rfl))).and (excused_tick env)).weaken (fun _ _ => id) fun _ n l h => ?_
    exact ⟨h.1.1, h.1.2.1, h.2, h.1.2.2⟩
  refine Triple.seq (Keeps.read fun _ => Keeps.when ((Honest.endFailed _).and (htended.endFailed _))) fun _ => ?_
  refine (promoteBladeStarts_tended _ _).seq fun _ => ?_
  refine Triple.bind (R := fun _ n l => (Honest T n l ∧ Tended T (env.steady - · ≤ 20000) k n l) ∧
    Prompt env.steady n l) ?_ fun _ => ?_
  · exact (((Honest.timeOutBladeReplies _).and (htended.timeOutBladeReplies _)).and
      (timeOutBladeReplies_prompt env.steady)).pre fun n l h => ⟨h, trivial⟩
  refine Triple.seq (((hhonest.and htended.toSessionFree).and (prompt_sessionFree _)).forgetBladeRpcs) fun _ => ?_
  refine Triple.bind (R := fun _ n l => Honest T n l ∧ Tended T (fun _ => False) k n l) ?_ fun _ => ?_
  · exact ((Honest.answerBladeReplies _).and (answerBladeReplies_tended env.steady)).pre fun n l h =>
      ⟨h.1.1, h.1.1.promises, h.1.2, h.2⟩
  refine Triple.seq (Keeps.read fun _ => Keeps.when ((Honest.endFailed _).and (tended_lasting.endFailed _)))
    fun _ => ?_
  exact (Honest.sendBlade _).and (tended_lasting.sendBlade _)

/-! ### The callbacks -/

/-- Between the drives. -/
abbrev Held (T : Transcript) (k : Nat) : Assertion := fun n log => Honest T n log ∧ Tended T (fun _ => False) k n log

namespace Held

theorem sessionFree : SessionFree (Held T k) := Honest.sessionFree.and tended_lasting.toSessionFree

theorem cancel : Keeps (Held T k) cancelPendingBladeStarts :=
  Honest.cancelPendingBladeStarts.and tended_lasting.cancelPendingBladeStarts

theorem endFailed (env : EndEnv) : Keeps (Held T k) (endFailedBladeTestLocked env) :=
  (Honest.endFailed env).and (tended_lasting.endFailed env)

theorem refuse (header : Nat) : Keeps (Held T k) (replyBlade header false) :=
  Triple.and (Keeps.read fun sent => Triple.emit fun _ _ h => h.refuse header sent)
    (tended_lasting.replyBlade header false)

theorem permit (steady nowNs now : Int) : Keeps (Held T k) (permitBlade steady nowNs now) :=
  (Honest.permitBlade _ _ _).and (tended_lasting.permitBlade _ _ _)

theorem driveBlade (env : BladeEnv) : Keeps (Held T k) (driveBladeLocked env) :=
  (driveBladeLocked_tended env).pre fun _ _ h =>
    ⟨h.1, h.2.1, h.2.2.2, .inl (h.2.2.1.mono fun _ => False.elim)⟩

theorem walk : Walk (Held T k) := by
  refine sessionFree.walk (fun op hop => ?_) (fun connected now => ?_) cancel driveBlade
  · have hinward : op.Inward := by cases op <;> simp_all [Outside, BladeControl.Op.Inward]
    exact (Honest.updateBlade op hinward fun _ => rfl).and (tended_lasting.updateBlade op hinward
      (by cases op <;> simp_all [Outside]) fun _ => rfl)
  · exact (Honest.updateBlade (.connection connected now) trivial fun _ => rfl).and
      (tended_lasting.updateBlade (.connection connected now) trivial (by simp) fun _ => rfl)

theorem mono {k' : Nat} (hk : k' ≤ k) (h : Held T k n log) : Held T k' n log := ⟨h.1, h.2.1, h.2.2.1, h.2.2.2.mono hk⟩

/-- The request of an ON and its answer, with the place of the caller. -/
theorem request (hasked : Asked T header d) (steady startedMs : Int) {x : Program Unit}
    (hx : Triple (Held T 0) x fun _ => Held T 0) :
    Triple (Held T 1) (do
      let result ← requestBlade d steady
      answerRequest header result startedMs
      x) fun _ => Held T 0 := by
  intro n log h
  let Same : Assertion := fun s _ => s.pendingBladeStarts = n.pendingBladeStarts
  have hsame : ∀ result, Keeps Same (answerRequest header result startedMs) := fun result =>
    Keeps.read fun _ => Keeps.ite (Keeps.update fun _ _ h => h) (Keeps.read fun _ => Triple.emit fun _ _ h => h)
  suffices hserve : Triple (fun s l => Ready T (fun _ => False) (n.pendingBladeStarts.length + 1) s l ∧ Same s l) (do
      let result ← requestBlade d steady
      answerRequest header result startedMs
      x) fun _ => Held T 0 from hserve n log ⟨⟨h.1, h.2.1, h.2.2.1, h.2.2.2⟩, rfl⟩
  refine Triple.bind ((requestOn d steady).and (keeps_requestBlade fun _ _ h => h)) fun result => ?_
  refine Triple.bind ((answerOn hasked result startedMs).and (hsame result)) fun _ => hx.pre fun s l hs => ?_
  refine ⟨hs.1.honest, hs.1.claimed, hs.1.met, ?_⟩
  rw [Room, hs.2]
  exact hs.1.spare

/-- A waiting ON takes its place, or the drive after its request is its own. -/
theorem startBlade (hasked : Asked T header d) (env : Env) :
    Triple (Held T 1) (startBlade header d env) fun _ => Held T 0 := by
  have hless : ∀ n l, Held T 1 n l → Held T 0 n l := fun n l => mono (Nat.zero_le 1)
  refine Triple.peek fun n => Triple.ite (fun _ => Triple.ite (fun _ => ?_) fun _ => ?_) fun _ => ?_
  · exact (refuse header).pre hless
  · refine Triple.update fun n l ⟨hhonest, hclaimed, hmet, hroom⟩ => ⟨⟨hhonest.mirrors.frame rfl,
      ⟨fun p hp => ?_, hhonest.promises.replies⟩, hhonest.sound⟩, ⟨hclaimed.idle, hclaimed.owner⟩, hmet, fun hk => ?_⟩
    · rcases List.mem_append.1 hp with hp | hp
      · exact hhonest.promises.starts p hp
      · rw [List.mem_singleton.1 hp]; exact hasked
    · have hroom' := hroom (by omega)
      simp only [List.length_append, List.length_singleton]
      omega
  · refine (permit _ _ _).seq fun _ => request hasked _ _ (driveBlade _)

theorem onMowerOn (hasked : Asked T header d) (env : Env) :
    Triple (Held T 1) (onMowerOn header d env) fun _ => Held T 0 := by
  have hwalk := walk (T := T) (k := 1)
  have hless : ∀ (a : Unit) n l, Held T 1 n l → Held T 0 n l := fun _ n l => mono (Nat.zero_le 1)
  refine Triple.peek fun n => (hwalk.cancel.when).seq fun _ => (hwalk.driveSession _).seq fun _ => ?_
  refine (driveBlade _).seq fun _ => Triple.peek fun n => Triple.ite (fun _ => ?_) fun _ => ?_
  · exact (refuse header).weaken (fun _ _ => id) hless
  refine Keeps.seq (Keeps.when (Keeps.seq (sessionFree.side fun _ => rfl) fun _ => sessionFree.neutral)) fun _ => ?_
  refine (hwalk.driveSession _).seq fun _ => Triple.peek fun n => Triple.ite (fun _ => ?_)
    fun _ => startBlade hasked _
  exact (endFailed _).seq fun _ => (refuse header).weaken (fun _ _ => id) hless

/-- Nobody waits for the session, after an OFF. -/
def Cleared (T : Transcript) : Assertion := fun n log =>
  (Claimed T n log ∧ Met (fun _ => False) n log) ∧ n.pendingBladeStarts = []

theorem cleared_lasting : Lasting (Cleared T) := by
  refine (claimed_lasting.and met_lasting).and ⟨⟨fun hn h => ?_, fun _ _ _ _ h => h⟩, fun _ _ _ _ _ h => h,
    fun _ _ _ h => h, fun _ _ _ => rfl⟩
  simp only [Node.bladeSide, Prod.mk.injEq] at hn
  rw [hn.2.1]
  exact h

theorem requestOff (steady : Int) : Keeps (Cleared T) (requestBlade .off steady) := by
  refine Triple.read fun n => Triple.bind (R := fun _ => Cleared T) (Triple.update ?_) fun _ => Keeps.skip
  rintro n log ⟨rfl, ⟨hclaimed, hmet⟩, hnone⟩
  refine ⟨?_, hnone⟩
  by_cases hoff : (n.bladeControl.request .off steady).1.requested = .off
  · exact ⟨.of_off hoff, .of_off hoff⟩
  · have hsame : (n.bladeControl.request .off steady).1 = n.bladeControl := by
      cases hresult : (n.bladeControl.request .off steady).2 with
      | rejected => exact BladeControl.request_rejected hresult
      | pending => exact absurd (BladeControl.request_pending hresult) hoff
      | confirmed => exact (BladeControl.request_confirmed hresult).1
    rw [hsame]
    exact ⟨hclaimed, hmet⟩

theorem answerOff (result : BladeControl.Result) (env : Env) :
    Triple (fun n l => Cleared T n l ∧ Honest.Answerable .off result n) (answerOff header result env)
      fun _ => Cleared T := by
  refine Triple.read fun n => Triple.ite (fun hpending => Triple.update ?_) fun _ => ?_
  · rintro n log ⟨rfl, hcleared, hanswer⟩
    have hoff := hanswer.2 hpending.1
    exact ⟨⟨.of_off hoff, .of_off hoff⟩, hcleared.2⟩
  · exact (cleared_lasting.replyBlade header _).pre fun _ _ h => h.2.1

theorem onMowerOff (hasked : Asked T header .off) (env : Env) :
    Triple (fun n l => Honest T n l ∧ Claimed T n l ∧ Met (fun _ => False) n l) (onMowerOff header env)
      fun _ => Held T 0 := by
  have hfree := (Honest.sessionFree (T := T)).and (cleared_lasting (T := T)).toSessionFree
  have hnone : Triple (fun _ _ => True) cancelPendingBladeStarts fun _ n _ => n.pendingBladeStarts = [] :=
    Triple.peek fun n => Triple.bind (R := fun _ _ _ => True) (fun _ _ _ => trivial) fun _ => Triple.update
      fun _ _ _ => rfl
  refine Triple.bind (R := fun _ n l => Honest T n l ∧ Cleared T n l) ?_ fun _ => ?_
  · exact (Honest.cancelPendingBladeStarts.and
      ((claimed_lasting.and met_lasting).cancelPendingBladeStarts.and hnone)).pre
      fun n l h => ⟨h.1, h.2, trivial⟩
  refine Triple.seq (hfree.side fun _ => rfl) fun _ => Triple.peek fun n => Triple.seq (Keeps.when ?_) fun _ => ?_
  · exact Keeps.seq (hfree.side fun _ => rfl)
      fun _ => (Honest.permitBlade _ _ _).and (cleared_lasting.permitBlade _ _ _)
  refine Triple.bind ((Honest.requestBlade .off _).and (requestOff _)) fun result => ?_
  refine Triple.bind (R := fun _ => Held T 0) ?_ fun _ => (driveBlade _).seq fun _ => walk.driveSession _
  refine ((Honest.answerOff hasked result env).and (answerOff result env)).weaken
    (fun n l h => ⟨h.1, h.2, h.1.2⟩) fun _ n l h => ⟨h.1, h.2.1.1, h.2.1.2, fun hk => ?_⟩
  rw [h.2.2] at hk
  exact absurd rfl hk

/-- An accepted ACK leaves a satisfied ON to the drive only with a caller in time. -/
theorem complete (h : Held T 0 n log) {token : Nat} {response : Option (Bool × Nat)} {env : Env}
    (horderly : Orderly n (.servoResponse token response, env)) (now : Int) :
    Claimed T { n with bladeControl := n.bladeControl.complete token (response = some (true, 0)) now } log ∧
      Excused (env.blade 0) { n with bladeControl := n.bladeControl.complete token (response = some (true, 0)) now }
        log := by
  obtain ⟨-, hclaimed, hmet, -⟩ := h
  rcases n.bladeControl.complete_cases token (response = some (true, 0)) now with
    ⟨he, -⟩ | ⟨c, hc, htoken, ⟨-, he⟩ | ⟨-, -, he⟩ | ⟨ha, -, he⟩⟩ <;> rw [he]
  · exact ⟨hclaimed, .inl (hmet.mono fun _ => False.elim)⟩
  · exact ⟨.of_off rfl, .inl (.of_off rfl)⟩
  · refine ⟨⟨hclaimed.idle, hclaimed.owner⟩, .inl fun hon hsat => ?_⟩
    have hoff := (BladeControl.satisfied_iff.1 hsat).2.2.2.2
    exact absurd hoff.symm hon
  · refine ⟨⟨hclaimed.idle, hclaimed.owner⟩, ?_⟩
    have hresponse : response = some (true, 0) := by simpa using ha
    subst hresponse htoken
    by_cases hallowed : n.bladeAllowed (env.blade 0).steady (env.blade 0).nowNs = true
    swap
    · exact .inr (.inl (Bool.eq_false_iff.2 hallowed))
    by_cases hfresh : 0 ≤ n.bladeControl.sampleReceipt ∧
      (env.blade 0).steady - n.bladeControl.sampleReceipt ≤ n.bladeControl.config.1.freshnessMs
    swap
    · exact .inr (.inr hfresh)
    refine .inl fun hon hsat => ?_
    have hdirection := (BladeControl.satisfied_iff.1 hsat).2.2.2.2
    by_cases hnone : ∀ r ∈ n.bladeReplies, r.revision ≠ n.bladeControl.revision
    · exact .inl hnone
    · simp only [not_forall, not_not] at hnone
      obtain ⟨r, hr, hv⟩ := hnone
      exact .inr (horderly.ack c hc rfl hdirection hon hallowed hfresh.1 hfresh.2 ⟨r, hr, hv⟩)

theorem onServoResponse (token : Nat) (response : Option (Bool × Nat)) (env : Env) :
    Triple (fun n l => Held T 0 n l ∧ Orderly n (.servoResponse token response, env) ∧
        (response = some (true, 0) → ∀ c, n.bladeControl.inFlight = some c →
          c.token = token → ∃ since, LastServo c since (T ++ l.map .inr) ∧ Acked c.token since))
      (onServoResponse token response env) fun _ => Held T 0 := by
  refine Triple.seq (Keeps.update fun n l h =>
    ⟨sessionFree.frame (by rfl) h.1, ⟨h.2.1.room, h.2.1.ack⟩, h.2.2⟩) fun _ => ?_
  refine Triple.bind (Triple.update fun n l h => ?_) fun _ => driveBladeLocked_tended _
  obtain ⟨h, horderly, hack⟩ := h
  obtain ⟨hclaimed, hexcused⟩ := h.complete horderly (env.steady 0)
  exact ⟨h.1.complete _ fun ha => hack (by simpa using ha), hclaimed, h.2.2.2, hexcused⟩

theorem onMowerControl (mowEnabled mowDirection : UInt8) (env : Env)
    (hasked : ∀ d, requestedDirection mowEnabled mowDirection = some d → Asked T header d) :
    Triple (Held T (if (Callback.mowerControl header mowEnabled mowDirection).IsOn then 1 else 0))
      (onMowerControl header mowEnabled mowDirection env) fun _ => Held T 0 := by
  refine Triple.ite (fun _ => ?_) fun hvalid => Triple.ite (fun hoff => ?_) fun hon => ?_
  · exact (refuse header).pre fun _ _ => mono (Nat.zero_le _)
  · exact (onMowerOff (hasked .off (by simp [requestedDirection, hoff])) env).pre fun _ _ h => ⟨h.1, h.2.1, h.2.2.1⟩
  · obtain ⟨rfl, hle, hdirection⟩ : mowEnabled = 1 ∧ mowDirection ≤ 1 ∧ (mowDirection = 0 ∨ mowDirection = 1) := by
      rw [not_or, not_and] at hvalid
      have hd := hvalid.2 hon
      refine ⟨?_, ?_, ?_⟩ <;> grind
    rw [if_pos ⟨rfl, hle⟩]
    refine onMowerOn (hasked _ ?_) env
    rcases hdirection with rfl | rfl <;> rfl

/-- A callback of an orderly step. -/
theorem callback (c : Callback) (env : Env) (hhonest : Honest T n []) (hclaimed : Claimed T n [])
    (hmet : Met (fun _ => False) n []) (horderly : Orderly n (c, env)) :
    Held (T ++ [.inl (c, env)]) 0 ((c.program env).after n) ((c.program env).emitted n) := by
  have hheard : Claimed (T ++ [.inl (c, env)]) n [] := by
    refine ⟨hclaimed.idle, fun hon => (hclaimed.owner hon).imp_right fun ⟨header, sent, hmem, hasked, hv⟩ => ?_⟩
    have hmono : T ⊆ T ++ [.inl (c, env)] := List.subset_append_left _ _
    simp only [List.map_nil, List.append_nil] at hmem hasked ⊢
    exact ⟨header, sent, hmono hmem, hasked.mono hmono, hv⟩
  have hheld : Held (T ++ [.inl (c, env)]) (if c.IsOn then 1 else 0) n [] :=
    ⟨hhonest.heard _, hheard, hmet, horderly.room⟩
  by_cases hservo : ∃ token response, c = .servoResponse token response
  · obtain ⟨token, response, rfl⟩ := hservo
    refine onServoResponse token response env n [] ⟨hheld, horderly, ?_⟩
    rintro rfl c hc htoken
    rw [List.map_nil, List.append_nil]
    exact hhonest.heard_ack token env hc htoken
  by_cases hmower : ∃ header mowEnabled mowDirection, c = .mowerControl header mowEnabled mowDirection
  · obtain ⟨header, mowEnabled, mowDirection, rfl⟩ := hmower
    exact onMowerControl mowEnabled mowDirection env
      (fun d hd => ⟨mowEnabled, mowDirection, env, hd, by simp⟩) n [] hheld
  · exact sessionFree.callback walk c env (fun header e m hc => absurd ⟨header, e, m, hc⟩ hmower)
      (fun token response hc => absurd ⟨token, response, hc⟩ hservo) n [] (hheld.mono (Nat.zero_le _))

end Held

/-! ### Runs -/

theorem held_run (l : Launch) (run : List (Callback × Env)) (horderly : machine.Along Orderly l.node run) :
    Claimed (transcript l run) (reach l run) [] ∧ Met (fun _ => False) (reach l run) [] := by
  have hinit : Claimed [] l.node [] := .of_off rfl
  have hstep : ∀ T n c, (Honest T n [] ∧ Claimed T n [] ∧ Met (fun _ => False) n []) → Orderly n c →
      Honest (T ++ (machine.told.step n c).2) (machine.told.step n c).1 [] ∧
        Claimed (T ++ (machine.told.step n c).2) (machine.told.step n c).1 [] ∧
          Met (fun _ => False) (machine.told.step n c).1 [] := by
    rintro T n c ⟨hhonest, hclaimed, hmet⟩ hc
    obtain ⟨hhonest', hclaimed', hmet', -⟩ := Held.callback c.1 c.2 hhonest hclaimed hmet hc
    refine ⟨?_, ⟨hclaimed'.idle, ?_⟩, hmet'⟩
    · have htold := hhonest'.told
      rw [List.append_assoc] at htold
      exact htold
    · have howner := hclaimed'.owner
      rw [List.append_assoc] at howner
      rw [List.map_nil, List.append_nil]
      exact howner
  have hrun := Machine.history (m := machine.told) (H := fun T n => Honest T n [] ∧ Claimed T n [] ∧
    Met (fun _ => False) n []) hstep (l := [])
    ⟨Honest.run l [], hinit, .of_off rfl⟩ ((Machine.along_told _).2 horderly)
  rw [Machine.final_told] at hrun
  exact hrun.2

/-- In a run of orderly steps no ON stays the intention after a caller for it has expired, unless somebody
else wants it. -/
theorem on_deadline (l : Launch) (run : List (Callback × Env)) (c : Callback) (env : Env)
    (horderly : machine.Along Orderly l.node (run ++ [(c, env)])) :
    DeadlineKept (transcript l run ++ [.inl (c, env)]) env ((c.program env).emitted (reach l run))
      (reach l (run ++ [(c, env)])) := by
  rintro d hon - rfl
  obtain ⟨hrun, hstep, -⟩ := (Machine.along_append run [(c, env)]).1 horderly
  obtain ⟨hclaimed, hmet⟩ := held_run l run hrun
  obtain ⟨hhonest', hclaimed', -⟩ := Held.callback c env (Honest.run l run) hclaimed hmet hstep
  have hlast : reach l (run ++ [(c, env)]) = (c.program env).after (reach l run) := Machine.final_append _ _
  rw [hlast] at hon ⊢
  rcases hclaimed'.owner hon with ⟨r, hr, hv⟩ | hserved
  · obtain ⟨-, d, hasked, hd⟩ := hhonest'.promises.replies r hr
    exact .inr (.inl ⟨r, hr, (hd hv ▸ hasked).mono (List.subset_append_left _ _)⟩)
  · exact .inr (.inr hserved)

/-! ### A late ACK -/

instance (n : Node) (c : Callback × Env) : Decidable (Orderly n c) :=
  decidable_of_iff
    ((n.startable c.1 = 0 ∨ n.bladeReplies.length + n.startable c.1 ≤ 32) ∧
      ∀ command ∈ n.bladeControl.inFlight,
        ¬ (c.1 = .servoResponse command.token (some (true, 0)) ∧ command.direction = n.bladeControl.requested ∧
            n.bladeControl.requested ≠ .off ∧ n.bladeAllowed (c.2.blade 0).steady (c.2.blade 0).nowNs = true ∧
              0 ≤ n.bladeControl.sampleReceipt ∧
                (c.2.blade 0).steady - n.bladeControl.sampleReceipt ≤ n.bladeControl.config.1.freshnessMs ∧
                  ∃ r ∈ n.bladeReplies, r.revision = n.bladeControl.revision) ∨
          ∃ r ∈ n.bladeReplies, r.revision = n.bladeControl.revision ∧
            (c.2.blade 0).steady - r.startedMs ≤ 20000)
    ⟨fun h => ⟨h.1.resolve_left, fun command hc h1 h2 h3 h4 h5 h6 h7 =>
        (h.2 command hc).resolve_left fun hno => hno ⟨h1, h2, h3, h4, h5, h6, h7⟩⟩,
      fun h => ⟨Decidable.or_iff_not_imp_left.2 h.room, fun command hc => by
        rw [Decidable.or_iff_not_imp_left, Decidable.not_not]
        rintro ⟨h1, h2, h3, h4, h5, h6, h7⟩
        exact h.ack command hc h1 h2 h3 h4 h5 h6 h7⟩⟩

/-- The arming service is not available. -/
def Env.unarmable (t : Int) : Env :=
  { Env.clock t with session := fun _ => { steady := t, nowNs := t * 1000000, armReady := false } }

/-- A FWD that waits 18 s for the arming service and is sent 19194 ms after its request. -/
def waitingRun : List (Callback × Env) := [
  (.mowerControl 1 1 0, .unarmable 6),
  standing 17990,
  (.mavrosState { connected := true, mode := "GUIDED" }, .clock 18000),
  (.mavrosSysStatus true true, .clock 18000),
  (.armResponse 2 (some (true, 0)), .clock 18010),
  (.mavrosState { connected := true, armed := true, mode := "GUIDED" }, .clock 18020),
  standing 18300, standing 18600, standing 18900, standing 19200, standing 19900]

def lateRun : List (Callback × Env) := [
  (.mavrosState { connected := true, mode := "HOLD" }, .clock 1),
  (.mavrosSysStatus true true, .clock 1),
  (.servoResponse 2 (some (true, 0)), .clock 2),
  (.highLevelStatus 2, .clock 3),
  (.modeResponse 1 (some true), .unarmable 4),
  (.mavrosState { connected := true, mode := "GUIDED" }, .unarmable 5)] ++ waitingRun

/-- The reply to an overdue caller 1. -/
def Effect.expires (env : Env) : Effect → Bool
  | mowerReply 1 false sent =>
    sent.bladeReplies.any fun r => r.header = 1 ∧ (env.blade 0).steady - r.startedMs > 20000
  | _ => false

theorem expired_forward {T : Transcript} {env : Env} {log : List Effect} (h : log.any (Effect.expires env) = true)
    (hasked : Asked T 1 .forward) : Expired T env .forward log := by
  obtain ⟨e, he, hexpires⟩ := List.any_eq_true.1 h
  unfold Effect.expires at hexpires
  split at hexpires
  · obtain ⟨r, hr, hlate⟩ := List.any_eq_true.1 hexpires
    obtain ⟨hheader, hlate⟩ : r.header = 1 ∧ (env.blade 0).steady - r.startedMs > 20000 := by simpa using hlate
    exact ⟨1, _, he, hasked, .inr ⟨r, hr, hheader, 0, hlate⟩⟩
  · cases hexpires

theorem lateRun_asked (c : Callback × Env) : Asked (transcript defaultLaunch lateRun ++ [.inl c]) 1 .forward := by
  refine ⟨1, 0, .unarmable 6, rfl, List.mem_append_left _ (Machine.mem_told _ ?_)⟩
  exact List.mem_append_right _ List.mem_cons_self

/-- `on_deadline` for a tick after the deadline. -/
theorem on_deadline_tick :
    Expired (transcript defaultLaunch lateRun ++ [.inl (.bladeTimer, .clock 20050)]) (.clock 20050) .forward
        ((Callback.bladeTimer.program (.clock 20050)).emitted (reach defaultLaunch lateRun)) ∧
      DeadlineKept (transcript defaultLaunch lateRun ++ [.inl (.bladeTimer, .clock 20050)]) (.clock 20050)
        ((Callback.bladeTimer.program (.clock 20050)).emitted (reach defaultLaunch lateRun))
        (reach defaultLaunch (lateRun ++ [(.bladeTimer, .clock 20050)])) :=
  ⟨expired_forward (by decide +kernel) (lateRun_asked _), on_deadline _ _ _ _ (by decide +kernel)⟩

/-- Not a reply with success. -/
def unserved : (Callback × Env) ⊕ Effect → Bool
  | .inr (.mowerReply _ success _) => !success
  | _ => true

def lateAck : Callback := .servoResponse 3 (some (true, 0))

/-- The ACK comes after the deadline and before a tick: the caller is refused, and FWD stays. -/
theorem late_ack_keeps_forward :
    ¬ DeadlineKept (transcript defaultLaunch lateRun ++ [.inl (lateAck, .clock 20100)]) (.clock 20100)
      ((lateAck.program (.clock 20100)).emitted (reach defaultLaunch lateRun))
      (reach defaultLaunch (lateRun ++ [(lateAck, .clock 20100)])) := by
  intro h
  have hstays : (reach defaultLaunch (lateRun ++ [(lateAck, .clock 20100)])).bladeControl.requested = .forward := by
    decide +kernel
  have hstarts : (reach defaultLaunch (lateRun ++ [(lateAck, .clock 20100)])).pendingBladeStarts = [] := by
    decide +kernel
  have hreplies : (reach defaultLaunch (lateRun ++ [(lateAck, .clock 20100)])).bladeReplies = [] := by decide +kernel
  rcases h .forward (by decide) (expired_forward (by decide +kernel) (lateRun_asked _)) hstays with
    ⟨p, hp, -⟩ | ⟨r, hr, -⟩ | ⟨header, sent, hmem, -⟩
  · rw [hstarts] at hp
    cases hp
  · rw [hreplies] at hr
    cases hr
  · have hnone : (transcript defaultLaunch lateRun ++ [.inl (lateAck, .clock 20100)] ++
        ((lateAck.program (.clock 20100)).emitted (reach defaultLaunch lateRun)).map .inr : Transcript).all
          unserved = true := by decide +kernel
    have hfalse := List.all_eq_true.1 hnone _ hmem
    cases hfalse

end Bridge
end MowgliMavros
