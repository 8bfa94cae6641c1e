import MowgliMavros.BladeRep

/-!
# The intention and the confirmed direction

The intention never changes without a new revision (`intent_apply`): this is what binds a caller to it.
An operation that neither hands out a command nor accepts an ACK confirms nothing new (`dims_apply`).
-/

namespace MowgliMavros
namespace BladeControl

/-- `s'` comes after `s`, and has the intention of `s` if it has its revision. -/
structure Intent (s s' : BladeControl) : Prop where
  revision : s.revision ≤ s'.revision
  requested : s'.revision = s.revision → s'.requested = s.requested

/-- `s'` has nothing in flight and nothing confirmed that `s` has not. -/
structure Dims (s s' : BladeControl) : Prop where
  config : s'.config = s.config
  flight : ∀ c, s'.inFlight = some c → s.inFlight = some c
  confirmed : s'.fault = false → s'.inFlight = none → s'.confirmed ≠ .unknown →
    s.fault = false ∧ s.inFlight = none ∧ s'.confirmed = s.confirmed

variable {s s' s'' : BladeControl}

theorem Intent.refl (s : BladeControl) : Intent s s := ⟨Nat.le_refl _, fun _ => rfl⟩

theorem Intent.bump (h : s.revision < s'.revision) : Intent s s' :=
  ⟨Nat.le_of_lt h, fun he => absurd he (Nat.ne_of_gt h)⟩

theorem Intent.trans (h : Intent s s') (h' : Intent s' s'') : Intent s s'' := by
  refine ⟨Nat.le_trans h.revision h'.revision, fun he => ?_⟩
  have hle := h.revision
  have hle' := h'.revision
  exact (h'.requested (by omega)).trans (h.requested (by omega))

theorem Dims.refl (s : BladeControl) : Dims s s := ⟨rfl, fun _ => id, fun hf hi _ => ⟨hf, hi, rfl⟩⟩

theorem Dims.trans (h : Dims s s') (h' : Dims s' s'') : Dims s s'' := by
  refine ⟨h'.config.trans h.config, fun c hc => h.flight c (h'.flight c hc), fun hf hi hc => ?_⟩
  obtain ⟨hf', hi', he⟩ := h'.confirmed hf hi hc
  obtain ⟨hf'', hi'', he'⟩ := h.confirmed hf' hi' (he ▸ hc)
  exact ⟨hf'', hi'', he.trans he'⟩

/-! ### The steps that only go down -/

theorem intent_forceOff (s : BladeControl) (now : Int) : Intent s (s.forceOff now) := .bump (Nat.lt_succ_self _)

theorem dims_forceOff (s : BladeControl) (now : Int) : Dims s (s.forceOff now) :=
  ⟨rfl, nofun, fun _ _ h => absurd rfl h⟩

theorem intent_fail (s : BladeControl) (sendNeutral : Bool) : Intent s (s.fail sendNeutral) :=
  .bump (Nat.lt_succ_self _)

theorem dims_fail (s : BladeControl) (sendNeutral : Bool) : Dims s (s.fail sendNeutral) := by
  refine ⟨rfl, fun c hc => ?_, nofun⟩
  simp only [fail] at hc
  split at hc
  · cases hc
  · exact hc

theorem intent_drop_fail (s : BladeControl) (sendNeutral : Bool) :
    Intent s ({ s with inFlight := none }.fail sendNeutral) :=
  .bump (Nat.lt_succ_self _)

theorem dims_drop_fail (s : BladeControl) (sendNeutral : Bool) :
    Dims s ({ s with inFlight := none }.fail sendNeutral) :=
  ⟨rfl, fun _ h => by simp [fail] at h, nofun⟩

theorem tick_intent_dims (s : BladeControl) (now : Int) : Intent s (s.tick now) ∧ Dims s (s.tick now) := by
  have hack : Intent s (s.ackDeadline now) ∧ Dims s (s.ackDeadline now) := by
    unfold ackDeadline
    split
    · split
      · exact ⟨intent_drop_fail _ _, dims_drop_fail _ _⟩
      · exact ⟨.refl _, .refl _⟩
    · exact ⟨.refl _, .refl _⟩
  have hstale : ∀ s : BladeControl, Intent s (s.staleDeadline now) ∧ Dims s (s.staleDeadline now) := by
    intro s; unfold staleDeadline
    split
    exacts [⟨intent_fail _ _, dims_fail _ _⟩, ⟨.refl _, .refl _⟩]
  have hstop : ∀ s : BladeControl, Intent s (s.stopDeadline now) ∧ Dims s (s.stopDeadline now) := by
    intro s; unfold stopDeadline
    split
    exacts [⟨intent_fail _ _, dims_fail _ _⟩, ⟨.refl _, .refl _⟩]
  exact ⟨(hack.1.trans (hstale _).1).trans (hstop _).1, (hack.2.trans (hstale _).2).trans (hstop _).2⟩

/-! ### The operations -/

theorem request_intent_dims (s : BladeControl) (direction : Direction) (now : Int) :
    Intent s (s.request direction now).1 ∧ Dims s (s.request direction now).1 := by
  rcases s.request_cases direction now with he | ⟨-, -, -, -, hcase⟩
  · rw [he]; exact ⟨.refl _, .refl _⟩
  rcases hcase with ⟨-, he⟩ | ⟨-, -, he⟩ | ⟨-, -, he⟩ | ⟨-, -, -, -, he⟩ <;> rw [he]
  · exact ⟨.bump (by simp only [forceOff]; omega), ⟨rfl, (fun _ h => by cases h), fun _ _ h => absurd rfl h⟩⟩
  · exact ⟨.bump (by simp only [forceOff]; omega), ⟨rfl, (fun _ h => by cases h), fun _ _ h => absurd rfl h⟩⟩
  · exact ⟨.bump (by simp), ⟨rfl, fun _ => id, fun hf hi _ => ⟨hf, hi, rfl⟩⟩⟩
  · exact ⟨.bump (by simp), ⟨rfl, fun _ => id, fun hf hi _ => ⟨hf, hi, rfl⟩⟩⟩

theorem connection_intent_dims (s : BladeControl) (connected : Bool) (now : Int) :
    Intent s (s.connection connected now) ∧ Dims s (s.connection connected now) := by
  rcases s.connection_cases connected now with ⟨-, he⟩ | ⟨-, he⟩ <;> rw [he]
  · exact ⟨.refl _, .refl _⟩
  · exact ⟨.bump (Nat.lt_succ_self _), ⟨rfl, nofun, fun _ _ h => absurd rfl h⟩⟩

theorem permission_intent_dims (s : BladeControl) (allowed : Bool) (now : Int) :
    Intent s (s.permission allowed now) ∧ Dims s (s.permission allowed now) := by
  unfold permission
  split
  · exact ⟨.bump (Nat.lt_succ_self _), ⟨rfl, nofun, fun _ _ h => absurd rfl h⟩⟩
  · exact ⟨⟨Nat.le_refl _, fun _ => rfl⟩, ⟨rfl, fun _ => id, fun hf hi _ => ⟨hf, hi, rfl⟩⟩⟩

theorem sample_intent_dims (s : BladeControl) (x : Sample) (now : Int) :
    Intent s (s.sample x now) ∧ Dims s (s.sample x now) := by
  obtain ⟨_, _, _, _, _, _, _, he⟩ := s.sample_frame x now
  rw [he]
  exact ⟨⟨Nat.le_refl _, fun _ => rfl⟩, ⟨rfl, fun _ => id, fun hf hi _ => ⟨hf, hi, rfl⟩⟩⟩

theorem output_intent_dims (s : BladeControl) (pwmValue now : Int) :
    Intent s (s.output pwmValue now) ∧ Dims s (s.output pwmValue now) := by
  rcases s.output_cases pwmValue now with he | he <;> rw [he]
  exacts [⟨.refl _, .refl _⟩, ⟨intent_forceOff _ _, dims_forceOff _ _⟩]

theorem next_intent (s : BladeControl) (now : Int) : Intent s (s.next now).1 := by
  have htick := (s.tick_intent_dims now).1
  rcases s.next_cases now with ⟨he, -⟩ | ⟨-, target, -, -, he⟩ <;> rw [he]
  · exact htick
  · exact htick.trans ⟨Nat.le_refl _, fun _ => rfl⟩

theorem complete_intent (s : BladeControl) (token : Nat) (accepted : Bool) (now : Int) :
    Intent s (s.complete token accepted now) := by
  rcases s.complete_cases token accepted now with ⟨he, -⟩ | ⟨c, -, -, ⟨-, he⟩ | ⟨-, -, he⟩ | ⟨-, -, he⟩⟩ <;> rw [he]
  · exact .refl _
  · exact intent_drop_fail _ _
  · exact ⟨Nat.le_refl _, fun _ => rfl⟩
  · exact ⟨Nat.le_refl _, fun _ => rfl⟩

theorem intent_apply (s : BladeControl) (op : Op) : Intent s (s.apply op) := by
  cases op with
  | connection connected now => exact (s.connection_intent_dims connected now).1
  | permission allowed now => exact (s.permission_intent_dims allowed now).1
  | request direction now => exact (s.request_intent_dims direction now).1
  | forceOff now => exact intent_forceOff s now
  | serviceTimeout now => exact .bump (Nat.lt_succ_self _)
  | sample x now => exact (s.sample_intent_dims x now).1
  | tick now => exact (s.tick_intent_dims now).1
  | next now => exact next_intent s now
  | complete token accepted now => exact complete_intent s token accepted now
  | output pwmValue now => exact (s.output_intent_dims pwmValue now).1

/-- The operations that neither hand out a command nor accept an ACK. -/
def Op.Inward : Op → Prop
  | next _ => False
  | complete _ accepted _ => accepted = false
  | _ => True

theorem dims_apply (s : BladeControl) {op : Op} (hop : op.Inward) : Dims s (s.apply op) := by
  cases op with
  | connection connected now => exact (s.connection_intent_dims connected now).2
  | permission allowed now => exact (s.permission_intent_dims allowed now).2
  | request direction now => exact (s.request_intent_dims direction now).2
  | forceOff now => exact dims_forceOff s now
  | serviceTimeout now => exact ⟨rfl, nofun, nofun⟩
  | sample x now => exact (s.sample_intent_dims x now).2
  | tick now => exact (s.tick_intent_dims now).2
  | next now => exact hop.elim
  | complete token accepted now =>
    obtain rfl : accepted = false := hop
    show Dims s (s.complete token false now)
    rcases s.complete_cases token false now with ⟨he, -⟩ | ⟨c, -, -, ⟨-, he⟩ | ⟨h, -⟩ | ⟨h, -⟩⟩
    · rw [he]; exact .refl _
    · rw [he]; exact dims_drop_fail _ _
    · cases h
    · cases h
  | output pwmValue now => exact (s.output_intent_dims pwmValue now).2

/-- What `next` hands out is in flight, with the PWM of its direction. -/
theorem next_flight {now : Int} {c : Command} (h : (s.next now).2 = some c) :
    (s.next now).1.inFlight = some c ∧ c.pwm = (s.next now).1.pwm c.direction ∧ c.channel = s.channel := by
  have hconfig := (s.tick_intent_dims now).2.config
  rcases s.next_cases now with ⟨he, -⟩ | ⟨-, target, -, -, he⟩ <;> rw [he] at h ⊢
  · cases h
  · cases h
    refine ⟨rfl, rfl, ?_⟩
    show (s.tick now).config.1.channel = s.config.1.channel
    rw [hconfig]

theorem next_dims {now : Int} (h : (s.next now).2 = none) : Dims s (s.next now).1 := by
  rcases s.next_cases now with ⟨he, -⟩ | ⟨-, target, -, -, he⟩ <;> rw [he] at h ⊢
  · exact (s.tick_intent_dims now).2
  · cases h

/-! ### The intention that lapses -/

/-- The intention stays as it is, and nothing gets satisfied, or it lapses. -/
def Lapses (s s' : BladeControl) : Prop :=
  s'.requested = .off ∨
    s'.requested = s.requested ∧ s'.revision = s.revision ∧ (s'.satisfied = true → s.satisfied = true)

theorem Lapses.refl (s : BladeControl) : Lapses s s := .inr ⟨rfl, rfl, id⟩

theorem Lapses.trans (h : Lapses s s') (h' : Lapses s' s'') : Lapses s s'' := by
  rcases h' with h' | ⟨hr', hv', hs'⟩
  · exact .inl h'
  rcases h with h | ⟨hr, hv, hs⟩
  · exact .inl (hr'.trans h)
  · exact .inr ⟨hr'.trans hr, hv'.trans hv, hs ∘ hs'⟩

theorem lapses_tick (s : BladeControl) (now : Int) : Lapses s (s.tick now) := by
  rcases s.tick_cases now with he | ⟨_, _, _, _, he, -⟩ <;> rw [he]
  exacts [.refl s, .inl rfl]

theorem lapses_next (s : BladeControl) (now : Int) : Lapses s (s.next now).1 := by
  rcases s.next_cases now with ⟨he, -⟩ | ⟨-, target, -, -, he⟩ <;> rw [he]
  · exact lapses_tick s now
  · refine (lapses_tick s now).trans (.inr ⟨rfl, rfl, fun h => ?_⟩)
    simp [satisfied, BladeControl.emit] at h

theorem lapses_apply (s : BladeControl) (op : Op) (hop : op.Inward) (hrequest : ∀ d now, op ≠ .request d now) :
    Lapses s (s.apply op) := by
  cases op with
  | connection connected now =>
    rcases s.connection_cases connected now with ⟨-, he⟩ | ⟨-, he⟩ <;> rw [apply, he]
    exacts [.refl s, .inl rfl]
  | permission allowed now =>
    simp only [apply, permission]
    split
    · exact .inl rfl
    · exact .inr ⟨rfl, rfl, id⟩
  | request direction now => exact absurd rfl (hrequest direction now)
  | forceOff now => exact .inl rfl
  | serviceTimeout now => exact .inl rfl
  | sample x now =>
    obtain ⟨_, _, _, _, _, _, _, he⟩ := s.sample_frame x now
    rw [apply, he]
    exact .inr ⟨rfl, rfl, id⟩
  | tick now => exact lapses_tick s now
  | next now => exact lapses_next s now
  | complete token accepted now =>
    obtain rfl : accepted = false := hop
    rw [apply]
    rcases s.complete_cases token false now with ⟨he, -⟩ | ⟨c, -, -, ⟨-, he⟩ | ⟨h, -⟩ | ⟨h, -⟩⟩
    · rw [he]; exact .refl s
    · rw [he]; exact .inl rfl
    · cases h
    · cases h
  | output pwmValue now =>
    rcases s.output_cases pwmValue now with he | he <;> rw [apply, he]
    exacts [.refl s, .inl rfl]

/-- Without a link, without permission and with a failure the intention is OFF. -/
def Idle (s : BladeControl) : Prop := s.connected = false ∨ s.allowed = false ∨ s.fault = true → s.requested = .off

theorem Idle.tick (h : Idle s) (now : Int) : Idle (s.tick now) := by
  rcases s.tick_cases now with he | ⟨_, _, _, _, he, -⟩
  · rw [he]; exact h
  · rw [he]; exact fun _ => rfl

theorem Idle.next (h : Idle s) (now : Int) : Idle (s.next now).1 := by
  rcases s.next_cases now with ⟨he, -⟩ | ⟨-, target, -, -, he⟩ <;> rw [he]
  · exact h.tick now
  · exact h.tick now

theorem Idle.permission (h : Idle s) (allowed : Bool) (now : Int) : Idle (s.permission allowed now) := by
  unfold BladeControl.permission
  split
  · exact fun _ => rfl
  · rename_i hedge
    intro hi
    refine h ?_
    rcases hi with hi | hi | hi
    · exact .inl hi
    · refine .inr (.inl ?_)
      by_contra ha
      have hi' : allowed = false := hi
      exact hedge ⟨by simpa using ha, by simp [hi']⟩
    · exact .inr (.inr hi)

/-- The intention turns to an ON only with the permission. -/
theorem request_allowed {direction : Direction} {now : Int}
    (hmoved : (s.request direction now).1.requested ≠ s.requested) (hon : direction ≠ .off) : s.allowed = true := by
  by_contra ha
  refine hmoved ?_
  unfold request
  rw [if_pos (.inr (.inr ⟨hon, .inl ha⟩))]

theorem Idle.request (h : Idle s) (direction : Direction) (now : Int) : Idle (s.request direction now).1 := by
  rcases s.request_cases direction now with he | ⟨hf, hc, -, hne, hcase⟩
  · rw [he]; exact h
  · rcases hcase with ⟨-, he⟩ | ⟨hon, -, he⟩ | ⟨hon, -, he⟩ | ⟨hon, -, -, -, he⟩
    · rw [he]; exact fun _ => rfl
    all_goals
      have hallowed := request_allowed (by rw [he]; exact hne) hon
      rw [he]
      intro hi
      simp [forceOff, hc, hallowed, hf] at hi

theorem Idle.apply (h : Idle s) (op : Op) : Idle (s.apply op) := by
  cases op with
  | connection connected now =>
    rcases s.connection_cases connected now with ⟨-, he⟩ | ⟨-, he⟩ <;> rw [BladeControl.apply, he]
    exacts [h, fun _ => rfl]
  | permission allowed now => exact h.permission allowed now
  | request direction now => exact h.request direction now
  | forceOff now => exact fun _ => rfl
  | serviceTimeout now => exact fun _ => rfl
  | sample x now =>
    obtain ⟨_, _, _, _, _, _, _, he⟩ := s.sample_frame x now
    rw [BladeControl.apply, he]
    exact h
  | tick now => exact h.tick now
  | next now => exact h.next now
  | complete token accepted now =>
    rcases s.complete_cases token accepted now with ⟨he, -⟩ | ⟨c, -, -, ⟨-, he⟩ | ⟨-, -, he⟩ | ⟨-, -, he⟩⟩ <;>
      rw [BladeControl.apply, he]
    exacts [h, fun _ => rfl, h, h]
  | output pwmValue now =>
    rcases s.output_cases pwmValue now with he | he <;> rw [BladeControl.apply, he]
    exacts [h, fun _ => rfl]

/-! ### What a request answers -/

theorem satisfied_iff : s.satisfied = true ↔ s.Settled s.requested := by
  simp only [satisfied, Settled, Bool.and_eq_true, Bool.not_eq_true', beq_iff_eq, Option.isNone_iff_eq_none,
    true_and]
  tauto

/-- A confirmed request finds its direction settled. -/
theorem request_confirmed {direction : Direction} {now : Int} (h : (s.request direction now).2 = .confirmed) :
    (s.request direction now).1 = s ∧ s.Settled direction := by
  unfold request at h ⊢
  dsimp only at h ⊢
  split_ifs at h ⊢
  any_goals cases h
  rename_i hsame hsatisfied
  exact ⟨rfl, hsame ▸ satisfied_iff.1 hsatisfied⟩

/-- A pending request is the intention. -/
theorem request_pending {direction : Direction} {now : Int} (h : (s.request direction now).2 = .pending) :
    (s.request direction now).1.requested = direction := by
  unfold request at h ⊢
  dsimp only at h ⊢
  split_ifs at h ⊢
  any_goals cases h
  · exact Eq.symm ‹_›
  · exact Eq.symm ‹_›
  all_goals rfl

theorem request_rejected {direction : Direction} {now : Int} (h : (s.request direction now).2 = .rejected) :
    (s.request direction now).1 = s := by
  unfold request at h ⊢
  dsimp only at h ⊢
  split_ifs at h ⊢
  any_goals cases h
  all_goals rfl

/-- A pending ON joins the intention that waits, or is a new one that waits. -/
theorem request_waits {direction : Direction} {now : Int} (hon : direction ≠ .off)
    (h : (s.request direction now).2 = .pending) :
    (s.request direction now).1.satisfied = false ∧ (s.requested = direction → (s.request direction now).1 = s) := by
  rcases s.request_cases direction now with he | ⟨-, -, -, hne, hcase⟩
  · refine ⟨?_, fun _ => he⟩
    have hsame : direction = s.requested := by rw [← request_pending h, he]
    rw [he]
    by_contra hs
    rw [Bool.not_eq_false] at hs
    unfold request at h
    rw [if_pos hsame, if_pos hs] at h
    split_ifs at h
  refine ⟨?_, fun he => absurd he.symm hne⟩
  rcases hcase with ⟨hoff, -⟩ | ⟨-, -, he⟩ | ⟨-, -, he⟩ | ⟨-, hc, -, -, he⟩
  · exact absurd hoff hon
  · rw [he]; simp [satisfied]
  · rw [he]; simp [satisfied]
  · rw [he]; simp [satisfied, hc, beq_eq_false_iff_ne, hon.symm]

end BladeControl
end MowgliMavros
