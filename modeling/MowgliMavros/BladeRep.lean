import MowgliMavros.BladeRun

/-!
# The representation invariant of the blade controller

`Rep last acked s` ties the fields of a reachable state to the last command `next` returned and to
the last one whose acceptance was applied. Every way an ON can end goes through `forceOff`, whose
result satisfies `Rep` whatever came before (`Rep.forceOff`), or through `fail` (`Rep.fail`,
`Rep.drop_fail`), which must queue the neutral when the last command returned is an ON.
-/

namespace MowgliMavros
namespace BladeControl

/-- Nothing is under way and `d` is both requested and confirmed. -/
def Settled (s : BladeControl) (d : Direction) : Prop :=
  s.inFlight = none ∧ s.queuedNeutral = false ∧ s.fault = false ∧ s.requested = d ∧ s.confirmed = d

def Direction.shown : Direction → State
  | .off => .off
  | .forward => .fwd
  | .reverse => .rev
  | .unknown => .transitionToOff

structure Rep (last acked : Option Command) (s : BladeControl) : Prop where
  known : s.requested ≠ .unknown
  idle : s.fault = true ∨ s.connected = false → s.requested = .off
  flight : ∀ c, s.inFlight = some c → last = some c
  /-- An ON in flight is what is wanted, after a confirmed neutral. -/
  drive : ∀ c, s.inFlight = some c → c.direction ≠ .off →
    c.direction = s.requested ∧ s.confirmed = .off ∧ s.queuedNeutral = false ∧ s.fault = false
  /-- The last command returned is an ON: it is still wanted, or the neutral is queued. -/
  running : ∀ c, last = some c → c.direction ≠ .off → s.queuedNeutral = false →
    s.requested = c.direction ∧ s.fault = false ∧
      (s.inFlight = some c ∨ s.inFlight = none ∧ s.confirmed = c.direction)
  settled : s.fault = false → s.inFlight = none → s.confirmed ≠ .unknown →
    ∃ c, last = some c ∧ acked = some c ∧ c.direction = s.confirmed
  /-- An OFF intent without a failure is confirmed or under way. -/
  covered : s.fault = false → s.requested = .off →
    s.confirmed = .off ∨ s.queuedNeutral = true ∨ s.neutralPending = true
  doubled : s.fault = false → s.inFlight.isSome → s.queuedNeutral = true → s.requested ≠ .off
  failed : s.state = .failed ↔ s.fault = true
  shown : ∀ d, d ≠ .unknown → (s.state = d.shown ↔ s.Settled d)
  waiting : s.state = .waitStopBeforeReverse →
    s.requested ≠ .off ∧ s.confirmed = .off ∧ s.fault = false

variable {last acked : Option Command} {s s' : BladeControl}

theorem Direction.shown_ne_failed {d : Direction} : State.failed ≠ d.shown := by cases d <;> decide

theorem Direction.shown_ne_waiting {d : Direction} : State.waitStopBeforeReverse ≠ d.shown := by
  cases d <;> decide

theorem Direction.shown_ne_transition {d : Direction} (h : d ≠ .unknown) :
    State.transitionToOff ≠ d.shown := by cases d <;> simp_all [Direction.shown]

theorem Direction.shown_inj {d d' : Direction} (h : d.shown = d'.shown) : d = d' := by
  cases d <;> cases d' <;> simp_all [Direction.shown]

theorem Direction.shown_of_on {d : Direction} (hon : d ≠ .off) (hknown : d ≠ .unknown) :
    (if d = .forward then State.fwd else .rev) = d.shown := by
  cases d <;> simp_all [Direction.shown]

namespace Rep

theorem congr (h : Rep last acked s) (hr : s'.requested = s.requested) (hc : s'.confirmed = s.confirmed)
    (hl : s'.connected = s.connected) (hf : s'.fault = s.fault)
    (hq : s'.queuedNeutral = s.queuedNeutral) (hi : s'.inFlight = s.inFlight)
    (hs : s'.state = s.state) : Rep last acked s' := by
  obtain ⟨known, idle, flight, drive, running, settled, covered, doubled, failed, shown, waiting⟩ := h
  refine ⟨?_, ?_, ?_, ?_, ?_, ?_, ?_, ?_, ?_, ?_, ?_⟩ <;>
    simp only [Settled, neutralPending, hr, hc, hl, hf, hq, hi, hs]
  exacts [known, idle, flight, drive, running, settled, covered, doubled, failed, shown, waiting]

theorem init (config : ValidConfig) : Rep none none { config } := by
  refine ⟨by simp, by simp, by simp, by simp, by simp, by simp, by simp, by simp, by simp, ?_, by simp⟩
  intro d hd
  exact ⟨fun h => absurd h (Direction.shown_ne_transition hd), fun h => by simp [Settled] at h⟩

/-- A latched failure: only a neutral may be in flight, and an ON returned last has its neutral
queued. -/
theorem of_failed (hf : s.fault = true) (hr : s.requested = .off) (hs : s.state = .failed)
    (hfl : ∀ c, s.inFlight = some c → last = some c ∧ c.direction = .off)
    (hrun : ∀ c, last = some c → c.direction ≠ .off → s.queuedNeutral = true) : Rep last acked s := by
  refine ⟨by simp [hr], fun _ => hr, fun c hc => (hfl c hc).1, fun c hc hd => absurd (hfl c hc).2 hd,
    fun c hc hd hq => ?_, by simp [hf], by simp [hf], by simp [hf], by simp [hf, hs], fun d _ => ?_,
    by simp [hs]⟩
  · rw [hrun c hc hd] at hq; cases hq
  · rw [hs]
    exact ⟨fun h => absurd h Direction.shown_ne_failed, fun h => by rw [h.2.2.1] at hf; cases hf⟩

theorem forceOff (now : Int) : Rep last acked (s.forceOff now) := by
  refine ⟨?_, ?_, ?_, ?_, ?_, ?_, ?_, ?_, ?_, fun d hd => ?_, ?_⟩ <;>
    simp [BladeControl.forceOff, Settled]
  exact Direction.shown_ne_transition hd

theorem serviceTimeout (now : Int) : Rep last acked (s.serviceTimeout now) :=
  of_failed rfl rfl rfl (by simp [BladeControl.serviceTimeout, BladeControl.forceOff]) fun _ _ _ => rfl

/-- `fail` must send the neutral, unless the last command returned was one or it is queued already. -/
theorem fail (h : Rep last acked s) {sendNeutral : Bool}
    (hsend : sendNeutral = true ∨ ∀ c, last = some c → c.direction ≠ .off → s.queuedNeutral = true) :
    Rep last acked (s.fail sendNeutral) := by
  refine of_failed rfl rfl rfl (fun c hc => ?_) (fun c hc hd => ?_)
  · simp only [BladeControl.fail] at hc
    split at hc
    · cases hc
    · rename_i hdrop
      refine ⟨h.flight c hc, ?_⟩
      simpa [neutralPending, hc] using hdrop
  · simp only [BladeControl.fail]
    cases hq : s.queuedNeutral with
    | true => rfl
    | false =>
      rcases hsend with rfl | hsend
      · obtain ⟨-, -, hin | ⟨hin, -⟩⟩ := h.running c hc hd hq
        · simp [neutralPending, hin, hd]
        · simp [neutralPending, hin]
      · rw [hsend c hc hd] at hq; cases hq

theorem drop_fail (h : Rep last acked s) {c : Command} (hc : s.inFlight = some c) :
    Rep last acked ({ s with inFlight := none }.fail (c.direction != Direction.off)) := by
  refine of_failed rfl rfl rfl (by simp [BladeControl.fail]) fun c' hc' hd => ?_
  obtain rfl : c = c' := Option.some.inj ((h.flight c hc).symm.trans hc')
  simp [BladeControl.fail, neutralPending, hd]

end Rep

/-! ### What each operation can do -/

/-- A new source or an acquisition gap: the stop proof starts over. -/
def Broken (s : BladeControl) (x : Sample) (now : Int) : Prop :=
  s.sampleSource ≠ x.source ∨ s.sampleReceipt ≥ 0 ∧ now - s.sampleReceipt > s.config.1.freshnessMs

def Counts (s : BladeControl) (x : Sample) (now : Int) : Prop :=
  x.rpm = 0 ∧ now ≥ s.neutralSince ∧ s.confirmed = .off

instance (s : BladeControl) (x : Sample) (now : Int) : Decidable (s.Broken x now) :=
  inferInstanceAs (Decidable (_ ∨ _))

instance (s : BladeControl) (x : Sample) (now : Int) : Decidable (s.Counts x now) :=
  inferInstanceAs (Decidable (_ ∧ _))

theorem sample_eq {s : BladeControl} {x : Sample} (h : ¬ s.Ignores x) (now : Int) :
    s.sample x now = { s with
      sampleSource := x.source, sampleStamp := x.stamp, sampleCount := x.count, sampleReceipt := now,
      sampleZero := x.rpm = 0,
      stopSince := if s.Counts x now then if s.Broken x now ∨ s.stopSince < 0 then now else s.stopSince else -1,
      stopSamples := if s.Counts x now then ((if s.Broken x now then 0 else s.stopSamples) + 1) % 2 ^ 32
        else 0 } := by
  unfold sample restartStop
  rw [if_neg h]
  by_cases hsrc : s.sampleSource = x.source <;>
    by_cases hgap : s.sampleReceipt ≥ 0 ∧ now - s.sampleReceipt > s.config.1.freshnessMs <;>
    by_cases hc : s.Counts x now <;>
    simp [Broken, hsrc, hgap, hc] <;> simp_all [Counts]

theorem sample_frame (s : BladeControl) (x : Sample) (now : Int) :
    ∃ source stamp count receipt zero since samples, s.sample x now =
      { s with sampleSource := source, sampleStamp := stamp, sampleCount := count,
               sampleReceipt := receipt, sampleZero := zero, stopSince := since, stopSamples := samples } := by
  by_cases h : s.Ignores x
  · exact ⟨_, _, _, _, _, _, _, by rw [sample, if_pos h]⟩
  · exact ⟨_, _, _, _, _, _, _, sample_eq h now⟩

theorem connection_cases (s : BladeControl) (connected : Bool) (now : Int) :
    connected = s.connected ∧ s.connection connected now = s ∨
      connected ≠ s.connected ∧ s.connection connected now =
        { s with connected := connected, sampleStamp := 0, sampleSource := -1,
                 sampleReceipt := -1 }.forceOff now := by
  unfold connection
  split_ifs with h
  · exact .inr ⟨h, rfl⟩
  · exact .inl ⟨not_not.1 h, rfl⟩

theorem output_cases (s : BladeControl) (pwmValue now : Int) :
    s.output pwmValue now = s ∨ s.output pwmValue now = s.forceOff now := by
  unfold output; split_ifs <;> simp

/-- `s'` is `s` with a failure latched: the ON intent is gone, a queued neutral stays queued. -/
def Latched (s s' : BladeControl) : Prop :=
  ∃ inFlight token revision queued,
    s' = { s with
      inFlight := inFlight, token := token, revision := revision, fault := true, requested := .off,
      state := .failed, queuedNeutral := queued } ∧
    (inFlight = none ∨ inFlight = s.inFlight) ∧ (s.queuedNeutral = true → queued = true)

theorem fail_latched (s : BladeControl) (sendNeutral : Bool) : s.Latched (s.fail sendNeutral) := by
  refine ⟨_, _, _, _, rfl, ?_, fun h => by simp [h]⟩
  split
  · exact .inl rfl
  · exact .inr rfl

theorem drop_fail_latched (s : BladeControl) (sendNeutral : Bool) :
    s.Latched ({ s with inFlight := none }.fail sendNeutral) :=
  ⟨_, _, _, _, rfl, by simp, fun h => by simp [h]⟩

theorem Latched.trans {s₁ s₂ s₃ : BladeControl} (h₁ : s₁.Latched s₂) (h₂ : s₂.Latched s₃) : s₁.Latched s₃ := by
  obtain ⟨_, _, _, _, rfl, hi₁, hq₁⟩ := h₁
  obtain ⟨_, _, _, _, rfl, hi₂, hq₂⟩ := h₂
  exact ⟨_, _, _, _, rfl, hi₂.elim .inl fun h => h ▸ hi₁, hq₂ ∘ hq₁⟩

theorem tick_cases (s : BladeControl) (now : Int) : s.tick now = s ∨ s.Latched (s.tick now) := by
  have h₁ : s.ackDeadline now = s ∨ s.Latched (s.ackDeadline now) := by
    unfold ackDeadline
    cases s.inFlight with
    | none => exact .inl rfl
    | some c =>
      dsimp only
      split_ifs
      · exact .inr (drop_fail_latched s _)
      · exact .inl rfl
  have h₂ : ∀ s : BladeControl, s.staleDeadline now = s ∨ s.Latched (s.staleDeadline now) := by
    intro s; unfold staleDeadline
    split_ifs
    · exact .inr (fail_latched s true)
    · exact .inl rfl
  have h₃ : ∀ s : BladeControl, s.stopDeadline now = s ∨ s.Latched (s.stopDeadline now) := by
    intro s; unfold stopDeadline
    split_ifs
    · exact .inr (fail_latched s false)
    · exact .inl rfl
  have join : ∀ {a b c : BladeControl}, (b = a ∨ a.Latched b) → (c = b ∨ b.Latched c) → c = a ∨ a.Latched c := by
    rintro a b c (rfl | hab) (rfl | hbc)
    exacts [.inl rfl, .inr hbc, .inr hab, .inr (hab.trans hbc)]
  exact join (join h₁ (h₂ _)) (h₃ _)

/-- What `request` can do: nothing, or (without a failure, connected, for a new direction) an OFF,
an ON that first needs a neutral, or an ON that only waits for the stop proof. -/
theorem request_cases (s : BladeControl) (direction : Direction) (now : Int) :
    (s.request direction now).1 = s ∨
      s.fault = false ∧ s.connected = true ∧ direction ≠ .unknown ∧ direction ≠ s.requested ∧
        (direction = .off ∧ (s.request direction now).1 =
            { s with revision := s.revision + 1, requested := direction }.forceOff now ∨
          direction ≠ .off ∧ s.inFlight.any (·.direction != .off) ∧ (s.request direction now).1 =
            { { s with revision := s.revision + 1, requested := direction }.forceOff now with
              requested := direction, queuedNeutral := true, state := .transitionToOff } ∨
          direction ≠ .off ∧ ¬ s.inFlight.any (·.direction != .off) ∧ (s.request direction now).1 =
            { s with revision := s.revision + 1, requested := direction, queuedNeutral := true,
                     state := .transitionToOff } ∨
          direction ≠ .off ∧ s.confirmed = .off ∧ s.inFlight = none ∧ s.queuedNeutral = false ∧
            (s.request direction now).1 = { s with
              revision := s.revision + 1, requested := direction, state := .waitStopBeforeReverse,
              waitSince := now }) := by
  unfold request
  split
  · exact .inl rfl
  rename_i hrej
  split
  · exact .inl rfl
  rename_i hfault
  split
  · exact .inl rfl
  rename_i hsame
  refine .inr ⟨by simpa using hfault, ?_, fun h => hrej (.inr (.inl h)), hsame, ?_⟩
  · by_contra h; exact hrej (.inl h)
  by_cases hoff : direction = .off
  · exact .inl ⟨hoff, by simp [hoff]⟩
  by_cases hbusy : s.confirmed ≠ .off ∨ s.inFlight.isSome ∨ s.queuedNeutral
  · by_cases hdrive : s.inFlight.any (·.direction != .off)
    · exact .inr (.inl ⟨hoff, hdrive, by simp [hoff, hbusy, hdrive]⟩)
    · exact .inr (.inr (.inl ⟨hoff, hdrive, by simp [hoff, hbusy, hdrive]⟩))
  · refine .inr (.inr (.inr ⟨hoff, ?_, ?_, ?_, by simp [hoff, hbusy]⟩)) <;> simp_all

/-- `next` may return a command for `target`: the queued neutral, or the requested ON after a
confirmed neutral and the stop proof. -/
def Grants (s : BladeControl) (target : Direction) (now : Int) : Prop :=
  s.queuedNeutral = true ∧ target = .off ∨
    s.queuedNeutral = false ∧ s.fault = false ∧ s.connected = true ∧ s.allowed = true ∧
      s.requested ≠ .off ∧ s.confirmed = .off ∧ s.Stopped now ∧ target = s.requested

theorem clearNeutral_eq {s : BladeControl} (h : s.queuedNeutral = false) :
    { s with queuedNeutral := false } = s := by
  cases s; cases h; rfl

theorem next_cases (s : BladeControl) (now : Int) :
    s.next now = (s.tick now, none) ∧
        ((s.tick now).inFlight.isSome = true ∨ (s.tick now).queuedNeutral = false) ∨
      (s.tick now).inFlight = none ∧ ∃ target, target ≠ .unknown ∧ (s.tick now).Grants target now ∧
        s.next now =
          (({ s.tick now with queuedNeutral := false }.emit target now).1,
            some ({ s.tick now with queuedNeutral := false }.emit target now).2) := by
  unfold next
  generalize s.tick now = s₁
  by_cases hi : s₁.inFlight.isSome
  · exact .inl ⟨by simp [hi], .inl hi⟩
  have hnone : s₁.inFlight = none := by simpa using hi
  by_cases hq : s₁.queuedNeutral = true
  · exact .inr ⟨hnone, .off, by decide, .inl ⟨hq, rfl⟩, by simp [hi, hq]⟩
  rw [Bool.not_eq_true] at hq
  by_cases hon : ¬ s₁.fault ∧ s₁.connected ∧ s₁.allowed ∧ s₁.requested ≠ .off ∧ s₁.confirmed = .off ∧
      s₁.Stopped now
  · by_cases hu : s₁.requested = .unknown
    · exact .inl ⟨by simp [hi, hq, hu], .inr hq⟩
    · obtain ⟨hf, hc, ha, hr, hconf, hstop⟩ := hon
      refine .inr ⟨hnone, s₁.requested, hu, .inr ⟨hq, by simpa using hf, hc, ha, hr, hconf, hstop, rfl⟩, ?_⟩
      rw [clearNeutral_eq hq]; simp [hi, hq, hu, hf, hc, ha, hr, hconf, hstop]
  · exact .inl ⟨by simp only [hi, hq, hon]; simp, .inr hq⟩

/-- What `complete` can do: nothing for a foreign token; else the refusal, the accepted neutral or the
accepted ON of the command in flight. -/
theorem complete_cases (s : BladeControl) (token : Nat) (accepted : Bool) (now : Int) :
    (s.complete token accepted now = s ∧ ∀ c, s.inFlight = some c → c.token ≠ token) ∨
      ∃ c, s.inFlight = some c ∧ c.token = token ∧
        (accepted = false ∧ s.complete token accepted now =
            { s with inFlight := none }.fail (c.direction != Direction.off) ∨
          accepted = true ∧ c.direction = .off ∧ s.complete token accepted now = { s with
            inFlight := none, confirmed := .off, neutralSince := now, stopSince := -1, stopSamples := 0,
            waitSince := now,
            state := if s.fault then .failed else if s.requested = .off then .off else .waitStopBeforeReverse } ∨
          accepted = true ∧ c.direction ≠ .off ∧ s.complete token accepted now = { s with
            inFlight := none, confirmed := c.direction,
            state := if s.requested = c.direction ∧ ¬ s.queuedNeutral then
                if c.direction = .forward then .fwd else .rev else s.state }) := by
  unfold complete
  cases hc : s.inFlight with
  | none => exact .inl ⟨rfl, by simp⟩
  | some c =>
    by_cases htok : c.token = token
    · refine .inr ⟨c, rfl, htok, ?_⟩
      cases accepted with
      | false => exact .inl ⟨rfl, by simp [htok]⟩
      | true =>
        by_cases hoff : c.direction = .off
        · exact .inr (.inl ⟨rfl, hoff, by simp [htok, hoff]⟩)
        · refine .inr (.inr ⟨rfl, hoff, ?_⟩)
          by_cases hrun : s.requested = c.direction ∧ ¬ s.queuedNeutral
          · simp [htok, hoff, hrun]
          · rw [if_neg hrun]; simp [htok, hoff]; intro h h'; exact absurd ⟨h, by simp [h']⟩ hrun
    · exact .inl ⟨by simp [htok], fun c' hc' => by cases hc'; exact htok⟩

namespace Rep

theorem connection (h : Rep last acked s) (connected : Bool) (now : Int) :
    Rep last acked (s.connection connected now) := by
  rcases connection_cases s connected now with ⟨-, he⟩ | ⟨-, he⟩ <;> rw [he]
  exacts [h, forceOff now]

theorem permission (h : Rep last acked s) (allowed : Bool) (now : Int) :
    Rep last acked (s.permission allowed now) := by
  unfold BladeControl.permission
  split_ifs
  · exact (forceOff (s := s) now).congr rfl rfl rfl rfl rfl rfl rfl
  · exact h.congr rfl rfl rfl rfl rfl rfl rfl

theorem sample (h : Rep last acked s) (x : Sample) (now : Int) : Rep last acked (s.sample x now) := by
  obtain ⟨_, _, _, _, _, _, _, he⟩ := sample_frame s x now
  rw [he]
  exact h.congr rfl rfl rfl rfl rfl rfl rfl

theorem output (h : Rep last acked s) (pwmValue now : Int) : Rep last acked (s.output pwmValue now) := by
  rcases output_cases s pwmValue now with he | he <;> rw [he]
  exacts [h, forceOff now]

theorem request (h : Rep last acked s) (direction : Direction) (now : Int) :
    Rep last acked (s.request direction now).1 := by
  rcases request_cases s direction now with he | ⟨hf, hconn, hknown, -, hcase⟩
  · rw [he]; exact h
  rcases hcase with ⟨-, he⟩ | ⟨hon, -, he⟩ | ⟨hon, hnd, he⟩ | ⟨hon, hc, hi, hq, he⟩ <;> rw [he]
  · exact forceOff now
  · refine ⟨hknown, by simp [BladeControl.forceOff, hconn], by simp [BladeControl.forceOff],
      by simp [BladeControl.forceOff], by simp, by simp [BladeControl.forceOff], fun _ _ => .inr (.inl rfl),
      by simp [BladeControl.forceOff], by simp [BladeControl.forceOff], fun d hd => ?_, by simp⟩
    exact ⟨fun h => absurd h (Direction.shown_ne_transition hd), fun h => by simp [Settled] at h⟩
  · refine ⟨hknown, fun hidle => ?_, h.flight, fun c hin hd => ?_, by simp, fun _ hin hc => h.settled hf hin hc,
      fun _ _ => .inr (.inl rfl), fun _ _ _ => hon, ⟨by simp, fun h => by rw [hf] at h; cases h⟩,
      fun d hd => ?_, by simp⟩
    · rcases hidle with hidle | hidle
      · rw [hf] at hidle; cases hidle
      · rw [hconn] at hidle; cases hidle
    · exact absurd (by simp [show s.inFlight = some c from hin, hd]) hnd
    · exact ⟨fun h => absurd h (Direction.shown_ne_transition hd), fun h => by simp [Settled] at h⟩
  · refine ⟨hknown, fun hidle => ?_, h.flight, fun c hin => ?_, fun c hl hd _ => ?_,
      fun _ hin hc => h.settled hf hin hc, fun _ _ => .inl hc, fun _ _ _ => hon,
      ⟨by simp, fun h => by rw [hf] at h; cases h⟩, fun d hd => ?_, fun _ => ⟨hon, hc, hf⟩⟩
    · rcases hidle with hidle | hidle
      · rw [hf] at hidle; cases hidle
      · rw [hconn] at hidle; cases hidle
    · rw [show s.inFlight = none from hi] at hin; cases hin
    · obtain ⟨-, -, hr | ⟨-, hr⟩⟩ := h.running c hl hd hq
      · rw [hi] at hr; cases hr
      · exact absurd (hr.symm.trans hc) hd
    · refine ⟨fun h => absurd h Direction.shown_ne_waiting, fun hset => ?_⟩
      exact absurd (hset.2.2.2.1.trans (hset.2.2.2.2.symm.trans hc)) hon

/-- `tick` keeps the invariant: of its three deadlines, only the stop deadline fails without sending
the neutral, and then the last command returned was one. -/
theorem tick (h : Rep last acked s) (now : Int) : Rep last acked (s.tick now) := by
  have h₁ : Rep last acked (s.ackDeadline now) := by
    unfold ackDeadline
    cases hc : s.inFlight with
    | none => exact h
    | some c =>
      dsimp only
      split_ifs
      · exact h.drop_fail hc
      · exact h
  have h₂ : Rep last acked ((s.ackDeadline now).staleDeadline now) := by
    unfold staleDeadline
    split_ifs
    · exact h₁.fail (.inl rfl)
    · exact h₁
  unfold BladeControl.tick stopDeadline
  split_ifs with hw
  · obtain ⟨hw, hi, -⟩ := hw
    refine h₂.fail (.inr fun c hc hd => ?_)
    by_contra hq
    obtain ⟨-, -, hr | ⟨-, hr⟩⟩ := h₂.running c hc hd (by simpa using hq)
    · rw [hi] at hr; cases hr
    · exact hd (hr.symm.trans (h₂.waiting hw).2.1)
  · exact h₂

theorem emit (h : Rep last acked s) {target : Direction} {now : Int} (hknown : target ≠ .unknown)
    (hg : s.Grants target now) :
    Rep (some ({ s with queuedNeutral := false }.emit target now).2) acked
      ({ s with queuedNeutral := false }.emit target now).1 := by
  have hset : ∀ d, ¬ s.Settled d := by
    rintro d ⟨-, hq, -, hr, hc⟩
    rcases hg with ⟨hq', -⟩ | ⟨-, -, -, -, hon, hconf, -⟩
    · rw [hq'] at hq; cases hq
    · exact hon (hr.trans (hc.symm.trans hconf))
  refine ⟨h.known, h.idle, fun c hc => hc, fun c hc hd => ?_, fun c hc hd _ => ?_,
    fun _ hin => by simp [BladeControl.emit] at hin, fun hf hr => ?_,
    fun _ _ hq => by simp [BladeControl.emit] at hq, h.failed, fun d hd => ?_, h.waiting⟩
  · obtain rfl := Option.some.inj hc
    rcases hg with ⟨-, rfl⟩ | ⟨-, hf, -, -, -, hconf, -, rfl⟩
    · exact absurd rfl hd
    · exact ⟨rfl, hconf, rfl, hf⟩
  · obtain rfl := Option.some.inj hc
    rcases hg with ⟨-, rfl⟩ | ⟨-, hf, -, -, -, -, -, rfl⟩
    · exact absurd rfl hd
    · exact ⟨rfl, hf, .inl rfl⟩
  · rcases hg with ⟨-, rfl⟩ | ⟨-, -, -, -, hon, -⟩
    · exact .inr (.inr rfl)
    · exact absurd hr hon
  · refine ⟨fun hs => absurd ((h.shown d hd).1 hs) (hset d), fun hs => ?_⟩
    simp [Settled, BladeControl.emit] at hs

theorem next (h : Rep last acked s) (now : Int) :
    Rep ((s.next now).2.or last) acked (s.next now).1 := by
  rcases next_cases s now with ⟨he, -⟩ | ⟨-, target, hknown, hg, he⟩ <;> rw [he]
  · exact h.tick now
  · exact (h.tick now).emit hknown hg

/-- The acceptance of the neutral in flight settles OFF, or starts the wait for the stop. -/
theorem acked_neutral (h : Rep last acked s) {c : Command} (hc : s.inFlight = some c) (hoff : c.direction = .off)
    (now : Int) : Rep last (some c) { s with
      inFlight := none, confirmed := .off, neutralSince := now, stopSince := -1, stopSamples := 0, waitSince := now,
      state := if s.fault then .failed else if s.requested = .off then .off else .waitStopBeforeReverse } := by
  have hlast := h.flight c hc
  refine ⟨h.known, h.idle, by simp, by simp, fun c' hc' hd _ => ?_,
    fun _ _ _ => ⟨c, hlast, rfl, hoff⟩, fun _ _ => .inl rfl, by simp, ?_, fun d hd => ?_, fun hw => ?_⟩
  · rw [hlast] at hc'; cases hc'; exact absurd hoff hd
  · dsimp only; split_ifs <;> simp_all
  · dsimp only
    split_ifs with hf hr
    · exact ⟨fun hs => absurd hs Direction.shown_ne_failed, fun hs => by rw [hs.2.2.1] at hf; cases hf⟩
    · have hf' : s.fault = false := by simpa using hf
      have hq : s.queuedNeutral = false := by
        by_contra hq
        exact h.doubled hf' (by simp [hc]) (by simpa using hq) hr
      constructor
      · intro hs
        obtain rfl : Direction.off = d := Direction.shown_inj hs
        exact ⟨rfl, hq, hf', hr, rfl⟩
      · intro hs
        rw [← hs.2.2.2.2]; rfl
    · refine ⟨fun hs => absurd hs Direction.shown_ne_waiting, fun hs => ?_⟩
      exact absurd (hs.2.2.2.1.trans hs.2.2.2.2.symm) hr
  · dsimp only at hw
    split_ifs at hw with hf hr
    exact ⟨hr, rfl, by simpa using hf⟩

/-- The acceptance of the ON in flight settles its direction. -/
theorem acked_on (h : Rep last acked s) {c : Command} (hc : s.inFlight = some c) (hon : c.direction ≠ .off) :
    Rep last (some c) { s with
      inFlight := none, confirmed := c.direction,
      state := if s.requested = c.direction ∧ ¬ s.queuedNeutral then
          if c.direction = .forward then .fwd else .rev else s.state } := by
  have hlast := h.flight c hc
  obtain ⟨hdir, hconf, hq, hf⟩ := h.drive c hc hon
  have hrun : s.requested = c.direction ∧ ¬ s.queuedNeutral := ⟨hdir.symm, by simp [hq]⟩
  have hknown : c.direction ≠ .unknown := hdir ▸ h.known
  rw [if_pos hrun, Direction.shown_of_on hon hknown]
  refine ⟨h.known, h.idle, by simp, by simp, fun c' hc' _ _ => ?_,
    fun _ _ _ => ⟨c, hlast, rfl, rfl⟩, fun _ hr => absurd (hdir.trans hr) hon, by simp, ?_,
    fun d hd => ?_, fun hw => ?_⟩
  · rw [hlast] at hc'; cases hc'; exact ⟨hdir.symm, hf, .inr ⟨rfl, rfl⟩⟩
  · exact ⟨fun hs => absurd hs.symm Direction.shown_ne_failed, fun hs => by rw [hf] at hs; cases hs⟩
  · constructor
    · intro hs
      obtain rfl : c.direction = d := Direction.shown_inj hs
      exact ⟨rfl, hq, hf, hdir.symm, rfl⟩
    · intro hs
      rw [← hs.2.2.2.2]
  · exact absurd hw.symm Direction.shown_ne_waiting

theorem complete (h : Rep last acked s) (token : Nat) (accepted : Bool) (now : Int) :
    Rep last ((s.inFlight.filter fun c => accepted && c.token = token).or acked)
      (s.complete token accepted now) := by
  rcases complete_cases s token accepted now with ⟨he, hno⟩ | ⟨c, hc, htok, hcase⟩
  · rw [he]
    cases hc : s.inFlight with
    | none => exact h
    | some c =>
      have hskip : (some c).filter (fun c => accepted && c.token = token) = none := by
        simp [Option.filter, hno c hc]
      rw [hskip]; exact h
  have hack : ((some c).filter fun c => true && c.token = token).or acked = some c := by simp [htok]
  rcases hcase with ⟨rfl, he⟩ | ⟨rfl, hoff, he⟩ | ⟨rfl, hon, he⟩ <;> rw [he, hc]
  · simpa using h.drop_fail hc
  · rw [hack]; exact h.acked_neutral hc hoff now
  · rw [hack]; exact h.acked_on hc hon

end Rep

/-! ### Runs -/

theorem Rep.step {l : List Event} (h : Rep (lastEmitted l) (lastAcked l) s) (op : Op) :
    Rep (lastEmitted (l ++ s.observed op)) (lastAcked (l ++ s.observed op)) (s.apply op) := by
  rw [lastEmitted_append, lastAcked_append, lastEmitted_observed, lastAcked_observed]
  cases op with
  | connection connected now => exact h.connection connected now
  | permission allowed now => exact h.permission allowed now
  | request direction now => exact h.request direction now
  | forceOff now => exact Rep.forceOff now
  | serviceTimeout now => exact Rep.serviceTimeout now
  | sample x now => exact h.sample x now
  | tick now => exact h.tick now
  | next now => exact h.next now
  | complete token accepted now => exact h.complete token accepted now
  | output pwmValue now => exact h.output pwmValue now

/-- The invariant holds in every reachable state. -/
theorem rep_reach (config : ValidConfig) (ops : List Op) :
    Rep (lastEmitted (trace config ops)) (lastAcked (trace config ops)) (reach config ops) :=
  Machine.history (A := fun _ _ => True) (H := fun l s => Rep (lastEmitted l) (lastAcked l) s) (l := [])
    (fun _ _ op h _ => h.step op) (Rep.init config) (Machine.along_of_forall fun _ _ => trivial)

/-! ### The configuration is fixed -/

theorem tick_config (s : BladeControl) (now : Int) : (s.tick now).config = s.config := by
  rcases tick_cases s now with h | ⟨_, _, _, _, h, -⟩ <;> rw [h]

theorem apply_config (s : BladeControl) (op : Op) : (s.apply op).config = s.config := by
  cases op with
  | connection connected now =>
    rcases connection_cases s connected now with ⟨-, h⟩ | ⟨-, h⟩ <;> simp [apply, h, forceOff]
  | permission allowed now => simp only [apply, permission]; split_ifs <;> rfl
  | request direction now =>
    rcases request_cases s direction now with h | ⟨-, -, -, -, h⟩
    · simp [apply, h]
    · rcases h with ⟨-, h⟩ | ⟨-, -, h⟩ | ⟨-, -, h⟩ | ⟨-, -, -, -, h⟩ <;> simp [apply, h, forceOff]
  | forceOff now => rfl
  | serviceTimeout now => rfl
  | sample x now => obtain ⟨_, _, _, _, _, _, _, h⟩ := sample_frame s x now; simp [apply, h]
  | tick now => exact tick_config s now
  | next now =>
    rcases next_cases s now with ⟨h, -⟩ | ⟨-, _, -, -, h⟩ <;> simp only [apply, h]
    exacts [tick_config s now, tick_config s now]
  | complete token accepted now =>
    rcases complete_cases s token accepted now with ⟨h, -⟩ | ⟨_, -, -, ⟨-, h⟩ | ⟨-, -, h⟩ | ⟨-, -, h⟩⟩ <;>
      simp [apply, h, fail]
  | output pwmValue now =>
    rcases output_cases s pwmValue now with h | h <;> simp [apply, h, forceOff]

theorem config_reach (config : ValidConfig) (ops : List Op) : (reach config ops).config = config :=
  Machine.inv_final (A := fun _ _ => True) (I := fun s => s.config = config)
    (fun s op h _ => (apply_config s op).trans h) rfl (Machine.along_of_forall fun _ _ => trivial)

end BladeControl
end MowgliMavros
