import MowgliMavros.BladeRep

/-!
# No deadline is due twice

`Timely now s` says that no deadline of `tick` has passed at `now`. `tick` leaves such a state alone and
leads to one, and the operations that follow it in a drive at the same time keep it, so that the second
`tick`, inside `next`, changes nothing.
-/

namespace MowgliMavros
namespace BladeControl

structure Timely (now : Int) (s : BladeControl) : Prop where
  ack : ∀ c, s.inFlight = some c → now - s.sentAt < s.config.1.ackTimeoutMs
  fresh : s.requested ≠ .off → 0 ≤ s.sampleReceipt ∧ now - s.sampleReceipt ≤ s.config.1.freshnessMs
  stop : s.state = .waitStopBeforeReverse → s.inFlight = none → now - s.waitSince < s.config.1.stopTimeoutMs

variable {s : BladeControl} {now : Int}

theorem stopTimeout_pos (s : BladeControl) : 0 < s.config.1.stopTimeoutMs := by
  have hvalid := s.config.2
  unfold Config.Invalid at hvalid
  omega

namespace Timely

theorem tick_eq (h : Timely now s) : s.tick now = s := by
  have hack : s.ackDeadline now = s := by
    unfold ackDeadline
    cases hc : s.inFlight with
    | none => rfl
    | some c =>
      have hc' := h.ack c hc
      exact if_neg (by omega)
  have hstale : s.staleDeadline now = s := by
    refine if_neg fun ⟨hr, hlate⟩ => ?_
    have hfresh := h.fresh hr
    omega
  have hstop : s.stopDeadline now = s := by
    refine if_neg fun ⟨hw, hi, hlate⟩ => ?_
    have hwait := h.stop hw hi
    omega
  unfold BladeControl.tick
  rw [hack, hstale, hstop]

theorem of_off (hi : s.inFlight = none) (hr : s.requested = .off) (hs : s.state ≠ .waitStopBeforeReverse) :
    Timely now s :=
  ⟨fun c hc => by simp [hi] at hc, fun h => absurd hr h, fun h => absurd h hs⟩

theorem forceOff (t : Int) : Timely now (s.forceOff t) := of_off rfl rfl (by simp [BladeControl.forceOff])

theorem serviceTimeout (t : Int) : Timely now (s.serviceTimeout t) :=
  of_off rfl rfl (by simp [BladeControl.serviceTimeout])

/-- A latched failure keeps at most a neutral whose ACK is not late. -/
theorem fail (sendNeutral : Bool) (hack : ∀ c, s.inFlight = some c → now - s.sentAt < s.config.1.ackTimeoutMs) :
    Timely now (s.fail sendNeutral) := by
  refine ⟨fun c hc => ?_, fun h => absurd rfl h, fun h => ?_⟩
  · simp only [BladeControl.fail] at hc
    split at hc
    · cases hc
    · exact hack c hc
  · simp [BladeControl.fail] at h

theorem tick (s : BladeControl) (now : Int) : Timely now (s.tick now) := by
  have hack : ∀ c, (s.ackDeadline now).inFlight = some c →
      now - (s.ackDeadline now).sentAt < (s.ackDeadline now).config.1.ackTimeoutMs := by
    intro c hc
    unfold ackDeadline at hc ⊢
    cases hi : s.inFlight with
    | none => simp [hi] at hc
    | some d =>
      simp only [hi] at hc ⊢
      split at hc
      · simp [BladeControl.fail] at hc
      · rename_i hlate
        rw [if_neg hlate]; omega
  unfold BladeControl.tick
  generalize s.ackDeadline now = s₁ at hack
  by_cases hstale : s₁.requested ≠ .off ∧ (s₁.sampleReceipt < 0 ∨ now - s₁.sampleReceipt > s₁.config.1.freshnessMs)
  · have hfail : Timely now (s₁.staleDeadline now) := by
      rw [staleDeadline, if_pos hstale]
      exact fail true hack
    have hstop : (s₁.staleDeadline now).stopDeadline now = s₁.staleDeadline now := by
      refine if_neg fun hwaits => ?_
      obtain ⟨hw, hi, hlate⟩ := hwaits
      have hwait := hfail.stop hw hi
      omega
    rw [hstop]
    exact hfail
  rw [staleDeadline, if_neg hstale]
  unfold stopDeadline
  split
  · exact fail false hack
  · rename_i hstop
    refine ⟨hack, fun hr => ?_, fun hw hi => ?_⟩
    · by_contra hlate
      exact hstale ⟨hr, by omega⟩
    · by_contra hlate
      exact hstop ⟨hw, hi, by omega⟩

/-- An ON is accepted only with a fresh sample, and its stop deadline starts now. -/
theorem request (h : Timely now s) (direction : Direction) : Timely now (s.request direction now).1 := by
  by_cases hsame : (s.request direction now).1 = s
  · rw [hsame]; exact h
  have hfresh : direction ≠ .off → 0 ≤ s.sampleReceipt ∧ now - s.sampleReceipt ≤ s.config.1.freshnessMs := by
    intro hon
    by_contra hlate
    refine hsame ?_
    unfold BladeControl.request
    rw [if_pos (.inr (.inr ⟨hon, .inr (.inr (by omega))⟩))]
  have hpos := stopTimeout_pos s
  rcases request_cases s direction now with he | ⟨-, -, -, -, hcase⟩
  · exact absurd he hsame
  rcases hcase with ⟨-, he⟩ | ⟨hon, -, he⟩ | ⟨hon, -, he⟩ | ⟨hon, -, -, -, he⟩ <;> rw [he]
  · exact forceOff now
  · exact ⟨by simp [BladeControl.forceOff], fun _ => hfresh hon, by simp⟩
  · exact ⟨h.ack, fun _ => hfresh hon, by simp⟩
  · exact ⟨h.ack, fun _ => hfresh hon, fun _ _ => by simpa using hpos⟩

/-- At a time without a due deadline `next` only hands out a command. -/
theorem next_frame (h : Timely now s) :
    (s.next now).1.requested = s.requested ∧ (s.next now).1.revision = s.revision ∧
      (s.next now).1.confirmed = s.confirmed ∧ (s.next now).1.fault = s.fault ∧
      (s.next now).1.allowed = s.allowed ∧ (s.next now).1.config = s.config := by
  rcases next_cases s now with ⟨he, -⟩ | ⟨-, target, -, -, he⟩ <;> rw [he, h.tick_eq]
  · exact ⟨rfl, rfl, rfl, rfl, rfl, rfl⟩
  · exact ⟨rfl, rfl, rfl, rfl, rfl, rfl⟩

end Timely

end BladeControl
end MowgliMavros
