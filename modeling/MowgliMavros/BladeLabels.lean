import MowgliMavros.BladeIntent

/-!
# What the fields of a reachable controller say together

`Labelled` reads the displayed state off the six flags it stands for. Only `settled` looks at the
run: the direction believed to be confirmed is that of the last command handed out, once accepted.
-/

namespace MowgliMavros
namespace BladeControl

structure Labelled (last acked : Option Command) (s : BladeControl) : Prop where
  failed : s.state = .failed ↔ s.fault = true
  fwd : s.state = .fwd ↔ s.Settled .forward
  rev : s.state = .rev ↔ s.Settled .reverse
  off : s.state = .off ↔ s.Settled .off
  waiting : s.state = .waitStopBeforeReverse → s.requested.IsOn ∧ s.confirmed = .off ∧ s.fault = false
  /-- A non-neutral command in flight. -/
  drive : ∀ c, s.inFlight = some c → c.direction ≠ .off →
    c.direction = s.requested ∧ s.confirmed = .off ∧ s.queuedNeutral = false ∧ s.fault = false
  idle : s.fault = true ∨ s.connected = false → s.requested = .off
  known : s.requested ≠ .unknown
  settled : s.fault = false → s.inFlight = none → s.confirmed ≠ .unknown →
    ∃ c, last = some c ∧ acked = some c ∧ s.confirmed = c.direction

variable {last acked : Option Command} {s : BladeControl}

theorem isOn_of_known {d : Direction} (hknown : d ≠ .unknown) (hoff : d ≠ .off) : d.IsOn := by
  cases d <;> simp_all [Direction.IsOn]

theorem Rep.labelled (h : Rep last acked s) : Labelled last acked s := by
  constructor
  · exact h.failed
  · exact h.shown .forward (by decide)
  · exact h.shown .reverse (by decide)
  · exact h.shown .off (by decide)
  · intro hwait
    obtain ⟨hon, hconfirmed, hfault⟩ := h.waiting hwait
    exact ⟨isOn_of_known h.known hon, hconfirmed, hfault⟩
  · exact h.drive
  · exact h.idle
  · exact h.known
  · intro hfault hflight hconfirmed
    obtain ⟨c, hlast, hacked, hdirection⟩ := h.settled hfault hflight hconfirmed
    exact ⟨c, hlast, hacked, hdirection.symm⟩

/-- A new intention has a new revision. -/
theorem Intent.revised {s' : BladeControl} (h : Intent s s') (hne : s'.requested ≠ s.requested) :
    s.revision < s'.revision := by
  have hle := h.revision
  have hmoved : s'.revision ≠ s.revision := fun he => hne (h.requested he)
  omega

theorem reach_labelled (config : ValidConfig) (ops : List Op) :
    Labelled (lastEmitted (trace config ops)) (lastAcked (trace config ops)) (reach config ops) ∧
      ∀ op, ((reach config ops).apply op).requested ≠ (reach config ops).requested →
        (reach config ops).revision < ((reach config ops).apply op).revision := by
  constructor
  · exact (rep_reach config ops).labelled
  · intro op hne
    exact (intent_apply (reach config ops) op).revised hne

end BladeControl
end MowgliMavros
