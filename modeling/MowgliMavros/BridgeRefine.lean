import MowgliMavros.BladeRep
import MowgliMavros.BridgeSpec
import MowgliMavros.SessionNext

/-!
# The node runs its two controllers

In every run of the callbacks the blade and the session controller only take their own steps, the
session controller is only asked for safe demands, and what it observed is the last `/mavros/state`.
The results on the controllers therefore hold inside the node.
-/

namespace MowgliMavros
namespace Bridge

structure Refines (l : Launch) (n : Node) : Prop where
  blade : ∃ ops, n.bladeControl = BladeControl.reach l.blade ops
  session : ∃ ops : List FcuSessionController.Op, (∀ op ∈ ops, op.Safe) ∧
    n.sessionControl = FcuSessionController.reach ops
  observed : (n.sessionControl.connected, n.sessionControl.armed, n.sessionControl.mode) =
    (n.mavrosState.connected, n.mavrosState.armed, n.mavrosState.mode)

variable {l : Launch} {n : Node}

theorem bladeControl_reach_snoc (ops : List BladeControl.Op) (op : BladeControl.Op) :
    (BladeControl.reach l.blade ops).apply op = BladeControl.reach l.blade (ops ++ [op]) := by
  simp [BladeControl.reach, Machine.final_append]

theorem session_reach_snoc (ops : List FcuSessionController.Op) (op : FcuSessionController.Op) :
    (FcuSessionController.reach ops).apply op = FcuSessionController.reach (ops ++ [op]) := by
  simp [FcuSessionController.reach, Machine.final_append]

theorem session_apply_observed (s : FcuSessionController) (op : FcuSessionController.Op)
    (h : ∀ c a m, op ≠ .observe c a m) :
    ((s.apply op).connected, (s.apply op).armed, (s.apply op).mode) = (s.connected, s.armed, s.mode) := by
  have of_view : ∀ {s' : FcuSessionController}, s'.view = s.view →
      (s'.connected, s'.armed, s'.mode) = (s.connected, s.armed, s.mode) := fun hv => by
    obtain ⟨hc, ha, hm⟩ := FcuSessionController.view_observed hv
    rw [hc, ha, hm]
  cases op with
  | demand mode arm safety => unfold FcuSessionController.apply FcuSessionController.demand; dsimp only; split <;> rfl
  | observe c a m => exact absurd rfl (h c a m)
  | tick now => exact of_view (FcuSessionController.tick_view now)
  | next now modeService armService allowArm =>
    exact of_view (FcuSessionController.next_view now modeService armService allowArm)
  | complete serial accepted now => exact of_view (FcuSessionController.complete_view serial accepted now)

theorem session_observe_observed (s : FcuSessionController) (connected armed : Bool) (mode : String) :
    ((s.observe connected armed mode).connected, (s.observe connected armed mode).armed,
      (s.observe connected armed mode).mode) = (connected, armed, mode) := by
  have hv : (s.observe connected armed mode).view = (s.seen connected armed mode).view := by
    rw [FcuSessionController.observe_eq, FcuSessionController.settle_view]
  obtain ⟨hc, ha, hm⟩ := FcuSessionController.view_observed hv
  rw [hc, ha, hm]; rfl

namespace Refines

theorem applyBlade (h : Refines l n) (op : BladeControl.Op) :
    Refines l { n with bladeControl := n.bladeControl.apply op } := by
  obtain ⟨⟨ops, hb⟩, hs, ho⟩ := h
  refine ⟨⟨ops ++ [op], ?_⟩, hs, ho⟩
  rw [hb, bladeControl_reach_snoc]

theorem applySession (h : Refines l n) (op : FcuSessionController.Op) (hop : op.Safe) :
    ∃ ops : List FcuSessionController.Op, (∀ op ∈ ops, op.Safe) ∧
      n.sessionControl.apply op = FcuSessionController.reach ops := by
  obtain ⟨ops, hsafe, hs⟩ := h.session
  refine ⟨ops ++ [op], ?_, by rw [hs, session_reach_snoc]⟩
  rintro o ho
  rcases List.mem_append.1 ho with ho | ho
  · exact hsafe o ho
  · rw [List.mem_singleton.1 ho]; exact hop

theorem stable : Stable fun n _ => Refines l n where
  frame hb hs hm _ h := ⟨hb ▸ h.blade, hs ▸ h.session, by rw [hs, hm]; exact h.observed⟩
  cancel _ _ h := ⟨h.blade, h.session, h.observed⟩
  blade _ _ op _ h := h.applyBlade op
  session n _ op hop hno h :=
    ⟨h.blade, h.applySession op hop, (session_apply_observed n.sessionControl op hno).trans h.observed⟩
  observe n _ m h := ⟨h.blade, h.applySession (.observe m.connected m.armed m.mode) trivial,
    session_observe_observed n.sessionControl m.connected m.armed m.mode⟩
  emit _ _ _ _ h := h

theorem indifferent : Indifferent fun n _ => Refines l n where
  toStable := stable
  starts _ _ _ h := ⟨h.blade, h.session, h.observed⟩
  request _ _ _ _ h := h.applyBlade _

/-- The node refines its controllers after every run. -/
theorem reach (l : Launch) (run : List (Callback × Env)) : Refines l (reach l run) := by
  have hdrive : ∀ env, Prog.Keeps (fun n _ => Refines l n) (driveBladeLocked env) := fun env =>
    stable.driveBladeLocked env (fun e => indifferent.promoteBladeStarts e _)
      (stable.sendBlade (fun _ _ _ h => h) env)
  exact indifferent.run ⟨⟨[], rfl⟩, ⟨[], by simp, rfl⟩, rfl⟩ hdrive run

theorem bladeRep (h : Refines l n) : ∃ last acked, BladeControl.Rep last acked n.bladeControl := by
  obtain ⟨ops, hb⟩ := h.blade
  rw [hb]
  exact ⟨_, _, BladeControl.rep_reach l.blade ops⟩

theorem bladeConfig (h : Refines l n) : n.bladeControl.config = l.blade := by
  obtain ⟨ops, hb⟩ := h.blade
  rw [hb, BladeControl.config_reach]

theorem disarming (h : Refines l n) : FcuSessionController.Disarming n.sessionControl := by
  obtain ⟨ops, hsafe, hs⟩ := h.session
  rw [hs]
  exact .reach hsafe

end Refines

end Bridge
end MowgliMavros
