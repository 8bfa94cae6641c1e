import MowgliMavros.Lib.Past
import MowgliMavros.WheelMotion

/-!
# The gate of the legacy RPM

`legacy_wheel_adapter.cpp` lets an RPM pass once the counters of both wheels advanced. The machine `gate`
runs the calls of its interface and emits a verdict where both advances are taken away: with the RPM, or
because one of them is too old. What the adapter holds is a function of the log of a run (`Gated`), and
so is what an RPM finds (`legacy_rpm_gate`).
-/

namespace MowgliMavros
namespace Odometry
open Past

inductive LegacyCall
  | counts (offset : Int) (counts : Fin 4 → UInt16) (receiptNs : Int)
  | rpm (left right : Option Rat) (receiptNs : Int)

def LegacyCall.receiptNs : LegacyCall → Int
  | .counts _ _ receiptNs | .rpm _ _ receiptNs => receiptNs

/-- What takes both advances away. -/
inductive LegacyVerdict
  | accepted (motion : MotorRpmObservation)
  | stale

/-- The two speeds as an array of the wheels. -/
def rpmOf (left right : Rat) : Side → Rat
  | .left => left
  | .right => right

namespace LegacyWheelAdapter
variable (a : LegacyWheelAdapter)

/-- `receive_esc_counts` as it is called, with an `int` for the offset. -/
def receiveEscCountsAt (offset : Int) (counts : Fin 4 → UInt16) (receiptNs : Int) : LegacyWheelAdapter :=
  match offset with
  | .ofNat offset => a.receiveEscCounts offset counts receiptNs
  | .negSucc _ => a

/-- `receive_rpm` as it is called; a speed that is not finite is `none`. -/
def receiveRpmOf (left right : Option Rat) (receiptNs : Int) : LegacyWheelAdapter × Option MotorRpmObservation :=
  match left, right with
  | some left, some right => a.receiveRpm (rpmOf left right) receiptNs
  | _, _ => (a, none)

/-- The verdict of an RPM, told by its result and by the flags before and after it. -/
def verdict (left right : Option Rat) (receiptNs : Int) : List LegacyVerdict :=
  let (a', motion) := a.receiveRpmOf left right receiptNs
  match motion with
  | some motion => [.accepted motion]
  | none => if a.advanced .left ∧ a.advanced .right ∧ ¬ a'.advanced .left then [.stale] else []

def gate : Machine LegacyWheelAdapter LegacyCall LegacyVerdict where
  step a
    | .counts offset counts receiptNs => (a.receiveEscCountsAt offset counts receiptNs, [])
    | .rpm left right receiptNs => ((a.receiveRpmOf left right receiptNs).1, a.verdict left right receiptNs)

end LegacyWheelAdapter

/-! ### What a log says of the counters -/

namespace LegacyLog
variable {g : WheelGeometry} {side : Side} {log : List (LegacyCall ⊕ LegacyVerdict)} {c d : LegacyCall}

attribute [local instance] LegacyWheelAdapter.counts_nonempty

/-- The counter of the wheel in the packet, if its slot is among the four of a good packet. -/
def carried (g : WheelGeometry) (side : Side) : LegacyCall → Option UInt16
  | .counts offset counts receiptNs =>
    if (offset = 0 ∨ offset = 4 ∨ offset = 8) ∧ 0 < receiptNs ∧ offset ≤ g.slot side ∧ g.slot side < offset + 4 then
      some (counts (Fin.ofNat 4 (g.slot side - offset).toNat))
    else none
  | .rpm _ _ _ => none

def carriedIn (g : WheelGeometry) (side : Side) : LegacyCall ⊕ LegacyVerdict → Option UInt16
  | .inl c => carried g side c
  | .inr _ => none

/-- The last counter that was seen. -/
def stored (g : WheelGeometry) (side : Side) (log : List (LegacyCall ⊕ LegacyVerdict)) : Option UInt16 :=
  (log.filterMap (carriedIn g side)).getLast?

/-- The packet has another counter than the one before; the first one is only a baseline. -/
def Advances (g : WheelGeometry) (side : Side) (log : List (LegacyCall ⊕ LegacyVerdict)) :
    LegacyCall ⊕ LegacyVerdict → Prop
  | .inl c => ∃ previous current, stored g side log = some previous ∧ carried g side c = some current ∧
      current ≠ previous
  | .inr _ => False

/-- The packet is the last one that advanced the counter of the wheel, and no verdict took it away since. -/
def Pending (g : WheelGeometry) (side : Side) (log : List (LegacyCall ⊕ LegacyVerdict)) (c : LegacyCall) : Prop :=
  Since (Advances g side) (fun log e => Advances g side log e ∨ e.isRight) log (.inl c)

theorem Pending.unique (h : Pending g side log c) (h' : Pending g side log d) : c = d :=
  Sum.inl.inj (Since.unique (fun _ _ => .inl) h h')

theorem Pending.mem (h : Pending g side log c) : .inl c ∈ log := by
  obtain ⟨pre, post, rfl, -⟩ := h
  simp

theorem stored_carries {e : LegacyCall ⊕ LegacyVerdict} {count : UInt16} (h : carriedIn g side e = some count) :
    stored g side (log ++ [e]) = some count := by
  simp [stored, List.filterMap_append, h]

theorem stored_skip {e : LegacyCall ⊕ LegacyVerdict} (h : carriedIn g side e = none) :
    stored g side (log ++ [e]) = stored g side log := by
  simp [stored, List.filterMap_append, h]

theorem not_advances {e : LegacyCall ⊕ LegacyVerdict} (h : carriedIn g side e = none) : ¬ Advances g side log e := by
  cases e with
  | inl c =>
    rintro ⟨_, current, -, hcurrent, -⟩
    have hnone : carried g side c = none := h
    rw [hnone] at hcurrent
    cases hcurrent
  | inr v => exact not_false

theorem carried_receipt {count : UInt16} (h : carried g side c = some count) : 0 < c.receiptNs := by
  cases c with
  | counts offset counts receiptNs =>
    simp only [carried] at h
    split at h
    · rename_i hgood
      exact hgood.2.1
    · cases h
  | rpm left right receiptNs => cases h

theorem pending_advance (h : Advances g side log (.inl c)) : Pending g side (log ++ [.inl c]) d ↔ d = c := by
  unfold Pending
  rw [since_snoc]
  constructor
  · rintro (⟨hcd, -⟩ | ⟨hno, -⟩)
    · exact (Sum.inl.inj hcd).symm
    · exact absurd (.inl h) hno
  · rintro rfl
    exact .inl ⟨rfl, h⟩

theorem pending_skip (h : ¬ Advances g side log (.inl c)) :
    Pending g side (log ++ [.inl c]) d ↔ Pending g side log d := by
  unfold Pending
  rw [since_snoc]
  constructor
  · rintro (⟨-, hadvances⟩ | ⟨-, hpending⟩)
    · exact absurd hadvances h
    · exact hpending
  · intro hpending
    refine .inr ⟨?_, hpending⟩
    rintro (hadvances | hright)
    · exact h hadvances
    · cases hright

theorem not_pending_verdict (v : LegacyVerdict) : ¬ Pending g side (log ++ [.inr v]) d := by
  unfold Pending
  rw [since_snoc]
  rintro (⟨hd, -⟩ | ⟨hno, -⟩)
  · cases hd
  · exact hno (.inr rfl)

end LegacyLog

/-! ### One wheel -/

/-- What the adapter holds of one wheel. -/
structure LegacyWheel where
  count : Option UInt16
  advanced : Bool
  stampNs : Int

namespace LegacyWheel

/-- The wheel after a packet that carries this counter, if any. -/
def see (w : LegacyWheel) (current : Option UInt16) (receiptNs : Int) : LegacyWheel :=
  match current, w.count with
  | none, _ => w
  | some current, none => { w with count := some current }
  | some current, some previous =>
    if current ≠ previous ∧ w.stampNs ≤ receiptNs then ⟨some current, true, receiptNs⟩ else w

end LegacyWheel

namespace LegacyWheelAdapter
open LegacyLog
variable {a : LegacyWheelAdapter} {offset : Int} {counts : Fin 4 → UInt16} {receiptNs : Int} {side : Side}

def wheel (a : LegacyWheelAdapter) (side : Side) : LegacyWheel := ⟨a.counts side, a.advanced side, a.stamps side⟩

theorem counterAdvanced_iff (previous current : UInt16) :
    counterAdvanced previous current = true ↔ current ≠ previous := by
  simp only [counterAdvanced, decide_eq_true_eq, ne_eq, not_iff_not]
  rw [UInt16.sub_eq_iff_eq_add, UInt16.zero_add]

/-- The counter of the wheel's slot. -/
theorem receiveCount_own (a : LegacyWheelAdapter) (offset : Nat) (side : Side) :
    (a.receiveCount offset counts receiptNs side).wheel side =
      (a.wheel side).see (if (offset : Int) ≤ a.geometry.slot side ∧ a.geometry.slot side < offset + 4 then
        some (counts (Fin.ofNat 4 (a.geometry.slot side - offset).toNat)) else none) receiptNs := by
  unfold receiveCount
  dsimp only
  split
  · rename_i hout
    rw [if_neg (by omega)]
    rfl
  · rename_i hin
    rw [if_pos (by omega)]
    cases hcount : a.counts side with
    | none => simp [LegacyWheelAdapter.wheel, LegacyWheel.see, hcount]
    | some previous =>
      simp only [LegacyWheelAdapter.wheel, LegacyWheel.see, hcount, counterAdvanced_iff, ge_iff_le]
      split
      · simp
      · simp [hcount]

theorem receiveCount_other (a : LegacyWheelAdapter) (offset : Nat) {wheel : Side} (h : side ≠ wheel) :
    (a.receiveCount offset counts receiptNs wheel).wheel side = a.wheel side := by
  unfold receiveCount
  dsimp only
  split
  · rfl
  · split
    · simp [LegacyWheelAdapter.wheel, Function.update_of_ne h]
    · split
      · simp [LegacyWheelAdapter.wheel, Function.update_of_ne h]
      · rfl

theorem receiveCount_frame (a : LegacyWheelAdapter) (offset : Nat) (wheel : Side) :
    (a.receiveCount offset counts receiptNs wheel).geometry = a.geometry ∧
      (a.receiveCount offset counts receiptNs wheel).timeoutNs = a.timeoutNs := by
  unfold receiveCount
  dsimp only
  repeat' split
  all_goals exact ⟨rfl, rfl⟩

theorem receiveEscCountsAt_frame (a : LegacyWheelAdapter) (offset : Int) (counts : Fin 4 → UInt16) (receiptNs : Int) :
    (a.receiveEscCountsAt offset counts receiptNs).geometry = a.geometry ∧
      (a.receiveEscCountsAt offset counts receiptNs).timeoutNs = a.timeoutNs := by
  unfold receiveEscCountsAt
  split
  · unfold receiveEscCounts
    split
    · exact ⟨rfl, rfl⟩
    · constructor
      · rw [(receiveCount_frame _ _ .right).1, (receiveCount_frame _ _ .left).1]
      · rw [(receiveCount_frame _ _ .right).2, (receiveCount_frame _ _ .left).2]
  · exact ⟨rfl, rfl⟩

/-- A packet does to each wheel what the counter that it carries for it says. -/
theorem receiveEscCountsAt_wheel (a : LegacyWheelAdapter) (offset : Int) (counts : Fin 4 → UInt16) (receiptNs : Int)
    (side : Side) :
    (a.receiveEscCountsAt offset counts receiptNs).wheel side =
      (a.wheel side).see (carried a.geometry side (.counts offset counts receiptNs)) receiptNs := by
  cases offset with
  | negSucc n =>
    have hnone : carried a.geometry side (.counts (.negSucc n) counts receiptNs) = none := by
      simp [carried]
    rw [hnone]
    rfl
  | ofNat n =>
    change (a.receiveEscCounts n counts receiptNs).wheel side = _
    unfold receiveEscCounts
    by_cases hgood : n ≠ 0 ∧ n ≠ 4 ∧ n ≠ 8 ∨ receiptNs ≤ 0
    · have hnone : carried a.geometry side (.counts (.ofNat n) counts receiptNs) = none :=
        if_neg (by simp only [Int.ofNat_eq_natCast]; omega)
      rw [if_pos hgood, hnone]
      rfl
    · have hcarried : carried a.geometry side (.counts (.ofNat n) counts receiptNs) =
          if (n : Int) ≤ a.geometry.slot side ∧ a.geometry.slot side < n + 4 then
            some (counts (Fin.ofNat 4 (a.geometry.slot side - n).toNat)) else none :=
        if_congr (by simp only [Int.ofNat_eq_natCast]; omega) rfl rfl
      have hgeometry : (a.receiveCount n counts receiptNs .left).geometry = a.geometry :=
        (receiveCount_frame a n .left).1
      rw [if_neg hgood, hcarried]
      cases side with
      | left => rw [receiveCount_other _ _ (by decide), receiveCount_own]
      | right => rw [receiveCount_own, receiveCount_other _ _ (by decide), hgeometry]

theorem refuses_iff (hvalid : a.valid = true) (receiptNs : Int) :
    (¬ a.valid ∨ ¬ a.advanced .left ∨ ¬ a.advanced .right ∨ receiptNs ≤ 0) ↔
      ¬ (0 < receiptNs ∧ ∀ side, a.advanced side = true) := by
  constructor
  · rintro hguard ⟨hreceipt, hadvanced⟩
    simp [hvalid, hadvanced] at hguard
    omega
  · intro hready
    by_contra hno
    push Not at hno
    obtain ⟨-, hleft, hright, hreceipt⟩ := hno
    refine hready ⟨hreceipt, ?_⟩
    rintro (_ | _)
    · exact hleft
    · exact hright

theorem either_expired (receiptNs : Int) :
    a.Expired receiptNs .left ∨ a.Expired receiptNs .right ↔ ∃ side, a.Expired receiptNs side := by
  constructor
  · rintro (hleft | hright)
    · exact ⟨.left, hleft⟩
    · exact ⟨.right, hright⟩
  · rintro ⟨_ | _, hside⟩
    · exact .inl hside
    · exact .inr hside

/-- What an RPM can do: nothing, or take both advances away with its result. -/
theorem receiveRpmOf_cases (hvalid : a.valid = true) (left right : Option Rat) (receiptNs : Int) :
    ¬ (left.isSome ∧ right.isSome ∧ 0 < receiptNs ∧ ∀ side, a.advanced side = true) ∧
        a.receiveRpmOf left right receiptNs = (a, none) ∧ a.verdict left right receiptNs = [] ∨
      (∃ l r, left = some l ∧ right = some r ∧ 0 < receiptNs ∧ (∀ side, a.advanced side = true) ∧
        ((∃ side, a.Expired receiptNs side) ∧
            a.receiveRpmOf left right receiptNs = ({ a with advanced := fun _ => false }, none) ∧
            a.verdict left right receiptNs = [.stale] ∨
          (∀ side, ¬ a.Expired receiptNs side) ∧
            a.receiveRpmOf left right receiptNs =
              ({ a with advanced := fun _ => false }, some ⟨rpmOf l r, receiptNs, receiptNs⟩) ∧
            a.verdict left right receiptNs = [.accepted ⟨rpmOf l r, receiptNs, receiptNs⟩])) := by
  have hnothing (h : a.receiveRpmOf left right receiptNs = (a, none)) : a.verdict left right receiptNs = [] := by
    unfold verdict
    rw [h]
    exact if_neg (fun hboth => hboth.2.2 hboth.1)
  cases left with
  | none => exact .inl ⟨by simp, rfl, hnothing rfl⟩
  | some l =>
    cases right with
    | none => exact .inl ⟨by simp, rfl, hnothing rfl⟩
    | some r =>
      by_cases hready : 0 < receiptNs ∧ ∀ side, a.advanced side = true
      · have hguard := (not_congr (refuses_iff hvalid receiptNs)).2 (not_not.2 hready)
        obtain ⟨hreceipt, hadvanced⟩ := hready
        refine .inr ⟨l, r, rfl, rfl, hreceipt, hadvanced, ?_⟩
        by_cases hexpired : a.Expired receiptNs .left ∨ a.Expired receiptNs .right
        · have hresult : a.receiveRpmOf (some l) (some r) receiptNs =
            ({ a with advanced := fun _ => false }, none) := by
            simp only [receiveRpmOf, receiveRpm]
            rw [if_neg hguard, if_pos hexpired]
          refine .inl ⟨(either_expired receiptNs).1 hexpired, hresult, ?_⟩
          simp [verdict, hresult, hadvanced]
        · have hresult : a.receiveRpmOf (some l) (some r) receiptNs =
              ({ a with advanced := fun _ => false }, some ⟨rpmOf l r, receiptNs, receiptNs⟩) := by
            simp only [receiveRpmOf, receiveRpm]
            rw [if_neg hguard, if_neg hexpired]
          refine .inr ⟨fun side hside => hexpired ((either_expired receiptNs).2 ⟨side, hside⟩), hresult, ?_⟩
          simp [verdict, hresult]
      · have hguard := (refuses_iff hvalid receiptNs).2 hready
        have hresult : a.receiveRpmOf (some l) (some r) receiptNs = (a, none) := by
          simp only [receiveRpmOf, receiveRpm]
          rw [if_pos hguard]
        exact .inl ⟨fun h => hready h.2.2, hresult, hnothing hresult⟩

end LegacyWheelAdapter

/-! ### Runs -/

namespace LegacyLog
variable {g : WheelGeometry} {side : Side} {log : List (LegacyCall ⊕ LegacyVerdict)} {w : LegacyWheel}

/-- What the adapter holds of a wheel after a log. -/
structure Gated (g : WheelGeometry) (side : Side) (log : List (LegacyCall ⊕ LegacyVerdict)) (w : LegacyWheel) :
    Prop where
  count : w.count = stored g side log
  advanced : w.advanced = true ↔ ∃ c, Pending g side log c
  stamp : ∀ c, Pending g side log c → w.stampNs = c.receiptNs ∧ 0 < w.stampNs
  past : w.stampNs ≤ 0 ∨ ∃ c, .inl c ∈ log ∧ w.stampNs = c.receiptNs

namespace Gated

theorem fresh : Gated g side [] ⟨none, false, 0⟩ where
  count := rfl
  advanced := by simp [Pending, not_since_nil]
  stamp := fun c hc => absurd hc not_since_nil
  past := .inl le_rfl

/-- A call that does not advance the counter of the wheel, but may show one. -/
theorem skip (h : Gated g side log w) {c : LegacyCall} (hno : ¬ Advances g side log (.inl c)) {count : Option UInt16}
    (hcount : count = stored g side (log ++ [.inl c])) :
    Gated g side (log ++ [.inl c]) { w with count := count } := by
  constructor
  · exact hcount
  · simp only [pending_skip hno]
    exact h.advanced
  · simp only [pending_skip hno]
    exact h.stamp
  · rcases h.past with hzero | ⟨d, hd, hstamp⟩
    · exact .inl hzero
    · exact .inr ⟨d, List.mem_append_left _ hd, hstamp⟩

theorem advance {c : LegacyCall} {current : UInt16} (hadvances : Advances g side log (.inl c))
    (hcarried : carried g side c = some current) :
    Gated g side (log ++ [.inl c]) ⟨some current, true, c.receiptNs⟩ := by
  constructor
  · exact (stored_carries (by exact hcarried)).symm
  · simp [pending_advance hadvances]
  · intro d hd
    obtain rfl := (pending_advance hadvances).1 hd
    exact ⟨rfl, carried_receipt hcarried⟩
  · exact .inr ⟨c, by simp, rfl⟩

/-- A call does to the wheel what the counter that it carries says. -/
theorem call (h : Gated g side log w) (c : LegacyCall) (hpast : ∀ d, .inl d ∈ log → d.receiptNs ≤ c.receiptNs) :
    Gated g side (log ++ [.inl c]) (w.see (carried g side c) c.receiptNs) := by
  cases hcarried : carried g side c with
  | none =>
    have hcount : w.count = stored g side (log ++ [.inl c]) := h.count.trans (stored_skip (by exact hcarried)).symm
    exact h.skip (not_advances (by exact hcarried)) hcount
  | some current =>
    have hstored : stored g side (log ++ [.inl c]) = some current := stored_carries (by exact hcarried)
    cases hcount : w.count with
    | none =>
      have hno : ¬ Advances g side log (.inl c) := by
        rintro ⟨previous, _, hprevious, -, -⟩
        rw [← h.count, hcount] at hprevious
        cases hprevious
      simpa [LegacyWheel.see, hcount] using h.skip hno hstored.symm
    | some previous =>
      have hprevious : stored g side log = some previous := h.count.symm.trans hcount
      by_cases hsame : current = previous
      · have hno : ¬ Advances g side log (.inl c) := by
          rintro ⟨p, q, hp, hq, hne⟩
          rw [hprevious] at hp
          rw [hcarried] at hq
          cases hp
          cases hq
          exact hne hsame
        have hw : ({ w with count := some current } : LegacyWheel) = w := by rw [hsame, ← hcount]
        have hskip := h.skip hno hstored.symm
        rw [hw] at hskip
        simpa [LegacyWheel.see, hcount, hsame] using hskip
      · have hadvances : Advances g side log (.inl c) := ⟨previous, current, hprevious, hcarried, hsame⟩
        have hreceipt := carried_receipt hcarried
        have hlate : w.stampNs ≤ c.receiptNs := by
          rcases h.past with hzero | ⟨d, hd, hstamp⟩
          · omega
          · rw [hstamp]
            exact hpast d hd
        have hsee : w.see (some current) c.receiptNs = ⟨some current, true, c.receiptNs⟩ := by
          simp [LegacyWheel.see, hcount, hsame, hlate]
        rw [hsee]
        exact advance hadvances hcarried

theorem verdict (h : Gated g side log w) (v : LegacyVerdict) :
    Gated g side (log ++ [.inr v]) { w with advanced := false } := by
  constructor
  · exact h.count.trans (stored_skip rfl).symm
  · simp [not_pending_verdict]
  · intro c hc
    exact absurd hc (not_pending_verdict v)
  · rcases h.past with hzero | ⟨d, hd, hstamp⟩
    · exact .inl hzero
    · exact .inr ⟨d, List.mem_append_left _ hd, hstamp⟩

end Gated
end LegacyLog

namespace LegacyWheelAdapter
open LegacyLog
variable {a : LegacyWheelAdapter} {side : Side}

theorem step_frame (hvalid : a.valid = true) (c : LegacyCall) :
    (gate.step a c).1.geometry = a.geometry ∧ (gate.step a c).1.timeoutNs = a.timeoutNs := by
  cases c with
  | counts offset counts receiptNs => exact receiveEscCountsAt_frame a offset counts receiptNs
  | rpm left right receiptNs =>
    rcases receiveRpmOf_cases hvalid left right receiptNs with
      ⟨-, h, -⟩ | ⟨l, r, -, -, -, -, ⟨-, h, -⟩ | ⟨-, h, -⟩⟩
    all_goals simp [gate, h]

theorem valid_congr {a' : LegacyWheelAdapter} (hgeometry : a'.geometry = a.geometry)
    (htimeout : a'.timeoutNs = a.timeoutNs) :
    a'.valid = a.valid := by
  unfold valid
  rw [hgeometry, htimeout]

theorem step_gated {g : WheelGeometry} {log : List (LegacyCall ⊕ LegacyVerdict)} (hvalid : a.valid = true)
    (hg : a.geometry = g) (c : LegacyCall) (hpast : ∀ d, .inl d ∈ log → d.receiptNs ≤ c.receiptNs)
    (h : Gated g side log (a.wheel side)) :
    Gated g side (log ++ (gate.told.step a c).2) ((gate.told.step a c).1.wheel side) := by
  subst hg
  have htold := h.call c hpast
  cases c with
  | counts offset counts receiptNs =>
    have hwheel := receiveEscCountsAt_wheel a offset counts receiptNs side
    simpa [Machine.told, gate, hwheel, LegacyCall.receiptNs] using htold
  | rpm left right receiptNs =>
    change Gated a.geometry side _ (a.wheel side) at htold
    rcases receiveRpmOf_cases hvalid left right receiptNs with
      ⟨-, hresult, hverdict⟩ | ⟨l, r, -, -, -, -, ⟨-, hresult, hverdict⟩ | ⟨-, hresult, hverdict⟩⟩
    · simpa [Machine.told, gate, hresult, hverdict] using htold
    · have := htold.verdict .stale
      simpa [Machine.told, gate, hresult, hverdict, wheel] using this
    · have := htold.verdict (.accepted ⟨rpmOf l r, receiptNs, receiptNs⟩)
      simpa [Machine.told, gate, hresult, hverdict, wheel] using this

/-- The adapter after the calls. -/
abbrev afterCalls (geometry : WheelGeometry) (timeoutNs : Int) (calls : List LegacyCall) : LegacyWheelAdapter :=
  gate.final { geometry := geometry, timeoutNs := timeoutNs } calls

/-- The calls, each followed by its verdict. -/
abbrev callLog (geometry : WheelGeometry) (timeoutNs : Int) (calls : List LegacyCall) :
    List (LegacyCall ⊕ LegacyVerdict) :=
  gate.told.log { geometry := geometry, timeoutNs := timeoutNs } calls

section Runs
variable {geometry : WheelGeometry} {timeoutNs : Int}
  (hvalid : ({ geometry := geometry, timeoutNs := timeoutNs } : LegacyWheelAdapter).valid = true)
include hvalid

theorem afterCalls_frame (calls : List LegacyCall) :
    (afterCalls geometry timeoutNs calls).geometry = geometry ∧
      (afterCalls geometry timeoutNs calls).timeoutNs = timeoutNs ∧
      (afterCalls geometry timeoutNs calls).valid = true := by
  refine Machine.inv_final (A := fun _ _ => True)
    (I := fun (b : LegacyWheelAdapter) => b.geometry = geometry ∧ b.timeoutNs = timeoutNs ∧ b.valid = true) ?_ ⟨rfl,
      rfl, hvalid⟩
    (Machine.along_of_forall fun _ _ => trivial)
  rintro b c ⟨hgeometry, htimeout, hb⟩ -
  obtain ⟨hg, ht⟩ := step_frame hb c
  exact ⟨hg.trans hgeometry, ht.trans htimeout, (valid_congr hg ht).trans hb⟩

/-- The log of every run with non-decreasing receipts tells the adapter. -/
theorem run_gated {calls : List LegacyCall} (hsorted : calls.Pairwise fun c d => c.receiptNs ≤ d.receiptNs)
    (side : Side) :
    Gated geometry side (callLog geometry timeoutNs calls) ((afterCalls geometry timeoutNs calls).wheel side) := by
  induction calls using List.reverseRecOn with
  | nil => exact .fresh
  | append_singleton calls c ih =>
    obtain ⟨hcalls, -, hlast⟩ := List.pairwise_append.1 hsorted
    obtain ⟨hgeometry, -, hstill⟩ := afterCalls_frame hvalid calls
    have hstep := step_gated hstill hgeometry c (fun d hd => hlast d (Machine.of_mem_told _ hd) c (by simp))
      (ih hcalls)
    have hlog : callLog geometry timeoutNs (calls ++ [c]) =
        callLog geometry timeoutNs calls ++ (gate.told.step (afterCalls geometry timeoutNs calls) c).2 := by
      simp [callLog, Machine.log_append]
    have hfinal : afterCalls geometry timeoutNs (calls ++ [c]) =
        (gate.told.step (afterCalls geometry timeoutNs calls) c).1 := by
      simp [afterCalls, Machine.final_append, Machine.told]
    rw [hlog, hfinal]
    exact hstep

end Runs
/-! ### What the packets say -/

/-- What the adapter reads of a call. -/
inductive LegacyContent
  | packet (carried : Side → Option UInt16) (receiptNs : Int)
  | rpm (left right : Option Rat) (receiptNs : Int)

/-- A packet without a counter of either wheel says nothing. -/
def content (g : WheelGeometry) : LegacyCall → Option LegacyContent
  | .counts offset counts receiptNs =>
    if carried g .left (.counts offset counts receiptNs) = none ∧
        carried g .right (.counts offset counts receiptNs) = none then none
    else some (.packet (fun side => carried g side (.counts offset counts receiptNs)) receiptNs)
  | .rpm left right receiptNs => some (.rpm left right receiptNs)

/-- The gate over the contents. -/
def contentGate : Machine LegacyWheelAdapter LegacyContent LegacyVerdict where
  step a
    | .packet carried receiptNs =>
      ({ a with
        counts := fun side => ((a.wheel side).see (carried side) receiptNs).count
        advanced := fun side => ((a.wheel side).see (carried side) receiptNs).advanced
        stamps := fun side => ((a.wheel side).see (carried side) receiptNs).stampNs }, [])
    | .rpm left right receiptNs => gate.step a (.rpm left right receiptNs)

theorem receiveEscCountsAt_eq (a : LegacyWheelAdapter) (offset : Int) (counts : Fin 4 → UInt16) (receiptNs : Int) :
    a.receiveEscCountsAt offset counts receiptNs =
      (contentGate.step a
        (.packet (fun side => carried a.geometry side (.counts offset counts receiptNs)) receiptNs)).1 := by
  obtain ⟨hgeometry, htimeout⟩ := receiveEscCountsAt_frame a offset counts receiptNs
  have hwheel := receiveEscCountsAt_wheel a offset counts receiptNs
  generalize a.receiveEscCountsAt offset counts receiptNs = a' at *
  obtain ⟨geometry, timeoutNs, counts', advanced, stamps⟩ := a'
  subst hgeometry htimeout
  have hcount := funext fun side => congrArg LegacyWheel.count (hwheel side)
  have hadvanced := funext fun side => congrArg LegacyWheel.advanced (hwheel side)
  have hstamp := funext fun side => congrArg LegacyWheel.stampNs (hwheel side)
  dsimp only [wheel] at hcount hadvanced hstamp
  simp only [contentGate, wheel, ← hcount, ← hadvanced, ← hstamp]

theorem log_content (hvalid : a.valid = true) (calls : List LegacyCall) :
    gate.log a calls = contentGate.log a (calls.filterMap (content a.geometry)) := by
  induction calls generalizing a with
  | nil => rfl
  | cons c calls ih =>
    obtain ⟨hgeometry, htimeout⟩ := step_frame hvalid c
    have hrest := ih ((valid_congr hgeometry htimeout).trans hvalid)
    rw [hgeometry] at hrest
    rw [Machine.log_cons, hrest]
    cases c with
    | rpm left right receiptNs => rfl
    | counts offset counts receiptNs =>
      have hstep := receiveEscCountsAt_eq a offset counts receiptNs
      by_cases hnone : carried a.geometry .left (.counts offset counts receiptNs) = none ∧
          carried a.geometry .right (.counts offset counts receiptNs) = none
      · have hsilent : (fun side => carried a.geometry side (.counts offset counts receiptNs)) = fun _ => none := by
          funext side
          cases side with
          | left => exact hnone.1
          | right => exact hnone.2
        have hcontent : content a.geometry (.counts offset counts receiptNs) = none := if_pos hnone
        rw [hsilent] at hstep
        rw [List.filterMap_cons_none hcontent]
        change [] ++ contentGate.log (a.receiveEscCountsAt offset counts receiptNs) _ = _
        rw [hstep]
        rfl
      · have hcontent : content a.geometry (.counts offset counts receiptNs) =
            some (.packet (fun side => carried a.geometry side (.counts offset counts receiptNs)) receiptNs) :=
          if_neg hnone
        rw [List.filterMap_cons_some hcontent, Machine.log_cons, ← hstep]
        rfl

/-! ### The law of all runs -/

structure GateLaw (geometry : WheelGeometry) (timeoutNs : Int) (calls : List LegacyCall) : Prop where
  /-- An RPM passes if each wheel advanced since the last verdict, and both did within the timeout. -/
  accepts : ∀ pre left right t post, calls = pre ++ .rpm left right t :: post → ∀ motion,
    (((afterCalls geometry timeoutNs pre).receiveRpmOf left right t).2 = some motion ↔
      ∃ l r, left = some l ∧ right = some r ∧ motion = ⟨rpmOf l r, t, t⟩ ∧ 0 < t ∧
        ∀ side, ∃ c, Pending geometry side (callLog geometry timeoutNs pre) c ∧ t - c.receiptNs ≤ timeoutNs)
  /-- An RPM that finds one of the two advances older takes both away. -/
  stale : ∀ pre left right t post, calls = pre ++ .rpm left right t :: post →
    ((afterCalls geometry timeoutNs pre).verdict left right t = [.stale] ↔
      left.isSome ∧ right.isSome ∧ 0 < t ∧
        (∀ side, ∃ c, Pending geometry side (callLog geometry timeoutNs pre) c) ∧
        ∃ side c, Pending geometry side (callLog geometry timeoutNs pre) c ∧ timeoutNs < t - c.receiptNs)
  /-- Any other RPM changes nothing. -/
  unchanged : ∀ pre left right t post, calls = pre ++ .rpm left right t :: post →
    (afterCalls geometry timeoutNs pre).verdict left right t = [] →
      (afterCalls geometry timeoutNs pre).receiveRpmOf left right t = (afterCalls geometry timeoutNs pre, none)
  /-- Nothing but the counters of the two wheels' slots, their receipts and the RPMs has any influence. -/
  irrelevant : ∀ calls', calls'.filterMap (content geometry) = calls.filterMap (content geometry) →
    gate.log { geometry := geometry, timeoutNs := timeoutNs } calls' =
      gate.log { geometry := geometry, timeoutNs := timeoutNs } calls

section Found
variable {geometry : WheelGeometry} {log : List (LegacyCall ⊕ LegacyVerdict)} {t : Int}
  (hgated : ∀ side, Gated geometry side log (a.wheel side)) (hpast : ∀ c, .inl c ∈ log → c.receiptNs ≤ t)
include hgated

theorem advanced_iff : (∀ side, a.advanced side = true) ↔ ∀ side, ∃ c, Pending geometry side log c :=
  forall_congr' fun side => (hgated side).advanced

include hpast

/-- What the stamp of a wheel says of its last advance. -/
theorem expired_iff {c : LegacyCall} (hc : Pending geometry side log c) :
    a.Expired t side ↔ a.timeoutNs < t - c.receiptNs := by
  have hstamp : a.stamps side = c.receiptNs ∧ 0 < a.stamps side := (hgated side).stamp c hc
  have hle := hpast c hc.mem
  unfold Expired
  omega

/-- An RPM passes if both wheels advanced within the timeout. -/
theorem passes_iff (hvalid : a.valid = true) (left right : Option Rat) (motion : MotorRpmObservation) :
    (a.receiveRpmOf left right t).2 = some motion ↔
      ∃ l r, left = some l ∧ right = some r ∧ motion = ⟨rpmOf l r, t, t⟩ ∧ 0 < t ∧
        ∀ side, ∃ c, Pending geometry side log c ∧ t - c.receiptNs ≤ a.timeoutNs := by
  rcases receiveRpmOf_cases hvalid left right t with
    ⟨hno, hresult, -⟩ | ⟨l, r, rfl, rfl, ht, hboth, ⟨⟨side, hold⟩, hresult, -⟩ | ⟨hnew, hresult, -⟩⟩
  · rw [hresult]
    constructor
    · intro h
      cases h
    · rintro ⟨l, r, rfl, rfl, -, ht, hpending⟩
      exact absurd ⟨rfl, rfl, ht, (advanced_iff hgated).2 fun side => (hpending side).imp fun _ => And.left⟩ hno
  · rw [hresult]
    constructor
    · intro h
      cases h
    · rintro ⟨_, _, -, -, -, -, hpending⟩
      obtain ⟨c, hc, hle⟩ := hpending side
      have hlate := (expired_iff hgated hpast hc).1 hold
      omega
  · rw [hresult]
    constructor
    · rintro ⟨⟩
      refine ⟨l, r, rfl, rfl, rfl, ht, ?_⟩
      intro side
      obtain ⟨c, hc⟩ := (advanced_iff hgated).1 hboth side
      have hrecent := mt (expired_iff hgated hpast hc).2 (hnew side)
      exact ⟨c, hc, by omega⟩
    · rintro ⟨_, _, ⟨⟩, ⟨⟩, rfl, -, -⟩
      rfl

/-- An RPM is stale if both wheels advanced, one of them longer ago than the timeout. -/
theorem stale_iff (hvalid : a.valid = true) (left right : Option Rat) :
    a.verdict left right t = [.stale] ↔ left.isSome ∧ right.isSome ∧ 0 < t ∧
      (∀ side, ∃ c, Pending geometry side log c) ∧
        ∃ side c, Pending geometry side log c ∧ a.timeoutNs < t - c.receiptNs := by
  rcases receiveRpmOf_cases hvalid left right t with
    ⟨hno, -, hverdict⟩ | ⟨l, r, rfl, rfl, ht, hboth, ⟨⟨side, hold⟩, -, hverdict⟩ | ⟨hnew, -, hverdict⟩⟩
  · rw [hverdict]
    constructor
    · intro h
      cases h
    · rintro ⟨hleft, hright, ht, hpending, -⟩
      exact absurd ⟨hleft, hright, ht, (advanced_iff hgated).2 hpending⟩ hno
  · rw [hverdict]
    have hpending := (advanced_iff hgated).1 hboth
    obtain ⟨c, hc⟩ := hpending side
    have hlate := (expired_iff hgated hpast hc).1 hold
    exact iff_of_true rfl ⟨rfl, rfl, ht, hpending, side, c, hc, hlate⟩
  · rw [hverdict]
    constructor
    · intro h
      cases h
    · rintro ⟨-, -, -, -, side, c, hc, hlate⟩
      exact absurd ((expired_iff hgated hpast hc).2 hlate) (hnew side)

end Found

/-- In every run with valid slots and non-decreasing receipts, both wheels advance before an RPM passes. -/
theorem legacy_rpm_gate {geometry : WheelGeometry} {timeoutNs : Int} {calls : List LegacyCall}
    (hvalid : ({ geometry := geometry, timeoutNs := timeoutNs } : LegacyWheelAdapter).valid = true)
    (hsorted : calls.Pairwise fun c d => c.receiptNs ≤ d.receiptNs) : GateLaw geometry timeoutNs calls := by
  have hstate : ∀ pre left right t post, calls = pre ++ .rpm left right t :: post →
      (∀ side,
        Gated geometry side (callLog geometry timeoutNs pre) ((afterCalls geometry timeoutNs pre).wheel side)) ∧
        ∀ c, .inl c ∈ callLog geometry timeoutNs pre → c.receiptNs ≤ t := by
    rintro pre left right t post rfl
    obtain ⟨hpre, -, hbefore⟩ := List.pairwise_append.1 hsorted
    refine ⟨run_gated hvalid hpre, ?_⟩
    intro c hc
    exact hbefore c (Machine.of_mem_told _ hc) (.rpm left right t) (by simp)
  constructor
  · intro pre left right t post hcalls motion
    obtain ⟨hgated, hpast⟩ := hstate pre left right t post hcalls
    obtain ⟨-, htimeout, hstill⟩ := afterCalls_frame hvalid pre
    have hpasses := passes_iff hgated hpast hstill left right motion
    rw [htimeout] at hpasses
    exact hpasses
  · intro pre left right t post hcalls
    obtain ⟨hgated, hpast⟩ := hstate pre left right t post hcalls
    obtain ⟨-, htimeout, hstill⟩ := afterCalls_frame hvalid pre
    have hstale := stale_iff hgated hpast hstill left right
    rw [htimeout] at hstale
    exact hstale
  · intro pre left right t post hcalls hquiet
    obtain ⟨-, -, hstill⟩ := afterCalls_frame hvalid pre
    rcases receiveRpmOf_cases hstill left right t with
      ⟨-, hresult, -⟩ | ⟨l, r, -, -, -, -, ⟨-, -, hverdict⟩ | ⟨-, -, hverdict⟩⟩
    · exact hresult
    · rw [hverdict] at hquiet
      cases hquiet
    · rw [hverdict] at hquiet
      cases hquiet
  · intro calls' hsame
    rw [log_content hvalid, log_content hvalid, hsame]

/-- A baseline, a wrapping counter of each wheel in another group, an RPM that passes and one that finds nothing. -/
theorem legacy_rpm_gate_wraps :
    GateLaw { leftEscSlot := 1, rightEscSlot := 6 } 500
      [.counts 0 (fun _ => 65535) 10, .counts 4 (fun _ => 7) 10, .counts 0 (fun _ => 0) 20, .counts 4 (fun _ => 8) 30,
        .rpm (some 60) (some 60) 40, .rpm (some 60) (some 60) 50] :=
  legacy_rpm_gate (by decide) (by simp [LegacyCall.receiptNs])

end LegacyWheelAdapter
end Odometry
end MowgliMavros
