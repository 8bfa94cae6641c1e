import Mathlib.Tactic.Common

/-!
# The safety state (`safety_state.hpp`)

The emergencies the bridge projects from the hardware switch, the service, the tilt and the wheel
lifts. Times are nanoseconds of the ROS clock. The single-precision rounding of `lift_duration_sec` is
left out: the duration is an exact number of seconds.
-/

namespace MowgliMavros

inductive HardwareSafetyState
  | unknown | released | engaged
deriving DecidableEq, Repr

structure EmergencyState where
  activeEmergency : Bool := false
  latchedEmergency : Bool := false
  liftWarning : Bool := false
  liftDurationSec : Rat := 0
  reason : String := "NONE"
deriving DecidableEq

structure SafetyState where
  hardwareSafetyState : HardwareSafetyState := .unknown
  hardwareEmergencyLatched : Bool := false
  serviceEmergencyActive : Bool := false
  serviceEmergencyLatched : Bool := false
  tiltActive : Bool := false
  tiltLatched : Bool := false
  wheelLiftStateValid : Bool := false
  leftWheelLifted : Bool := false
  rightWheelLifted : Bool := false
  rawButtonState : UInt8 := 0
  lastButtonChangeNs : Int := 0
  liftStartedNs : Int := 0
deriving DecidableEq

namespace SafetyState
variable (s : SafetyState)

def observeMotorOutputs (present enabled : Bool) : SafetyState :=
  if ¬ present then { s with hardwareSafetyState := .unknown, hardwareEmergencyLatched := false }
  else { s with
    hardwareSafetyState := if enabled then .released else .engaged
    hardwareEmergencyLatched := !enabled }

def observeButtonChange (state : UInt8) (receiptNs : Int) : SafetyState :=
  let wasLifted := s.wheelLiftStateValid && (s.leftWheelLifted || s.rightWheelLifted)
  let left := state &&& 0x01 != 0
  let right := state &&& 0x02 != 0
  let lifted := left || right
  { s with
    rawButtonState := state
    leftWheelLifted := left
    rightWheelLifted := right
    wheelLiftStateValid := true
    lastButtonChangeNs := receiptNs
    liftStartedNs := if lifted && !wasLifted then receiptNs else if !lifted then 0 else s.liftStartedNs }

def setServiceEmergency (active : Bool) : SafetyState :=
  { s with serviceEmergencyActive := active, serviceEmergencyLatched := active }

def observeTilt (active : Bool) : SafetyState :=
  { s with tiltActive := active, tiltLatched := s.tiltLatched || active }

def clearReleasedLatches : SafetyState :=
  { s with serviceEmergencyLatched := false, tiltLatched := s.tiltLatched && s.tiltActive }

def disconnect : SafetyState :=
  { s with
    hardwareSafetyState := .unknown
    hardwareEmergencyLatched := false
    wheelLiftStateValid := false
    liftStartedNs := 0 }

def doubleLift : Bool := s.leftWheelLifted && s.rightWheelLifted

def liftedCount : Nat := if s.wheelLiftStateValid then s.leftWheelLifted.toNat + s.rightWheelLifted.toNat else 0

/-- `project` before it dates the lift. -/
def flags : EmergencyState :=
  let latched := s.hardwareEmergencyLatched || s.serviceEmergencyLatched || s.tiltLatched
  let result : EmergencyState := { latchedEmergency := latched, liftWarning := s.liftedCount == 1 }
  if s.hardwareSafetyState = .engaged then
    { result with activeEmergency := true, latchedEmergency := true, reason := "HARDWARE_SAFETY_SWITCH" }
  else if s.serviceEmergencyActive then
    { result with activeEmergency := true, reason := "SERVICE_EMERGENCY_STOP" }
  else if s.tiltActive then { result with activeEmergency := true, reason := "TILT" }
  else if s.liftedCount > 0 then
    { result with activeEmergency := s.liftedCount == 2, reason := "WHEEL_LIFT" }
  else result

def project (nowNs : Int) : EmergencyState :=
  if s.wheelLiftStateValid ∧ s.liftStartedNs > 0 ∧ nowNs ≥ s.liftStartedNs then
    { s.flags with liftDurationSec := ((nowNs - s.liftStartedNs : Int) : Rat) / 1000000000 }
  else s.flags

@[simp] theorem project_active (nowNs : Int) : (s.project nowNs).activeEmergency = s.flags.activeEmergency := by
  unfold project; split <;> rfl

@[simp] theorem project_latched (nowNs : Int) : (s.project nowNs).latchedEmergency = s.flags.latchedEmergency := by
  unfold project; split <;> rfl

@[simp] theorem project_reason (nowNs : Int) : (s.project nowNs).reason = s.flags.reason := by
  unfold project; split <;> rfl

/-! ### When an emergency is active or latched -/

def emergency : Bool := s.flags.activeEmergency || s.flags.latchedEmergency

theorem emergency_iff : s.emergency = true ↔
    s.hardwareSafetyState = .engaged ∨ s.hardwareEmergencyLatched = true ∨ s.serviceEmergencyActive = true ∨
      s.serviceEmergencyLatched = true ∨ s.tiltActive = true ∨ s.tiltLatched = true ∨ s.liftedCount = 2 := by
  unfold emergency flags
  split
  · simp [*]
  split
  · simp [*]
  split
  · simp [*]
  split
  · simp [*]; tauto
  · rename_i h
    have hnone : s.liftedCount = 0 := by omega
    simp [*, or_assoc]

theorem emergency_disconnect (h : s.disconnect.emergency = true) : s.emergency = true := by
  rw [emergency_iff] at h ⊢
  simp only [disconnect, liftedCount] at h
  rcases h with h | h | h | h | h | h | h
  · cases h
  · cases h
  · exact .inr (.inr (.inl h))
  · exact .inr (.inr (.inr (.inl h)))
  · exact .inr (.inr (.inr (.inr (.inl h))))
  · exact .inr (.inr (.inr (.inr (.inr (.inl h)))))
  · simp at h

/-- The motor outputs raise an emergency only by an engaged switch. -/
theorem emergency_observeMotorOutputs {present enabled : Bool}
    (hedge : (s.observeMotorOutputs present enabled).hardwareSafetyState = .engaged →
    s.hardwareSafetyState = .engaged)
    (h : (s.observeMotorOutputs present enabled).emergency = true) : s.emergency = true := by
  rw [emergency_iff] at h ⊢
  unfold observeMotorOutputs at h hedge
  cases present <;> cases enabled <;> simp [liftedCount] at h hedge ⊢ <;> tauto

/-- A button change raises an emergency only by a double lift. -/
theorem emergency_observeButtonChange (state : UInt8) (now : Int)
    (hlift : (s.observeButtonChange state now).doubleLift = false)
    (h : (s.observeButtonChange state now).emergency = true) : s.emergency = true := by
  rw [emergency_iff] at h ⊢
  have hcount : (s.observeButtonChange state now).liftedCount ≠ 2 := by
    unfold doubleLift at hlift
    unfold liftedCount
    have hvalid : (s.observeButtonChange state now).wheelLiftStateValid = true := rfl
    rw [if_pos hvalid]
    revert hlift
    cases (s.observeButtonChange state now).leftWheelLifted <;>
      cases (s.observeButtonChange state now).rightWheelLifted <;> simp
  have hrest := h
  simp only [hcount, or_false] at hrest
  rcases hrest with h | h | h | h | h | h
  · exact .inl h
  · exact .inr (.inl h)
  · exact .inr (.inr (.inl h))
  · exact .inr (.inr (.inr (.inl h)))
  · exact .inr (.inr (.inr (.inr (.inl h))))
  · exact .inr (.inr (.inr (.inr (.inr (.inl h)))))

theorem emergency_observeTilt_false (h : (s.observeTilt false).emergency = true) : s.emergency = true := by
  rw [emergency_iff] at h ⊢
  simp only [observeTilt, liftedCount, Bool.or_false, Bool.false_eq_true, false_or] at h ⊢
  tauto

theorem emergency_of_tilt (h : s.tiltActive = true) : s.emergency = true :=
  s.emergency_iff.2 (.inr (.inr (.inr (.inr (.inl h)))))

theorem emergency_released (h : (s.setServiceEmergency false).clearReleasedLatches.emergency = true) :
    s.emergency = true := by
  rw [emergency_iff] at h ⊢
  simp only [setServiceEmergency, clearReleasedLatches, liftedCount, Bool.and_eq_true, Bool.false_eq_true,
    false_or] at h ⊢
  tauto

end SafetyState
end MowgliMavros
