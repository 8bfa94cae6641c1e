import Mathlib.Algebra.Order.Field.Rat
import MowgliMavros.GnssStatus
import MowgliMavros.Lib.Machine

/-!
# The GNSS adapter (`adapter_state.hpp`)

Statuses, fixes and heights arrive by callbacks of their own; the adapter delivers a fix when its stamp is
one of an accepted status, with the ellipsoid height of the altitude sample that belongs to it. A
`Delivery` keeps the pending fix and the altitude queue that its output was made from.
-/

namespace MowgliMavros

/-- `stamp_ns`. -/
def stampNs (stamp : Stamp) : Int := stamp.sec * 1000000000 + stamp.nanosec

structure AltitudeSample where
  receiptRosNs : Int
  latitudeE7 : Int32
  longitudeE7 : Int32
  altitudeMslMm : Int32
  ellipsoidM : Option Rat
deriving DecidableEq

/-- `sensor_msgs/NavSatFix`, as far as the adapter looks at it; `status` -1 is `STATUS_NO_FIX`. -/
structure NavSatFix where
  stamp : Stamp
  frameId : String := ""
  status : Int8 := 0
  latitude : Option Rat := some 0
  longitude : Option Rat := some 0
  altitude : Option Rat := some 0
deriving DecidableEq

structure PendingFix where
  fix : NavSatFix
  receiptNs : Int
deriving DecidableEq

structure Delivery where
  pending : PendingFix
  queue : List AltitudeSample
  output : NavSatFix
deriving DecidableEq

def UniversalStatus.identity (input : UniversalStatus) : String := input.sourceId ++ "/" ++ input.sourceIncarnation

/-- The bounded queues: the oldest of more than 32 is dropped. -/
def pushBounded {α : Type*} (queue : List α) (a : α) : List α :=
  if (queue ++ [a]).length > 32 then (queue ++ [a]).tail else queue ++ [a]

/-- The sample was taken within 20 ms of the fix, at its position and height above sea level. -/
def NavSatFix.pairs (fix : NavSatFix) (sample : AltitudeSample) : Bool :=
  |sample.receiptRosNs - stampNs fix.stamp| ≤ 20000000 &&
    fix.latitude.any (fun latitude => |latitude - (sample.latitudeE7.toInt : Rat) / 10000000| < 1 / 20000000) &&
    fix.longitude.any (fun longitude => |longitude - (sample.longitudeE7.toInt : Rat) / 10000000| < 1 / 20000000) &&
    fix.altitude.any (fun altitude => |altitude - (sample.altitudeMslMm.toInt : Rat) / 1000| < 1 / 2000)

/-- The only sample of the queue that belongs to the fix. -/
def NavSatFix.matched (fix : NavSatFix) (queue : List AltitudeSample) : Option AltitudeSample :=
  match queue.filter fix.pairs with
  | [sample] => some sample
  | _ => none

structure AdapterState where
  source : String
  timeoutNs : Int := 3000000000
  identity : String := ""
  sequence : UInt64 := 0
  positionStamp : Stamp := ⟨0, 0⟩
  positionReceipt : Option Int := none
  lastFixStamp : Int := 0
  status : GnssStatus := {}
  acceptedStamps : List Int := []
  altitudes : List AltitudeSample := []
  pending : List PendingFix := []

inductive AdapterCall
  | status (input : UniversalStatus) (steadyNs : Int)
  | expire (steadyNs : Int)
  | altitude (sample : AltitudeSample)
  | fix (fix : NavSatFix) (steadyNs : Int)
  | take (steadyNs : Int)

inductive AdapterEvent
  | status (status : GnssStatus)
  | fix (delivery : Delivery)

namespace AdapterState

/-- The constructor throws for a timeout that is not positive. -/
def create (source : String) (timeoutNs : Int) : Except String AdapterState :=
  if timeoutNs ≤ 0 then .error "GNSS timeout must be positive" else .ok { source := source, timeoutNs := timeoutNs }

variable (s : AdapterState)

def fresh (now : Int) : Bool :=
  s.sequence ≠ 0 && s.positionReceipt.any fun receipt => now ≥ receipt && now - receipt ≤ s.timeoutNs

def invalidate : AdapterState :=
  { s with status := { s.status with
      fixValid := false
      fixType := .noFix
      rtkMode := .unknown
      valueFlags := 0
      differentialCorrections := false
      correctionsActive := false
      deadReckoning := false } }

/-- The adapter after the source of a status has been looked at. What is queued at startup is kept. -/
def ofIdentity (identity : String) : AdapterState :=
  if identity ≠ s.identity then
    { (if s.identity ≠ "" then { s with pending := [], altitudes := [], acceptedStamps := [] } else s) with
      identity := identity
      sequence := 0
      positionReceipt := none
      positionStamp := ⟨0, 0⟩
      lastFixStamp := 0 }
  else s

/-- A new sequence is a new position. -/
def advance (input : UniversalStatus) (steadyNs : Int) : AdapterState :=
  if input.positionObservationSequence ≠ s.sequence then
    { s with
      sequence := input.positionObservationSequence
      positionStamp := input.stamp
      positionReceipt := some steadyNs
      acceptedStamps := pushBounded s.acceptedStamps (stampNs input.stamp) }
  else s

/-- The status of the last position, with what it makes of the queues. -/
def report (input : UniversalStatus) (steadyNs : Int) : AdapterState :=
  let s := { s with status := { mapStatus input s.source with stamp := s.positionStamp } }
  let s := if ¬ s.fresh steadyNs then s.invalidate else s
  if ¬ s.status.fixValid then { s with acceptedStamps := [], pending := [] } else s

/-- `observe_status`; it returns the status of the state. -/
def observeStatus (input : UniversalStatus) (steadyNs : Int) : AdapterState :=
  let s := s.ofIdentity input.identity
  if input.positionObservationSequence < s.sequence then s.invalidate
  else (s.advance input steadyNs).report input steadyNs

def expires (steadyNs : Int) : Bool := !s.fresh steadyNs && s.status.fixValid

/-- `expire`; it returns the status of the state where it `expires`. -/
def expire (steadyNs : Int) : AdapterState :=
  if s.expires steadyNs then { s.invalidate with pending := [], altitudes := [] } else s

def observeAltitude (sample : AltitudeSample) : AdapterState :=
  { s with altitudes := pushBounded s.altitudes sample }

def observeFix (fix : NavSatFix) (steadyNs : Int) : AdapterState :=
  { s with pending := pushBounded s.pending ⟨fix, steadyNs⟩ }

/-- What the loop of `take_fixes` does with a fix it has taken from the queue. -/
def takeFix (fix : PendingFix) (steadyNs : Int) : AdapterState × Option Delivery :=
  let stamp := stampNs fix.fix.stamp
  if ¬ s.fresh steadyNs ∨ ¬ s.status.fixValid ∨ stamp ∉ s.acceptedStamps ∨ stamp ≤ s.lastFixStamp ∨
      fix.fix.status = -1 then
    (s, none)
  else
    let matched := fix.fix.matched s.altitudes
    ({ s with
        altitudes := if matched.isSome then s.altitudes.eraseP fix.fix.pairs else s.altitudes
        lastFixStamp := stamp },
     some ⟨fix, s.altitudes, { fix.fix with altitude := matched.bind (·.ellipsoidM), frameId := "gps_link" }⟩)

/-- The loop of `take_fixes`: the pending fixes that have waited 100 ms. -/
def takeDue (steadyNs : Int) : List PendingFix → AdapterState → AdapterState × List Delivery
  | [], s => ({ s with pending := [] }, [])
  | fix :: pending, s =>
    if steadyNs - fix.receiptNs ≥ 100000000 then
      let taken := s.takeFix fix steadyNs
      let rest := takeDue steadyNs pending taken.1
      (rest.1, taken.2.toList ++ rest.2)
    else ({ s with pending := fix :: pending }, [])

def takeFixes (steadyNs : Int) : AdapterState × List Delivery := takeDue steadyNs s.pending s

def step : AdapterCall → AdapterState × List AdapterEvent
  | .status input steadyNs =>
    let s := s.observeStatus input steadyNs
    (s, [.status s.status])
  | .expire steadyNs =>
    let expired := s.expire steadyNs
    (expired, if s.expires steadyNs then [.status expired.status] else [])
  | .altitude sample => (s.observeAltitude sample, [])
  | .fix fix steadyNs => (s.observeFix fix steadyNs, [])
  | .take steadyNs =>
    let taken := s.takeFixes steadyNs
    (taken.1, taken.2.map .fix)

def machine : Machine AdapterState AdapterCall AdapterEvent := ⟨step⟩

end AdapterState
end MowgliMavros
