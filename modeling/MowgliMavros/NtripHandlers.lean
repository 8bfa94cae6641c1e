import MowgliMavros.Lib.Async
import MowgliMavros.Lib.Machine
import MowgliMavros.Lib.Prog
import MowgliMavros.NtripConnection

/-!
# The handlers of the NTRIP connection (`ntrip_connection.cpp`)

Every operation that the connection starts has a handler, and asio decides which of the ended operations is
handled next. Closing the socket, cancelling the resolver or a timer, and setting a timer again end what is
under way with an error; the handler of an operation that ended before runs as if nothing had happened.
-/

namespace MowgliMavros

inductive Operation
  /-- The call of `schedule_resolve` that `start` posts. -/
  | starting
  | reconnectWait
  | connectWait
  | watchdogWait
  | resolve
  | connect
  | write
  | handshakeRead
  | streamRead
deriving DecidableEq

def Operation.isWait : Operation → Bool
  | starting | reconnectWait | connectWait | watchdogWait => true
  | resolve | connect | write | handshakeRead | streamRead => false

/-- The operations of the socket. -/
def Operation.isSocket : Operation → Bool
  | connect | write | handshakeRead | streamRead => true
  | starting | reconnectWait | connectWait | watchdogWait | resolve => false

/-- The error code's message, or what a read has received. -/
abbrev Completion := Except String Bytes

structure AsioConnection where
  /-- `handshake_complete_` is the phase `streaming`. -/
  connection : NtripConnection := { phase := .reconnecting }
  stopped : Bool := false
  socketOpen : Bool := false
  pending : List (Async.Pending Operation Completion) := [⟨.starting, some (.ok [])⟩]

inductive NtripEvent
  | output (o : NtripOutput)
  /-- `async_resolve` was called. -/
  | resolving
  /-- `reconnect_count` was incremented. -/
  | counted

/-- What asio decides, and the call of `stop`. -/
inductive AsioInput
  /-- The timer of a wait expires. -/
  | expire (i : Nat)
  /-- An operation of the resolver or of the socket ends. -/
  | finish (i : Nat) (completion : Completion)
  /-- The handler of an operation that has ended is called. -/
  | run (i : Nat)
  | stop
deriving DecidableEq

/-- What the first read is taken for. -/
inductive HandshakeVerdict
  | reject (state error : String)
  | accept (payload : Bytes)

def handshakeVerdict (initialChunk : Bytes) : HandshakeVerdict :=
  if initialChunk = [] then .reject "invalid_response" "empty handshake response"
  else if looksLikeRtcm3Stream initialChunk then .accept initialChunk
  else
    let textPrefix := extractTextPrefix initialChunk
    let statusLine := extractStatusLine textPrefix
    if isTextualErrorResponse textPrefix || isTextualErrorResponse statusLine then
      .reject "caster_rejected" (messageText (if statusLine = [] then textPrefix else statusLine))
    else if ¬ isSuccessStatusLine statusLine then
      .reject "invalid_response"
        (if statusLine = [] then "unrecognized handshake response" else messageText statusLine)
    else .accept (extractInitialPayload initialChunk textPrefix)

namespace AsioConnection

abbrev Program := Prog AsioConnection NtripEvent

def handshakeComplete (c : AsioConnection) : Prop := c.connection.phase = .streaming

instance (c : AsioConnection) : Decidable c.handshakeComplete := inferInstanceAs (Decidable (_ = _))

/-! ### asio -/

/-- `cancel()` of a timer or of the resolver; `expires_after` does the same to the waits of its timer. -/
def cancel (k : Operation) : Program Unit :=
  Prog.update fun c => { c with pending := Async.cancel (· = k) (.error "Operation canceled") c.pending }

def begin (k : Operation) : Program Unit := Prog.update fun c => { c with pending := Async.begin k c.pending }

/-- An operation of a closed socket ends at once. -/
def beginSocket (k : Operation) : Program Unit :=
  Prog.update fun c => { c with
    pending :=
      if c.socketOpen then Async.begin k c.pending
      else Async.beginEnded k (.error "Bad file descriptor") c.pending }

def closeSocket : Program Unit :=
  Prog.update fun c =>
    if c.socketOpen then
      { c with
        socketOpen := false
        pending := Async.cancel Operation.isSocket (.error "Operation canceled") c.pending }
    else c

/-- `boost::asio::async_connect` closes the socket and opens it for each endpoint. -/
def asyncConnect : Program Unit := do
  closeSocket
  Prog.update fun c => { c with socketOpen := true }
  begin .connect

/-! ### `NtripConnection` -/

def lift (f : NtripConnection → NtripConnection × List NtripOutput) : Program Unit := do
  let c ← Prog.get
  Prog.update fun c => { c with connection := (f c.connection).1 }
  Prog.emitAll ((f c.connection).2.map .output)

def setPhase (phase : NtripPhase) : Program Unit :=
  Prog.update fun c => { c with connection := { c.connection with phase := phase } }

def postState (connected : Bool) (state : String) (error : String := "") : Program Unit :=
  lift fun n => n.postState connected state error

/-- `++stats_.reconnect_count`. -/
def countReconnect : Program Unit := do
  Prog.update fun c => { c with connection := { c.connection with stats := { c.connection.stats with
    reconnectCount := c.connection.stats.reconnectCount + 1 } } }
  Prog.emit .counted

def scheduleResolve (reason : String) (count : Bool) : Program Unit := do
  let c ← Prog.get
  Prog.when (c.stopped = false) do
    closeSocket
    cancel .resolve
    cancel .connectWait
    cancel .watchdogWait
    setPhase .reconnecting
    Prog.when (count = true) countReconnect
    postState false reason
    cancel .reconnectWait
    begin .reconnectWait

/-- A failure is posted and the connection is made again. -/
def fail (state error : String) : Program Unit := do
  postState false state error
  scheduleResolve "reconnecting" true

def doResolve : Program Unit := do
  let c ← Prog.get
  Prog.when (c.stopped = false) do
    postState false "resolving"
    Prog.emit .resolving
    begin .resolve

def startConnectTimeout : Program Unit := do
  cancel .connectWait
  begin .connectWait

def doConnect : Program Unit := do
  let c ← Prog.get
  Prog.when (c.stopped = false) do
    postState false "connecting"
    startConnectTimeout
    asyncConnect

def doHandshake : Program Unit := do
  postState false "handshake"
  beginSocket .write

def startReadWatchdog : Program Unit := do
  cancel .watchdogWait
  begin .watchdogWait

def doReadStream : Program Unit := beginSocket .streamRead

/-- The end of the handler of the first read, when it is taken for a stream. -/
def startStreaming (payload : Bytes) : Program Unit := do
  setPhase .streaming
  cancel .connectWait
  postState true "streaming"
  startReadWatchdog
  lift fun n => n.deliver payload
  doReadStream

def handshakeRead (initialChunk : Bytes) : Program Unit :=
  match handshakeVerdict initialChunk with
  | .reject state error => fail state error
  | .accept payload => startStreaming payload

def streamRead (bytes : Bytes) : Program Unit := do
  startReadWatchdog
  lift fun n => n.deliver bytes
  doReadStream

def connectTimeout : Program Unit := do
  let c ← Prog.get
  Prog.when (¬ (c.stopped ∨ c.handshakeComplete)) do
    postState false "connect_timeout" "connection timed out"
    closeSocket
    scheduleResolve "reconnecting" true

def readTimeout : Program Unit := do
  let c ← Prog.get
  Prog.when (¬ (c.stopped ∨ ¬ c.handshakeComplete)) do
    postState false "read_timeout" "RTCM stream timed out"
    scheduleResolve "reconnecting" true

/-- The handler of each operation. -/
def handle : Operation → Completion → Program Unit
  | .starting, _ => scheduleResolve "starting" false
  | .reconnectWait, .ok _ => doResolve
  | .connectWait, .ok _ => connectTimeout
  | .watchdogWait, .ok _ => readTimeout
  | .reconnectWait, .error _ | .connectWait, .error _ | .watchdogWait, .error _ => pure ()
  | .resolve, .ok _ => doConnect
  | .resolve, .error message => fail "resolve_failed" message
  | .connect, .ok _ => doHandshake
  | .connect, .error message => fail "connect_failed" message
  | .write, .ok _ => beginSocket .handshakeRead
  | .write, .error message => fail "handshake_write_failed" message
  | .handshakeRead, .ok bytes => handshakeRead bytes
  | .handshakeRead, .error message => fail "handshake_read_failed" message
  | .streamRead, .ok bytes => streamRead bytes
  | .streamRead, .error message => fail "stream_failed" message

/-- What `stop` posts. -/
def stop : Program Unit := do
  Prog.update fun c => { c with stopped := true }
  cancel .reconnectWait
  cancel .connectWait
  cancel .watchdogWait
  cancel .resolve
  closeSocket
  postState false "stopped"

def take (i : Nat) : Program Unit := Prog.update fun c => { c with pending := c.pending.eraseIdx i }

/-- Calls the handler at place `i`, if it may run. -/
def call (i : Nat) : Option (Operation × Completion) → Program Unit
  | none => pure ()
  | some (k, completion) => do
    take i
    handle k completion

def react : AsioInput → Program Unit
  | .expire i => Prog.update fun c => { c with pending := Async.finishAt Operation.isWait (.ok []) i c.pending }
  | .finish i completion =>
    Prog.update fun c => { c with pending := Async.finishAt (!Operation.isWait ·) completion i c.pending }
  | .run i => do
    let c ← Prog.get
    call i (Async.ready? c.pending i)
  | .stop => do
    let c ← Prog.get
    Prog.when (c.stopped = false) stop

def machine : Machine AsioConnection AsioInput NtripEvent := ⟨fun c x => (react x c).2⟩

/-- The state and the events of a run from the call of `start`. -/
def reach (run : List AsioInput) : AsioConnection := machine.final {} run

def trace (run : List AsioInput) : List NtripEvent := machine.log {} run

end AsioConnection

/-! ### The connection alone

`NtripConnection.step` is what the handlers of the reads and of the two timeouts do to the connection and to the
callbacks, as long as they run in the phase they belong to. -/

theorem NtripConnection.handshakeRead_eq (n : NtripConnection) (initialChunk : Bytes) :
    n.handshakeRead initialChunk =
      match handshakeVerdict initialChunk with
      | .reject state error => n.fail state error
      | .accept payload => n.startStreaming payload := by
  unfold NtripConnection.handshakeRead handshakeVerdict
  dsimp only
  split_ifs <;> rfl

def NtripEvent.output? : NtripEvent → Option NtripOutput
  | output o => some o
  | resolving | counted => none

/-- The phase that the handler belongs to, and what it tells the connection. -/
def Operation.report? : Operation → Completion → Option (NtripPhase × NtripInput)
  | handshakeRead, .ok bytes => some (.handshake, .read bytes)
  | handshakeRead, .error message => some (.handshake, .readFailed message)
  | connectWait, .ok _ => some (.handshake, .connectTimeout)
  | streamRead, .ok bytes => some (.streaming, .read bytes)
  | streamRead, .error message => some (.streaming, .readFailed message)
  | watchdogWait, .ok _ => some (.streaming, .readTimeout)
  | _, _ => none

namespace AsioConnection

/-- The program leaves the connection and calls the callbacks as `n` says. -/
def Follows (x : Program Unit) (c : AsioConnection) (n : NtripConnection × List NtripOutput) : Prop :=
  (x.after c).connection = n.1 ∧ (x.emitted c).filterMap NtripEvent.output? = n.2

variable {c : AsioConnection}

theorem follows_fail (hlive : c.stopped = false) (state error : String) :
    Follows (fail state error) c (c.connection.fail state error) := by
  obtain ⟨connection, stopped, socketOpen, pending⟩ := c
  cases hlive
  cases socketOpen <;> exact ⟨rfl, rfl⟩

theorem filterMap_output (l : List NtripOutput) : (l.map NtripEvent.output).filterMap NtripEvent.output? = l := by
  rw [List.filterMap_map]
  exact List.filterMap_some

theorem follows_streamRead (bytes : Bytes) : Follows (streamRead bytes) c (c.connection.deliver bytes) := by
  have hemitted : (streamRead bytes).emitted c = (c.connection.deliver bytes).2.map .output ++ [] := rfl
  refine ⟨rfl, ?_⟩
  rw [hemitted, List.append_nil, filterMap_output]

theorem follows_startStreaming (payload : Bytes) :
    Follows (startStreaming payload) c (c.connection.startStreaming payload) := by
  have hemitted : (startStreaming payload).emitted c = (c.connection.startStreaming payload).2.map .output := by
    show [NtripEvent.output _] ++ (List.map NtripEvent.output _ ++ []) = _
    rw [List.append_nil]
    rfl
  refine ⟨rfl, ?_⟩
  rw [hemitted, filterMap_output]

theorem follows_connectTimeout (hlive : c.stopped = false) (hphase : ¬ c.handshakeComplete) :
    Follows connectTimeout c (c.connection.fail "connect_timeout" "connection timed out") := by
  obtain ⟨⟨phase, stats⟩, stopped, socketOpen, pending⟩ := c
  cases hlive
  cases phase with
  | streaming => exact absurd rfl hphase
  | handshake | reconnecting => cases socketOpen <;> exact ⟨rfl, rfl⟩

theorem follows_readTimeout (hlive : c.stopped = false) (hphase : c.handshakeComplete) :
    Follows readTimeout c (c.connection.fail "read_timeout" "RTCM stream timed out") := by
  obtain ⟨⟨phase, stats⟩, stopped, socketOpen, pending⟩ := c
  cases hlive
  cases hphase
  cases socketOpen <;> exact ⟨rfl, rfl⟩

theorem follows_handshakeRead (hlive : c.stopped = false) (initialChunk : Bytes) :
    Follows (handshakeRead initialChunk) c (c.connection.handshakeRead initialChunk) := by
  rw [NtripConnection.handshakeRead_eq, handshakeRead]
  split
  · exact follows_fail hlive _ _
  · exact follows_startStreaming _

/-- A handler that is called in its phase makes one step of `NtripConnection`. -/
theorem handle_follows {k : Operation} {completion : Completion} {phase : NtripPhase} {input : NtripInput}
    (hlive : c.stopped = false) (hreport : k.report? completion = some (phase, input))
    (hphase : c.handshakeComplete ↔ phase = .streaming) :
    Follows (handle k completion) c (NtripConnection.step { c.connection with phase := phase } input) := by
  obtain ⟨⟨before, stats⟩, stopped, socketOpen, pending⟩ := c
  cases completion with
  | error message =>
    cases k <;> cases hreport
    · exact follows_fail hlive _ _
    · exact follows_fail hlive _ _
  | ok bytes =>
    cases k <;> cases hreport
    · exact follows_connectTimeout hlive (by simp [hphase])
    · obtain rfl : before = .streaming := hphase.2 rfl
      exact follows_readTimeout hlive rfl
    · exact follows_handshakeRead hlive bytes
    · obtain rfl : before = .streaming := hphase.2 rfl
      exact follows_streamRead bytes

end AsioConnection

end MowgliMavros
