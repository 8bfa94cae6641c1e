import MowgliMavros.NtripFirstRead
import MowgliMavros.NtripReconnect
import MowgliMavros.NtripRequest

/-!
# The NTRIP client node (`ntrip_client_node.cpp`)

The node passes the stream on as `/rtcm` messages of at most 720 bytes, and logs the states of the connection.
Over every run the messages carry the bytes of the stream in what the reads were given, each once and in their
order (`rtcm_stream`), and what `log_status` prints between two handlers is what has been published and logged
(`status_truthful`). The stamps of the messages are left out.
-/

namespace MowgliMavros

open Prog (Triple Keeps)

namespace NtripClientNode

open NtripConnection (ConnectionOptions)

/-- The parameters of the connection, as `declare_parameters` sets them. -/
structure Parameters where
  host : Bytes := ascii "127.0.0.1"
  port : Int := 2101
  mountpoint : Bytes := []
  username : Bytes := []
  password : Bytes := []
  userAgent : Bytes := ascii "mowgli_ntrip_client/0.1"

/-- `static_cast<std::uint16_t>`. -/
def castPort (port : Int) : UInt16 := (port % 65536).toNat.toUInt16

def loadConnectionOptions (p : Parameters) : ConnectionOptions where
  host := p.host
  port := castPort p.port
  mountpoint := p.mountpoint
  username := p.username
  password := p.password
  userAgent := p.userAgent

/-- The checks of `setup_connection`. -/
def setupConnection (p : Parameters) : Except String ConnectionOptions :=
  let options := loadConnectionOptions p
  if options.host = [] then .error "Parameter 'host' must not be empty"
  else if options.mountpoint = [] then .error "Parameter 'mountpoint' must not be empty"
  else .ok options

/-- `mavros_msgs::msg::RTCM`. -/
structure Rtcm where
  frameId : String
  data : Bytes

inductive LogLevel
  | info
  | warn
deriving DecidableEq

/-- What the node publishes and logs. -/
inductive NodeOutput
  | rtcm (msg : Rtcm)
  | log (level : LogLevel) (connected : Bool) (state : String)

def maxRtcmMessageBytes : Nat := 720

/-- The loop of `split_rtcm_chunks` from `offset` on. -/
def chunksFrom (data : Bytes) (offset : Nat) : List Bytes :=
  if offset < data.length then
    (data.drop offset).take (min maxRtcmMessageBytes (data.length - offset)) ::
      chunksFrom data (offset + maxRtcmMessageBytes)
  else []
termination_by data.length - offset
decreasing_by
  simp only [maxRtcmMessageBytes]
  omega

def splitRtcmChunks (data : Bytes) : List Bytes := chunksFrom data 0

def publishRtcm (frameId : String) (data : Bytes) : List NodeOutput :=
  (splitRtcmChunks data).map fun chunk => .rtcm ⟨frameId, chunk⟩

/-- The states that are logged as warnings. -/
def warned (state : String) : Bool :=
  state = "reconnecting" || state = "resolve_failed" || state = "connect_failed" ||
    state = "handshake_write_failed" || state = "handshake_read_failed" || state = "caster_rejected" ||
    state = "stream_failed" || state = "read_timeout" || state = "connect_timeout"

def handleConnectionState (connected : Bool) (state : String) : List NodeOutput :=
  [.log (if connected then .info else if warned state then .warn else .info) connected state]

/-- The callbacks that `setup_connection` sets. -/
def callback (frameId : String) : NtripEvent → List NodeOutput
  | .output (.data bytes) => publishRtcm frameId bytes
  | .output (.state connected state) => handleConnectionState connected state
  | .resolving | .counted => []

/-- What the node publishes and logs for these events of the connection. -/
def callbacks (frameId : String) (events : List NtripEvent) : List NodeOutput := events.flatMap (callback frameId)

/-- What the node has published and logged after the run. -/
def outputs (frameId : String) (run : List AsioInput) : List NodeOutput :=
  callbacks frameId (AsioConnection.trace run)

def NodeOutput.rtcm? : NodeOutput → Option Rtcm
  | rtcm msg => some msg
  | log _ _ _ => none

def published (outputs : List NodeOutput) : List Rtcm := outputs.filterMap NodeOutput.rtcm?

/-- What `log_status` prints. -/
structure StatusLine where
  connected : String
  state : String
  bytesReceived : UInt64
  reconnects : UInt64
  lastError : String

/-- The timer of `log_status` runs on the executor, the handlers on `io_thread_`: a line printed while a handler runs
is not covered. -/
def logStatus (stats : ConnectionStats) : StatusLine where
  connected := if stats.connected then "true" else "false"
  state := stats.lastState
  bytesReceived := stats.bytesReceived
  reconnects := stats.reconnectCount
  lastError := if stats.lastError = "" then "<none>" else stats.lastError

/-! ### What the reads were given -/

/-- The bytes of the stream in what the handler of the operation is called with. -/
inductive Reads : Operation → Completion → Bytes → Prop
  | first {first bs : Bytes} (hcarries : Carries first bs) : Reads .handshakeRead (.ok first) bs
  | next (bytes : Bytes) : Reads .streamRead (.ok bytes) bytes
  | failed (k : Operation) (message : String) : Reads k (.error message) []
  /-- The handlers of the timers, of the resolver and of the writes read nothing. -/
  | nothing {k : Operation} (hfirst : k ≠ .handshakeRead) (hnext : k ≠ .streamRead) (bytes : Bytes) :
      Reads k (.ok bytes) []

/-- The bytes of the stream that the handler called by the step was given. -/
inductive Given (c : AsioConnection) : AsioInput → Bytes → Prop
  | run {i : Nat} {k : Operation} {completion : Completion} {bs : Bytes}
      (hready : Async.ready? c.pending i = some (k, completion)) (hreads : Reads k completion bs) :
      Given c (.run i) bs
  | idle {i : Nat} (hready : Async.ready? c.pending i = none) : Given c (.run i) []
  | expire (i : Nat) : Given c (.expire i) []
  | finish (i : Nat) (completion : Completion) : Given c (.finish i completion) []
  | stop : Given c .stop []

/-- The bytes of the stream that the handlers called by the run were given, in their order. -/
inductive Received : AsioConnection → List AsioInput → Bytes → Prop
  | nil (c : AsioConnection) : Received c [] []
  | cons {c : AsioConnection} {x : AsioInput} {run : List AsioInput} {bs more : Bytes} (hgiven : Given c x bs)
      (hmore : Received (AsioConnection.machine.step c x).1 run more) : Received c (x :: run) (bs ++ more)

/-- What the code makes of it. -/
def readBytes : Operation → Completion → Bytes
  | .handshakeRead, .ok first => (handshakeVerdict first).payload
  | .streamRead, .ok bytes => bytes
  | _, _ => []

def stepBytes (c : AsioConnection) : AsioInput → Bytes
  | .run i =>
    match Async.ready? c.pending i with
    | some (k, completion) => readBytes k completion
    | none => []
  | .expire _ | .finish _ _ | .stop => []

def received (c : AsioConnection) : List AsioInput → Bytes
  | [] => []
  | x :: run => stepBytes c x ++ received (AsioConnection.machine.step c x).1 run

theorem reads_iff {k : Operation} {completion : Completion} {bs : Bytes} :
    Reads k completion bs ↔ readBytes k completion = bs := by
  constructor
  · rintro (hcarries | _ | _ | ⟨hfirst, hnext, _⟩)
    · exact carries_iff.1 hcarries
    · rfl
    · cases k <;> rfl
    · cases k <;> first | rfl | contradiction
  · rintro rfl
    cases completion with
    | error message => cases k <;> exact .failed _ message
    | ok bytes =>
      cases k with
      | handshakeRead => exact .first (carries_iff.2 rfl)
      | streamRead => exact .next bytes
      | _ => exact .nothing (by simp) (by simp) bytes

theorem given_iff {c : AsioConnection} {x : AsioInput} {bs : Bytes} : Given c x bs ↔ stepBytes c x = bs := by
  constructor
  · rintro (⟨hready, hreads⟩ | hready | _ | _ | _)
    · rw [stepBytes, hready]
      exact reads_iff.1 hreads
    · rw [stepBytes, hready]
    all_goals rfl
  · rintro rfl
    cases x with
    | run i =>
      cases hready : Async.ready? c.pending i with
      | none =>
        rw [stepBytes, hready]
        exact .idle hready
      | some ready =>
        rw [stepBytes, hready]
        exact .run hready (reads_iff.2 rfl)
    | expire i => exact .expire i
    | finish i completion => exact .finish i completion
    | stop => exact .stop

theorem received_iff {c : AsioConnection} {run : List AsioInput} {bs : Bytes} :
    Received c run bs ↔ received c run = bs := by
  induction run generalizing c bs with
  | nil =>
    constructor
    · rintro ⟨⟩
      rfl
    · rintro rfl
      exact .nil c
  | cons x run ih =>
    constructor
    · rintro (_ | ⟨hgiven, hmore⟩)
      rw [received, given_iff.1 hgiven, ih.1 hmore]
    · rintro rfl
      exact .cons (given_iff.2 rfl) (ih.2 rfl)

/-- The state that was logged last, and whether it was a connected one. -/
def lastLogged (outputs : List NodeOutput) : Bool × String :=
  outputs.foldl (fun last o =>
    match o with
    | .log _ connected state => (connected, state)
    | .rtcm _ => last) (false, "idle")

def NodeOutput.isReconnecting : NodeOutput → Bool
  | log level _ state => level = .warn && state = "reconnecting"
  | rtcm _ => false

/-! ### Chunks -/

theorem chunksFrom_flatten (data : Bytes) (offset : Nat) : (chunksFrom data offset).flatten = data.drop offset := by
  fun_induction chunksFrom data offset with
  | case1 offset hlt ih =>
    have hchunk : (data.drop offset).take (min maxRtcmMessageBytes (data.length - offset)) =
        (data.drop offset).take maxRtcmMessageBytes := by
      rw [List.take_eq_take_iff, List.length_drop]
      omega
    rw [List.flatten_cons, ih, hchunk, ← List.drop_drop, List.take_append_drop]
  | case2 offset hge => exact (List.drop_eq_nil_of_le (Nat.le_of_not_lt hge)).symm

theorem mem_chunksFrom {data : Bytes} {offset : Nat} {chunk : Bytes} (h : chunk ∈ chunksFrom data offset) :
    0 < chunk.length ∧ chunk.length ≤ maxRtcmMessageBytes := by
  fun_induction chunksFrom data offset with
  | case1 offset hlt ih =>
    rcases List.mem_cons.1 h with rfl | h
    · simp only [List.length_take, List.length_drop, maxRtcmMessageBytes]
      omega
    · exact ih h
  | case2 offset hge => cases h


/-! ### The stream -/

theorem published_append (as bs : List NodeOutput) : published (as ++ bs) = published as ++ published bs :=
  List.filterMap_append

theorem published_publishRtcm (frameId : String) (data : Bytes) :
    published (publishRtcm frameId data) = (splitRtcmChunks data).map fun chunk => ⟨frameId, chunk⟩ := by
  rw [published, publishRtcm, List.filterMap_map]
  exact congrFun (List.filterMap_eq_map (f := fun chunk => (⟨frameId, chunk⟩ : Rtcm))) _

theorem lastLogged_append_rtcm (outputs : List NodeOutput) (msgs : List Bytes) (frameId : String) :
    lastLogged (outputs ++ msgs.map fun chunk => .rtcm ⟨frameId, chunk⟩) = lastLogged outputs := by
  rw [lastLogged, List.foldl_append, List.foldl_map, ← lastLogged]
  induction msgs with
  | nil => rfl
  | cons chunk msgs ih => exact ih

theorem callbacks_append (frameId : String) (as bs : List NtripEvent) :
    callbacks frameId (as ++ bs) = callbacks frameId as ++ callbacks frameId bs :=
  List.flatMap_append

theorem splitRtcmChunks_flatten (data : Bytes) : (splitRtcmChunks data).flatten = data := chunksFrom_flatten data 0

theorem isReconnecting_handle (connected : Bool) (state : String) :
    (handleConnectionState connected state).countP NodeOutput.isReconnecting =
      if connected = false ∧ state = "reconnecting" then 1 else 0 := by
  cases connected with
  | true => rfl
  | false =>
    by_cases hstate : state = "reconnecting"
    · subst hstate
      rfl
    · simp [handleConnectionState, NodeOutput.isReconnecting, hstate]

theorem countP_publishRtcm (frameId : String) (data : Bytes) :
    (publishRtcm frameId data).countP NodeOutput.isReconnecting = 0 := by
  rw [List.countP_eq_zero]
  intro o ho
  obtain ⟨chunk, -, rfl⟩ := List.mem_map.1 ho
  exact Bool.false_ne_true

/-- What has been published carries `bs`, which the reads were given, the counters and the last state agree with
it, and `ahead` losses are counted whose state is still to be posted. -/
structure Truthful (frameId : String) (bs : Bytes) (ahead : Nat) (c : AsioConnection) (l : List NtripEvent) :
    Prop where
  stream : (published (callbacks frameId l)).flatMap Rtcm.data = bs
  bytes : c.connection.stats.bytesReceived = bs.length.toUInt64
  counted : c.connection.stats.reconnectCount =
    ((callbacks frameId l).countP NodeOutput.isReconnecting + ahead).toUInt64
  last : lastLogged (callbacks frameId l) = (c.connection.stats.connected, c.connection.stats.lastState)
  error : c.connection.stats.connected = true → c.connection.stats.lastError = ""

namespace Truthful
variable {frameId : String} {bs : Bytes} {ahead : Nat}

open AsioConnection (Program)

/-- A program that emits nothing and leaves the statistics alone. -/
theorem update {f : AsioConnection → AsioConnection} (h : ∀ c, (f c).connection.stats = c.connection.stats) :
    Keeps (Truthful frameId bs ahead) (Prog.update f) := by
  refine Keeps.update fun c l ht => ?_
  obtain ⟨stream, bytes, counted, last, error⟩ := ht
  refine ⟨stream, ?_, ?_, ?_, ?_⟩
  all_goals rw [h]
  exacts [bytes, counted, last, error]

theorem closeSocket : Keeps (Truthful frameId bs ahead) AsioConnection.closeSocket := by
  refine update fun c => ?_
  split <;> rfl

theorem beginSocket (k : Operation) : Keeps (Truthful frameId bs ahead) (AsioConnection.beginSocket k) :=
  update fun _ => rfl

/-- The program counts no loss and posts one state. -/
theorem postState {connected : Bool} {state error : String} (herror : connected = true → error = "")
    {before : Nat} (hahead : before = (if connected = false ∧ state = "reconnecting" then 1 else 0) + ahead) :
    Triple (Truthful frameId bs before) (AsioConnection.postState connected state error)
      fun _ => Truthful frameId bs ahead := by
  intro c l h
  obtain ⟨stream, bytes, counted, last, -⟩ := h
  have hemitted : (AsioConnection.postState connected state error).emitted c =
      [.output (.state connected state)] := rfl
  have hcallback : callbacks frameId (l ++ [.output (.state connected state)]) =
      callbacks frameId l ++ handleConnectionState connected state := by
    rw [callbacks_append]
    exact congrArg _ (List.append_nil _)
  rw [hemitted]
  refine ⟨?_, bytes, ?_, ?_, ?_⟩
  · rw [hcallback, published_append, List.flatMap_append, stream]
    exact List.append_nil bs
  · rw [hcallback, List.countP_append, isReconnecting_handle, Nat.add_assoc, ← hahead]
    exact counted
  · rw [hcallback, lastLogged, List.foldl_append]
    rfl
  · intro hconnected
    subst hconnected
    show (if error ≠ "" then error else if true then "" else _) = ""
    rw [herror rfl]
    rfl

theorem countReconnect :
    Triple (Truthful frameId bs 0) AsioConnection.countReconnect fun _ => Truthful frameId bs 1 := by
  intro c l h
  obtain ⟨stream, bytes, counted, last, error⟩ := h
  have hcallback : callbacks frameId (l ++ [NtripEvent.counted]) = callbacks frameId l := by
    rw [callbacks_append]
    exact List.append_nil _
  refine ⟨?_, bytes, ?_, ?_, error⟩
  · show (published (callbacks frameId (l ++ [.counted]))).flatMap _ = bs
    rw [hcallback, stream]
  · show c.connection.stats.reconnectCount + 1 = ((callbacks frameId (l ++ [.counted])).countP _ + 1).toUInt64
    rw [hcallback, counted]
    simp
  · show lastLogged (callbacks frameId (l ++ [.counted])) = _
    rw [hcallback]
    exact last

theorem deliver (more : Bytes) :
    Triple (Truthful frameId bs ahead) (AsioConnection.lift fun n => n.deliver more)
      fun _ => Truthful frameId (bs ++ more) ahead := by
  intro c l h
  obtain ⟨stream, bytes, counted, last, error⟩ := h
  have hcallback : callbacks frameId (l ++ (AsioConnection.lift fun n => n.deliver more).emitted c) =
      callbacks frameId l ++ publishRtcm frameId more := by
    rw [callbacks_append]
    show _ ++ callbacks frameId (List.map NtripEvent.output (if more = [] then [] else [.data more])) = _
    split
    · next hnil =>
      subst hnil
      rw [publishRtcm, splitRtcmChunks, chunksFrom]
      rfl
    · exact congrArg _ (List.append_nil _)
  refine ⟨?_, ?_, ?_, ?_, error⟩
  · rw [hcallback, published_append, List.flatMap_append, stream, published_publishRtcm,
      List.flatMap_map]
    exact congrArg _ (List.flatMap_id.trans (splitRtcmChunks_flatten more))
  · show c.connection.stats.bytesReceived + more.length.toUInt64 = _
    rw [bytes]
    simp
  · rw [hcallback, List.countP_append, countP_publishRtcm]
    exact counted
  · rw [hcallback]
    exact (lastLogged_append_rtcm _ _ _).trans last

theorem scheduleResolve (count : Bool) {reason : String} (hcount : count = decide (reason = "reconnecting")) :
    Keeps (Truthful frameId bs 0) (AsioConnection.scheduleResolve reason count) := by
  refine Keeps.read fun n => Keeps.when (closeSocket.seq fun _ => ?_)
  refine Keeps.seq (update fun _ => rfl) fun _ => Keeps.seq (update fun _ => rfl) fun _ => ?_
  refine Keeps.seq (update fun _ => rfl) fun _ => Keeps.seq (update fun _ => rfl) fun _ => ?_
  refine Triple.seq (R := Truthful frameId bs count.toNat) ?_ fun _ => ?_
  · cases count with
    | true => exact countReconnect
    | false => exact Keeps.skip
  · refine Triple.seq (R := Truthful frameId bs 0) (postState (by simp) ?_) fun _ => ?_
    · subst hcount
      by_cases h : reason = "reconnecting" <;> simp [h]
    · exact Keeps.seq (update fun _ => rfl) fun _ => update fun _ => rfl

/-- `async_resolve` is called. -/
theorem resolving : Keeps (Truthful frameId bs ahead) (Prog.emit NtripEvent.resolving) := by
  intro c l h
  have hcallback : callbacks frameId (l ++ [NtripEvent.resolving]) = callbacks frameId l := by
    rw [callbacks_append]
    exact List.append_nil _
  obtain ⟨stream, bytes, counted, last, error⟩ := h
  rw [← hcallback] at stream counted last
  exact ⟨stream, bytes, counted, last, error⟩

theorem lost {state error : String} (hstate : state ≠ "reconnecting") :
    Keeps (Truthful frameId bs ahead) (AsioConnection.postState false state error) :=
  postState (by simp) (by simp [hstate])

theorem fail {state error : String} (hstate : state ≠ "reconnecting") :
    Keeps (Truthful frameId bs 0) (AsioConnection.fail state error) :=
  (lost hstate).seq fun _ => scheduleResolve true rfl

theorem startReadWatchdog : Keeps (Truthful frameId bs ahead) AsioConnection.startReadWatchdog :=
  Keeps.seq (update fun _ => rfl) fun _ => update fun _ => rfl

theorem streamRead (bytes : Bytes) :
    Triple (Truthful frameId bs 0) (AsioConnection.streamRead bytes)
      fun _ => Truthful frameId (bs ++ bytes) 0 :=
  Triple.seq startReadWatchdog fun _ => Triple.seq (deliver bytes) fun _ => beginSocket _

end Truthful

theorem handshakeVerdict_reject {first : Bytes} {state error : String}
    (h : handshakeVerdict first = .reject state error) : state ≠ "reconnecting" := by
  rintro rfl
  unfold handshakeVerdict at h
  dsimp only at h
  split_ifs at h <;> simp at h

namespace Truthful
variable {frameId : String} {bs : Bytes}

theorem handle (k : Operation) (completion : Completion) :
    Triple (Truthful frameId bs 0) (AsioConnection.handle k completion)
      fun _ => Truthful frameId (bs ++ readBytes k completion) 0 := by
  have hkeeps : ∀ {x : AsioConnection.Program Unit}, Keeps (Truthful frameId bs 0) x →
      Triple (Truthful frameId bs 0) x fun _ => Truthful frameId (bs ++ []) 0 := by
    intro x hx
    rwa [List.append_nil]
  cases completion with
  | error message =>
    cases k with
    | starting => exact hkeeps (scheduleResolve false rfl)
    | reconnectWait | connectWait | watchdogWait => exact hkeeps Keeps.skip
    | _ => exact hkeeps (fail (by decide))
  | ok bytes =>
    cases k with
    | starting => exact hkeeps (scheduleResolve false rfl)
    | reconnectWait =>
      refine hkeeps (Keeps.read fun _ => Keeps.when ((lost (by decide)).seq fun _ => ?_))
      exact resolving.seq fun _ => update fun _ => rfl
    | connectWait =>
      refine hkeeps (Keeps.read fun _ => Keeps.when ((lost (by decide)).seq fun _ => ?_))
      exact closeSocket.seq fun _ => scheduleResolve true rfl
    | watchdogWait =>
      refine hkeeps (Keeps.read fun _ => Keeps.when ((lost (by decide)).seq fun _ => ?_))
      exact scheduleResolve true rfl
    | resolve =>
      refine hkeeps (Keeps.read fun _ => Keeps.when ((lost (by decide)).seq fun _ => ?_))
      refine Keeps.seq (Keeps.seq (update fun _ => rfl) fun _ => update fun _ => rfl) fun _ => ?_
      exact closeSocket.seq fun _ => Keeps.seq (update fun _ => rfl) fun _ => update fun _ => rfl
    | connect => exact hkeeps ((lost (by decide)).seq fun _ => beginSocket _)
    | write => exact hkeeps (beginSocket _)
    | handshakeRead =>
      show Triple _ (AsioConnection.handshakeRead bytes) _
      rw [AsioConnection.handshakeRead, readBytes]
      cases hverdict : handshakeVerdict bytes with
      | reject state error => exact hkeeps (fail (handshakeVerdict_reject hverdict))
      | accept payload =>
        refine Triple.seq (R := Truthful frameId bs 0) (update fun _ => rfl) fun _ => ?_
        refine Triple.seq (R := Truthful frameId bs 0) (update fun _ => rfl) fun _ => ?_
        have hposted : Keeps (Truthful frameId bs 0) (AsioConnection.postState true "streaming") :=
          postState (by simp) (by simp)
        exact Triple.seq hposted fun _ => streamRead payload
    | streamRead => exact streamRead bytes

theorem step {c : AsioConnection} {l : List NtripEvent} (h : Truthful frameId bs 0 c l) (x : AsioInput) :
    Truthful frameId (bs ++ stepBytes c x) 0 (AsioConnection.machine.step c x).1
      (l ++ (AsioConnection.machine.step c x).2) := by
  have hkeeps : ∀ {y : AsioConnection.Program Unit}, Keeps (Truthful frameId bs 0) y →
      Truthful frameId (bs ++ []) 0 (y.after c) (l ++ y.emitted c) := by
    intro y hy
    rw [List.append_nil]
    exact hy c l h
  cases x with
  | expire i => exact hkeeps (update fun _ => rfl)
  | finish i completion => exact hkeeps (update fun _ => rfl)
  | run i =>
    rw [stepBytes]
    cases hready : Async.ready? c.pending i with
    | none =>
      rw [AsioConnection.step_run_none hready]
      exact hkeeps (y := pure ()) Keeps.skip
    | some ready =>
      obtain ⟨k, completion⟩ := ready
      rw [AsioConnection.step_run hready]
      exact handle k completion (c.taken i) l ⟨h.stream, h.bytes, h.counted, h.last, h.error⟩
  | stop =>
    refine hkeeps (Keeps.read fun _ => Keeps.when (Keeps.seq (update fun _ => rfl) fun _ => ?_))
    refine Keeps.seq (update fun _ => rfl) fun _ => Keeps.seq (update fun _ => rfl) fun _ => ?_
    refine Keeps.seq (update fun _ => rfl) fun _ => Keeps.seq (update fun _ => rfl) fun _ => ?_
    exact closeSocket.seq fun _ => lost (by decide)

theorem run {c : AsioConnection} {l : List NtripEvent} (h : Truthful frameId bs 0 c l) (run : List AsioInput) :
    Truthful frameId (bs ++ received c run) 0 (AsioConnection.machine.final c run)
      (l ++ AsioConnection.machine.log c run) := by
  induction run generalizing c l bs with
  | nil => simpa [received] using h
  | cons x run ih =>
    have hrun := ih (h.step x)
    rwa [List.append_assoc, List.append_assoc] at hrun

theorem reach (frameId : String) (run : List AsioInput) :
    Truthful frameId (received {} run) 0 (AsioConnection.reach run) (AsioConnection.trace run) := by
  have hinit : Truthful frameId [] 0 {} [] := ⟨rfl, rfl, rfl, rfl, fun _ => rfl⟩
  exact hinit.run run

end Truthful

/-- In every order of the handlers: the `/rtcm` messages carry the bytes of the stream that the reads were given,
each once and in order, and no message is empty or longer than 720 bytes. -/
theorem rtcm_stream (frameId : String) (run : List AsioInput) :
    (∀ bs, Received {} run bs ↔ (published (outputs frameId run)).flatMap Rtcm.data = bs) ∧
      ∀ msg ∈ published (outputs frameId run),
        msg.frameId = frameId ∧ 0 < msg.data.length ∧ msg.data.length ≤ maxRtcmMessageBytes := by
  refine ⟨fun bs => ?_, fun msg hmsg => ?_⟩
  · rw [received_iff, outputs, (Truthful.reach frameId run).stream]
  obtain ⟨o, ho, hmsg⟩ := List.mem_filterMap.1 hmsg
  obtain ⟨e, -, ho⟩ := List.mem_flatMap.1 ho
  cases e with
  | resolving => cases ho
  | counted => cases ho
  | output out =>
    cases out with
    | state connected state =>
      obtain rfl := List.mem_singleton.1 ho
      cases hmsg
    | data bytes =>
      obtain ⟨chunk, hchunk, rfl⟩ := List.mem_map.1 ho
      cases hmsg
      exact ⟨rfl, mem_chunksFrom hchunk⟩

/-- What `log_status` prints between two handlers agrees with what the node has published and logged: the bytes of
the `/rtcm` messages and the warnings of a reconnection, each up to the wrap of its counter, and the state that was
logged last. -/
theorem status_truthful (frameId : String) (run : List AsioInput) :
    let line := logStatus (AsioConnection.reach run).connection.stats
    line.bytesReceived = ((published (outputs frameId run)).flatMap Rtcm.data).length.toUInt64 ∧
      line.reconnects = ((outputs frameId run).countP NodeOutput.isReconnecting).toUInt64 ∧
      line.state = (lastLogged (outputs frameId run)).2 ∧
      (line.connected = "true" ↔ (lastLogged (outputs frameId run)).1 = true) ∧
      (line.connected = "true" → line.lastError = "<none>") := by
  obtain ⟨stream, bytes, counted, last, error⟩ := Truthful.reach frameId run
  have hconnected : ∀ connected : Bool, (if connected then "true" else "false") = "true" ↔ connected = true := by
    decide
  refine ⟨?_, counted, ?_, ?_, fun hline => ?_⟩
  · rw [outputs, stream]
    exact bytes
  · rw [outputs, last]
    rfl
  · rw [outputs, last]
    exact hconnected _
  · rw [logStatus, if_pos (error ((hconnected _).1 hline))]

end NtripClientNode
end MowgliMavros
