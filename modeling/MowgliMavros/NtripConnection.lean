import MowgliMavros.Lib.FirstInfix
import MowgliMavros.Lib.Machine

/-!
# The NTRIP connection (`ntrip_connection.cpp`)

What the caster sends, from the first read after the request on. A `std::string` is the list of its bytes;
`read_buffer_` holds 4096 of them. The timers are inputs. What is reported in a phase it does not belong to is
left out here: `NtripHandlers` has the handlers in every order, those of aborted operations among them.
-/

namespace MowgliMavros

abbrev Bytes := List UInt8

def ascii (s : String) : Bytes := s.toList.map fun c => c.toNat.toUInt8

/-- The message text of these bytes. -/
def messageText (bytes : Bytes) : String := String.ofList (bytes.map fun byte => Char.ofNat byte.toNat)

def startsWith (value : Bytes) (start : String) : Bool := (ascii start).isPrefixOf value

def isSuccessStatusLine (line : Bytes) : Bool :=
  startsWith line "ICY 200" || startsWith line "HTTP/1.0 200" || startsWith line "HTTP/1.1 200"

def isTextualErrorResponse (text : Bytes) : Bool :=
  startsWith text "SOURCETABLE" || startsWith text "ERROR" ||
    startsWith text "ICY 401" || startsWith text "ICY 403" || startsWith text "ICY 404" ||
    startsWith text "HTTP/1.0 401" || startsWith text "HTTP/1.0 403" || startsWith text "HTTP/1.0 404" ||
    startsWith text "HTTP/1.1 401" || startsWith text "HTTP/1.1 403" || startsWith text "HTTP/1.1 404"

def isLineEnd (byte : UInt8) : Bool := byte = 0x0D || byte = 0x0A

def isText (byte : UInt8) : Bool := isLineEnd byte || byte = 0x09 || 0x20 ≤ byte && byte ≤ 0x7E

def isNonAscii (byte : UInt8) : Bool :=
  byte = 0 || byte < 0x09 || byte > 0x0D && byte < 0x20 || byte > 0x7E

def looksLikeRtcm3Stream (buffer : Bytes) : Bool :=
  let start := (buffer.take 32).takeWhile isText
  buffer.head?.any fun front => front = 0xD3 ||
    buffer.any isNonAscii && !startsWith start "HTTP/" && !startsWith start "ICY " &&
      !startsWith start "SOURCETABLE" && !startsWith start "ERROR"

def extractTextPrefix (buffer : Bytes) : Bytes := buffer.takeWhile isText

def extractStatusLine (text : Bytes) : Bytes := text.takeWhile fun byte => !isLineEnd byte

def blankLine : Bytes := ascii "\r\n\r\n"

def extractInitialPayload (buffer textPrefix : Bytes) : Bytes :=
  match List.firstInfix? blankLine textPrefix with
  | some headerEnd => buffer.drop (headerEnd + 4)
  | none =>
    if textPrefix.any isLineEnd then (buffer.drop (extractStatusLine textPrefix).length).dropWhile isLineEnd else []

structure ConnectionStats where
  connected : Bool := false
  bytesReceived : UInt64 := 0
  reconnectCount : UInt64 := 0
  lastState : String := "idle"
  lastError : String := ""

/-- Where the connection is in its life; `handshake_complete_` is `streaming`. -/
inductive NtripPhase
  | handshake
  | streaming
  | reconnecting
deriving DecidableEq

structure NtripConnection where
  phase : NtripPhase := .handshake
  stats : ConnectionStats := {}

/-- What the socket and the timers report. -/
inductive NtripInput
  | read (bytes : Bytes)
  | readFailed (message : String)
  | connectTimeout
  | readTimeout

/-- The calls of the state callback and of the data callback. -/
inductive NtripOutput
  | state (connected : Bool) (state : String)
  | data (bytes : Bytes)

namespace NtripConnection
variable (c : NtripConnection)

def postState (connected : Bool) (state : String) (error : String := "") : NtripConnection × List NtripOutput :=
  ({ c with stats := { c.stats with
      connected := connected
      lastState := state
      lastError := if error ≠ "" then error else if connected then "" else c.stats.lastError } },
   [.state connected state])

def scheduleResolve (reason : String) (countReconnect : Bool) : NtripConnection × List NtripOutput :=
  postState { c with
    phase := .reconnecting
    stats := { c.stats with
      reconnectCount := if countReconnect then c.stats.reconnectCount + 1 else c.stats.reconnectCount } } false reason

/-- A failure is posted and the connection is made again. -/
def fail (state error : String) : NtripConnection × List NtripOutput :=
  let (c, posted) := c.postState false state error
  let (c, resolving) := c.scheduleResolve "reconnecting" true
  (c, posted ++ resolving)

def deliver (bytes : Bytes) : NtripConnection × List NtripOutput :=
  ({ c with stats := { c.stats with bytesReceived := c.stats.bytesReceived + bytes.length.toUInt64 } },
   if bytes = [] then [] else [.data bytes])

/-- The stream begins with these bytes. -/
def startStreaming (bytes : Bytes) : NtripConnection × List NtripOutput :=
  let (c, posted) := postState { c with phase := .streaming } true "streaming"
  let (c, delivered) := c.deliver bytes
  (c, posted ++ delivered)

/-- The handler of the first read in `do_handshake`. -/
def handshakeRead (initialChunk : Bytes) : NtripConnection × List NtripOutput :=
  if initialChunk = [] then c.fail "invalid_response" "empty handshake response"
  else if looksLikeRtcm3Stream initialChunk then c.startStreaming initialChunk
  else
    let textPrefix := extractTextPrefix initialChunk
    let statusLine := extractStatusLine textPrefix
    if isTextualErrorResponse textPrefix || isTextualErrorResponse statusLine then
      c.fail "caster_rejected" (messageText (if statusLine = [] then textPrefix else statusLine))
    else if ¬ isSuccessStatusLine statusLine then
      c.fail "invalid_response"
        (if statusLine = [] then "unrecognized handshake response" else messageText statusLine)
    else c.startStreaming (extractInitialPayload initialChunk textPrefix)

def step (input : NtripInput) : NtripConnection × List NtripOutput :=
  match c.phase, input with
  | .handshake, .read bytes => c.handshakeRead bytes
  | .handshake, .readFailed message => c.fail "handshake_read_failed" message
  | .handshake, .connectTimeout => c.fail "connect_timeout" "connection timed out"
  | .streaming, .read bytes => c.deliver bytes
  | .streaming, .readFailed message => c.fail "stream_failed" message
  | .streaming, .readTimeout => c.fail "read_timeout" "RTCM stream timed out"
  | _, _ => (c, [])

def machine : Machine NtripConnection NtripInput NtripOutput := ⟨step⟩

end NtripConnection

/-- The bytes that the data callback was given. -/
def payload (log : List NtripOutput) : Bytes :=
  log.flatMap fun
    | .data bytes => bytes
    | .state _ _ => []

/-- A header of text bytes that begins with a success status line and whose only blank line ends it. -/
structure NtripHeader (header : Bytes) : Prop where
  text : ∀ byte ∈ header, isText byte = true
  status : isSuccessStatusLine (extractStatusLine header) = true
  ends : blankLine <:+ header
  only : ∀ pre post, header = pre ++ blankLine ++ post → post = []

/-- TCP splits the response into these reads. -/
structure Segmented (reads : List Bytes) (response : Bytes) : Prop where
  joins : reads.flatten = response
  fits : ∀ bytes ∈ reads, bytes ≠ [] ∧ bytes.length ≤ 4096

end MowgliMavros
