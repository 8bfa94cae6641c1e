import MowgliMavros.Lib.Lines
import MowgliMavros.NtripClientNode

/-!
# The request as the caster reads it

`parseRequest` reads the request line by line, as a caster does. It gets every parameter back if no carriage
return is among the mountpoint, the host and the user agent (`request_read`): none of them can end a line or the
head, and the credentials are encoded.
-/

namespace MowgliMavros
namespace NtripClientNode

open NtripConnection

/-- What a caster reads from a request. -/
structure ParsedRequest where
  mountpoint : Bytes
  host : Bytes
  port : Nat
  userAgent : Bytes
  credentials : Option (Bytes × Bytes)
deriving DecidableEq

/-- What stands between `start` and `stop`. -/
def between? (start stop : String) (line : Bytes) : Option Bytes :=
  if ascii start <+: line ∧ ascii stop <:+ line.drop start.length then
    some ((line.drop start.length).take (line.length - start.length - stop.length))
  else none

/-- What stands before and behind the first `separator`. -/
def splitFirst (separator : UInt8) (text : Bytes) : Bytes × Bytes :=
  (text.takeWhile (· ≠ separator), (text.dropWhile (· ≠ separator)).drop 1)

/-- The same for the last one. -/
def splitLast (separator : UInt8) (text : Bytes) : Bytes × Bytes :=
  let (behind, before) := splitFirst separator text.reverse
  (before.reverse, behind.reverse)

def decimal (digits : Bytes) : Nat := Nat.ofDigitChars 10 (digits.map fun digit => Char.ofNat digit.toNat) 0

def credentials? (line : Bytes) : Option (Bytes × Bytes) := do
  let text ← between? "Authorization: Basic " "" line
  let pair ← Base64.decode text
  return splitFirst 0x3A pair

def parseRequest (text : Bytes) : Option ParsedRequest := do
  let (lines, body) ← Lines.head? 0x0D 0x0A text
  match lines, body with
  | get :: host :: agent :: _version :: _accept :: more, [] => do
    let mountpoint ← between? "GET " " HTTP/1.0" get
    let address ← between? "Host: " "" host
    let userAgent ← between? "User-Agent: NTRIP " "" agent
    let (name, port) := splitLast 0x3A address
    match more with
    | [] => return ⟨mountpoint, name, decimal port, userAgent, none⟩
    | [line] => do
      let credentials ← credentials? line
      return ⟨mountpoint, name, decimal port, userAgent, some credentials⟩
    | _ => none
  | _, _ => none

/-! ### Reading back -/

theorem ascii_length (s : String) : (ascii s).length = s.length := by
  rw [ascii, List.length_map, String.length_toList]

theorem between?_append (start stop : String) (text : Bytes) :
    between? start stop (ascii start ++ text ++ ascii stop) = some text := by
  have hdrop : (ascii start ++ text ++ ascii stop).drop start.length = text ++ ascii stop := by
    rw [List.append_assoc, ← ascii_length, List.drop_left]
  have hlength : (ascii start ++ text ++ ascii stop).length - start.length - stop.length = text.length := by
    rw [List.length_append, List.length_append, ascii_length, ascii_length]
    omega
  rw [between?, hdrop, hlength, if_pos, List.take_left]
  exact ⟨by simp, List.suffix_append _ _⟩

theorem splitFirst_append {separator : UInt8} {before : Bytes} (h : separator ∉ before) (behind : Bytes) :
    splitFirst separator (before ++ separator :: behind) = (before, behind) := by
  have hbefore : ∀ byte ∈ before, (decide (byte ≠ separator)) = true := by
    intro byte hbyte
    rw [decide_eq_true_eq]
    rintro rfl
    exact h hbyte
  rw [splitFirst, List.takeWhile_append_of_pos hbefore, List.dropWhile_append_of_pos hbefore]
  simp

theorem splitLast_append {separator : UInt8} {behind : Bytes} (h : separator ∉ behind) (before : Bytes) :
    splitLast separator (before ++ separator :: behind) = (before, behind) := by
  have hreverse : (before ++ separator :: behind).reverse = behind.reverse ++ separator :: before.reverse := by
    simp
  rw [splitLast, hreverse, splitFirst_append (by simpa using h)]
  simp

theorem isDigit_range {c : Char} (h : c.isDigit = true) : 48 ≤ c.toNat ∧ c.toNat ≤ 57 := by
  simpa [Char.isDigit, UInt32.le_iff_toNat_le] using h

theorem mem_ascii_toString {n : Nat} {byte : UInt8} (h : byte ∈ ascii (toString n)) :
    48 ≤ byte.toNat ∧ byte.toNat ≤ 57 := by
  rw [Nat.toString_eq_repr, ascii, Nat.toList_repr] at h
  obtain ⟨c, hc, rfl⟩ := List.mem_map.1 h
  have hdigit := isDigit_range (Nat.isDigit_of_mem_toDigits (by decide) (by decide) hc)
  rw [UInt8.toNat_ofNat']
  omega

/-- The digits of a number are read back. -/
theorem decimal_ascii (n : Nat) : decimal (ascii (toString n)) = n := by
  have hback : (ascii (toString n)).map (fun digit => Char.ofNat digit.toNat) = Nat.toDigits 10 n := by
    rw [Nat.toString_eq_repr, ascii, Nat.toList_repr, List.map_map]
    refine (List.map_congr_left fun c hc => ?_).trans (List.map_id _)
    have hdigit := isDigit_range (Nat.isDigit_of_mem_toDigits (by decide) (by decide) hc)
    have hbyte : c.toNat.toUInt8.toNat = c.toNat := by
      rw [UInt8.toNat_ofNat']
      omega
    rw [Function.comp_apply, hbyte, Char.ofNat_toNat, id]
  rw [decimal, hback, Nat.ofDigitChars_toDigits (by decide) (by decide)]

/-! ### The lines of the request -/

def authorizationLine (options : ConnectionOptions) : List Bytes :=
  if options.username ≠ [] ∨ options.password ≠ [] then
    [ascii "Authorization: Basic " ++ base64Encode (options.username ++ ascii ":" ++ options.password)]
  else []

def headLines (options : ConnectionOptions) : List Bytes :=
  [ascii "GET " ++ normalizeMountpoint options.mountpoint ++ ascii " HTTP/1.0",
    ascii "Host: " ++ options.host ++ ascii ":" ++ ascii (toString options.port),
    ascii "User-Agent: NTRIP " ++ options.userAgent,
    ascii "Ntrip-Version: Ntrip/2.0",
    ascii "Accept: */*"] ++ authorizationLine options

theorem buildRequest_lines (options : ConnectionOptions) :
    buildRequest options = Lines.join 0x0D 0x0A (headLines options) ++ [0x0D, 0x0A] := by
  have hget : ascii " HTTP/1.0\r\n" = ascii " HTTP/1.0" ++ [0x0D, 0x0A] := rfl
  have hversion : ascii "Ntrip-Version: Ntrip/2.0\r\n" = ascii "Ntrip-Version: Ntrip/2.0" ++ [0x0D, 0x0A] := rfl
  have haccept : ascii "Accept: */*\r\n" = ascii "Accept: */*" ++ [0x0D, 0x0A] := rfl
  have hend : ascii "\r\n" = [0x0D, 0x0A] := rfl
  rw [buildRequest, requestLines, hget, hversion, haccept, hend, Lines.join, headLines, authorizationLine]
  split <;> simp

/-- What the options may hold. -/
structure Writable (options : ConnectionOptions) : Prop where
  mountpoint : 0x0D ∉ options.mountpoint
  host : 0x0D ∉ options.host
  userAgent : 0x0D ∉ options.userAgent

theorem not_mem_normalizeMountpoint {mountpoint : Bytes} (h : 0x0D ∉ mountpoint) :
    0x0D ∉ normalizeMountpoint mountpoint := by
  cases mountpoint with
  | nil => decide
  | cons front rest =>
    rw [normalizeMountpoint]
    split
    · exact h
    · rw [List.mem_append]
      exact not_or.2 ⟨by decide, h⟩

theorem not_mem_ascii_toString (n : Nat) : 0x0D ∉ ascii (toString n) := fun h =>
  absurd (mem_ascii_toString h).1 (by decide)

theorem Writable.lines {options : ConnectionOptions} (h : Writable options) :
    ∀ line ∈ headLines options, line ≠ [] ∧ 0x0D ∉ line := by
  have hnonempty : ∀ {start line : Bytes}, start ≠ [] → start ++ line ≠ [] :=
    fun hstart hnil => hstart (List.append_eq_nil_iff.1 hnil).1
  intro line hline
  rcases List.mem_append.1 hline with hline | hline
  · simp only [List.mem_cons, List.not_mem_nil, or_false] at hline
    rcases hline with rfl | rfl | rfl | rfl | rfl
    · rw [List.append_assoc]
      refine ⟨hnonempty (by decide), ?_⟩
      simp only [List.mem_append, not_or]
      exact ⟨by decide, not_mem_normalizeMountpoint h.mountpoint, by decide⟩
    · rw [List.append_assoc, List.append_assoc]
      refine ⟨hnonempty (by decide), ?_⟩
      simp only [List.mem_append, not_or]
      exact ⟨by decide, h.host, by decide, not_mem_ascii_toString _⟩
    · refine ⟨hnonempty (by decide), ?_⟩
      rw [List.mem_append]
      exact not_or.2 ⟨by decide, h.userAgent⟩
    · decide
    · decide
  · rw [authorizationLine] at hline
    split at hline
    · obtain rfl := List.mem_singleton.1 hline
      refine ⟨hnonempty (by decide), ?_⟩
      rw [List.mem_append, base64Encode_eq]
      refine not_or.2 ⟨by decide, fun hmem => ?_⟩
      exact absurd (not_isLineEnd_of_text (Base64.encode_text _) _ hmem) (by decide)
    · cases hline

theorem credentials?_line {username : Bytes} (h : 0x3A ∉ username) (password : Bytes) :
    credentials? (ascii "Authorization: Basic " ++ base64Encode (username ++ ascii ":" ++ password)) =
      some (username, password) := by
  have htext := between?_append "Authorization: Basic " "" (base64Encode (username ++ ascii ":" ++ password))
  have hpair : username ++ ascii ":" ++ password = username ++ 0x3A :: password := List.append_assoc ..
  rw [show ascii "" = [] from rfl, List.append_nil] at htext
  rw [credentials?, htext, base64Encode_eq, hpair]
  simp [Base64.decode_encode, splitFirst_append h]

/-- What the caster is told of these parameters. -/
def asRead (p : Parameters) : ParsedRequest where
  mountpoint := normalizeMountpoint p.mountpoint
  host := p.host
  port := (p.port % 65536).toNat
  userAgent := p.userAgent
  credentials := if p.username ≠ [] ∨ p.password ≠ [] then some (p.username, p.password) else none

theorem castPort_toNat (port : Int) : (castPort port).toNat = (port % 65536).toNat := by
  rw [castPort, UInt16.toNat_ofNat']
  omega

theorem parse_lines {options : ConnectionOptions} (h : Writable options) (husername : 0x3A ∉ options.username) :
    parseRequest (buildRequest options) = some ⟨normalizeMountpoint options.mountpoint, options.host,
      options.port.toNat, options.userAgent,
      if options.username ≠ [] ∨ options.password ≠ [] then some (options.username, options.password) else none⟩ := by
  have hget := between?_append "GET " " HTTP/1.0" (normalizeMountpoint options.mountpoint)
  have hhost : between? "Host: " ""
      (ascii "Host: " ++ options.host ++ ascii ":" ++ ascii (toString options.port)) =
        some (options.host ++ 0x3A :: ascii (toString options.port)) := by
    have := between?_append "Host: " "" (options.host ++ 0x3A :: ascii (toString options.port))
    rw [show ascii "" = [] from rfl, List.append_nil] at this
    rw [← this, List.append_assoc, List.append_assoc]
    rfl
  have hagent := between?_append "User-Agent: NTRIP " "" options.userAgent
  rw [show ascii "" = [] from rfl, List.append_nil] at hagent
  have hsplit : splitLast 0x3A (options.host ++ 0x3A :: ascii (toString options.port)) =
      (options.host, ascii (toString options.port)) :=
    splitLast_append (fun hmem => absurd (mem_ascii_toString hmem).2 (by decide)) _
  have hport : decimal (ascii (toString options.port)) = options.port.toNat := decimal_ascii _
  rw [parseRequest, buildRequest_lines, Lines.head?_join h.lines, headLines, authorizationLine]
  split
  · simp [-List.append_assoc, hget, hhost, hagent, hsplit, hport, credentials?_line husername]
  · simp [-List.append_assoc, hget, hhost, hagent, hsplit, hport]

theorem setupConnection_ok {p : Parameters} {options : ConnectionOptions} (h : setupConnection p = .ok options) :
    options = loadConnectionOptions p := by
  unfold setupConnection at h
  dsimp only at h
  split_ifs at h
  cases h
  rfl

/-- A caster that reads the request line by line gets the parameters back, the port as its 16 bits, and finds
nothing after the head. -/
theorem request_read {p : Parameters} {options : ConnectionOptions} (hsetup : setupConnection p = .ok options)
    (hmountpoint : 0x0D ∉ p.mountpoint) (hhost : 0x0D ∉ p.host) (huserAgent : 0x0D ∉ p.userAgent)
    (husername : 0x3A ∉ p.username) : parseRequest (buildRequest options) = some (asRead p) := by
  obtain rfl := setupConnection_ok hsetup
  rw [parse_lines ⟨hmountpoint, hhost, huserAgent⟩ husername, asRead, ← castPort_toNat]
  rfl

/-- A password with a colon and a line end, and a port that does not fit. -/
def awkward : Parameters where
  port := 67637
  mountpoint := ascii "NEAR"
  username := ascii "user"
  password := ascii "a:b\r\n"

theorem request_read_awkward :
    ∃ options, setupConnection awkward = .ok options ∧ parseRequest (buildRequest options) = some (asRead awkward) :=
  ⟨loadConnectionOptions awkward, rfl,
    request_read (p := awkward) rfl (by decide) (by decide) (by decide) (by decide)⟩

end NtripClientNode
end MowgliMavros
