import Mathlib.Algebra.Group.Nat.Defs
import MowgliMavros.Lib.Base64
import MowgliMavros.NtripConnection

/-!
# The NTRIP request (`ntrip_connection.cpp`)

`base64_encode` takes its sextets from a 32-bit accumulator that is never cleared, through a count of
pending bits that starts at −6. At each third byte the count is back there (`foldl_encodeByte`), and no sextet
reaches the bits that an earlier quantum left behind.
-/

namespace MowgliMavros
namespace NtripConnection

/-- The options that the request is made of. -/
structure ConnectionOptions where
  host : Bytes
  port : UInt16 := 2101
  mountpoint : Bytes
  username : Bytes
  password : Bytes
  userAgent : Bytes := ascii "mowgli_ntrip_client/0.1"

def base64Table : Bytes := ascii "ABCDEFGHIJKLMNOPQRSTUVWXYZabcdefghijklmnopqrstuvwxyz0123456789+/"

def tableAt (value : UInt32) : UInt8 := base64Table.getD (value &&& 0x3F).toNat 0

structure EncodeState where
  output : Bytes := []
  value : UInt32 := 0
  valueBits : Int := -6

/-- `while (value_bits >= 0)`. -/
def pushSextets (s : EncodeState) : EncodeState :=
  if 0 ≤ s.valueBits then
    pushSextets { s with
      output := s.output ++ [tableAt (s.value >>> s.valueBits.toNat.toUInt32)]
      valueBits := s.valueBits - 6 }
  else s
termination_by (s.valueBits + 6).toNat

def encodeByte (s : EncodeState) (c : UInt8) : EncodeState :=
  pushSextets { s with value := (s.value <<< 8) + c.toUInt32, valueBits := s.valueBits + 8 }

/-- `while (output.size() % 4U != 0U)`. -/
def padOutput (output : Bytes) : Bytes :=
  if output.length % 4 ≠ 0 then padOutput (output ++ ascii "=") else output
termination_by (4 - output.length % 4) % 4
decreasing_by
  simp only [List.length_append, show (ascii "=").length = 1 from rfl]
  omega

/-- What follows the loop over the input. -/
def finishEncoding (s : EncodeState) : Bytes :=
  padOutput <|
    if s.valueBits > -6 then s.output ++ [tableAt ((s.value <<< 8) >>> (s.valueBits + 8).toNat.toUInt32)]
    else s.output

def base64Encode (input : Bytes) : Bytes := finishEncoding (input.foldl encodeByte {})

def normalizeMountpoint (mountpoint : Bytes) : Bytes :=
  match mountpoint with
  | [] => ascii "/"
  | front :: _ => if front = 0x2F then mountpoint else ascii "/" ++ mountpoint

/-- The lines before the credentials. -/
def requestLines (options : ConnectionOptions) : Bytes :=
  ascii "GET " ++ normalizeMountpoint options.mountpoint ++ ascii " HTTP/1.0\r\n" ++
  ascii "Host: " ++ options.host ++ ascii ":" ++ ascii (toString options.port) ++ ascii "\r\n" ++
  ascii "User-Agent: NTRIP " ++ options.userAgent ++ ascii "\r\n" ++
  ascii "Ntrip-Version: Ntrip/2.0\r\n" ++
  ascii "Accept: */*\r\n"

def buildRequest (options : ConnectionOptions) : Bytes :=
  requestLines options ++
  (if options.username ≠ [] ∨ options.password ≠ [] then
    ascii "Authorization: Basic " ++ base64Encode (options.username ++ ascii ":" ++ options.password) ++
      ascii "\r\n"
  else []) ++
  ascii "\r\n"

/-! ### The two loops -/

theorem tableAt_eq {value : UInt32} {n : Nat} (h : value.toNat % 64 = n % 64) : tableAt value = Base64.symbol n := by
  have hmask : (value &&& 0x3F).toNat = value.toNat % 64 := by
    rw [UInt32.toNat_and]
    exact Nat.and_two_pow_sub_one_eq_mod value.toNat 6
  have htable : base64Table = Base64.alphabet := by decide +kernel
  have hlt : n % 64 < Base64.alphabet.length := by
    rw [Base64.alphabet_length]
    omega
  rw [tableAt, hmask, h, htable, Base64.symbol, List.getD_eq_getElem?_getD, List.getD_eq_getElem?_getD,
    List.getElem?_eq_getElem hlt]
  rfl

theorem pushSextets_bits (output : Bytes) (value : UInt32) (k : Nat) :
    pushSextets ⟨output, value, k⟩ = pushSextets ⟨output ++ [tableAt (value >>> k.toUInt32)], value, k - 6⟩ := by
  rw [pushSextets, if_pos (Int.natCast_nonneg k)]
  rfl

theorem pushSextets_done {s : EncodeState} (h : s.valueBits < 0) : pushSextets s = s := by
  rw [pushSextets, if_neg (by omega)]

/-- `(value << 8) + c`. -/
def fed (value : UInt32) (c : UInt8) : UInt32 := (value <<< 8) + c.toUInt32

theorem toNat_shiftLeft (value : UInt32) : (value <<< 8).toNat = value.toNat % 16777216 * 256 := by
  rw [UInt32.toNat_shiftLeft]
  simp only [show (8 : UInt32).toNat % 32 = 8 from rfl, Nat.shiftLeft_eq]
  omega

theorem toNat_shiftRight {value shift : UInt32} {k : Nat} (hk : shift.toNat % 32 = k) :
    (value >>> shift).toNat = value.toNat / 2 ^ k := by
  rw [UInt32.toNat_shiftRight, hk, Nat.shiftRight_eq_div_pow]

theorem tableAt_shiftRight {value shift : UInt32} {k n : Nat} (hk : shift.toNat % 32 = k)
    (h : value.toNat / 2 ^ k % 64 = n % 64) : tableAt (value >>> shift) = Base64.symbol n := by
  refine tableAt_eq ?_
  rw [toNat_shiftRight hk]
  exact h

theorem toNat_fed (value : UInt32) (c : UInt8) :
    (fed value c).toNat = value.toNat % 16777216 * 256 + c.toNat := by
  have hc := c.toNat_lt
  rw [fed, UInt32.toNat_add, toNat_shiftLeft, UInt8.toNat_toUInt32]
  omega

theorem encodeByte_first (output : Bytes) (value : UInt32) (c : UInt8) :
    encodeByte ⟨output, value, -6⟩ c = ⟨output ++ [tableAt (fed value c >>> 2)], fed value c, -4⟩ := by
  show pushSextets ⟨output, fed value c, (2 : Nat)⟩ = _
  rw [pushSextets_bits, pushSextets_done (by simp)]
  rfl

theorem encodeByte_second (output : Bytes) (value : UInt32) (c : UInt8) :
    encodeByte ⟨output, value, -4⟩ c = ⟨output ++ [tableAt (fed value c >>> 4)], fed value c, -2⟩ := by
  show pushSextets ⟨output, fed value c, (4 : Nat)⟩ = _
  rw [pushSextets_bits, pushSextets_done (by simp)]
  rfl

theorem encodeByte_third (output : Bytes) (value : UInt32) (c : UInt8) :
    encodeByte ⟨output, value, -2⟩ c =
      ⟨output ++ [tableAt (fed value c >>> 6), tableAt (fed value c >>> 0)], fed value c, -6⟩ := by
  show pushSextets ⟨output, fed value c, (6 : Nat)⟩ = _
  rw [pushSextets_bits]
  show pushSextets ⟨output ++ [tableAt (fed value c >>> 6)], fed value c, (0 : Nat)⟩ = _
  rw [pushSextets_bits, pushSextets_done (by simp), List.append_assoc]
  rfl

/-- Three bytes write one quantum, whatever the accumulator holds. -/
theorem encodeByte_quantum (output : Bytes) (value : UInt32) (a b c : UInt8) :
    encodeByte (encodeByte (encodeByte ⟨output, value, -6⟩ a) b) c =
      ⟨output ++ Base64.encode [a, b, c], fed (fed (fed value a) b) c, -6⟩ := by
  have ha := a.toNat_lt
  have hb := b.toNat_lt
  have hc := c.toNat_lt
  have h₁ := toNat_fed value a
  have h₂ := toNat_fed (fed value a) b
  have h₃ := toNat_fed (fed (fed value a) b) c
  have w : tableAt (fed value a >>> 2) = Base64.symbol (Base64.quantum a b c / 262144) := by
    refine tableAt_shiftRight (k := 2) rfl ?_
    rw [Base64.quantum]
    omega
  have x : tableAt (fed (fed value a) b >>> 4) = Base64.symbol (Base64.quantum a b c / 4096) := by
    refine tableAt_shiftRight (k := 4) rfl ?_
    rw [Base64.quantum]
    omega
  have y : tableAt (fed (fed (fed value a) b) c >>> 6) = Base64.symbol (Base64.quantum a b c / 64) := by
    refine tableAt_shiftRight (k := 6) rfl ?_
    rw [Base64.quantum]
    omega
  have z : tableAt (fed (fed (fed value a) b) c >>> 0) = Base64.symbol (Base64.quantum a b c) := by
    refine tableAt_shiftRight (k := 0) rfl ?_
    rw [Base64.quantum]
    omega
  rw [encodeByte_first, encodeByte_second, encodeByte_third, w, x, y, z]
  simp [Base64.encode]

theorem padOutput_done {output : Bytes} (h : output.length % 4 = 0) : padOutput output = output := by
  rw [padOutput, if_neg (by simpa using h)]

theorem padOutput_pad {output : Bytes} (h : output.length % 4 ≠ 0) :
    padOutput output = padOutput (output ++ [Base64.pad]) := by
  rw [padOutput, if_pos h]
  rfl

/-- A byte that is left over: two sextets and two pads. -/
theorem finishEncoding_one {output : Bytes} (hlength : output.length % 4 = 0) (value : UInt32) (a : UInt8) :
    finishEncoding (encodeByte ⟨output, value, -6⟩ a) = output ++ Base64.encode [a] := by
  have ha := a.toNat_lt
  have h₁ := toNat_fed value a
  have h₂ := toNat_shiftLeft (fed value a)
  have w : tableAt (fed value a >>> 2) = Base64.symbol (Base64.quantum a 0 0 / 262144) := by
    refine tableAt_shiftRight (k := 2) rfl ?_
    rw [Base64.quantum, UInt8.toNat_zero]
    omega
  have x : tableAt ((fed value a <<< 8) >>> 4) = Base64.symbol (Base64.quantum a 0 0 / 4096) := by
    refine tableAt_shiftRight (k := 4) rfl ?_
    rw [Base64.quantum, UInt8.toNat_zero]
    omega
  rw [encodeByte_first, w]
  show padOutput (output ++ [_] ++ [tableAt ((fed value a <<< 8) >>> 4)]) = _
  rw [x, padOutput_pad (by simp; omega), padOutput_pad (by simp; omega), padOutput_done (by simp; omega)]
  simp [Base64.encode]

/-- Two bytes that are left over: three sextets and a pad. -/
theorem finishEncoding_two {output : Bytes} (hlength : output.length % 4 = 0) (value : UInt32) (a b : UInt8) :
    finishEncoding (encodeByte (encodeByte ⟨output, value, -6⟩ a) b) = output ++ Base64.encode [a, b] := by
  have ha := a.toNat_lt
  have hb := b.toNat_lt
  have h₁ := toNat_fed value a
  have h₂ := toNat_fed (fed value a) b
  have h₃ := toNat_shiftLeft (fed (fed value a) b)
  have w : tableAt (fed value a >>> 2) = Base64.symbol (Base64.quantum a b 0 / 262144) := by
    refine tableAt_shiftRight (k := 2) rfl ?_
    rw [Base64.quantum, UInt8.toNat_zero]
    omega
  have x : tableAt (fed (fed value a) b >>> 4) = Base64.symbol (Base64.quantum a b 0 / 4096) := by
    refine tableAt_shiftRight (k := 4) rfl ?_
    rw [Base64.quantum, UInt8.toNat_zero]
    omega
  have y : tableAt ((fed (fed value a) b <<< 8) >>> 6) = Base64.symbol (Base64.quantum a b 0 / 64) := by
    refine tableAt_shiftRight (k := 6) rfl ?_
    rw [Base64.quantum, UInt8.toNat_zero]
    omega
  rw [encodeByte_first, encodeByte_second, w, x]
  show padOutput (output ++ [_] ++ [_] ++ [tableAt ((fed (fed value a) b <<< 8) >>> 6)]) = _
  rw [y, padOutput_pad (by simp; omega), padOutput_done (by simp; omega)]
  simp [Base64.encode]

theorem finishEncoding_foldl (s output : Bytes) (value : UInt32) (hlength : output.length % 4 = 0) :
    finishEncoding (s.foldl encodeByte ⟨output, value, -6⟩) = output ++ Base64.encode s := by
  fun_induction Base64.encode s generalizing output value with
  | case1 a b c rest n ih =>
    have hquantum : (output ++ Base64.encode [a, b, c]).length % 4 = 0 := by
      simp [Base64.encode]
      omega
    rw [List.foldl_cons, List.foldl_cons, List.foldl_cons, encodeByte_quantum, ih _ _ hquantum]
    simp [Base64.encode, n]
  | case2 a b n => exact finishEncoding_two hlength value a b
  | case3 a n => exact finishEncoding_one hlength value a
  | case4 => exact (padOutput_done hlength).trans (List.append_nil output).symm

theorem base64Encode_eq (s : Bytes) : base64Encode s = Base64.encode s :=
  finishEncoding_foldl s [] 0 rfl

theorem base64Encode_rfc4648 (s : Bytes) :
    base64Encode s = Base64.encode s ∧ Base64.Text s.length (base64Encode s) ∧
      Base64.decode (base64Encode s) = some s := by
  rw [base64Encode_eq]
  constructor
  · rfl
  constructor
  · exact Base64.encode_text s
  · exact Base64.decode_encode s

/-! ### The credentials of the request -/

theorem not_isLineEnd_of_text {size : Nat} {text : Bytes} (h : Base64.Text size text) :
    ∀ byte ∈ text, isLineEnd byte = false := by
  have htable : Base64.alphabet.all (fun c => !isLineEnd c) = true := by decide +kernel
  obtain ⟨body, pads, rfl, -, hbody⟩ := h.padded
  intro byte hbyte
  rcases List.mem_append.1 hbyte with hbyte | hbyte
  · simpa using List.all_eq_true.1 htable byte (hbody byte hbyte)
  · rw [List.eq_of_mem_replicate hbyte]
    rfl

/-- The request carries the credentials on one line, and they can be read back from it. -/
theorem buildRequest_credentials (options : ConnectionOptions)
    (hcredentials : options.username ≠ [] ∨ options.password ≠ []) :
    ∃ text,
      buildRequest options =
        requestLines options ++ (ascii "Authorization: Basic " ++ text ++ ascii "\r\n") ++ ascii "\r\n" ∧
      (∀ byte ∈ text, isLineEnd byte = false) ∧
      Base64.decode text = some (options.username ++ ascii ":" ++ options.password) := by
  refine ⟨Base64.encode (options.username ++ ascii ":" ++ options.password), ?_, ?_, Base64.decode_encode _⟩
  · rw [buildRequest, if_pos hcredentials, base64Encode_eq]
  · exact not_isLineEnd_of_text (Base64.encode_text _)

end NtripConnection
end MowgliMavros
