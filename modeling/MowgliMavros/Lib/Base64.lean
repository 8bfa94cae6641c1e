import Mathlib.Tactic.Common

/-!
# Base64

The standard alphabet with padding (RFC 4648, section 4). A quantum of three bytes is a number of 24 bits,
written as its four sextets; the last quantum is filled up with zero bits. `decode` takes the canonical
encodings only: the whole text, pads at its end, filling bits zero.
-/

namespace Base64

/-- `A` to `Z`, `a` to `z`, `0` to `9`, `+` and `/`. -/
def alphabet : List UInt8 :=
  ((List.range' 0x41 26 ++ List.range' 0x61 26 ++ List.range' 0x30 10) ++ [0x2B, 0x2F]).map Nat.toUInt8

def pad : UInt8 := 0x3D

/-- The character of the last sextet of `n`. -/
def symbol (n : Nat) : UInt8 := alphabet.getD (n % 64) pad

def quantum (a b c : UInt8) : Nat := a.toNat * 65536 + b.toNat * 256 + c.toNat

def encode : List UInt8 → List UInt8
  | a :: b :: c :: rest =>
    let n := quantum a b c
    symbol (n / 262144) :: symbol (n / 4096) :: symbol (n / 64) :: symbol n :: encode rest
  | [a, b] =>
    let n := quantum a b 0
    [symbol (n / 262144), symbol (n / 4096), symbol (n / 64), pad]
  | [a] =>
    let n := quantum a 0 0
    [symbol (n / 262144), symbol (n / 4096), pad, pad]
  | [] => []

/-- The sextet that a character stands for. -/
def sextet? (c : UInt8) : Option Nat := alphabet.idxOf? c

def firstByte (i j : Nat) : UInt8 := (i * 4 + j / 16).toUInt8

def secondByte (j k : Nat) : UInt8 := (j % 16 * 16 + k / 4).toUInt8

def thirdByte (k l : Nat) : UInt8 := (k % 4 * 64 + l).toUInt8

/-- The bytes of the last quantum. -/
def decodeLast (w x y z : UInt8) : Option (List UInt8) := do
  let i ← sextet? w
  let j ← sextet? x
  if y = pad ∧ z = pad then
    if j % 16 = 0 then some [firstByte i j] else none
  else
    let k ← sextet? y
    if z = pad then
      if k % 4 = 0 then some [firstByte i j, secondByte j k] else none
    else
      let l ← sextet? z
      some [firstByte i j, secondByte j k, thirdByte k l]

/-- The bytes of a quantum that others follow. -/
def decodeQuantum (w x y z : UInt8) : Option (List UInt8) :=
  if y = pad ∨ z = pad then none else decodeLast w x y z

def decode : List UInt8 → Option (List UInt8)
  | [] => some []
  | [w, x, y, z] => decodeLast w x y z
  | w :: x :: y :: z :: rest => do return (← decodeQuantum w x y z) ++ (← decode rest)
  | _ => none

/-- The text of `size` bytes: characters of the alphabet, then the pads that fill the last quantum. -/
structure Text (size : Nat) (text : List UInt8) : Prop where
  length : text.length = 4 * ((size + 2) / 3)
  padded : ∃ body pads, text = body ++ List.replicate pads pad ∧ pads ≤ 2 ∧ ∀ c ∈ body, c ∈ alphabet

/-! ### The alphabet -/

theorem alphabet_length : alphabet.length = 64 := by decide +kernel

theorem pad_notMem : pad ∉ alphabet := by decide +kernel

theorem symbol_mem (n : Nat) : symbol n ∈ alphabet := by
  have hlt : n % 64 < alphabet.length := by
    rw [alphabet_length]
    omega
  rw [symbol, List.getD_eq_getElem?_getD, List.getElem?_eq_getElem hlt]
  exact List.getElem_mem hlt

theorem symbol_ne_pad (n : Nat) : symbol n ≠ pad := by
  intro he
  exact pad_notMem (he ▸ symbol_mem n)

@[simp] theorem sextet?_symbol (n : Nat) : sextet? (symbol n) = some (n % 64) := by
  have htable : ∀ i < 64, alphabet.idxOf? (alphabet.getD i pad) = some i := by decide +kernel
  exact htable (n % 64) (Nat.mod_lt _ (by decide))

/-! ### One quantum there and back -/

theorem firstByte_quantum (a b c : UInt8) :
    firstByte (quantum a b c / 262144 % 64) (quantum a b c / 4096 % 64) = a := by
  have ha := a.toNat_lt
  have hb := b.toNat_lt
  have hc := c.toNat_lt
  apply UInt8.toNat_inj.1
  simp only [firstByte, quantum, Nat.toUInt8, UInt8.toNat_ofNat']
  omega

theorem secondByte_quantum (a b c : UInt8) :
    secondByte (quantum a b c / 4096 % 64) (quantum a b c / 64 % 64) = b := by
  have hb := b.toNat_lt
  have hc := c.toNat_lt
  apply UInt8.toNat_inj.1
  simp only [secondByte, quantum, Nat.toUInt8, UInt8.toNat_ofNat']
  omega

theorem thirdByte_quantum (a b c : UInt8) : thirdByte (quantum a b c / 64 % 64) (quantum a b c % 64) = c := by
  have hc := c.toNat_lt
  apply UInt8.toNat_inj.1
  simp only [thirdByte, quantum, Nat.toUInt8, UInt8.toNat_ofNat']
  omega

section Sextets
variable {w x y z : UInt8} {i j k l : Nat}

theorem decodeLast_full (hi : sextet? w = some i) (hj : sextet? x = some j) (hk : sextet? y = some k)
    (hl : sextet? z = some l) (hz : z ≠ pad) :
    decodeLast w x y z = some [firstByte i j, secondByte j k, thirdByte k l] := by
  simp only [decodeLast, hi, hj, hk, hl, Option.bind_eq_bind, Option.bind_some]
  rw [if_neg fun h => hz h.2, if_neg hz]

theorem decodeLast_pad (hi : sextet? w = some i) (hj : sextet? x = some j) (hk : sextet? y = some k)
    (hy : y ≠ pad) (hfill : k % 4 = 0) : decodeLast w x y pad = some [firstByte i j, secondByte j k] := by
  simp only [decodeLast, hi, hj, hk, Option.bind_eq_bind, Option.bind_some, if_true]
  rw [if_neg fun h => hy h.1, if_pos hfill]

theorem decodeLast_pads (hi : sextet? w = some i) (hj : sextet? x = some j) (hfill : j % 16 = 0) :
    decodeLast w x pad pad = some [firstByte i j] := by
  simp only [decodeLast, hi, hj, Option.bind_eq_bind, Option.bind_some, and_self, if_true]
  rw [if_pos hfill]

end Sextets

theorem decodeLast_three (a b c : UInt8) :
    decodeLast (symbol (quantum a b c / 262144)) (symbol (quantum a b c / 4096)) (symbol (quantum a b c / 64))
      (symbol (quantum a b c)) = some [a, b, c] := by
  rw [decodeLast_full (sextet?_symbol _) (sextet?_symbol _) (sextet?_symbol _) (sextet?_symbol _) (symbol_ne_pad _),
    firstByte_quantum, secondByte_quantum, thirdByte_quantum]

theorem decodeLast_two (a b : UInt8) :
    decodeLast (symbol (quantum a b 0 / 262144)) (symbol (quantum a b 0 / 4096)) (symbol (quantum a b 0 / 64))
      pad = some [a, b] := by
  have hfill : quantum a b 0 / 64 % 64 % 4 = 0 := by
    simp only [quantum, UInt8.toNat_zero]
    omega
  rw [decodeLast_pad (sextet?_symbol _) (sextet?_symbol _) (sextet?_symbol _) (symbol_ne_pad _) hfill,
    firstByte_quantum, secondByte_quantum]

theorem decodeLast_one (a : UInt8) :
    decodeLast (symbol (quantum a 0 0 / 262144)) (symbol (quantum a 0 0 / 4096)) pad pad = some [a] := by
  have hfill : quantum a 0 0 / 4096 % 64 % 16 = 0 := by
    simp only [quantum, UInt8.toNat_zero]
    omega
  rw [decodeLast_pads (sextet?_symbol _) (sextet?_symbol _) hfill, firstByte_quantum]

/-- A quantum without a pad is read the same whether or not another follows. -/
theorem decode_cons {w x y z : UInt8} {bytes : List UInt8} (h : decodeLast w x y z = some bytes) (hy : y ≠ pad)
    (hz : z ≠ pad) (rest : List UInt8) : decode (w :: x :: y :: z :: rest) = (decode rest).map (bytes ++ ·) := by
  cases rest with
  | nil => simp [decode, h]
  | cons t rest =>
    have hq : decodeQuantum w x y z = some bytes := by
      rw [decodeQuantum, if_neg (by simp [hy, hz]), h]
    simp only [decode, hq]
    cases decode (t :: rest) <;> rfl

theorem decode_encode (s : List UInt8) : decode (encode s) = some s := by
  fun_induction encode s with
  | case1 a b c rest n ih =>
    rw [decode_cons (decodeLast_three a b c) (symbol_ne_pad _) (symbol_ne_pad _), ih]
    rfl
  | case2 a b n => exact decodeLast_two a b
  | case3 a n => exact decodeLast_one a
  | case4 => rfl

/-! ### The shape of the text -/

theorem Text.quantum {size : Nat} {text : List UInt8} (h : Text size text) (w x y z : Nat) :
    Text (size + 3) (symbol w :: symbol x :: symbol y :: symbol z :: text) := by
  obtain ⟨body, pads, he, hpads, hbody⟩ := h.padded
  refine ⟨?_, symbol w :: symbol x :: symbol y :: symbol z :: body, pads, by rw [he]; rfl, hpads, ?_⟩
  · have hlength := h.length
    simp only [List.length_cons]
    omega
  · simpa [symbol_mem] using hbody

theorem encode_text (s : List UInt8) : Text s.length (encode s) := by
  fun_induction encode s with
  | case1 a b c rest n ih => exact ih.quantum _ _ _ _
  | case2 a b n =>
    refine ⟨by simp, [symbol (n / 262144), symbol (n / 4096), symbol (n / 64)], 1, rfl, by decide, ?_⟩
    simp [symbol_mem]
  | case3 a n =>
    refine ⟨by simp, [symbol (n / 262144), symbol (n / 4096)], 2, rfl, by decide, ?_⟩
    simp [symbol_mem]
  | case4 => exact ⟨rfl, [], 0, rfl, by decide, by simp⟩

end Base64
