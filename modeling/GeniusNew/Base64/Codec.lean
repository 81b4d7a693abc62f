import Mathlib.Data.List.Basic

/-! # Base64

`binascii.b2a_base64` and the strict `binascii.a2b_base64`. The decoder takes the padding
and ignores what the spare bits of the last digit say, so it decodes what was encoded, but
other spellings of the same bytes as well.
-/

namespace Base64

/-- The padding character. -/
def equalsSign : UInt8 := 61

def symbol (n : Nat) : UInt8 :=
  UInt8.ofNat (if n < 26 then 65 + n else if n < 52 then 71 + n else if n < 62 then n - 4
    else if n = 62 then 43 else 47)

/-- The digit a character stands for. -/
def sextet (c : UInt8) : Option Nat :=
  if 65 ≤ c.toNat ∧ c.toNat ≤ 90 then some (c.toNat - 65)
  else if 97 ≤ c.toNat ∧ c.toNat ≤ 122 then some (c.toNat - 71)
  else if 48 ≤ c.toNat ∧ c.toNat ≤ 57 then some (c.toNat + 4)
  else if c.toNat = 43 then some 62
  else if c.toNat = 47 then some 63
  else none

/-- The digits of a text of bytes, three bytes at a time. -/
def sextets : List UInt8 → List Nat
  | x :: y :: z :: rest =>
      x.toNat / 4 :: (x.toNat % 4 * 16 + y.toNat / 16) :: (y.toNat % 16 * 4 + z.toNat / 64) ::
        z.toNat % 64 :: sextets rest
  | [x, y] => [x.toNat / 4, x.toNat % 4 * 16 + y.toNat / 16, y.toNat % 16 * 4]
  | [x] => [x.toNat / 4, x.toNat % 4 * 16]
  | [] => []

/-- `binascii.b2a_base64(data, newline=False)`. -/
def b2aBase64 (data : List UInt8) : List UInt8 :=
  (sextets data).map symbol ++ List.replicate ((3 - data.length % 3) % 3) equalsSign

/-- Where the decoder stands: how many digits of a group it has read, the bits of them that
are not written yet, and the padding. -/
structure Reading where
  position : Nat
  left : Nat
  pads : Nat
  padded : Bool

def Reading.start : Reading := ⟨0, 0, 0, false⟩

/-- The byte a digit completes, if any, and the state after it. -/
def Reading.take (reading : Reading) (digit : Nat) : Option UInt8 × Reading :=
  match reading.position with
  | 0 => (none, ⟨1, digit, 0, reading.padded⟩)
  | 1 => (some (UInt8.ofNat (reading.left * 4 + digit / 16)), ⟨2, digit % 16, 0, reading.padded⟩)
  | 2 => (some (UInt8.ofNat (reading.left * 16 + digit / 4)), ⟨3, digit % 4, 0, reading.padded⟩)
  | _ => (some (UInt8.ofNat (reading.left * 64 + digit)), ⟨0, 0, 0, reading.padded⟩)

/-- The loop of `binascii.a2b_base64(text, strict_mode=True)`. -/
def read (reading : Reading) : List UInt8 → Option (List UInt8)
  | [] => if reading.position = 0 then some [] else none
  | c :: rest =>
      if c = equalsSign then
        if reading.position = 0 then none
        else if 2 ≤ reading.position ∧ 4 ≤ reading.position + (reading.pads + 1) then
          if rest = [] then some [] else none
        else
          read { reading with
            pads := if 2 ≤ reading.position then reading.pads + 1 else reading.pads
            padded := true } rest
      else
        match sextet c with
        | none => none
        | some digit =>
            if reading.padded then none
            else (read (reading.take digit).2 rest).map ((reading.take digit).1.toList ++ ·)

def a2bBase64 (text : List UInt8) : Option (List UInt8) := read .start text

theorem sextet_symbol : ∀ n < 64, sextet (symbol n) = some n := by decide

theorem symbol_ne_equalsSign {n : Nat} (small : n < 64) : symbol n ≠ equalsSign := by
  intro same
  have digit := sextet_symbol n small
  have none : sextet equalsSign = none := by decide
  rw [same, none] at digit
  cases digit

theorem sextets_lt (data : List UInt8) : ∀ n ∈ sextets data, n < 64 := by
  fun_induction sextets data with
  | case1 x y z rest ih =>
      have first := x.toNat_lt
      have second := y.toNat_lt
      have third := z.toNat_lt
      intro n member
      simp only [List.mem_cons] at member
      rcases member with rfl | rfl | rfl | rfl | later
      · omega
      · omega
      · omega
      · omega
      · exact ih n later
  | case2 x y =>
      have first := x.toNat_lt
      have second := y.toNat_lt
      intro n member
      simp only [List.mem_cons, List.not_mem_nil, or_false] at member
      omega
  | case3 x =>
      have first := x.toNat_lt
      intro n member
      simp only [List.mem_cons, List.not_mem_nil, or_false] at member
      omega
  | case4 => exact fun n member => (List.not_mem_nil member).elim

theorem length_sextets (data : List UInt8) :
    (sextets data).length = (4 * data.length + 2) / 3 := by
  fun_induction sextets data with
  | case1 x y z rest ih =>
      simp only [List.length_cons, ih]
      omega
  | case2 x y => simp
  | case3 x => simp
  | case4 => simp

section Digits

variable {reading : Reading} {digit : Nat} {rest : List UInt8}

/-- A digit is taken. -/
theorem read_symbol (small : digit < 64) (unpadded : reading.padded = false) :
    read reading (symbol digit :: rest) =
      (read (reading.take digit).2 rest).map ((reading.take digit).1.toList ++ ·) := by
  rw [read, if_neg (symbol_ne_equalsSign small), sextet_symbol digit small]
  dsimp only
  rw [unpadded, if_neg Bool.false_ne_true]

/-- Four digits are three bytes. -/
theorem read_group {a b c d : Nat} (first : a < 64) (second : b < 64) (third : c < 64)
    (fourth : d < 64) (rest : List UInt8) :
    read .start (symbol a :: symbol b :: symbol c :: symbol d :: rest) =
      (read .start rest).map fun bytes =>
        UInt8.ofNat (a * 4 + b / 16) :: UInt8.ofNat (b % 16 * 16 + c / 4) ::
          UInt8.ofNat (c % 4 * 64 + d) :: bytes := by
  rw [read_symbol first rfl, read_symbol second rfl, read_symbol third rfl, read_symbol fourth rfl]
  simp only [Reading.take, Reading.start, Option.map_map]
  rfl

end Digits

section Bytes

variable (x y z : UInt8)

theorem first_byte : UInt8.ofNat (x.toNat / 4 * 4 + (x.toNat % 4 * 16 + y.toNat / 16) / 16) = x := by
  have bound := y.toNat_lt
  have whole : x.toNat / 4 * 4 + (x.toNat % 4 * 16 + y.toNat / 16) / 16 = x.toNat := by omega
  rw [whole, UInt8.ofNat_toNat]

theorem second_byte : UInt8.ofNat ((x.toNat % 4 * 16 + y.toNat / 16) % 16 * 16 +
    (y.toNat % 16 * 4 + z.toNat / 64) / 4) = y := by
  have bound := y.toNat_lt
  have later := z.toNat_lt
  have whole : (x.toNat % 4 * 16 + y.toNat / 16) % 16 * 16 +
      (y.toNat % 16 * 4 + z.toNat / 64) / 4 = y.toNat := by omega
  rw [whole, UInt8.ofNat_toNat]

theorem third_byte :
    UInt8.ofNat ((y.toNat % 16 * 4 + z.toNat / 64) % 4 * 64 + z.toNat % 64) = z := by
  have bound := z.toNat_lt
  have whole : (y.toNat % 16 * 4 + z.toNat / 64) % 4 * 64 + z.toNat % 64 = z.toNat := by omega
  rw [whole, UInt8.ofNat_toNat]

end Bytes

/-- What was encoded is decoded. -/
theorem a2bBase64_b2aBase64 (data : List UInt8) : a2bBase64 (b2aBase64 data) = some data := by
  unfold a2bBase64 b2aBase64
  fun_induction sextets data with
  | case1 x y z rest ih =>
      have first := x.toNat_lt
      have second := y.toNat_lt
      have third := z.toNat_lt
      have sized : (x :: y :: z :: rest).length % 3 = rest.length % 3 := by
        simp only [List.length_cons]
        omega
      simp only [List.map_cons, List.cons_append, sized]
      rw [read_group (by omega) (by omega) (by omega) (by omega), ih, first_byte, second_byte,
        third_byte]
      rfl
  | case2 x y =>
      have first := x.toNat_lt
      have second := y.toNat_lt
      have zero := second_byte x y 0
      have zeros : y.toNat % 16 * 4 + (0 : UInt8).toNat / 64 = y.toNat % 16 * 4 := rfl
      rw [zeros] at zero
      simp only [List.map_cons, List.map_nil, List.cons_append, List.nil_append]
      rw [read_symbol (by omega) rfl, read_symbol (by omega) rfl, read_symbol (by omega) rfl]
      simp only [Reading.take, Reading.start, first_byte, zero]
      rfl
  | case3 x =>
      have first := x.toNat_lt
      have zero := first_byte x 0
      have zeros : x.toNat % 4 * 16 + (0 : UInt8).toNat / 16 = x.toNat % 4 * 16 := rfl
      rw [zeros] at zero
      simp only [List.map_cons, List.map_nil, List.cons_append, List.nil_append]
      rw [read_symbol (by omega) rfl, read_symbol (by omega) rfl]
      simp only [Reading.take, Reading.start, zero]
      rfl
  | case4 => rfl

end Base64
