import GeniusNew.Contracts.Basic

/-! # Hexadecimal text of either case

`bytes.fromhex` skips whitespace between two bytes and takes digits of either case, so
a text of 64 characters that it accepts need not be 64 digits.
-/

namespace GeniusNew

open Json

/-- `Py_ISSPACE`. -/
def isBlank (c : CodePoint) : Bool := c = 32 || 9 ≤ c.val && c.val ≤ 13

/-- A hexadecimal digit of either case. -/
def isHexDigit (c : CodePoint) : Bool := (hexValue c).isSome

/-- `bytes.fromhex`; nothing stands for its `ValueError`. -/
def bytesFromhex : Str → Option Bytes
  | [] => some []
  | [c] => if isBlank c then some [] else none
  | high :: low :: rest =>
      if isBlank high then bytesFromhex (low :: rest)
      else do
        let high ← hexValue high
        let low ← hexValue low
        return UInt8.ofNat (high * 16 + low) :: (← bytesFromhex rest)

def lowerCase (c : CodePoint) : CodePoint :=
  if 65 ≤ c.val ∧ c.val ≤ 90 then Fin.ofNat _ (c.val + 32) else c

/-- `text.lower()` for a text that is ASCII. -/
def asciiLower (text : Str) : Str := text.map lowerCase

section Digits

variable {c : CodePoint} {text : Str} {data : Bytes}

@[simp] theorem length_asciiLower : (asciiLower text).length = text.length := by
  simp [asciiLower]

theorem isBlank_of_isHexDigit (digit : isHexDigit c = true) : isBlank c = false := by
  rw [isHexDigit, Option.isSome_iff_exists] at digit
  obtain ⟨value, read⟩ := digit
  by_contra blank
  rw [Bool.not_eq_false, isBlank, Bool.or_eq_true, Bool.and_eq_true] at blank
  simp only [decide_eq_true_eq] at blank
  have small : c.val ≤ 32 := by
    rcases blank with rfl | bounds
    · decide
    · omega
  rw [hexValue, if_neg (by omega), if_neg (by omega), if_neg (by omega)] at read
  cases read

theorem lowerCase_val : (lowerCase c).val = if 65 ≤ c.val ∧ c.val ≤ 90 then c.val + 32 else c.val := by
  unfold lowerCase
  split_ifs with upper
  · exact Nat.mod_eq_of_lt (by omega)
  · rfl

theorem hexDigit_val {value : Nat} (bound : value < 16) :
    (hexDigit value).val = if value < 10 then 48 + value else 87 + value := by
  unfold hexDigit
  rw [Fin.val_ofNat]
  split_ifs <;> exact Nat.mod_eq_of_lt (by omega)

/-- A digit in lower case is the one its value is written with. -/
theorem hexValue_eq_some {value : Nat} :
    hexValue c = some value ↔ value < 16 ∧ lowerCase c = hexDigit value := by
  constructor
  · intro read
    have bound : value < 16 := by
      unfold hexValue at read
      split_ifs at read <;> obtain rfl := Option.some.inj read <;> omega
    refine ⟨bound, Fin.ext ?_⟩
    rw [lowerCase_val, hexDigit_val bound]
    unfold hexValue at read
    split_ifs at read <;> obtain rfl := Option.some.inj read <;> split_ifs <;> omega
  · rintro ⟨bound, lowered⟩
    have same := congrArg Fin.val lowered
    rw [lowerCase_val, hexDigit_val bound] at same
    unfold hexValue
    by_cases figure : value < 10
    · rw [if_pos figure] at same
      have range : 48 ≤ c.val ∧ c.val ≤ 57 := by split_ifs at same <;> omega
      rw [if_pos range]
      exact congrArg some (by split_ifs at same <;> omega)
    · rw [if_neg figure] at same
      by_cases upper : 65 ≤ c.val ∧ c.val ≤ 90
      · rw [if_pos upper] at same
        rw [if_neg (by omega), if_neg (by omega), if_pos (by omega)]
        exact congrArg some (by omega)
      · rw [if_neg upper] at same
        rw [if_neg (by omega), if_pos (by omega)]
        exact congrArg some (by omega)

theorem hex_cons_ofNat {upper under : Nat} (high : upper < 16) (low : under < 16) :
    hex (UInt8.ofNat (upper * 16 + under) :: data) = hexDigit upper :: hexDigit under :: hex data := by
  have value : (UInt8.ofNat (upper * 16 + under)).toNat = upper * 16 + under := by
    rw [UInt8.toNat_ofNat', Nat.mod_eq_of_lt (by omega)]
  change hexDigit _ :: hexDigit _ :: hex data = _
  rw [value]
  have first : (upper * 16 + under) / 16 = upper := by omega
  have second : (upper * 16 + under) % 16 = under := by omega
  rw [first, second]

/-- Without whitespace the accepted texts are digits throughout, and in lower case they
are the text the bytes are written as. -/
theorem lowered_of_bytesFromhex (plain : ∀ c ∈ text, isBlank c = false)
    (read : bytesFromhex text = some data) :
    (∀ c ∈ text, isHexDigit c = true) ∧ asciiLower text = hex data := by
  fun_induction bytesFromhex text generalizing data with
  | case1 =>
      obtain rfl := Option.some.inj read
      exact ⟨by simp, rfl⟩
  | case2 c blank => simp [blank] at plain
  | case3 => cases read
  | case4 high low rest blank ih => simp [blank] at plain
  | case5 high low rest blank ih =>
      simp only [Option.pure_def, Option.bind_eq_bind, Option.bind_eq_some_iff,
        Option.some.injEq] at read
      obtain ⟨upper, upperRead, under, underRead, tail, tailRead, rfl⟩ := read
      have ⟨digits, lowered⟩ := ih (fun c member => plain c (by simp [member])) tailRead
      have ⟨upperBound, upperLow⟩ := hexValue_eq_some.mp upperRead
      have ⟨underBound, underLow⟩ := hexValue_eq_some.mp underRead
      constructor
      · intro c member
        rcases List.mem_cons.mp member with rfl | member
        · rw [isHexDigit, upperRead, Option.isSome_some]
        · rcases List.mem_cons.mp member with rfl | member
          · rw [isHexDigit, underRead, Option.isSome_some]
          · exact digits c member
      · rw [hex_cons_ofNat upperBound underBound, ← lowered, ← upperLow, ← underLow]
        rfl

/-- A text that reads in lower case as bytes are written stands for these bytes. -/
theorem bytesFromhex_of_lowered (lowered : asciiLower text = hex data) :
    bytesFromhex text = some data := by
  induction data generalizing text with
  | nil =>
      obtain rfl := List.map_eq_nil_iff.mp lowered
      rfl
  | cons b data ih =>
      have bound := b.toNat_lt
      match text with
      | [] => cases lowered
      | [c] =>
          have sized := congrArg List.length lowered
          rw [length_asciiLower, length_hex, List.length_singleton] at sized
          omega
      | high :: low :: rest =>
          change lowerCase high :: lowerCase low :: asciiLower rest =
            hexDigit (b.toNat / 16) :: hexDigit (b.toNat % 16) :: hex data at lowered
          obtain ⟨upperLow, underLow, tail⟩ : _ ∧ _ ∧ _ := by simpa using lowered
          have upper := hexValue_eq_some.mpr ⟨(by omega : b.toNat / 16 < 16), upperLow⟩
          have under := hexValue_eq_some.mpr ⟨(by omega : b.toNat % 16 < 16), underLow⟩
          have digit : isBlank high = false := by
            apply isBlank_of_isHexDigit
            rw [isHexDigit, upper, Option.isSome_some]
          have whole : b.toNat / 16 * 16 + b.toNat % 16 = b.toNat := by omega
          rw [bytesFromhex, digit, upper, under, ih tail]
          change some (UInt8.ofNat (b.toNat / 16 * 16 + b.toNat % 16) :: data) = _
          rw [whole, UInt8.ofNat_toNat]

theorem asciiLower_of_isHexText {count : Nat} (accepted : isHexText count text = true) :
    asciiLower text = text := by
  simp only [isHexText, Bool.and_eq_true, List.all_eq_true] at accepted
  refine (List.map_congr_left fun c member => ?_).trans (List.map_id text)
  have digit := accepted.2 c member
  simp only [isLowerHex, isDigit, Bool.or_eq_true, Bool.and_eq_true, decide_eq_true_eq] at digit
  exact if_neg (by omega)

theorem bytesFromhex_hex (data : Bytes) : bytesFromhex (hex data) = some data :=
  bytesFromhex_of_lowered (asciiLower_of_isHexText (isHexText_hex data))

end Digits

end GeniusNew
