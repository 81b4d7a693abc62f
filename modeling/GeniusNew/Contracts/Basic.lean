import GeniusNew.Json.Decoded
import GeniusNew.Json.Ascii
import GeniusNew.Json.Length
import GeniusNew.Hash.Sha256

/-! # Refusals, bytes and the canonical text

Every refusal of the service is a `ContractError` with its sentence; the other
exceptions are the ones the standard library can raise through it. `canonical`
is the one permitted JSON representation of a value.
-/

namespace GeniusNew

open Json

inductive Raised where
  | contractError (message : String)
  | typeError
  | valueError
  | unicodeError
  | recursionError
  | overflowError
  deriving DecidableEq

abbrev Outcome (α : Type) := Except Raised α

def fail {α : Type} (message : String) : Outcome α := .error (.contractError message)

section Outcome

variable {α β : Type}

theorem bind_eq_ok {ε : Type} {outcome : Except ε α} {next : α → Except ε β} {result : β} :
    (outcome >>= next) = .ok result ↔ ∃ value, outcome = .ok value ∧ next value = .ok result := by
  cases outcome with
  | error raised => simp [bind, Except.bind]
  | ok value => simp [bind, Except.bind]

theorem fail_ne_ok {message : String} {result : α} : (fail message : Outcome α) ≠ .ok result :=
  fun same => by cases same

theorem guarded_eq_ok {condition : Prop} [Decidable condition] {message : String}
    {next : Outcome α} {result : α} :
    (if condition then fail message else next) = .ok result ↔ ¬condition ∧ next = .ok result := by
  split_ifs with holds
  · simp only [holds, not_true_eq_false, false_and, iff_false]
    exact fail_ne_ok
  · simp [holds]

theorem guard_eq_ok {condition : Prop} [Decidable condition] {message : String}
    {next : Outcome α} {result : α} :
    (if condition then next else fail message) = .ok result ↔ condition ∧ next = .ok result := by
  split_ifs with holds
  · simp [holds]
  · simp only [holds, false_and, iff_false]
    exact fail_ne_ok

theorem pure_eq_ok {ε : Type} {value result : α} :
    (pure value : Except ε α) = .ok result ↔ value = result := ⟨Except.ok.inj, congrArg _⟩

end Outcome

abbrev Bytes := List UInt8

/-- `text.encode("ascii")` for a text that is ASCII. -/
def asciiBytes (text : Str) : Bytes := text.map fun c => UInt8.ofNat c.val

/-- `data.decode("ascii")`. -/
def decodeAscii (data : Bytes) : Option Str :=
  if data.all (· < 128) then some (data.map fun b => Fin.ofNat _ b.toNat) else none

/-- `canonical(value)` without the failures of the encoder. -/
def canonicalBytes (value : Value) : Bytes := asciiBytes (dumps value)

def canonical (interpreter : Interpreter) (value : Value) : Outcome Bytes :=
  if value.depth ≤ interpreter.recursionLimit then
    if value.printable interpreter then .ok (canonicalBytes value)
    else fail "value is not canonical JSON"
  else .error .recursionError

/-- An interpreter that prints every float literal as it stands. -/
def literalInterpreter : Interpreter where
  recursionLimit := 1000
  floatRepr := some
  floatRepr_fixed := fun _ => rfl
  recursionLimit_sufficient := by decide

theorem canonical_eq_ok {interpreter : Interpreter} {value : Value} {data : Bytes} :
    canonical interpreter value = .ok data ↔ value.depth ≤ interpreter.recursionLimit ∧
      value.printable interpreter = true ∧ data = canonicalBytes value := by
  simp only [canonical]
  split_ifs with shallow printed
  · simp [shallow, printed, eq_comm]
  · simp [shallow, printed, fail]
  · simp [shallow]

/-- `bytes.hex()`. -/
def hex (data : Bytes) : Str := data.flatMap fun b => [hexDigit (b.toNat / 16), hexDigit (b.toNat % 16)]

def isLowerHex (c : CodePoint) : Bool := isDigit c || 97 ≤ c.val && c.val ≤ 102

/-- `[0-9a-f]{count}` as a whole. -/
def isHexText (count : Nat) (text : Str) : Bool := text.length = count && text.all isLowerHex

/-- `bytes.fromhex` on lower-case hexadecimal text. -/
def fromHex : Str → Bytes
  | high :: low :: rest =>
      UInt8.ofNat ((hexValue high).getD 0 * 16 + (hexValue low).getD 0) :: fromHex rest
  | _ => []

/-- A lower-case SHA-256 digest as text. -/
abbrev Digest := { text : Str // isHexText 64 text = true }

theorem length_hex (data : Bytes) : (hex data).length = 2 * data.length := by
  induction data with
  | nil => rfl
  | cons b data ih =>
      rw [hex, List.flatMap_cons, List.length_append, ← hex, ih]
      simp
      omega

theorem isLowerHex_hexDigit : ∀ d < 16, isLowerHex (hexDigit d) = true := by decide

theorem isHexText_hex (data : Bytes) : isHexText (2 * data.length) (hex data) = true := by
  rw [isHexText, length_hex, decide_eq_true rfl, Bool.true_and, List.all_eq_true]
  intro c member
  obtain ⟨b, _, inside⟩ := List.mem_flatMap.mp member
  have bound := b.toNat_lt
  rcases List.mem_pair.mp inside with rfl | rfl <;> exact isLowerHex_hexDigit _ (by omega)

/-- `hashlib.sha256(data).hexdigest()`. -/
def sha256 (data : Bytes) : Digest :=
  ⟨hex (Sha256.digest data), by
    have text := isHexText_hex (Sha256.digest data)
    rwa [Sha256.length_digest] at text⟩

theorem joinSurrogates_of_ascii {text : Str} (ascii : ∀ c ∈ text, c.val < 0xd800) :
    joinSurrogates text = text := of_decide_eq_true (joined_of_ascii ascii)

theorem joinSurrogates_of_isHexText {count : Nat} {text : Str} (accepted : isHexText count text = true) :
    joinSurrogates text = text := by
  simp only [isHexText, Bool.and_eq_true, List.all_eq_true] at accepted
  refine joinSurrogates_of_ascii fun c member => ?_
  have digit := accepted.2 c member
  simp only [isLowerHex, isDigit, Bool.or_eq_true, Bool.and_eq_true, decide_eq_true_eq] at digit
  omega

theorem joinSurrogates_ne_nil {text : Str} (nonempty : text ≠ []) : joinSurrogates text ≠ [] := by
  match text with
  | [] => exact (nonempty rfl).elim
  | [c] => exact nonempty
  | high :: low :: rest =>
      rw [joinSurrogates]
      split_ifs <;> exact List.cons_ne_nil _ _

theorem fromHex_hex (data : Bytes) : fromHex (hex data) = data := by
  induction data with
  | nil => rfl
  | cons b data ih =>
      have bound := b.toNat_lt
      have digits := hexValue_hexDigit
      have split : hex (b :: data) =
          hexDigit (b.toNat / 16) :: hexDigit (b.toNat % 16) :: hex data := rfl
      rw [split, fromHex, ih, digits _ (by omega), digits _ (by omega)]
      have whole : b.toNat / 16 * 16 + b.toNat % 16 = b.toNat := by omega
      rw [Option.getD_some, Option.getD_some, whole, UInt8.ofNat_toNat]

theorem hexDigit_hexValue {c : CodePoint} (digit : isLowerHex c = true) :
    ∃ d < 16, hexValue c = some d ∧ hexDigit d = c := by
  simp only [isLowerHex, isDigit, Bool.or_eq_true, Bool.and_eq_true, decide_eq_true_eq] at digit
  have bound := c.isLt
  rcases digit with figure | letter
  · refine ⟨c.val - 48, by omega, if_pos figure, Fin.ext ?_⟩
    rw [hexDigit, if_pos (by omega), Fin.val_ofNat, Nat.mod_eq_of_lt (by omega)]
    omega
  · refine ⟨c.val - 87, by omega, ?_, Fin.ext ?_⟩
    · rw [hexValue, if_neg (by omega), if_pos letter]
    · rw [hexDigit, if_neg (by omega), Fin.val_ofNat, Nat.mod_eq_of_lt (by omega)]
      omega

theorem hex_fromHex {count : Nat} {text : Str} (accepted : isHexText (2 * count) text = true) :
    hex (fromHex text) = text := by
  simp only [isHexText, Bool.and_eq_true, decide_eq_true_eq] at accepted
  obtain ⟨sized, lower⟩ := accepted
  induction count generalizing text with
  | zero =>
      obtain rfl := List.length_eq_zero_iff.mp sized
      rfl
  | succ count ih =>
      match text with
      | [] => simp at sized
      | [_] =>
          rw [List.length_singleton] at sized
          omega
      | high :: low :: rest =>
          rw [List.all_cons, List.all_cons, Bool.and_eq_true, Bool.and_eq_true] at lower
          obtain ⟨upper, upperBound, upperRead, rfl⟩ := hexDigit_hexValue lower.1
          obtain ⟨under, underBound, underRead, rfl⟩ := hexDigit_hexValue lower.2.1
          have tail : hex (fromHex rest) = rest := by
            refine ih ?_ lower.2.2
            rw [List.length_cons, List.length_cons] at sized
            omega
          have whole : (UInt8.ofNat (upper * 16 + under)).toNat = upper * 16 + under := by
            rw [UInt8.toNat_ofNat', Nat.mod_eq_of_lt (by omega)]
          have split (b : UInt8) (data : Bytes) : hex (b :: data) =
              hexDigit (b.toNat / 16) :: hexDigit (b.toNat % 16) :: hex data := rfl
          have quotient : (upper * 16 + under) / 16 = upper := by omega
          have remainder : (upper * 16 + under) % 16 = under := by omega
          rw [fromHex, upperRead, underRead, Option.getD_some, Option.getD_some, split, whole,
            quotient, remainder, tail]

theorem unescaped_of_isHexText {count : Nat} {text : Str} (accepted : isHexText count text = true) :
    text.all unescaped = true := by
  simp only [isHexText, Bool.and_eq_true, List.all_eq_true] at accepted
  refine List.all_eq_true.mpr fun c member => ?_
  have digit := accepted.2 c member
  have marks : c ≠ 34 ∧ c ≠ 92 := by
    constructor <;> (rintro rfl; revert digit; decide)
  simp only [isLowerHex, isDigit, Bool.or_eq_true, Bool.and_eq_true, decide_eq_true_eq] at digit
  simp only [unescaped, Bool.and_eq_true, decide_eq_true_eq]
  exact ⟨⟨by omega, marks.1⟩, marks.2⟩

theorem length_dumps_hex {count : Nat} {text : Str} (accepted : isHexText count text = true) :
    (dumps (.str text)).length = count + 2 := by
  rw [dumps, length_quote (unescaped_of_isHexText accepted)]
  simp only [isHexText, Bool.and_eq_true, decide_eq_true_eq] at accepted
  rw [accepted.1]

theorem length_dumps_nat (n : Nat) : (dumps (.int n)).length = digitCount n := by
  rw [dumps, length_intText]

theorem length_canonicalBytes (value : Value) :
    (canonicalBytes value).length = (dumps value).length := List.length_map _

theorem toNat_ofNat_visible {c : CodePoint} (seen : visible c = true) :
    (UInt8.ofNat c.val).toNat = c.val := by
  simp only [visible, Bool.and_eq_true, decide_eq_true_eq] at seen
  rw [UInt8.toNat_ofNat', Nat.mod_eq_of_lt (by omega)]

/-- Canonical bytes decode to the text they encode. -/
theorem decodeAscii_canonicalBytes (value : Value) :
    decodeAscii (canonicalBytes value) = some (dumps value) := by
  have ascii : (canonicalBytes value).all (· < 128) = true := by
    rw [List.all_eq_true]
    intro b member
    obtain ⟨c, inside, rfl⟩ := List.mem_map.mp member
    have seen := visible_dumps value c inside
    rw [decide_eq_true_eq, UInt8.lt_iff_toNat_lt, toNat_ofNat_visible seen]
    simp only [visible, Bool.and_eq_true, decide_eq_true_eq] at seen
    exact Nat.lt_of_le_of_lt seen.2 (by decide)
  rw [decodeAscii, ite_eq_left_iff.mpr fun other => (other ascii).elim, canonicalBytes, asciiBytes,
    List.map_map]
  congr 1
  refine (List.map_congr_left fun c inside => ?_).trans (List.map_id _)
  apply Fin.ext
  rw [Function.comp_apply, toNat_ofNat_visible (visible_dumps value c inside), Fin.val_ofNat,
    Nat.mod_eq_of_lt c.isLt]
  rfl

theorem not_newline_canonicalBytes (value : Value) : (10 : UInt8) ∉ canonicalBytes value := by
  intro member
  obtain ⟨c, inside, same⟩ := List.mem_map.mp member
  have seen := visible_dumps value c inside
  have number := congrArg UInt8.toNat same
  rw [toNat_ofNat_visible seen] at number
  simp only [visible, Bool.and_eq_true, decide_eq_true_eq] at seen
  have ten : (10 : UInt8).toNat = 10 := rfl
  omega

end GeniusNew
