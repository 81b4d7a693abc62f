import Mathlib.Data.List.Sort
import Mathlib.Data.List.TakeWhile
import Mathlib.Data.Nat.Digits.Lemmas

/-! # JSON values as a Python interpreter holds them

Strings are lists of code points in which a surrogate may stand alone, integers
are unbounded, and a finite float is held as the literal that denotes it. A
dictionary is its list of items in insertion order. Two things about the
interpreter itself decide which values have a text: its recursion limit and the
rounding of a float literal to the literal `repr` prints (`Json.Interpreter`).
-/

namespace Json

/-- A Python code point; surrogates are not excluded. -/
abbrev CodePoint := Fin 0x110000

instance codePoint_neZero : NeZero 0x110000 := ⟨by decide⟩

abbrev Str := List CodePoint

instance str_lawfulBEq : LawfulBEq Str := inferInstance

def str (text : String) : Str := text.toList.map fun c => Fin.ofNat _ c.toNat

def isDigit (c : CodePoint) : Bool := 48 ≤ c.val && c.val ≤ 57

def isHighSurrogate (c : CodePoint) : Bool := 0xd800 ≤ c.val && c.val ≤ 0xdbff

def isLowSurrogate (c : CodePoint) : Bool := 0xdc00 ≤ c.val && c.val ≤ 0xdfff

/-- Consume the fraction of a number literal, if one follows. -/
def scanFraction : Str → Str × Str
  | point :: digit :: rest =>
      if point = 46 ∧ isDigit digit then
        (point :: digit :: rest.takeWhile isDigit, rest.dropWhile isDigit)
      else ([], point :: digit :: rest)
  | text => ([], text)

/-- Consume the sign of an exponent, if one follows. -/
def scanSign : Str → Str × Str
  | sign :: rest => if sign = 43 ∨ sign = 45 then ([sign], rest) else ([], sign :: rest)
  | [] => ([], [])

/-- Consume the exponent of a number literal, if one follows. -/
def scanExponent : Str → Str × Str
  | mark :: text =>
      if (mark = 101 ∨ mark = 69) ∧ (scanSign text).2.head?.any isDigit then
        (mark :: (scanSign text).1 ++ (scanSign text).2.takeWhile isDigit,
          (scanSign text).2.dropWhile isDigit)
      else ([], mark :: text)
  | [] => ([], [])

/-- The part of a number literal after its integer digits. -/
def scanTail (text : Str) : Str × Str :=
  ((scanFraction text).1 ++ (scanExponent (scanFraction text).2).1,
    (scanExponent (scanFraction text).2).2)

/-- What follows a number literal: nothing that could continue one. -/
def isNumberChar (c : CodePoint) : Bool :=
  isDigit c || c = 46 || c = 101 || c = 69 || c = 43 || c = 45

def NumberEnds (rest : Str) : Prop := ∀ c ∈ rest.head?, isNumberChar c = false

section Scan

theorem takeWhile_append_of_head {p : CodePoint → Bool} {text rest : Str}
    (ends : ∀ c ∈ rest.head?, p c = false) :
    (text ++ rest).takeWhile p = text.takeWhile p := by
  induction text with
  | nil =>
      cases rest with
      | nil => rfl
      | cons c rest => simp [ends c rfl]
  | cons c text ih => by_cases holds : p c <;> simp [holds, ih]

theorem dropWhile_append_of_head {p : CodePoint → Bool} {text rest : Str}
    (ends : ∀ c ∈ rest.head?, p c = false) :
    (text ++ rest).dropWhile p = text.dropWhile p ++ rest := by
  induction text with
  | nil =>
      cases rest with
      | nil => rfl
      | cons c rest => simp [ends c rfl]
  | cons c text ih => by_cases holds : p c <;> simp [holds, ih]

theorem dropWhile_takeWhile (p : CodePoint → Bool) (text : Str) :
    (text.takeWhile p).dropWhile p = [] := by
  induction text with
  | nil => rfl
  | cons c text ih => by_cases holds : p c <;> simp [holds, ih]

theorem scanFraction_append (text rest : Str)
    (ends : ∀ c ∈ rest.head?, isDigit c = false ∧ c ≠ 46) :
    scanFraction (text ++ rest) = ((scanFraction text).1, (scanFraction text).2 ++ rest) := by
  have digits : ∀ c ∈ rest.head?, isDigit c = false := fun c member => (ends c member).1
  match text, rest with
  | [], [] => rfl
  | [], [c] => rfl
  | [], c :: d :: rest => simp [scanFraction, (ends c rfl).2]
  | [point], [] => rfl
  | [point], c :: rest => simp [scanFraction, digits c rfl]
  | point :: digit :: text, rest =>
      by_cases fraction : point = 46 ∧ isDigit digit = true
      · simp [scanFraction, fraction, takeWhile_append_of_head digits,
          dropWhile_append_of_head digits]
      · simp [scanFraction, fraction]

theorem scanSign_append (text rest : Str) (ends : ∀ c ∈ rest.head?, c ≠ 43 ∧ c ≠ 45) :
    scanSign (text ++ rest) = ((scanSign text).1, (scanSign text).2 ++ rest) := by
  match text, rest with
  | [], [] => rfl
  | [], c :: rest => simp [scanSign, ends c rfl]
  | sign :: text, rest =>
      by_cases signed : sign = 43 ∨ sign = 45 <;> simp [scanSign, signed]

theorem scanExponent_append {text rest : Str} (ends : NumberEnds rest) :
    scanExponent (text ++ rest) = ((scanExponent text).1, (scanExponent text).2 ++ rest) := by
  have none : ∀ c ∈ rest.head?, isDigit c = false ∧ c ≠ 101 ∧ c ≠ 69 ∧ c ≠ 43 ∧ c ≠ 45 := by
    intro c member
    have ended := ends c member
    simp only [isNumberChar, Bool.or_eq_false_iff, decide_eq_false_iff_not] at ended
    exact ⟨ended.1.1.1.1.1, ended.1.1.1.2, ended.1.1.2, ended.1.2, ended.2⟩
  have digits : ∀ c ∈ rest.head?, isDigit c = false := fun c member => (none c member).1
  match text with
  | [] =>
      cases rest with
      | nil => rfl
      | cons c rest => simp [scanExponent, (none c rfl).2.1, (none c rfl).2.2.1]
  | mark :: text =>
      have signs := scanSign_append text rest fun c member => (none c member).2.2.2
      have first : ((scanSign text).2 ++ rest).head?.any isDigit =
          (scanSign text).2.head?.any isDigit := by
        cases (scanSign text).2 with
        | nil =>
            cases rest with
            | nil => rfl
            | cons c rest => simp [digits c rfl]
        | cons c tail => rfl
      simp only [List.cons_append, scanExponent, signs, first, takeWhile_append_of_head digits,
        dropWhile_append_of_head digits]
      split_ifs <;> rfl

theorem scanTail_append {text rest : Str} (ends : NumberEnds rest) :
    scanTail (text ++ rest) = ((scanTail text).1, (scanTail text).2 ++ rest) := by
  have fraction := scanFraction_append text rest fun c member => by
    have ended := ends c member
    simp only [isNumberChar, Bool.or_eq_false_iff, decide_eq_false_iff_not] at ended
    exact ⟨ended.1.1.1.1.1, ended.1.1.1.1.2⟩
  simp only [scanTail, fraction, scanExponent_append ends]

theorem scanFraction_fst (text : Str) : scanFraction (scanFraction text).1 =
    ((scanFraction text).1, []) := by
  match text with
  | [] => rfl
  | [_] => rfl
  | point :: digit :: rest =>
      by_cases fraction : point = 46 ∧ isDigit digit = true
      · simp [scanFraction, fraction, List.takeWhile_idem, dropWhile_takeWhile]
      · simp [scanFraction, fraction]

theorem scanSign_append_digits {sign digits : Str} (text : Str) (signed : (scanSign text).1 = sign)
    (numeric : digits.head?.any isDigit = true) : scanSign (sign ++ digits) = (sign, digits) := by
  have plain : ∀ c ∈ digits.head?, c ≠ 43 ∧ c ≠ 45 := by
    intro c member
    rw [Option.mem_def.mp member, Option.any_some] at numeric
    constructor <;> (rintro rfl; exact absurd numeric (by decide))
  subst signed
  have empty : (scanSign (scanSign text).1).1 = (scanSign text).1 ∧
      (scanSign (scanSign text).1).2 = [] := by
    cases text with
    | nil => exact ⟨rfl, rfl⟩
    | cons c text => by_cases marked : c = 43 ∨ c = 45 <;> simp [scanSign, marked]
  rw [scanSign_append _ _ plain, empty.1, empty.2, List.nil_append]

theorem scanExponent_fst (text : Str) : scanExponent (scanExponent text).1 =
    ((scanExponent text).1, []) := by
  match text with
  | [] => rfl
  | mark :: text =>
      by_cases exponent : (mark = 101 ∨ mark = 69) ∧ (scanSign text).2.head?.any isDigit = true
      · have numeric : ((scanSign text).2.takeWhile isDigit).head?.any isDigit = true := by
          cases shape : (scanSign text).2 with
          | nil => simp [shape] at exponent
          | cons c rest =>
              rw [shape, List.head?_cons, Option.any_some] at exponent
              simp [exponent.2]
        have signs := scanSign_append_digits text rfl numeric
        simp only [scanExponent, exponent, and_self, ↓reduceIte, List.cons_append, signs, numeric,
          List.takeWhile_idem, dropWhile_takeWhile]
      · simp [scanExponent, exponent]

theorem scanExponent_head (text : Str) : ∀ c ∈ (scanExponent text).1.head?, c = 101 ∨ c = 69 := by
  match text with
  | [] => simp [scanExponent]
  | mark :: text =>
      intro c member
      simp only [scanExponent] at member
      split_ifs at member with exponent
      · cases Option.mem_def.mp member
        exact exponent.1
      · cases member

/-- What was consumed as a number's tail is read back as one. -/
theorem scanTail_fst (text : Str) : scanTail (scanTail text).1 = ((scanTail text).1, []) := by
  have split : scanFraction ((scanFraction text).1 ++ (scanExponent (scanFraction text).2).1) =
      ((scanFraction text).1, (scanExponent (scanFraction text).2).1) := by
    rw [scanFraction_append, scanFraction_fst, List.nil_append]
    intro c member
    rcases scanExponent_head _ c member with rfl | rfl <;> decide
  simp only [scanTail, split, scanExponent_fst]

end Scan

/-- The integer digits of a number literal have no superfluous leading zero. -/
def isWhole : Str → Bool
  | [] => false
  | first :: rest => if first = 48 then rest.isEmpty else isDigit first && rest.all isDigit

/-- A JSON number literal that denotes a float: it has a fraction or an exponent. -/
structure FloatLiteral where
  negative : Bool
  whole : Str
  tail : Str
  whole_digits : isWhole whole = true
  tail_scans : scanTail tail = (tail, [])
  tail_nonempty : tail ≠ []
  deriving DecidableEq

def FloatLiteral.text (literal : FloatLiteral) : Str :=
  (if literal.negative then [45] else []) ++ literal.whole ++ literal.tail

inductive FloatNumber where
  | finite (literal : FloatLiteral)
  | infinite (negative : Bool)
  | nan
  deriving DecidableEq

inductive Value where
  | null
  | bool (value : Bool)
  | int (value : Int)
  | float (value : FloatNumber)
  | str (value : Str)
  | list (items : List Value)
  | dict (fields : List (Str × Value))

/-- What JSON text depends on besides the value. `floatRepr` is
`repr(float(literal))`, absent when the literal overflows to an infinity. -/
structure Interpreter where
  recursionLimit : Nat
  floatRepr : FloatLiteral → Option FloatLiteral
  floatRepr_fixed : ∀ {literal printed}, floatRepr literal = some printed →
    floatRepr printed = some printed
  recursionLimit_sufficient : 16 ≤ recursionLimit

/-- `int` conversion refuses more digits than this in either direction. -/
def maxIntDigits : Nat := 4300

/-- Code-point order, the order `sort_keys` sorts by. -/
def keyLe : Str → Str → Bool
  | [], _ => true
  | _ :: _, [] => false
  | a :: s, b :: t => a.val < b.val || (a == b && keyLe s t)

section Dictionary

variable {α : Type*}

def sortKeys (fields : List (Str × α)) : List (Str × α) :=
  fields.insertionSort fun a b => keyLe a.1 b.1

def keys (fields : List (Str × α)) : List Str := fields.map Prod.fst

/-- `d[key] = value`: an existing key keeps its place. -/
def assign (fields : List (Str × α)) (key : Str) (value : α) : List (Str × α) :=
  if key ∈ keys fields then fields.map fun field => if field.1 = key then (key, value) else field
  else fields ++ [(key, value)]

/-- `dict(pairs)`. -/
def collect (pairs : List (Str × α)) : List (Str × α) :=
  pairs.foldl (fun fields pair => assign fields pair.1 pair.2) []

/-- `set(d) == wanted`. -/
def hasKeys (fields : List (Str × α)) (wanted : List Str) : Bool :=
  (keys fields).all (· ∈ wanted) && wanted.all (· ∈ keys fields)

end Dictionary

namespace Value

mutual

/-- Bracket nesting of a value's text. -/
def depth : Value → Nat
  | .list items => depthItems items + 1
  | .dict fields => depthFields fields + 1
  | _ => 0

def depthItems : List Value → Nat
  | [] => 0
  | item :: items => max item.depth (depthItems items)

def depthFields : List (Str × Value) → Nat
  | [] => 0
  | (_, value) :: fields => max value.depth (depthFields fields)

end

mutual

/-- Every scalar below has a JSON text that denotes it. -/
def printable (interpreter : Interpreter) : Value → Bool
  | .int n => (Nat.digits 10 n.natAbs).length ≤ maxIntDigits
  | .float (.finite literal) => interpreter.floatRepr literal = some literal
  | .float _ => false
  | .list items => printableItems interpreter items
  | .dict fields => printableFields interpreter fields
  | _ => true

def printableItems (interpreter : Interpreter) : List Value → Bool
  | [] => true
  | item :: items => item.printable interpreter && printableItems interpreter items

def printableFields (interpreter : Interpreter) : List (Str × Value) → Bool
  | [] => true
  | (_, value) :: fields => value.printable interpreter && printableFields interpreter fields

end

/-- `d.get(key)`, absent for anything but a dictionary. -/
def get? (value : Value) (key : Str) : Option Value :=
  match value with
  | .dict fields => fields.lookup key
  | _ => none

end Value

end Json
