import GeniusNew.Json.Write

/-! # JSON text as `json.loads` reads it

A recursive-descent reader following CPython's scanner. Nesting is bounded by
the interpreter's recursion limit: `Json.readValue` recurses on the levels that
are left, and a bracket with no level left is a `RecursionError`. Objects are
read as their list of pairs; `Json.Value.collapse` then makes dictionaries of
them, the last pair of a key winning.
-/

namespace Json

inductive ReadError where
  /-- `JSONDecodeError`, a `ValueError`. -/
  | value
  /-- The `ValueError` of an integer literal with too many digits, which is no
  `JSONDecodeError`. -/
  | digits
  | recursion
  deriving DecidableEq

abbrev Reader (α : Type) := Str → Except ReadError (α × Str)

def isSpace (c : CodePoint) : Bool := c = 32 || c = 9 || c = 10 || c = 13

def skipSpace (text : Str) : Str := text.dropWhile isSpace

def hexValue (c : CodePoint) : Option Nat :=
  if 48 ≤ c.val ∧ c.val ≤ 57 then some (c.val - 48)
  else if 97 ≤ c.val ∧ c.val ≤ 102 then some (c.val - 87)
  else if 65 ≤ c.val ∧ c.val ≤ 70 then some (c.val - 55)
  else none

def hexUnit (a b c d : CodePoint) : Option CodePoint := do
  let a ← hexValue a
  let b ← hexValue b
  let c ← hexValue c
  let d ← hexValue d
  return Fin.ofNat _ (a * 4096 + b * 256 + c * 16 + d)

/-- The character after a backslash, `\u` apart. -/
def unescape (c : CodePoint) : Option CodePoint :=
  if c = 34 then some 34
  else if c = 92 then some 92
  else if c = 47 then some 47
  else if c = 98 then some 8
  else if c = 102 then some 12
  else if c = 110 then some 10
  else if c = 114 then some 13
  else if c = 116 then some 9
  else none

/-- The code units of a string literal up to its closing quotation mark. -/
def scanUnits : Str → Option (Str × Str)
  | [] => none
  | c :: rest =>
      if c = 34 then some ([], rest)
      else if c = 92 then
        match rest with
        | [] => none
        | mark :: rest =>
            if mark = 117 then
              match rest with
              | a :: b :: c :: d :: rest => do
                  let unit ← hexUnit a b c d
                  let (units, rest) ← scanUnits rest
                  return (unit :: units, rest)
              | _ => none
            else do
              let unit ← unescape mark
              let (units, rest) ← scanUnits rest
              return (unit :: units, rest)
      else if c.val < 32 then none
      else do
        let (units, rest) ← scanUnits rest
        return (c :: units, rest)

/-- A high surrogate followed by a low one becomes the code point they encode. -/
def joinSurrogates : Str → Str
  | [] => []
  | [c] => [c]
  | high :: low :: rest =>
      if isHighSurrogate high && isLowSurrogate low then
        Fin.ofNat _ (0x10000 + (high.val - 0xd800) * 0x400 + (low.val - 0xdc00)) ::
          joinSurrogates rest
      else high :: joinSurrogates (low :: rest)

/-- A string literal after its opening quotation mark. The scanner only meets
surrogates as escapes, so joining them afterwards joins the same pairs. -/
def readString : Reader Str := fun text =>
  match scanUnits text with
  | some (units, rest) => .ok (joinSurrogates units, rest)
  | none => .error .value

def digitsValue (digits : Str) : Nat := digits.foldl (fun n d => n * 10 + (d.val - 48)) 0

/-- The integer digits of a number literal. -/
def scanWhole (text : Str) : Option (Str × Str) :=
  match text with
  | [] => none
  | first :: rest =>
      if first = 48 then some ([48], rest)
      else if isDigit first then
        some (first :: rest.takeWhile isDigit, rest.dropWhile isDigit)
      else none

theorem scanWhole_isWhole {text whole rest : Str} (scanned : scanWhole text = some (whole, rest)) :
    isWhole whole = true := by
  unfold scanWhole at scanned
  split at scanned
  · cases scanned
  · rename_i first tail
    split_ifs at scanned with zero digit
    · cases scanned
      rfl
    · cases scanned
      simp only [isWhole, zero, ↓reduceIte, digit, Bool.true_and, List.all_eq_true]
      exact fun c member => List.mem_takeWhile_imp member

/-- A number after its optional minus sign. -/
def readUnsigned (interpreter : Interpreter) (negative : Bool) : Reader Value := fun text =>
  match scanned : scanWhole text with
  | none => .error .value
  | some (whole, rest) =>
      if nonempty : (scanTail rest).1 = [] then
        if whole.length ≤ maxIntDigits then
          .ok (.int (if negative then -digitsValue whole else digitsValue whole), rest)
        else .error .digits
      else
        match interpreter.floatRepr ⟨negative, whole, (scanTail rest).1,
            scanWhole_isWhole scanned, scanTail_fst rest, nonempty⟩ with
        | some printed => .ok (.float (.finite printed), (scanTail rest).2)
        | none => .ok (.float (.infinite negative), (scanTail rest).2)

def readNumber (interpreter : Interpreter) : Reader Value := fun text =>
  match text with
  | 45 :: rest =>
      if (str "Infinity").isPrefixOf rest then .ok (.float (.infinite true), rest.drop 8)
      else readUnsigned interpreter true rest
  | text => readUnsigned interpreter false text

/-- A literal name such as `null`, standing for a value. -/
def readName (name : String) (value : Value) : Reader Value := fun text =>
  if (str name).isPrefixOf text then .ok (value, text.drop (str name).length) else .error .value

/-- The items of an array after its opening bracket and white space; at least
one item is left to read. -/
def readItems (item : Reader Value) : Nat → Reader (List Value)
  | 0, _ => .error .value
  | fuel + 1, text => do
      let (value, rest) ← item text
      match skipSpace rest with
      | [] => .error .value
      | c :: rest =>
          if c = 93 then return ([value], rest)
          else if c = 44 then
            let (values, rest) ← readItems item fuel (skipSpace rest)
            return (value :: values, rest)
          else .error .value

/-- The pairs of an object after its opening brace and white space; at least
one pair is left to read. -/
def readPairs (item : Reader Value) : Nat → Reader (List (Str × Value))
  | 0, _ => .error .value
  | _ + 1, [] => .error .value
  | fuel + 1, quoteMark :: text =>
      if quoteMark = 34 then do
        let (key, rest) ← readString text
        match skipSpace rest with
        | [] => .error .value
        | colon :: rest =>
            if colon = 58 then
              let (value, rest) ← item (skipSpace rest)
              match skipSpace rest with
              | [] => .error .value
              | c :: rest =>
                  if c = 125 then return ([(key, value)], rest)
                  else if c = 44 then
                    let (pairs, rest) ← readPairs item fuel (skipSpace rest)
                    return ((key, value) :: pairs, rest)
                  else .error .value
            else .error .value
      else .error .value

/-- An array after its opening bracket. -/
def readArray (item : Reader Value) : Reader Value := fun text =>
  match skipSpace text with
  | [] => .error .value
  | c :: rest =>
      if c = 93 then .ok (.list [], rest)
      else do
        let (items, rest) ← readItems item (text.length + 1) (c :: rest)
        return (.list items, rest)

/-- An object after its opening brace. -/
def readObject (item : Reader Value) : Reader Value := fun text =>
  match skipSpace text with
  | [] => .error .value
  | c :: rest =>
      if c = 125 then .ok (.dict [], rest)
      else do
        let (pairs, rest) ← readPairs item (text.length + 1) (c :: rest)
        return (.dict pairs, rest)

/-- Dispatch on the first character. `nested` reads what stands inside brackets
and is absent when the recursion limit is reached. -/
def readWith (interpreter : Interpreter) (nested : Option (Reader Value)) : Reader Value
  | [] => .error .value
  | c :: rest =>
      if c = 34 then do
        let (text, rest) ← readString rest
        return (.str text, rest)
      else if c = 123 then
        match nested with
        | none => .error .recursion
        | some item => readObject item rest
      else if c = 91 then
        match nested with
        | none => .error .recursion
        | some item => readArray item rest
      else if c = 110 then readName "null" .null (c :: rest)
      else if c = 116 then readName "true" (.bool true) (c :: rest)
      else if c = 102 then readName "false" (.bool false) (c :: rest)
      else if c = 78 then readName "NaN" (.float .nan) (c :: rest)
      else if c = 73 then readName "Infinity" (.float (.infinite false)) (c :: rest)
      else readNumber interpreter (c :: rest)

/-- One value, with the given number of bracket levels left. -/
def readValue (interpreter : Interpreter) : Nat → Reader Value
  | 0 => readWith interpreter none
  | level + 1 => readWith interpreter (some (readValue interpreter level))

namespace Value

mutual

/-- Make a dictionary of every list of pairs. -/
def collapse : Value → Value
  | .list items => .list (collapseItems items)
  | .dict fields => .dict (collect (collapseFields fields))
  | value => value

def collapseItems : List Value → List Value
  | [] => []
  | item :: items => item.collapse :: collapseItems items

def collapseFields : List (Str × Value) → List (Str × Value)
  | [] => []
  | (key, value) :: fields => (key, value.collapse) :: collapseFields fields

end

end Value

/-- The whole text as one value with its pairs as written. -/
def readText (interpreter : Interpreter) (text : Str) : Except ReadError Value := do
  let (value, rest) ← readValue interpreter interpreter.recursionLimit (skipSpace text)
  if (skipSpace rest).isEmpty then return value else .error .value

/-- `json.loads`. -/
def loads (interpreter : Interpreter) (text : Str) : Except ReadError Value :=
  (readText interpreter text).map Value.collapse

end Json
