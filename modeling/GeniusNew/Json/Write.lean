import GeniusNew.Json.Value

/-! # JSON text as `json.dumps` writes it

The text of `json.dumps(value, ensure_ascii=True, sort_keys=True,
separators=(",", ":"), allow_nan=False)`. `Json.dumps` is the text itself;
whether the interpreter produces it at all is `Json.Value.printable` together
with the nesting bound.
-/

namespace Json

/-- A lower-case hexadecimal digit. -/
def hexDigit (n : Nat) : CodePoint := Fin.ofNat _ (if n < 10 then 48 + n else 87 + n)

def hex4 (n : Nat) : Str :=
  [hexDigit (n / 4096 % 16), hexDigit (n / 256 % 16), hexDigit (n / 16 % 16), hexDigit (n % 16)]

def unicodeEscape (n : Nat) : Str := 92 :: 117 :: hex4 n

/-- The UTF-16 code units of a code point. -/
def codeUnits (c : CodePoint) : List Nat :=
  if c.val < 0x10000 then [c.val]
  else [0xd800 + (c.val - 0x10000) / 0x400, 0xdc00 + (c.val - 0x10000) % 0x400]

def escape (c : CodePoint) : Str :=
  if c = 34 then [92, 34]
  else if c = 92 then [92, 92]
  else if c = 10 then [92, 110]
  else if c = 13 then [92, 114]
  else if c = 9 then [92, 116]
  else if c = 12 then [92, 102]
  else if c = 8 then [92, 98]
  else if 32 ≤ c.val ∧ c.val ≤ 126 then [c]
  else (codeUnits c).flatMap unicodeEscape

def quote (s : Str) : Str := 34 :: s.flatMap escape ++ [34]

def decimal (n : Nat) : Str :=
  if n = 0 then [48] else (Nat.digits 10 n).reverse.map fun d => Fin.ofNat _ (48 + d)

def intText (n : Int) : Str := (if n < 0 then [45] else []) ++ decimal n.natAbs

def FloatNumber.text : FloatNumber → Str
  | .finite literal => literal.text
  | .infinite negative => (if negative then [45] else []) ++ str "Infinity"
  | .nan => str "NaN"

def commaSeparated : List Str → Str
  | [] => []
  | [text] => text
  | text :: texts => text ++ 44 :: commaSeparated texts

def fieldText (field : Str × Str) : Str := quote field.1 ++ 58 :: field.2

mutual

def dumps : Value → Str
  | .null => str "null"
  | .bool true => str "true"
  | .bool false => str "false"
  | .int n => intText n
  | .float f => f.text
  | .str s => quote s
  | .list items => 91 :: commaSeparated (dumpsItems items) ++ [93]
  | .dict fields => 123 :: commaSeparated ((sortKeys (dumpsFields fields)).map fieldText) ++ [125]

def dumpsItems : List Value → List Str
  | [] => []
  | item :: items => dumps item :: dumpsItems items

def dumpsFields : List (Str × Value) → List (Str × Str)
  | [] => []
  | (key, value) :: fields => (key, dumps value) :: dumpsFields fields

end

theorem dumpsItems_eq_map (items : List Value) : dumpsItems items = items.map dumps := by
  induction items with
  | nil => rfl
  | cons item items ih => rw [dumpsItems, ih, List.map_cons]

theorem dumpsFields_eq_map (fields : List (Str × Value)) :
    dumpsFields fields = fields.map fun field => (field.1, dumps field.2) := by
  induction fields with
  | nil => rfl
  | cons field fields ih => rw [dumpsFields, ih, List.map_cons]

end Json
