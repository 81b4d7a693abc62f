import GeniusNew.Contracts.Basic

/-! # Wires

A wire is the exact canonical JSON of one object with a fixed set of keys.
`decodeWire` refuses everything else, with the same rules for every kind of
contract.
-/

namespace GeniusNew

open Json

def maxWireBytes : Nat := 16 * 1024

def maxWireDepth : Nat := 4

/-- `text.encode("utf-8")`, absent for a text that holds a surrogate. -/
def encodeUtf8 : Str → Option Bytes
  | [] => some []
  | c :: text => do
      let bytes ← encodeUtf8 text
      let unit (n : Nat) : UInt8 := UInt8.ofNat n
      if c.val < 0x80 then return unit c.val :: bytes
      else if c.val < 0x800 then
        return unit (0xc0 + c.val / 0x40) :: unit (0x80 + c.val % 0x40) :: bytes
      else if 0xd800 ≤ c.val ∧ c.val ≤ 0xdfff then none
      else if c.val < 0x10000 then
        return unit (0xe0 + c.val / 0x1000) :: unit (0x80 + c.val / 0x40 % 0x40) ::
          unit (0x80 + c.val % 0x40) :: bytes
      else
        return unit (0xf0 + c.val / 0x40000) :: unit (0x80 + c.val / 0x1000 % 0x40) ::
          unit (0x80 + c.val / 0x40 % 0x40) :: unit (0x80 + c.val % 0x40) :: bytes

/-- `len(text.encode("utf-8", "surrogatepass"))`. -/
def encodedLength (text : Str) : Nat :=
  (text.map fun c =>
    if c.val < 0x80 then 1 else if c.val < 0x800 then 2 else if c.val < 0x10000 then 3 else 4).sum

/-- The payload of a continuation byte. -/
def continuation (b : UInt8) : Option Nat :=
  if 0x80 ≤ b.toNat ∧ b.toNat < 0xc0 then some (b.toNat - 0x80) else none

/-- A code point in the range that its number of bytes is for. -/
def codePoint (low : Nat) (value : Nat) : Option CodePoint :=
  if low ≤ value ∧ value < 0x110000 ∧ ¬ (0xd800 ≤ value ∧ value ≤ 0xdfff) then
    some (Fin.ofNat _ value)
  else none

/-- `data.decode("utf-8")`. -/
def decodeUtf8 : Bytes → Option Str
  | [] => some []
  | first :: rest =>
      if first.toNat < 0x80 then do
        let text ← decodeUtf8 rest
        return Fin.ofNat _ first.toNat :: text
      else if 0xc0 ≤ first.toNat ∧ first.toNat < 0xe0 then
        match rest with
        | second :: rest => do
            let tail ← continuation second
            let c ← codePoint 0x80 ((first.toNat - 0xc0) * 0x40 + tail)
            let text ← decodeUtf8 rest
            return c :: text
        | _ => none
      else if 0xe0 ≤ first.toNat ∧ first.toNat < 0xf0 then
        match rest with
        | second :: third :: rest => do
            let middle ← continuation second
            let tail ← continuation third
            let c ← codePoint 0x800 ((first.toNat - 0xe0) * 0x1000 + middle * 0x40 + tail)
            let text ← decodeUtf8 rest
            return c :: text
        | _ => none
      else if 0xf0 ≤ first.toNat ∧ first.toNat < 0xf8 then
        match rest with
        | second :: third :: fourth :: rest => do
            let high ← continuation second
            let middle ← continuation third
            let tail ← continuation fourth
            let c ← codePoint 0x10000
              ((first.toNat - 0xf0) * 0x40000 + high * 0x1000 + middle * 0x40 + tail)
            let text ← decodeUtf8 rest
            return c :: text
        | _ => none
      else none

/-- Where a scan of a text stands: inside a string literal, and there after a
backslash. -/
structure Scan where
  inString : Bool
  escaped : Bool

def Scan.start : Scan := ⟨false, false⟩

def Scan.next (scan : Scan) (c : CodePoint) : Scan :=
  if scan.inString then
    if scan.escaped then ⟨true, false⟩
    else if c = 92 then ⟨true, true⟩
    else if c = 34 then ⟨false, false⟩
    else scan
  else if c = 34 then ⟨true, false⟩
  else scan

/-- The loop of `_wire_depth`. -/
def deepest (scan : Scan) (depth found : Int) : Str → Int
  | [] => found
  | c :: text =>
      if scan.inString ∨ c = 34 then deepest (scan.next c) depth found text
      else if c = 91 ∨ c = 123 then deepest scan (depth + 1) (max found (depth + 1)) text
      else if c = 93 ∨ c = 125 then deepest scan (depth - 1) found text
      else deepest scan depth found text

def wireDepth (text : Str) : Int := deepest .start 0 0 text

/-- A capital N or I outside string literals. In a text that is read, only `NaN`
and the infinities have one. -/
def namesConstant (scan : Scan) : Str → Bool
  | [] => false
  | c :: text =>
      (!scan.inString && (c = 78 || c = 73)) || namesConstant (scan.next c) text

mutual

/-- Some object below has a key twice. -/
def repeatsKey : Value → Bool
  | .list items => repeatsKeyItems items
  | .dict fields => !(keys fields).Nodup || repeatsKeyFields fields
  | _ => false

def repeatsKeyItems : List Value → Bool
  | [] => false
  | item :: items => repeatsKey item || repeatsKeyItems items

def repeatsKeyFields : List (Str × Value) → Bool
  | [] => false
  | (_, value) :: fields => repeatsKey value || repeatsKeyFields fields

end

/-- `decode_wire`. Of a text that breaks several rules the source names the one
its parser meets first; every one is a `ContractError`. -/
def decodeWire (interpreter : Interpreter) (wire : Option Bytes) (wanted : List Str)
    (noun : String) : Outcome (List (Str × Value)) :=
  match wire with
  | none => fail (noun ++ " wire must be a bounded, non-empty bytes value")
  | some wire =>
      if wire = [] ∨ wire.length > maxWireBytes then
        fail (noun ++ " wire must be a bounded, non-empty bytes value")
      else
        match decodeUtf8 wire with
        | none => fail (noun ++ " wire is not valid JSON")
        | some text =>
            if wireDepth text > maxWireDepth then fail (noun ++ " JSON nests too deeply")
            else
              match readText interpreter text with
              | .error _ => fail (noun ++ " wire is not valid JSON")
              | .ok read =>
                  if repeatsKey read then fail (noun ++ " JSON contains duplicate keys")
                  else if namesConstant .start text then
                    fail (noun ++ " JSON contains a non-finite value")
                  else
                    match read with
                    | .dict fields =>
                        if !hasKeys fields wanted then fail (noun ++ " fields are not exact")
                        else do
                          let encoded ← canonical interpreter (.dict fields)
                          if wire ≠ encoded then fail (noun ++ " wire is not canonical JSON")
                          else return fields
                    | _ => fail (noun ++ " wire must contain an object")

end GeniusNew
