import Mathlib.Data.List.DropRight
import GeniusNew.Audit.Event

/-! # The patterns of the digest

Words, sentences and figures of a text, as the regular expressions of the digest find them.
Each expression is deterministic: what it may take next it takes, and nothing that follows can
make it give a character back. Which characters are letters and digits, and what they are in
lower case, is the Unicode database's to say.
-/

namespace GeniusNew

open Json

namespace Workers

/-- What Python's strings know of Unicode. -/
structure Unicode where
  /-- `str.isalnum` of one character. -/
  isAlnum : CodePoint → Bool
  /-- `str.isdecimal` of one character, which is `\d`. -/
  isDecimal : CodePoint → Bool
  /-- `str.lower`. -/
  lower : Str → Str
  isAlnum_of_isWhitespace : ∀ {c}, isWhitespace c = true → isAlnum c = false

/-- `text.rstrip()`. -/
def rstrip (text : Str) : Str := text.rdropWhile isWhitespace

/-- `text.strip()`. -/
def strip (text : Str) : Str := rstrip (text.dropWhile isWhitespace)

/-- `text.split()`. -/
def splitWhitespace (text : Str) : List Str := (text.splitOnP isWhitespace).filter (· ≠ [])

section Patterns

variable (unicode : Unicode)

/-- `[^\W\d_]`. -/
def isLetter (c : CodePoint) : Bool := unicode.isAlnum c && !unicode.isDecimal c && c ≠ 95

/-- `_WORD.findall`, with the word that is open: letters, with single hyphens or apostrophes
between them. -/
def findWords (word : Str) : Str → List Str
  | [] => if word = [] then [] else [word]
  | c :: rest =>
      if isLetter unicode c then findWords (word ++ [c]) rest
      else if word ≠ [] ∧ (c = 45 ∨ c = 39) ∧ rest.head?.any (isLetter unicode) then
        findWords (word ++ [c]) rest
      else if word = [] then findWords [] rest
      else word :: findWords [] rest

/-- `_words`. -/
def words (text : Str) : List Str := findWords unicode [] text

/-- What a split has begun to skip. -/
inductive Skip where
  | nothing
  | spaces
  | lines
  deriving DecidableEq

def Skip.takes : Skip → CodePoint → Bool
  | nothing, _ => false
  | spaces, c => isWhitespace c
  | lines, c => c = 10

/-- `[.!?…]`. -/
def endsSentence (c : CodePoint) : Bool := c = 46 || c = 33 || c = 63 || c = 0x2026

/-- `_SENTENCE_SPLIT.split`, with the part that is open and the character before. -/
def splitSentences (skip : Skip) (part : Str) (before : Option CodePoint) : Str → List Str
  | [] => [part]
  | c :: rest =>
      if skip.takes c then splitSentences skip part (some c) rest
      else if before.any endsSentence && isWhitespace c then
        part :: splitSentences .spaces [] (some c) rest
      else if c = 10 then part :: splitSentences .lines [] (some c) rest
      else splitSentences .nothing (part ++ [c]) (some c) rest

/-- `_sentences`. -/
def sentences (text : Str) : List Str :=
  ((splitSentences .nothing [] none text).map strip).filter fun part => words unicode part ≠ []

/-- The units of a figure, in the order they are tried. -/
def units : List Str :=
  [str "%", str "€", str "$", str "CHF", str "EUR", str "USD", str "Prozent", str "ms",
    str "MiB", str "GiB", str "MB", str "GB", str "TB", str "km", str "kg", str "Minuten",
    str "Stunden", str "Tage", str "Monate", str "Jahre", str "Records", str "Record",
    str "Jobs", str "Job"]

/-- `(?:[.\u00a0 ]\d{3})*`. -/
def scanGroups : Str → Str × Str
  | mark :: a :: b :: c :: rest =>
      if (mark = 46 ∨ mark = 0xa0 ∨ mark = 32) ∧
          unicode.isDecimal a ∧ unicode.isDecimal b ∧ unicode.isDecimal c then
        (mark :: a :: b :: c :: (scanGroups rest).1, (scanGroups rest).2)
      else ([], mark :: a :: b :: c :: rest)
  | text => ([], text)

/-- `(?:,\d+)?`. -/
def scanDecimals : Str → Str × Str
  | comma :: digit :: rest =>
      if comma = 44 ∧ unicode.isDecimal digit then
        (comma :: digit :: rest.takeWhile unicode.isDecimal, rest.dropWhile unicode.isDecimal)
      else ([], comma :: digit :: rest)
  | text => ([], text)

/-- `(?:\s?(?:%|€|…))?`. No unit begins with white space. -/
def scanUnit (text : Str) : Str × Str :=
  let space := text.take 1 |>.takeWhile isWhitespace
  match units.find? fun unit => unit.isPrefixOf (text.drop space.length) with
  | some unit => (space ++ unit, text.drop (space.length + unit.length))
  | none => ([], text)

/-- The rest of a figure after its first digits. -/
def scanFigure (text : Str) : Str × Str :=
  let (groups, rest) := scanGroups unicode text
  let (decimals, rest) := scanDecimals unicode rest
  let (unit, rest) := scanUnit rest
  (groups ++ decimals ++ unit, rest)

/-- `_FIGURE.findall`; every figure takes a character. -/
def findFigures : Nat → Str → List Str
  | 0, _ => []
  | _ + 1, [] => []
  | fuel + 1, c :: rest =>
      if unicode.isDecimal c then
        let digits := c :: rest.takeWhile unicode.isDecimal
        let (tail, after) := scanFigure unicode (rest.dropWhile unicode.isDecimal)
        (digits ++ tail) :: findFigures fuel after
      else findFigures fuel rest

end Patterns

end Workers

end GeniusNew
