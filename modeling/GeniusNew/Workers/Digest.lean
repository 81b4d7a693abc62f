import GeniusNew.Workers.Excerpt
import GeniusNew.Workers.Runner

/-! # The digest

`TextDigest` renders the digest of a text: core sentences, keywords, figures and statistics.
The floating point numbers it computes decide which sentences are shown and what the
statistics say (`Workers.Statistics`); everything else is a function of the text.
-/

namespace GeniusNew

open Json

namespace Workers

inductive Language where
  | de
  | en
  | unknown
  deriving DecidableEq

def stopDe : List Str :=
  ["aber", "als", "am", "an", "auch", "auf", "aus", "bei", "bin", "bis", "bist", "da", "damit",
    "dann", "das", "dass", "dem", "den", "der", "des", "dich", "die", "dies", "dir", "doch",
    "dort", "du", "durch", "ein", "eine", "einem", "einen", "einer", "eines", "er", "es", "etwas",
    "für", "haben", "hat", "hatte", "haben", "hier", "ich", "ihr", "im", "in", "ins", "ist", "ja",
    "jede", "jeder", "kann", "kein", "keine", "man", "mehr", "mein", "mich", "mir", "mit", "muss",
    "nach", "nicht", "noch", "nun", "nur", "oder", "ohne", "schon", "sehr", "sein", "seine",
    "sich", "sie", "sind", "so", "soll", "und", "uns", "unter", "vom", "von", "vor", "war",
    "warum", "was", "weil", "wenn", "wer", "wie", "wieder", "wir", "wird", "wo", "zu", "zum",
    "zur", "über"].map str

def stopEn : List Str :=
  ["a", "about", "above", "after", "again", "all", "am", "an", "and", "any", "are", "as", "at",
    "be", "because", "been", "before", "being", "below", "between", "both", "but", "by", "could",
    "did", "do", "does", "down", "during", "each", "few", "for", "from", "further", "had", "has",
    "have", "having", "he", "her", "here", "hers", "herself", "him", "himself", "his", "how", "i",
    "if", "in", "into", "is", "it", "its", "itself", "let", "me", "more", "most", "my", "nor",
    "of", "on", "once", "only", "or", "other", "ought", "our", "ours", "out", "over", "own",
    "same", "she", "should", "so", "some", "such", "than", "that", "the", "their", "theirs",
    "them", "then", "there", "these", "they", "this", "those", "through", "to", "too", "under",
    "until", "up", "very", "was", "we", "were", "what", "when", "where", "which", "while", "who",
    "whom", "why", "with", "would", "you", "your"].map str

structure Labels where
  title : Str
  language : Str
  unknown : Str
  words : Str
  sentences : Str
  readingTime : Str
  readability : Str
  core : Str
  keywords : Str
  figures : Str
  stats : Str
  avgSentence : Str
  avgWord : Str
  truncated : Str
  bands : Str × Str × Str × Str

def labelsDe : Labels where
  title := str "Text-Digest"
  language := str "Sprache"
  unknown := str "nicht sicher erkannt"
  words := str "Wörter"
  sentences := str "Sätze"
  readingTime := str "Lesezeit"
  readability := str "Lesbarkeit (Flesch, ca.)"
  core := str "Kern in Sätzen"
  keywords := str "Schlüsselbegriffe"
  figures := str "Zahlen im Text"
  stats := str "Kennzahlen"
  avgSentence := str "Ø Wörter pro Satz"
  avgWord := str "Ø Zeichen pro Wort"
  truncated := str "[gekürzt]"
  bands := (str "leicht", str "mittel", str "anspruchsvoll", str "schwer")

def labelsEn : Labels where
  title := str "Text digest"
  language := str "Language"
  unknown := str "not detected with confidence"
  words := str "words"
  sentences := str "sentences"
  readingTime := str "Reading time"
  readability := str "Readability (Flesch, approx.)"
  core := str "Core sentences"
  keywords := str "Keywords"
  figures := str "Figures in the text"
  stats := str "Statistics"
  avgSentence := str "Avg. words per sentence"
  avgWord := str "Avg. characters per word"
  truncated := str "[truncated]"
  bands := (str "easy", str "medium", str "demanding", str "hard")

/-- `_LABELS["en" if language == "en" else "de"]`. -/
def Language.labels : Language → Labels
  | .en => labelsEn
  | _ => labelsDe

/-- What is computed in floating point. Of a sentence's score only its place among the others
matters. An average of a sum is at most the sum. -/
structure Statistics where
  /-- The score of a sentence's words among the keywords. -/
  score : List (Str × Nat) → List Str → Int
  /-- `round` of the Flesch estimate. -/
  flesch : List Str → Nat → Language → Int
  /-- A quotient in tenths, as `:.1f` rounds it. -/
  tenths : Nat → Nat → Nat
  tenths_le : ∀ {total count}, 0 < count → tenths total count ≤ 10 * total

/-- `_language`. -/
def languageOf (lowered : List Str) : Language :=
  let de := lowered.countP (· ∈ stopDe)
  let en := lowered.countP (· ∈ stopEn)
  if 3 ≤ de ∧ 3 * en ≤ 2 * de then .de
  else if 3 ≤ en ∧ 3 * de ≤ 2 * en then .en
  else .unknown

/-- `_band`. -/
def band (score : Int) (bands : Str × Str × Str × Str) : Str :=
  if 70 ≤ score then bands.1
  else if 50 ≤ score then bands.2.1
  else if 30 ≤ score then bands.2.2.1
  else bands.2.2.2

def maxSummarySentences : Nat := 3

def maxSentenceChars : Nat := 320

def maxKeywords : Nat := 10

def maxKeywordDisplayBytes : Int := 80

def maxOutputChars : Nat := 6000

/-- The order of keywords: the more frequent first, then by alphabet. -/
def keywordLe (one other : Str × Nat) : Bool :=
  other.2 < one.2 || (one.2 = other.2 && keyLe one.1 other.1)

/-- The most frequent of the words. -/
def mostCommon (content : List Str) : List (Str × Nat) :=
  let counts := content.dedup.map fun word => (word, content.count word)
  (counts.insertionSort fun one other => keywordLe one other).take maxKeywords

/-- `_keywords`. -/
def keywords (lowered : List Str) : List (Str × Nat) :=
  mostCommon (lowered.filter fun word => 4 ≤ word.length ∧ word ∉ stopDe ∧ word ∉ stopEn)

/-- A sentence cut to the characters that are shown. -/
def cutSentence (sentence : Str) : Str :=
  if maxSentenceChars < sentence.length then
    rstrip (sentence.take (maxSentenceChars - 2)) ++ marker
  else sentence

/-- The order of scored sentences: the better first, then by place. -/
def scoredLe (one other : Int × Nat) : Bool :=
  one.1 < other.1 || (one.1 = other.1 && one.2 ≤ other.2)

section Digest

variable (unicode : Unicode) (statistics : Statistics)

/-- `_core_sentences`. -/
def coreSentences (sentences : List Str) (keywords : List (Str × Nat)) : List Str :=
  if keywords = [] ∨ sentences = [] then []
  else
    let scored := sentences.zipIdx.filterMap fun (sentence, index) =>
      let lowered := (words unicode sentence).map unicode.lower
      if lowered = [] then none else some (-statistics.score keywords lowered, index)
    let best := (scored.insertionSort fun one other => scoredLe one other).take maxSummarySentences
    let keep := (best.map Prod.snd).insertionSort fun one other => one ≤ other
    keep.map fun index => cutSentence (sentences.getD index [])

/-- Groups of three digits, from the last one on. -/
def groupDigits (separator : CodePoint) : Str → Str
  | a :: b :: c :: d :: rest => a :: b :: c :: separator :: groupDigits separator (d :: rest)
  | digits => digits

/-- `_number`. -/
def number (value : Nat) (language : Language) : Str :=
  (groupDigits (if language = .en then 44 else 46) (decimal value).reverse).reverse

/-- `round(words * 60 / 200)`, which rounds a half to the even number. -/
def readingSeconds (words : Nat) : Nat :=
  let whole := 3 * words / 10
  if 3 * words % 10 < 5 then whole
  else if 5 < 3 * words % 10 then whole + 1
  else whole + whole % 2

/-- `_reading_time`. -/
def readingTime (words : Nat) (language : Language) : Str :=
  let minutes := readingSeconds words / 60
  let rest := readingSeconds words % 60
  if language = .en then
    if minutes ≠ 0 then decimal minutes ++ str " min " ++ decimal rest ++ str " s"
    else decimal rest ++ str " s"
  else if minutes ≠ 0 then decimal minutes ++ str " Min " ++ decimal rest ++ str " Sek"
  else decimal rest ++ str " Sek"

/-- `f"{total / count:.1f}"`. -/
def average (total count : Nat) : Str :=
  decimal (statistics.tenths total count / 10) ++ 46 ::
    decimal (statistics.tenths total count % 10)

def Language.shown : Language → Str
  | .de => str "de"
  | .en => str "en"
  | .unknown => labelsDe.unknown

/-- The title and the line of facts under it. -/
def opening (labels : Labels) (language : Language) (words sentences : Nat) (score : Int) :
    List Str :=
  [str "# " ++ labels.title,
    [],
    labels.language ++ str ": " ++ language.shown ++ str " · " ++
      number words language ++ str " " ++ labels.words ++ str " · " ++
      decimal sentences ++ str " " ++ labels.sentences ++ str " · " ++
      labels.readingTime ++ str ": " ++ readingTime words language ++ str " · " ++
      labels.readability ++ str ": " ++ intText score ++ str " (" ++ band score labels.bands ++
      str ")",
    [],
    str "## " ++ labels.core,
    []]

def keywordText (keyword : Str × Nat) : Str :=
  displayExcerpt keyword.1 maxKeywordDisplayBytes ++ str " (" ++ decimal keyword.2 ++ str ")"

def keywordLines (labels : Labels) (keywords : List (Str × Nat)) : List Str :=
  if keywords = [] then []
  else [[], str "## " ++ labels.keywords, [], (str ", ").intercalate (keywords.map keywordText)]

def figureLines (labels : Labels) (figures : List Str) : List Str :=
  if figures = [] then []
  else [[], str "## " ++ labels.figures, []] ++ figures.map fun figure => str "- " ++ figure

def closing (labels : Labels) (language : Language) (words : List Str) (sentences : Nat) :
    List Str :=
  [[],
    str "## " ++ labels.stats,
    [],
    str "- " ++ labels.words ++ str ": " ++ number words.length language,
    str "- " ++ labels.sentences ++ str ": " ++ decimal sentences,
    str "- " ++ labels.avgSentence ++ str ": " ++ average statistics words.length sentences,
    str "- " ++ labels.avgWord ++ str ": " ++
      average statistics (words.map List.length).sum words.length]

/-- The lines of the digest. -/
def digestLines (text : Str) : List Str :=
  let sentences := sentences unicode text
  let words := words unicode text
  let lowered := words.map unicode.lower
  let language := languageOf lowered
  let labels := language.labels
  let score := max 0 (min 100 (statistics.flesch words sentences.length language))
  let keywords := keywords lowered
  let core := coreSentences unicode statistics sentences keywords
  opening labels language words.length sentences.length score ++
    (if core = [] then [cutSentence (sentences.headD [])] else core) ++
    keywordLines labels keywords ++ figureLines labels (figures unicode text) ++
    closing statistics labels language words sentences.length

/-- `"\n".join(lines) + "\n"`. -/
def joinLines (lines : List Str) : Str := [10].intercalate lines ++ [10]

/-- A text of too many characters is cut. -/
def cutOutput (labels : Labels) (rendered : Str) : Str :=
  if maxOutputChars < rendered.length then
    rstrip (rendered.take (maxOutputChars - 16)) ++ [10] ++ labels.truncated ++ [10]
  else rendered

/-- `render_digest`. -/
def renderDigest (text : Str) : Answer Str :=
  if words unicode text = [] ∨ sentences unicode text = [] then .error (.raised .valueError)
  else
    .ok (cutOutput (languageOf ((words unicode text).map unicode.lower)).labels
      (joinLines (digestLines unicode statistics text)))

end Digest

end Workers

end GeniusNew
