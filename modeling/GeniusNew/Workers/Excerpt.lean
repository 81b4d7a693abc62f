import GeniusNew.Workers.Patterns

/-! # Display excerpts

A label of the digest is cut to the bytes its escaped text may take. Sizes are added up one
character at a time while it is the whole label that gets escaped, so what carries the bound is
that the escaped content of a text is the sum of what its characters cost.
-/

namespace GeniusNew

open Json

namespace Workers

section Content

variable {text other : Str}

/-- `len(canonical(value)) - 2` of a text. -/
def contentLength (text : Str) : Nat := (canonicalBytes (.str text)).length - 2

theorem canonical_str (interpreter : Interpreter) (text : Str) :
    canonical interpreter (.str text) = .ok (canonicalBytes (.str text)) :=
  canonical_eq_ok.mpr ⟨Nat.zero_le _, rfl, rfl⟩

theorem contentLength_eq (text : Str) : contentLength text = (text.flatMap escape).length := by
  rw [contentLength, length_canonicalBytes, dumps, quote, List.length_append, List.length_cons,
    List.length_singleton]
  omega

theorem length_dumps_str (text : Str) : (dumps (.str text)).length = contentLength text + 2 := by
  rw [contentLength_eq, dumps, quote, List.length_append, List.length_cons, List.length_singleton]

@[simp] theorem contentLength_nil : contentLength [] = 0 := by
  rw [contentLength_eq]
  rfl

@[simp] theorem contentLength_append (text other : Str) :
    contentLength (text ++ other) = contentLength text + contentLength other := by
  rw [contentLength_eq, contentLength_eq, contentLength_eq, List.flatMap_append,
    List.length_append]

theorem contentLength_cons (c : CodePoint) (text : Str) :
    contentLength (c :: text) = contentLength [c] + contentLength text :=
  contentLength_append [c] text

theorem contentLength_of_prefix (leads : text <+: other) :
    contentLength text ≤ contentLength other := by
  obtain ⟨rest, rfl⟩ := leads
  rw [contentLength_append]
  exact Nat.le_add_right _ _

end Content

/-- `" …"`. -/
def marker : Str := str " …"

@[simp] theorem contentLength_marker : contentLength marker = 7 := by decide

/-- The loop of `_display_excerpt`: the characters that still fit. -/
def fitting (remaining : Int) : Str → Str
  | [] => []
  | character :: value =>
      if remaining < contentLength [character] then []
      else character :: fitting (remaining - contentLength [character]) value

/-- `_display_excerpt`. -/
def displayExcerpt (value : Str) (byteLimit : Int) : Str :=
  if contentLength value ≤ byteLimit then value
  else rstrip (fitting (byteLimit - contentLength marker) value) ++ marker

section Fitting

variable {value longer : Str} {remaining : Int}

theorem fitting_prefix (remaining : Int) (value : Str) : fitting remaining value <+: value := by
  induction value generalizing remaining with
  | nil => exact List.prefix_rfl
  | cons character value ih =>
      rw [fitting]
      split_ifs
      · exact List.nil_prefix
      · rw [List.cons_prefix_cons]
        exact ⟨rfl, ih _⟩

theorem contentLength_fitting (value : Str) (nonneg : 0 ≤ remaining) :
    contentLength (fitting remaining value) ≤ remaining := by
  induction value generalizing remaining with
  | nil =>
      rw [fitting, contentLength_nil]
      exact nonneg
  | cons character value ih =>
      rw [fitting]
      split_ifs with large
      · rw [contentLength_nil]
        exact nonneg
      · rw [contentLength_cons]
        have rest := ih (show 0 ≤ remaining - contentLength [character] by omega)
        push_cast
        omega

/-- No longer prefix fits. -/
theorem prefix_fitting (leads : longer <+: value) (fits : contentLength longer ≤ remaining) :
    longer <+: fitting remaining value := by
  induction value generalizing longer remaining with
  | nil => exact leads
  | cons character value ih =>
      cases longer with
      | nil => exact List.nil_prefix
      | cons first longer =>
          obtain ⟨rfl, inside⟩ := List.cons_prefix_cons.mp leads
          rw [contentLength_cons] at fits
          push_cast at fits
          have small : ¬ remaining < contentLength [first] := by omega
          rw [fitting, if_neg small, List.cons_prefix_cons]
          exact ⟨rfl, ih inside (by omega)⟩

theorem contentLength_rstrip_le (text : Str) : contentLength (rstrip text) ≤ contentLength text :=
  contentLength_of_prefix (List.rdropWhile_prefix _ _)

theorem contentLength_displayExcerpt (value : Str) {byteLimit : Int} (room : 7 ≤ byteLimit) :
    contentLength (displayExcerpt value byteLimit) ≤ byteLimit := by
  unfold displayExcerpt
  split_ifs with fits
  · exact fits
  · have inside := contentLength_fitting value
      (show 0 ≤ byteLimit - contentLength marker by rw [contentLength_marker]; omega)
    have stripped := contentLength_rstrip_le (fitting (byteLimit - contentLength marker) value)
    rw [contentLength_append]
    push_cast
    omega

end Fitting

section Figures

variable (unicode : Unicode)

def maxFigures : Nat := 8

def maxFigureDisplayBytes : Int := 320

/-- The label of a figure: its white space collapsed, then cut. -/
def figureLabel (found : Str) : Str :=
  displayExcerpt ([32].intercalate (splitWhitespace found)) maxFigureDisplayBytes

/-- A label is shown once, and not when it is empty. -/
def noteFigure (seen : List Str) (figure : Str) : List Str :=
  if figure ≠ [] ∧ figure ∉ seen then seen ++ [figure] else seen

/-- The loop of `_figures`. -/
def collectFigures (seen : List Str) : List Str → List Str
  | [] => seen
  | found :: others =>
      let seen := noteFigure seen (figureLabel found)
      if maxFigures ≤ seen.length then seen else collectFigures seen others

/-- `_figures`. -/
def figures (text : Str) : List Str := collectFigures [] (findFigures unicode text.length text)

/-- The figures seen so far: distinct, not too many, each a label. -/
structure Seen (seen : List Str) : Prop where
  nodup : seen.Nodup
  length_le : seen.length ≤ maxFigures
  bounded : ∀ figure ∈ seen, contentLength figure ≤ 320

theorem Seen.nil : Seen [] where
  nodup := List.nodup_nil
  length_le := Nat.zero_le _
  bounded := by
    intro figure member
    cases member

theorem contentLength_figureLabel (found : Str) : contentLength (figureLabel found) ≤ 320 := by
  have cut := contentLength_displayExcerpt ([32].intercalate (splitWhitespace found))
    (show 7 ≤ maxFigureDisplayBytes by decide)
  rw [← figureLabel, maxFigureDisplayBytes] at cut
  exact_mod_cast cut

theorem Seen.note {seen : List Str} (sound : Seen seen) (room : seen.length < maxFigures)
    (found : Str) : Seen (noteFigure seen (figureLabel found)) := by
  unfold noteFigure
  split_ifs with fresh
  · constructor
    · rw [List.nodup_append]
      refine ⟨sound.nodup, List.nodup_singleton _, ?_⟩
      intro other inside _ same
      obtain rfl := List.mem_singleton.mp same
      intro again
      exact fresh.2 (again ▸ inside)
    · rw [List.length_append, List.length_singleton]
      exact room
    · intro other member
      rcases List.mem_append.mp member with inside | same
      · exact sound.bounded other inside
      · rw [List.mem_singleton.mp same]
        exact contentLength_figureLabel found
  · exact sound

theorem Seen.collect {seen found : List Str} (sound : Seen seen) (room : seen.length < maxFigures) :
    Seen (collectFigures seen found) := by
  induction found generalizing seen with
  | nil => exact sound
  | cons first found ih =>
      simp only [collectFigures]
      split_ifs with full
      · exact sound.note room first
      · exact ih (sound.note room first) (not_le.mp full)

theorem seen_figures (text : Str) : Seen (figures unicode text) :=
  Seen.nil.collect (by decide)

end Figures

/-- Display excerpts are bounded prefixes: a label takes no more bytes than it may; it is the
value where that fits and otherwise the longest prefix that fits beside the marker, stripped of
trailing white space, and the marker. The figures of a text are distinct and not too many. -/
theorem excerpts_bounded :
    (∀ value byteLimit, 7 ≤ byteLimit →
      contentLength (displayExcerpt value byteLimit) ≤ byteLimit ∧
      (contentLength value ≤ byteLimit → displayExcerpt value byteLimit = value) ∧
      (byteLimit < contentLength value → ∃ lead, lead <+: value ∧
        displayExcerpt value byteLimit = rstrip lead ++ marker ∧
        contentLength (lead ++ marker) ≤ byteLimit ∧
        ∀ longer, longer <+: value → contentLength (longer ++ marker) ≤ byteLimit →
          longer <+: lead)) ∧
    ∀ unicode text, (figures unicode text).Nodup ∧
      (figures unicode text).length ≤ maxFigures := by
  constructor
  · intro value byteLimit room
    refine ⟨contentLength_displayExcerpt value room, ?_, ?_⟩
    · intro fits
      rw [displayExcerpt, if_pos fits]
    · intro large
      refine ⟨fitting (byteLimit - contentLength marker) value, fitting_prefix _ _, ?_, ?_, ?_⟩
      · rw [displayExcerpt, if_neg (not_le.mpr large)]
      · have inside := contentLength_fitting value
          (show 0 ≤ byteLimit - contentLength marker by rw [contentLength_marker]; omega)
        rw [contentLength_append]
        push_cast
        omega
      · intro longer leads fits
        apply prefix_fitting leads
        rw [contentLength_append] at fits
        push_cast at fits
        omega
  · intro unicode text
    exact ⟨(seen_figures unicode text).nodup, (seen_figures unicode text).length_le⟩

/-- Nine bytes hold a short label whole, and two characters of a longer one beside the
marker, the second of them a space. -/
theorem excerpts_bounded_demo :
    displayExcerpt (str "short") 9 = str "short" ∧
    contentLength (displayExcerpt (str "a bcdefghi") 9) ≤ (9 : Int) ∧
    ∃ lead, lead <+: str "a bcdefghi" ∧
      displayExcerpt (str "a bcdefghi") 9 = rstrip lead ++ marker := by
  obtain ⟨_, whole, _⟩ := excerpts_bounded.1 (str "short") 9 (by decide)
  obtain ⟨bounded, _, cut⟩ := excerpts_bounded.1 (str "a bcdefghi") 9 (by decide)
  obtain ⟨lead, leads, same, _⟩ := cut (by decide)
  exact ⟨whole (by decide), bounded, lead, leads, same⟩

example : displayExcerpt (str "a bcdefghi") 9 = str "a …" := by decide

end Workers

end GeniusNew
