import GeniusNew.Json.RoundTrip

/-! # Written text is visible ASCII

`ensure_ascii` leaves nothing outside the printable ASCII characters in a text,
so it encodes to one byte a character and holds no line break.
-/

namespace Json

/-- A visible ASCII character. -/
def visible (c : CodePoint) : Bool := 32 ≤ c.val && c.val ≤ 126

theorem visible_hexDigit : ∀ d < 16, visible (hexDigit d) = true := by decide

theorem visible_escape (c : CodePoint) : ∀ d ∈ escape c, visible d = true := by
  intro d member
  unfold escape at member
  split_ifs at member with _ _ _ _ _ _ _ plain
  any_goals
    rcases List.mem_pair.mp member with rfl | rfl <;> decide
  · rw [List.mem_singleton.mp member, visible, Bool.and_eq_true, decide_eq_true_eq,
      decide_eq_true_eq]
    exact plain
  · obtain ⟨n, _, inside⟩ := List.mem_flatMap.mp member
    simp only [unicodeEscape, hex4, List.mem_cons, List.not_mem_nil, or_false] at inside
    rcases inside with rfl | rfl | rfl | rfl | rfl | rfl
    · decide
    · decide
    all_goals exact visible_hexDigit _ (Nat.mod_lt _ (by decide))

theorem visible_quote (s : Str) : ∀ c ∈ quote s, visible c = true := by
  intro c member
  simp only [quote, List.cons_append, List.mem_cons, List.mem_append, List.not_mem_nil,
    or_false] at member
  rcases member with rfl | inside | rfl
  · decide
  · obtain ⟨d, _, escaped⟩ := List.mem_flatMap.mp inside
    exact visible_escape d c escaped
  · decide

theorem visible_of_digit {c : CodePoint} (digit : isDigit c = true) : visible c = true := by
  simp only [isDigit, visible, Bool.and_eq_true, decide_eq_true_eq] at digit ⊢
  omega

theorem visible_of_whole {whole : Str} (digits : isWhole whole = true) :
    ∀ c ∈ whole, visible c = true := by
  match whole with
  | [] => cases digits
  | first :: rest =>
      intro c member
      by_cases zero : first = 48
      · simp only [isWhole, zero, ↓reduceIte, List.isEmpty_iff] at digits
        subst zero digits
        rw [List.mem_singleton.mp member]
        decide
      · simp only [isWhole, zero, ↓reduceIte, Bool.and_eq_true, List.all_eq_true] at digits
        rcases List.mem_cons.mp member with rfl | inside
        · exact visible_of_digit digits.1
        · exact visible_of_digit (digits.2 c inside)

theorem visible_scanFraction (text : Str) : ∀ c ∈ (scanFraction text).1, visible c = true := by
  match text with
  | [] => simp [scanFraction]
  | [_] => simp [scanFraction]
  | point :: digit :: rest =>
      intro c member
      simp only [scanFraction] at member
      split_ifs at member with fraction
      · rcases List.mem_cons.mp member with rfl | inside
        · rw [fraction.1]; decide
        · rcases List.mem_cons.mp inside with rfl | inside
          · exact visible_of_digit fraction.2
          · exact visible_of_digit (List.mem_takeWhile_imp inside)
      · cases member

theorem visible_scanExponent (text : Str) : ∀ c ∈ (scanExponent text).1, visible c = true := by
  match text with
  | [] => simp [scanExponent]
  | mark :: text =>
      intro c member
      simp only [scanExponent] at member
      split_ifs at member with exponent
      · rw [List.cons_append, List.mem_cons, List.mem_append] at member
        rcases member with rfl | signed | inside
        · rcases exponent.1 with rfl | rfl <;> decide
        · cases text with
          | nil => cases signed
          | cons sign rest =>
              simp only [scanSign] at signed
              split_ifs at signed with marked
              · rw [List.mem_singleton.mp signed]
                rcases marked with rfl | rfl <;> decide
              · cases signed
        · exact visible_of_digit (List.mem_takeWhile_imp inside)
      · cases member

theorem visible_floatLiteral (literal : FloatLiteral) : ∀ c ∈ literal.text, visible c = true := by
  intro c member
  rw [FloatLiteral.text, List.mem_append, List.mem_append] at member
  rcases member with (minus | whole) | tail
  · split_ifs at minus
    · rw [List.mem_singleton.mp minus]; decide
    · cases minus
  · exact visible_of_whole literal.whole_digits c whole
  · have consumed : literal.tail = (scanTail literal.tail).1 := by rw [literal.tail_scans]
    rw [consumed, scanTail, List.mem_append] at tail
    exact tail.elim (visible_scanFraction _ c) (visible_scanExponent _ c)

theorem visible_commaSeparated {texts : List Str}
    (inside : ∀ text ∈ texts, ∀ c ∈ text, visible c = true) :
    ∀ c ∈ commaSeparated texts, visible c = true := by
  induction texts with
  | nil => intro c member; cases member
  | cons text texts ih =>
      cases texts with
      | nil => exact inside text (by simp)
      | cons second texts =>
          intro c member
          rw [commaSeparated_cons_cons, List.mem_append, List.mem_cons] at member
          rcases member with here | rfl | later
          · exact inside text (by simp) c here
          · decide
          · exact ih (fun text member => inside text (List.mem_cons_of_mem _ member)) c later

/-- Every character of a written value is visible ASCII. -/
theorem visible_dumps (value : Value) : ∀ c ∈ dumps value, visible c = true := by
  induction value using Value.induction with
  | null => exact List.all_eq_true.mp (by decide)
  | bool b => cases b <;> exact List.all_eq_true.mp (by decide)
  | int n =>
      intro c member
      rw [dumps, intText, List.mem_append] at member
      rcases member with minus | digits
      · split_ifs at minus
        · rw [List.mem_singleton.mp minus]; decide
        · cases minus
      · exact visible_of_whole (isWhole_decimal _) c digits
  | float f =>
      cases f with
      | finite literal => exact visible_floatLiteral literal
      | infinite negative => cases negative <;> exact List.all_eq_true.mp (by decide)
      | nan => exact List.all_eq_true.mp (by decide)
  | str s => exact visible_quote s
  | list items ih =>
      intro c member
      rw [dumps, dumpsItems_eq_map, List.cons_append, List.mem_cons, List.mem_append,
        List.mem_singleton] at member
      rcases member with rfl | inside | rfl
      · decide
      · refine visible_commaSeparated (fun text present => ?_) c inside
        obtain ⟨item, origin, rfl⟩ := List.mem_map.mp present
        exact ih item origin
      · decide
  | dict fields ih =>
      intro c member
      rw [dumps, dumpsFields_eq_map, sortKeys_map, List.cons_append, List.mem_cons,
        List.mem_append, List.mem_singleton, List.map_map] at member
      rcases member with rfl | inside | rfl
      · decide
      · refine visible_commaSeparated (fun text present => ?_) c inside
        obtain ⟨field, origin, rfl⟩ := List.mem_map.mp present
        intro d written
        rw [Function.comp_apply, fieldText, List.mem_append, List.mem_cons] at written
        rcases written with key | rfl | value
        · exact visible_quote field.1 d key
        · decide
        · exact ih field (mem_sortKeys.mp origin) d value
      · decide

end Json
