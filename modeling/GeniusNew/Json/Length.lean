import GeniusNew.Json.Decoded

/-! # How long a text is

The text of a list or a dictionary is as long as its parts, with one character
between them and two around them. Plain text costs its own length and two
quotation marks.
-/

namespace Json

theorem length_commaSeparated (text : Str) (texts : List Str) :
    (commaSeparated (text :: texts)).length + 1 =
      ((text :: texts).map fun part => part.length + 1).sum := by
  induction texts generalizing text with
  | nil => simp [commaSeparated]
  | cons second texts ih =>
      have later := ih second
      rw [commaSeparated, List.length_append, List.length_cons, List.map_cons, List.sum_cons]
      · omega
      · exact List.cons_ne_nil _ _

/-- What one field adds to the text of a dictionary. -/
def fieldLength (field : Str × Value) : Nat :=
  (quote field.1).length + (dumps field.2).length + 2

theorem length_dumps_dict {fields : List (Str × Value)} (nonempty : fields ≠ []) :
    (dumps (.dict fields)).length = (fields.map fieldLength).sum + 1 := by
  have perm : ((sortKeys (dumpsFields fields)).map fieldText).Perm
      ((dumpsFields fields).map fieldText) := (sortKeys_perm _).map _
  have lengths : (((sortKeys (dumpsFields fields)).map fieldText).map fun part =>
      part.length + 1).sum = (fields.map fieldLength).sum := by
    rw [(perm.map fun part => part.length + 1).sum_eq, dumpsFields_eq_map, List.map_map,
      List.map_map]
    refine congrArg List.sum (List.map_congr_left fun field _ => ?_)
    simp only [Function.comp_apply, fieldText, List.length_append, List.length_cons, fieldLength]
    omega
  rw [dumps]
  cases shape : (sortKeys (dumpsFields fields)).map fieldText with
  | nil =>
      exfalso
      have empty := perm.length_eq
      rw [shape, List.length_map, dumpsFields_eq_map, List.length_map, List.length_nil] at empty
      exact nonempty (List.length_eq_zero_iff.mp empty.symm)
  | cons text texts =>
      have joined := length_commaSeparated text texts
      rw [shape] at lengths
      rw [List.length_append, List.length_cons, List.length_singleton]
      omega

theorem length_dumps_list {items : List Value} (nonempty : items ≠ []) :
    (dumps (.list items)).length = (items.map fun item => (dumps item).length + 1).sum + 1 := by
  rw [dumps, dumpsItems_eq_map]
  cases items with
  | nil => exact (nonempty rfl).elim
  | cons item items =>
      have joined := length_commaSeparated (dumps item) (items.map dumps)
      rw [← List.map_cons, List.map_map] at joined
      rw [List.length_append, List.length_cons, List.length_singleton]
      simp only [Function.comp_def] at joined
      omega

/-- Characters that stand for themselves in a quoted text. -/
def unescaped (c : CodePoint) : Bool := 32 ≤ c.val && c.val ≤ 126 && c ≠ 34 && c ≠ 92

theorem ne_of_isDigit {c other : CodePoint} (digit : isDigit c = true)
    (outside : isDigit other = false) : c ≠ other := by
  rintro rfl
  exact Bool.false_ne_true (outside.symm.trans digit)

theorem unescaped_of_isDigit {c : CodePoint} (digit : isDigit c = true) : unescaped c = true := by
  have quotation : c ≠ 34 := ne_of_isDigit digit (by decide)
  have backslash : c ≠ 92 := ne_of_isDigit digit (by decide)
  simp only [isDigit, Bool.and_eq_true, decide_eq_true_eq] at digit
  simp only [unescaped, Bool.and_eq_true, decide_eq_true_eq]
  exact ⟨⟨⟨by omega, by omega⟩, quotation⟩, backslash⟩

theorem escape_unescaped {c : CodePoint} (plain : unescaped c = true) : escape c = [c] := by
  simp only [unescaped, Bool.and_eq_true, decide_eq_true_eq] at plain
  obtain ⟨⟨⟨low, high⟩, quotation⟩, backslash⟩ := plain
  have other : ∀ n : CodePoint, n.val < 32 → c ≠ n := by
    rintro n control rfl
    omega
  simp only [escape, quotation, backslash, other 10 (by decide), other 13 (by decide),
    other 9 (by decide), other 12 (by decide), other 8 (by decide), ↓reduceIte, low, high, and_self]

theorem length_quote {text : Str} (plain : text.all unescaped = true) :
    (quote text).length = text.length + 2 := by
  have same : text.flatMap escape = text := by
    rw [List.all_eq_true] at plain
    refine (List.flatMap_congr fun c member => escape_unescaped (plain c member)).trans ?_
    exact List.flatMap_singleton' text
  simp [quote, same]

theorem length_digits_of_lt (digits : Nat) {number : Nat} (small : number < 10 ^ digits) :
    (Nat.digits 10 number).length ≤ digits := by
  rw [Nat.digits_length_le_iff (by decide)]
  exact small

/-- The number of decimal digits of a number. -/
def digitCount (n : Nat) : Nat := (decimal n).length

theorem digitCount_eq (n : Nat) : digitCount n = Nat.log 10 n + 1 := by
  rw [digitCount, decimal]
  split_ifs with zero
  · rw [zero, Nat.log_zero_right]
    rfl
  · rw [List.length_map, List.length_reverse, Nat.length_digits 10 n (by decide) zero]

theorem digitCount_pos (n : Nat) : 0 < digitCount n := by
  rw [digitCount_eq]
  exact Nat.succ_pos _

theorem digitCount_mono {m n : Nat} (le : m ≤ n) : digitCount m ≤ digitCount n := by
  rw [digitCount_eq, digitCount_eq]
  exact Nat.succ_le_succ (Nat.log_mono_right le)

theorem digitCount_le {n k : Nat} (small : n < 10 ^ (k + 1)) : digitCount n ≤ k + 1 := by
  rw [digitCount_eq]
  rcases Nat.eq_zero_or_pos n with rfl | positive
  · simp
  · exact Nat.log_lt_of_lt_pow (by omega) small

theorem length_intText (n : Nat) : (intText n).length = digitCount n := by
  have sign : ¬ ((n : Int) < 0) := by omega
  rw [intText, if_neg sign, List.nil_append, Int.natAbs_natCast, digitCount]

end Json
