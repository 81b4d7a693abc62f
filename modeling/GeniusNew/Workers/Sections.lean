import Mathlib.Algebra.Order.BigOperators.Group.List
import Mathlib.Algebra.Group.Action.Defs
import GeniusNew.Workers.Digest

/-! # How large a digest gets

Every section of the digest is bounded by itself, in escaped bytes: a sentence by its
characters at twelve bytes each, a label by the bytes it is cut to, a number by its digits. The
text only has to be shorter than a hundred thousand characters.
-/

namespace GeniusNew

open Json

namespace Workers

section Cost

variable {text : Str}

theorem contentLength_of_unescaped (plain : text.all unescaped = true) :
    contentLength text = text.length := by
  have quoted := length_dumps_str text
  rw [dumps, length_quote plain] at quoted
  omega

theorem length_escape_pos (c : CodePoint) : 0 < (escape c).length := by
  unfold escape
  split_ifs
  any_goals exact Nat.zero_lt_succ _
  · unfold codeUnits
    split_ifs <;> exact Nat.zero_lt_succ _

theorem length_escape_le (c : CodePoint) : (escape c).length ≤ 12 := by
  unfold escape
  split_ifs
  any_goals exact Nat.le_of_ble_eq_true rfl
  · unfold codeUnits
    split_ifs <;> exact Nat.le_of_ble_eq_true rfl

/-- A character of the basic plane is one escape at most. -/
theorem length_escape_le_of_basic {c : CodePoint} (basic : c.val < 0x10000) :
    (escape c).length ≤ 6 := by
  unfold escape
  split_ifs
  any_goals exact Nat.le_of_ble_eq_true rfl
  · rw [codeUnits, if_pos basic]
    exact Nat.le_of_ble_eq_true rfl

theorem contentLength_le (text : Str) (bytes : Nat) (each : ∀ c ∈ text, (escape c).length ≤ bytes) :
    contentLength text ≤ bytes * text.length := by
  rw [contentLength_eq, List.length_flatMap, Nat.mul_comm]
  have bounded := List.sum_le_card_nsmul (text.map fun c => (escape c).length) bytes (by
    intro size member
    obtain ⟨c, inside, rfl⟩ := List.mem_map.mp member
    exact each c inside)
  rwa [List.length_map, smul_eq_mul] at bounded

theorem length_le_contentLength (text : Str) : text.length ≤ contentLength text := by
  rw [contentLength_eq, List.length_flatMap]
  have bounded := List.card_nsmul_le_sum (text.map fun c => (escape c).length) 1 (by
    intro size member
    obtain ⟨c, _, rfl⟩ := List.mem_map.mp member
    exact length_escape_pos c)
  rwa [List.length_map, smul_eq_mul, Nat.mul_one] at bounded

theorem contentLength_intercalate (separator : Str) {parts : List Str} (nonempty : parts ≠ []) :
    contentLength (separator.intercalate parts) + contentLength separator =
      (parts.map fun part => contentLength part + contentLength separator).sum := by
  induction parts with
  | nil => exact (nonempty rfl).elim
  | cons part parts ih =>
      cases parts with
      | nil => simp [List.intercalate_singleton]
      | cons second parts =>
          have later := ih (List.cons_ne_nil _ _)
          rw [List.intercalate_cons_cons, contentLength_append, contentLength_append,
            List.map_cons, List.sum_cons, ← later]
          omega

/-- What lines cost, each with its line break. -/
def cost (lines : List Str) : Nat := (lines.map fun line => contentLength line + 2).sum

@[simp] theorem cost_nil : cost [] = 0 := rfl

@[simp] theorem cost_cons (line : Str) (lines : List Str) :
    cost (line :: lines) = contentLength line + 2 + cost lines := rfl

@[simp] theorem cost_append (lines others : List Str) :
    cost (lines ++ others) = cost lines + cost others := by
  rw [cost, List.map_append, List.sum_append]
  rfl

theorem contentLength_joinLines {lines : List Str} (nonempty : lines ≠ []) :
    contentLength (joinLines lines) = cost lines := by
  have lineBreak : contentLength [10] = 2 := by decide
  have joined := contentLength_intercalate [10] nonempty
  rw [lineBreak] at joined
  rw [joinLines, contentLength_append, lineBreak, joined, cost]

theorem cost_le (lines : List Str) (bytes : Nat)
    (each : ∀ line ∈ lines, contentLength line ≤ bytes) :
    cost lines ≤ lines.length * (bytes + 2) := by
  have bounded := List.sum_le_card_nsmul (lines.map fun line => contentLength line + 2)
    (bytes + 2) (by
      intro size member
      obtain ⟨line, inside, rfl⟩ := List.mem_map.mp member
      exact Nat.add_le_add_right (each line inside) 2)
  rwa [List.length_map, smul_eq_mul] at bounded

end Cost

section Numbers

variable {digits : Str}

theorem unescaped_decimal (n : Nat) : (decimal n).all unescaped = true := by
  have whole := isWhole_decimal n
  cases shape : decimal n with
  | nil => rfl
  | cons first rest =>
      rw [shape, isWhole] at whole
      rw [List.all_cons]
      split_ifs at whole with zero
      · rw [zero, List.isEmpty_iff.mp whole]
        decide
      · rw [Bool.and_eq_true, List.all_eq_true] at whole
        rw [unescaped_of_isDigit whole.1, Bool.true_and, List.all_eq_true]
        intro c member
        exact unescaped_of_isDigit (whole.2 c member)

theorem contentLength_decimal (n : Nat) : contentLength (decimal n) = digitCount n :=
  contentLength_of_unescaped (unescaped_decimal n)

theorem length_groupDigits (separator : CodePoint) (digits : Str) :
    (groupDigits separator digits).length ≤ digits.length + digits.length / 3 := by
  fun_induction groupDigits separator digits with
  | case1 a b c d rest ih =>
      simp only [List.length_cons] at ih ⊢
      omega
  | case2 digits _ => exact Nat.le_add_right _ _

theorem unescaped_groupDigits {separator : CodePoint} (plain : unescaped separator = true)
    (inside : digits.all unescaped = true) : (groupDigits separator digits).all unescaped = true := by
  fun_induction groupDigits separator digits with
  | case1 a b c d rest ih =>
      simp only [List.all_cons, Bool.and_eq_true] at inside ih ⊢
      exact ⟨inside.1, inside.2.1, inside.2.2.1, plain, ih inside.2.2.2⟩
  | case2 digits _ => exact inside

theorem contentLength_number {value : Nat} (small : value < 100000) (language : Language) :
    contentLength (number value language) ≤ 6 := by
  have plain : ((decimal value).reverse).all unescaped = true := by
    rw [List.all_reverse]
    exact unescaped_decimal value
  have separator : unescaped (if language = .en then 44 else 46) = true := by
    split_ifs <;> decide
  have grouped := unescaped_groupDigits separator plain
  rw [number, contentLength_of_unescaped (by rw [List.all_reverse]; exact grouped),
    List.length_reverse]
  have long := length_groupDigits (if language = .en then 44 else 46) (decimal value).reverse
  have digits := digitCount_le (n := value) (k := 4) small
  rw [List.length_reverse, ← digitCount] at long
  omega

theorem contentLength_decimal_le {n k : Nat} (small : n < 10 ^ (k + 1)) :
    contentLength (decimal n) ≤ k + 1 := by
  rw [contentLength_decimal]
  exact digitCount_le small

theorem contentLength_readingTime {words : Nat} (small : words < 100000) (language : Language) :
    contentLength (readingTime words language) ≤ 14 := by
  have seconds : readingSeconds words < 60000 := by
    unfold readingSeconds
    dsimp only
    split_ifs <;> omega
  have minutes := contentLength_decimal_le (n := readingSeconds words / 60) (k := 2) (by omega)
  have rest := contentLength_decimal_le (n := readingSeconds words % 60) (k := 1) (by omega)
  have texts : contentLength (str " min ") = 5 ∧ contentLength (str " s") = 2 ∧
      contentLength (str " Min ") = 5 ∧ contentLength (str " Sek") = 4 := by decide
  unfold readingTime
  dsimp only
  split_ifs <;> simp only [contentLength_append, texts] <;> omega

theorem contentLength_average (statistics : Statistics) {total count : Nat}
    (small : total < 100000) (counted : 0 < count) :
    contentLength (average statistics total count) ≤ 7 := by
  have bounded : statistics.tenths total count ≤ 10 * total := statistics.tenths_le counted
  have whole := contentLength_decimal_le (n := statistics.tenths total count / 10) (k := 4)
    (by omega)
  have tenth := contentLength_decimal_le (n := statistics.tenths total count % 10) (k := 0)
    (by omega)
  have point : contentLength [46] = 1 := by decide
  rw [average, contentLength_append, contentLength_cons, point]
  omega

theorem contentLength_score (score : Int) :
    contentLength (intText (max 0 (min 100 score))) ≤ 3 := by
  obtain ⟨n, same⟩ := Int.eq_ofNat_of_zero_le (show 0 ≤ max 0 (min 100 score) by omega)
  have small : n < 10 ^ (2 + 1) := by omega
  have unsigned : intText (n : Int) = decimal n := by
    rw [intText, if_neg (by omega), List.nil_append, Int.natAbs_natCast]
  rw [same, unsigned]
  exact contentLength_decimal_le small

end Numbers

section Words

variable {unicode : Unicode} {word text : Str} {c : CodePoint}

/-- The words of a text take no more characters than the text. -/
theorem length_findWords (unicode : Unicode) (word text : Str) :
    ((findWords unicode word text).map List.length).sum ≤ word.length + text.length := by
  fun_induction findWords unicode word text with
  | case1 => exact Nat.zero_le _
  | case2 => simp
  | case3 word c rest _ ih =>
      rw [List.length_append, List.length_singleton] at ih
      rw [List.length_cons]
      omega
  | case4 word c rest _ _ ih =>
      rw [List.length_append, List.length_singleton] at ih
      rw [List.length_cons]
      omega
  | case5 c rest _ _ ih =>
      rw [List.length_nil] at ih ⊢
      rw [List.length_cons]
      omega
  | case6 word c rest _ _ _ ih =>
      rw [List.length_nil] at ih
      rw [List.map_cons, List.sum_cons, List.length_cons]
      omega

theorem ne_nil_of_mem_findWords (open_ : Str) (text : Str) :
    ∀ word ∈ findWords unicode open_ text, word ≠ [] := by
  fun_induction findWords unicode open_ text with
  | case1 =>
      intro word member
      cases member
  | case2 word nonempty =>
      intro other member
      rw [List.mem_singleton.mp member]
      exact nonempty
  | case3 _ _ _ _ ih => exact ih
  | case4 _ _ _ _ _ ih => exact ih
  | case5 _ _ _ _ ih => exact ih
  | case6 word c rest _ _ nonempty ih =>
      intro other member
      rcases List.mem_cons.mp member with rfl | later
      · exact nonempty
      · exact ih other later

theorem length_words_le (unicode : Unicode) (text : Str) :
    ((words unicode text).map List.length).sum ≤ text.length ∧
      (words unicode text).length ≤ text.length := by
  have total := length_findWords unicode [] text
  rw [List.length_nil, Nat.zero_add] at total
  have each := List.card_nsmul_le_sum ((words unicode text).map List.length) 1 (by
    intro size member
    obtain ⟨word, inside, rfl⟩ := List.mem_map.mp member
    exact List.length_pos_iff.mpr (ne_nil_of_mem_findWords [] text word inside))
  rw [List.length_map, smul_eq_mul, Nat.mul_one] at each
  exact ⟨total, each.trans total⟩

/-- A letter is in a word. -/
theorem findWords_ne_nil (found : word ≠ [] ∨ ∃ c ∈ text, isLetter unicode c = true) :
    findWords unicode word text ≠ [] := by
  fun_induction findWords unicode word text with
  | case1 =>
      rcases found with absurd | ⟨c, member, _⟩
      · exact (absurd rfl).elim
      · cases member
  | case2 => exact List.cons_ne_nil _ _
  | case3 word c rest _ ih => exact ih (.inl (List.append_ne_nil_of_right_ne_nil _ (List.cons_ne_nil _ _)))
  | case4 word c rest _ _ ih =>
      exact ih (.inl (List.append_ne_nil_of_right_ne_nil _ (List.cons_ne_nil _ _)))
  | case5 c rest other _ ih =>
      apply ih
      rcases found with absurd | ⟨d, member, letter⟩
      · exact (absurd rfl).elim
      · rcases List.mem_cons.mp member with rfl | later
        · exact (other letter).elim
        · exact .inr ⟨d, later, letter⟩
  | case6 => exact List.cons_ne_nil _ _

/-- A word is made of a letter at least. -/
theorem exists_letter (found : findWords unicode word text ≠ []) :
    word ≠ [] ∨ ∃ c ∈ text, isLetter unicode c = true := by
  fun_induction findWords unicode word text with
  | case1 => exact (found rfl).elim
  | case2 _ nonempty => exact .inl nonempty
  | case3 word c rest letter ih => exact .inr ⟨c, List.mem_cons_self, letter⟩
  | case4 word c rest _ joins ih => exact .inl joins.1
  | case5 c rest _ _ ih =>
      rcases ih found with absurd | ⟨d, member, letter⟩
      · exact (absurd rfl).elim
      · exact .inr ⟨d, List.mem_cons_of_mem _ member, letter⟩
  | case6 word c rest _ _ nonempty ih => exact .inl nonempty

/-- A split keeps every character that is no white space. -/
theorem mem_splitSentences (visible : isWhitespace c = false) (skip : Skip) (part : Str)
    (before : Option CodePoint) (member : c ∈ part ∨ c ∈ text) :
    ∃ kept ∈ splitSentences skip part before text, c ∈ kept := by
  fun_induction splitSentences skip part before text with
  | case1 skip part before =>
      exact ⟨part, List.mem_singleton_self _, member.resolve_right List.not_mem_nil⟩
  | case2 skip part before first rest taken ih =>
      apply ih
      apply member.imp_right
      intro inside
      apply (List.mem_cons.mp inside).resolve_left
      intro same
      rw [← same] at taken
      cases skip with
      | nothing => cases taken
      | spaces => rw [Skip.takes, visible] at taken; cases taken
      | lines =>
          rw [Skip.takes, decide_eq_true_eq] at taken
          rw [taken] at visible
          cases visible
  | case3 skip part before first rest _ splits ih =>
      rcases member with inside | later
      · exact ⟨part, List.mem_cons_self, inside⟩
      · have tail := (List.mem_cons.mp later).resolve_left (by
          intro same
          rw [Bool.and_eq_true, ← same, visible] at splits
          cases splits.2)
        obtain ⟨kept, known, inside⟩ := ih (.inr tail)
        exact ⟨kept, List.mem_cons_of_mem _ known, inside⟩
  | case4 skip part before rest _ _ ih =>
      rcases member with inside | later
      · exact ⟨part, List.mem_cons_self, inside⟩
      · have tail := (List.mem_cons.mp later).resolve_left (by
          intro same
          rw [same] at visible
          cases visible)
        obtain ⟨kept, known, inside⟩ := ih (.inr tail)
        exact ⟨kept, List.mem_cons_of_mem _ known, inside⟩
  | case5 skip part before first rest _ _ _ ih =>
      apply ih
      rcases member with inside | later
      · exact .inl (List.mem_append_left _ inside)
      · rcases List.mem_cons.mp later with rfl | tail
        · exact .inl (List.mem_append_right _ List.mem_cons_self)
        · exact .inr tail

theorem mem_dropWhile {p : CodePoint → Bool} (kept : p c = false) (member : c ∈ text) :
    c ∈ text.dropWhile p := by
  rw [← List.takeWhile_append_dropWhile (p := p) (l := text), List.mem_append] at member
  apply member.resolve_left
  intro taken
  rw [List.mem_takeWhile_imp taken] at kept
  cases kept

theorem mem_strip (visible : isWhitespace c = false) (member : c ∈ text) : c ∈ strip text := by
  rw [strip, rstrip, List.rdropWhile, List.mem_reverse]
  apply mem_dropWhile visible
  rw [List.mem_reverse]
  exact mem_dropWhile visible member

/-- A text with a word has a sentence. -/
theorem sentences_ne_nil (worded : words unicode text ≠ []) : sentences unicode text ≠ [] := by
  obtain ⟨c, member, letter⟩ := (exists_letter worded).resolve_left (fun absurd => absurd rfl)
  have visible : isWhitespace c = false := by
    by_contra blank
    have none := unicode.isAlnum_of_isWhitespace (Bool.eq_true_of_not_eq_false blank)
    rw [isLetter, none] at letter
    cases letter
  obtain ⟨part, known, inside⟩ := mem_splitSentences visible .nothing [] none (.inr member)
  apply List.ne_nil_of_mem
  refine List.mem_filter.mpr ⟨List.mem_map.mpr ⟨part, known, rfl⟩, ?_⟩
  rw [decide_eq_true_eq]
  exact findWords_ne_nil (.inr ⟨c, mem_strip visible inside, letter⟩)

theorem length_splitSentences (skip : Skip) (part : Str) (before : Option CodePoint) (text : Str) :
    (splitSentences skip part before text).length ≤ text.length + 1 := by
  fun_induction splitSentences skip part before text with
  | case1 => exact le_rfl
  | case2 _ _ _ _ _ _ ih => exact ih.trans (Nat.le_succ _)
  | case3 _ _ _ _ _ _ _ ih => exact Nat.succ_le_succ ih
  | case4 _ _ _ _ _ _ ih => exact Nat.succ_le_succ ih
  | case5 _ _ _ _ _ _ _ _ ih => exact ih.trans (Nat.le_succ _)

theorem length_sentences_le (unicode : Unicode) (text : Str) :
    (sentences unicode text).length ≤ text.length + 1 := by
  apply (List.length_filter_le _ _).trans
  rw [List.length_map]
  exact length_splitSentences _ _ _ _

end Words

end Workers

end GeniusNew
