import GeniusNew.Json.Read

/-! # Reading back written text

`json.loads` returns what `json.dumps` wrote, up to what the text cannot carry:
a surrogate pair comes back as the code point it encodes, and a dictionary comes
back in the order its keys were sorted (`Json.Value.reread`).
-/

namespace Json

/-! ## Strings -/

theorem hexValue_hexDigit : ∀ d < 16, hexValue (hexDigit d) = some d := by decide

theorem hexUnit_hex4 {n : Nat} (bound : n < 0x10000) :
    hexUnit (hexDigit (n / 4096 % 16)) (hexDigit (n / 256 % 16)) (hexDigit (n / 16 % 16))
      (hexDigit (n % 16)) = some (Fin.ofNat _ n) := by
  have digit (m : Nat) : hexValue (hexDigit (m % 16)) = some (m % 16) :=
    hexValue_hexDigit _ (Nat.mod_lt _ (by decide))
  have sum : n / 4096 % 16 * 4096 + n / 256 % 16 * 256 + n / 16 % 16 * 16 + n % 16 = n := by omega
  simp only [hexUnit, digit, Option.bind_eq_bind, Option.bind_some, sum, Option.pure_def]

/-- The code units of a code point, as the scanner sees them. -/
def unitPoints (c : CodePoint) : Str := (codeUnits c).map (Fin.ofNat _)

theorem codeUnits_lt (c : CodePoint) : ∀ n ∈ codeUnits c, n < 0x10000 := by
  intro n member
  have bound := c.isLt
  unfold codeUnits at member
  split_ifs at member with plane
  · rw [List.mem_singleton] at member
    omega
  · rw [List.mem_pair] at member
    omega

theorem scanUnits_unicodeEscape {n : Nat} (bound : n < 0x10000) (text : Str) :
    scanUnits (unicodeEscape n ++ text) =
      (scanUnits text).map fun scanned => (Fin.ofNat _ n :: scanned.1, scanned.2) := by
  simp only [unicodeEscape, hex4, List.cons_append, List.nil_append]
  rw [scanUnits]
  simp only [show (92 : CodePoint) ≠ 34 by decide, ↓reduceIte, hexUnit_hex4 bound]
  cases scanUnits text <;> rfl

theorem scanUnits_unicodeEscapes (units : List Nat) (bound : ∀ n ∈ units, n < 0x10000)
    (text : Str) :
    scanUnits (units.flatMap unicodeEscape ++ text) =
      (scanUnits text).map fun scanned => (units.map (Fin.ofNat _) ++ scanned.1, scanned.2) := by
  induction units with
  | nil => simp
  | cons n units ih =>
      rw [List.flatMap_cons, List.append_assoc, scanUnits_unicodeEscape (bound n (by simp)),
        ih fun m member => bound m (List.mem_cons_of_mem _ member)]
      cases scanUnits text <;> rfl

theorem scanUnits_unescape {mark unit : CodePoint} (short : mark ≠ 117)
    (known : unescape mark = some unit) (text : Str) :
    scanUnits (92 :: mark :: text) =
      (scanUnits text).map fun scanned => (unit :: scanned.1, scanned.2) := by
  rw [scanUnits.eq_def]
  simp only [show (92 : CodePoint) ≠ 34 by decide, ↓reduceIte, short, known]
  cases scanUnits text <;> rfl

/-- Scanning the escape of a code point yields its code units. -/
theorem scanUnits_escape (c : CodePoint) (text : Str) :
    scanUnits (escape c ++ text) =
      (scanUnits text).map fun scanned => (unitPoints c ++ scanned.1, scanned.2) := by
  unfold escape
  split_ifs with quotation backslash newline carriage tab feed back plain
  · subst quotation; exact scanUnits_unescape (by decide) (by decide) text
  · subst backslash; exact scanUnits_unescape (by decide) (by decide) text
  · subst newline; exact scanUnits_unescape (by decide) (by decide) text
  · subst carriage; exact scanUnits_unescape (by decide) (by decide) text
  · subst tab; exact scanUnits_unescape (by decide) (by decide) text
  · subst feed; exact scanUnits_unescape (by decide) (by decide) text
  · subst back; exact scanUnits_unescape (by decide) (by decide) text
  · have units : unitPoints c = [c] := by
      simp [unitPoints, codeUnits, show c.val < 0x10000 by omega]
    rw [List.singleton_append, scanUnits.eq_def]
    simp only [quotation, ↓reduceIte, backslash, show ¬ c.val < 32 by omega, units]
    cases scanUnits text <;> rfl
  · exact scanUnits_unicodeEscapes (codeUnits c) (codeUnits_lt c) text

theorem scanUnits_quote (s rest : Str) :
    scanUnits (s.flatMap escape ++ 34 :: rest) = some (s.flatMap unitPoints, rest) := by
  induction s with
  | nil => rw [List.flatMap_nil, List.nil_append, scanUnits.eq_def]; rfl
  | cons c s ih =>
      rw [List.flatMap_cons, List.append_assoc, scanUnits_escape, ih]
      rfl

theorem joinSurrogates_cons (c : CodePoint) (text : Str) :
    joinSurrogates (c :: text) =
      match text with
      | low :: rest =>
          if isHighSurrogate c && isLowSurrogate low then
            Fin.ofNat _ (0x10000 + (c.val - 0xd800) * 0x400 + (low.val - 0xdc00)) ::
              joinSurrogates rest
          else c :: joinSurrogates text
      | [] => [c] := by
  cases text <;> rfl

theorem joinSurrogates_cons_of_not_high {c : CodePoint} (plain : isHighSurrogate c = false)
    (text : Str) : joinSurrogates (c :: text) = c :: joinSurrogates text := by
  cases text with
  | nil => rfl
  | cons low rest => rw [joinSurrogates_cons]; simp [plain]

theorem joinSurrogates_cons_of_head {c : CodePoint} {text : Str}
    (plain : ∀ low ∈ text.head?, isLowSurrogate low = false) :
    joinSurrogates (c :: text) = c :: joinSurrogates text := by
  cases text with
  | nil => rfl
  | cons low rest => rw [joinSurrogates_cons]; simp [plain low rfl]

theorem unitPoints_of_lt {c : CodePoint} (plane : c.val < 0x10000) : unitPoints c = [c] := by
  simp [unitPoints, codeUnits, plane]

/-- The two code units of a supplementary code point join to it again. -/
theorem joinSurrogates_unitPoints {c : CodePoint} (plane : ¬ c.val < 0x10000) (text : Str) :
    joinSurrogates (unitPoints c ++ text) = c :: joinSurrogates text := by
  have bound := c.isLt
  have high : ((Fin.ofNat 0x110000 (0xd800 + (c.val - 0x10000) / 0x400)).val) =
      0xd800 + (c.val - 0x10000) / 0x400 := by
    rw [Fin.val_ofNat]; omega
  have low : ((Fin.ofNat 0x110000 (0xdc00 + (c.val - 0x10000) % 0x400)).val) =
      0xdc00 + (c.val - 0x10000) % 0x400 := by
    rw [Fin.val_ofNat]; omega
  have pair : (isHighSurrogate (Fin.ofNat _ (0xd800 + (c.val - 0x10000) / 0x400)) &&
      isLowSurrogate (Fin.ofNat _ (0xdc00 + (c.val - 0x10000) % 0x400))) = true := by
    simp only [isHighSurrogate, isLowSurrogate, high, low, Bool.and_eq_true, decide_eq_true_eq]
    omega
  have joined : Fin.ofNat 0x110000 (0x10000 + (0xd800 + (c.val - 0x10000) / 0x400 - 0xd800) * 0x400 +
      (0xdc00 + (c.val - 0x10000) % 0x400 - 0xdc00)) = c := by
    apply Fin.ext
    rw [Fin.val_ofNat]
    omega
  simp only [unitPoints, codeUnits, plane, ↓reduceIte, List.map_cons, List.map_nil,
    List.cons_append, List.nil_append]
  rw [joinSurrogates]
  simp only [pair, ↓reduceIte, high, low, joined]

theorem not_isLowSurrogate_head {c : CodePoint} (plain : isLowSurrogate c = false) (text : Str) :
    ∀ low ∈ (unitPoints c ++ text).head?, isLowSurrogate low = false := by
  intro low member
  by_cases plane : c.val < 0x10000
  · rw [unitPoints_of_lt plane] at member
    cases Option.mem_def.mp member
    exact plain
  · have bound := c.isLt
    simp only [unitPoints, codeUnits, plane, ↓reduceIte, List.map_cons, List.cons_append,
      List.head?_cons, Option.mem_def, Option.some.injEq] at member
    subst member
    simp only [isLowSurrogate, Fin.val_ofNat, Bool.and_eq_false_iff, decide_eq_false_iff_not]
    omega

/-- Splitting into code units and joining them joins the surrogate pairs that
were there before, and nothing else. -/
theorem joinSurrogates_flatMap_unitPoints (s : Str) :
    joinSurrogates (s.flatMap unitPoints) = joinSurrogates s := by
  induction s using joinSurrogates.induct with
  | case1 => rfl
  | case2 c =>
      by_cases plane : c.val < 0x10000
      · simp [unitPoints_of_lt plane]
      · simpa [joinSurrogates] using joinSurrogates_unitPoints plane []
  | case3 high low rest pair ih =>
      have planes : high.val < 0x10000 ∧ low.val < 0x10000 := by
        simp only [isHighSurrogate, isLowSurrogate, Bool.and_eq_true, decide_eq_true_eq] at pair
        omega
      rw [List.flatMap_cons, List.flatMap_cons, unitPoints_of_lt planes.1,
        unitPoints_of_lt planes.2, List.singleton_append, List.singleton_append, joinSurrogates,
        joinSurrogates]
      simp only [pair, ↓reduceIte, ih]
  | case4 high low rest apart ih =>
      rw [List.flatMap_cons, joinSurrogates, ite_eq_right_iff.mpr fun pair => (apart pair).elim, ← ih]
      by_cases plane : high.val < 0x10000
      · rw [unitPoints_of_lt plane, List.singleton_append]
        by_cases marked : isHighSurrogate high = true
        · apply joinSurrogates_cons_of_head
          rw [List.flatMap_cons]
          apply not_isLowSurrogate_head
          simpa [marked] using apart
        · exact joinSurrogates_cons_of_not_high (by simpa using marked) _
      · rw [joinSurrogates_unitPoints plane]

theorem readString_quote (s rest : Str) :
    readString (s.flatMap escape ++ 34 :: rest) = .ok (joinSurrogates s, rest) := by
  simp only [readString, scanUnits_quote, joinSurrogates_flatMap_unitPoints]

/-! ## Numbers -/

theorem NumberEnds.digit {rest : Str} (ends : NumberEnds rest) :
    ∀ c ∈ rest.head?, isDigit c = false := by
  intro c member
  have ended := ends c member
  simp only [isNumberChar, Bool.or_eq_false_iff] at ended
  exact ended.1.1.1.1.1

theorem scanTail_of_ends {rest : Str} (ends : NumberEnds rest) : scanTail rest = ([], rest) := by
  simpa [scanTail, scanFraction, scanExponent] using @scanTail_append [] rest ends

theorem isDigit_of_lt {d : Nat} (bound : d < 10) :
    isDigit (Fin.ofNat 0x110000 (48 + d)) = true ∧
      (Fin.ofNat 0x110000 (48 + d)).val - 48 = d := by
  simp only [isDigit, Fin.val_ofNat, Bool.and_eq_true, decide_eq_true_eq]
  omega

theorem digitsValue_map (digits : List Nat) (bound : ∀ d ∈ digits, d < 10) (start : Nat) :
    (digits.reverse.map fun d => (Fin.ofNat 0x110000 (48 + d))).foldl
        (fun n d => n * 10 + (d.val - 48)) start =
      start * 10 ^ digits.length + Nat.ofDigits 10 digits := by
  induction digits generalizing start with
  | nil => simp [Nat.ofDigits]
  | cons d digits ih =>
      rw [List.reverse_cons, List.map_append, List.foldl_append,
        ih fun e member => bound e (List.mem_cons_of_mem _ member)]
      simp only [List.map_cons, List.map_nil, List.foldl_cons, List.foldl_nil,
        (isDigit_of_lt (bound d (by simp))).2, List.length_cons, Nat.ofDigits_cons, pow_succ]
      ring

theorem digitsValue_decimal (n : Nat) : digitsValue (decimal n) = n := by
  by_cases zero : n = 0
  · subst zero; rfl
  · rw [decimal, ite_eq_right_iff.mpr fun same => (zero same).elim, digitsValue,
      digitsValue_map _ fun d member => Nat.digits_lt_base (by decide) member, Nat.ofDigits_digits]
    simp

theorem decimal_eq_cons {n : Nat} (positive : n ≠ 0) :
    ∃ first rest, decimal n = first :: rest ∧ first ≠ 48 ∧ isDigit first = true ∧
      ∀ c ∈ rest, isDigit c = true := by
  have nonempty : (Nat.digits 10 n).reverse ≠ [] := by
    simpa using Nat.digits_ne_nil_iff_ne_zero.mpr positive
  obtain ⟨lead, tail, split⟩ := List.exists_cons_of_ne_nil nonempty
  have bound : ∀ d ∈ lead :: tail, d < 10 := fun d member =>
    Nat.digits_lt_base (by decide) (List.mem_reverse.mp (split ▸ member))
  have leading : lead ≠ 0 := by
    have last := Nat.getLast_digit_ne_zero 10 positive
    rw [← List.head_reverse (by simpa using nonempty)] at last
    simpa only [split, List.head_cons] using last
  refine ⟨_, tail.map fun d => Fin.ofNat _ (48 + d), ?_, ?_,
    (isDigit_of_lt (bound lead (by simp))).1, ?_⟩
  · rw [decimal, ite_eq_right_iff.mpr fun same => (positive same).elim, split, List.map_cons]
  · intro same
    have value := (isDigit_of_lt (bound lead (by simp))).2
    rw [same] at value
    exact leading value.symm
  · intro c member
    obtain ⟨d, inside, rfl⟩ := List.mem_map.mp member
    exact (isDigit_of_lt (bound d (List.mem_cons_of_mem _ inside))).1

theorem takeWhile_of_all {p : CodePoint → Bool} {text rest : Str} (holds : ∀ c ∈ text, p c = true)
    (ends : ∀ c ∈ rest.head?, p c = false) :
    (text ++ rest).takeWhile p = text ∧ (text ++ rest).dropWhile p = rest := by
  have whole := List.takeWhile_eq_self_iff.mpr holds
  refine ⟨by rw [takeWhile_append_of_head ends, whole], ?_⟩
  rw [dropWhile_append_of_head ends, ← whole, dropWhile_takeWhile, List.nil_append]

theorem scanWhole_append {whole rest : Str} (digits : isWhole whole = true)
    (ends : ∀ c ∈ rest.head?, isDigit c = false) :
    scanWhole (whole ++ rest) = some (whole, rest) := by
  match whole with
  | [] => cases digits
  | first :: tail =>
      by_cases zero : first = 48
      · simp only [isWhole, zero, ↓reduceIte, List.isEmpty_iff] at digits
        subst zero digits
        rfl
      · simp only [isWhole, zero, ↓reduceIte, Bool.and_eq_true, List.all_eq_true] at digits
        obtain ⟨taken, dropped⟩ := takeWhile_of_all digits.2 ends
        simp only [List.cons_append, scanWhole, zero, ↓reduceIte, digits.1, taken, dropped]

theorem isWhole_decimal (n : Nat) : isWhole (decimal n) = true := by
  by_cases zero : n = 0
  · subst zero; rfl
  · obtain ⟨first, rest, split, leading, digit, digits⟩ := decimal_eq_cons zero
    simp only [split, isWhole, leading, ↓reduceIte, digit, Bool.true_and, List.all_eq_true]
    exact digits

theorem decimal_length_le {n : Nat} (bound : (Nat.digits 10 n).length ≤ maxIntDigits) :
    (decimal n).length ≤ maxIntDigits := by
  unfold decimal
  split_ifs
  · decide
  · simpa using bound

theorem isWhole_head {whole : Str} (digits : isWhole whole = true) :
    ∃ first rest, whole = first :: rest ∧ isDigit first = true := by
  match whole with
  | [] => cases digits
  | first :: rest =>
      refine ⟨first, rest, rfl, ?_⟩
      by_cases zero : first = 48
      · rw [zero]; decide
      · simp only [isWhole, zero, ↓reduceIte, Bool.and_eq_true] at digits
        exact digits.1

theorem readUnsigned_int (interpreter : Interpreter) (negative : Bool) {n : Nat} {rest : Str}
    (bound : (Nat.digits 10 n).length ≤ maxIntDigits) (ends : NumberEnds rest) :
    readUnsigned interpreter negative (decimal n ++ rest) =
      .ok (.int (if negative then -(n : Int) else n), rest) := by
  have scanned := scanWhole_append (isWhole_decimal n) ends.digit
  unfold readUnsigned
  split
  · rename_i failed
    rw [scanned] at failed
    cases failed
  · rename_i whole tail same
    rw [scanned] at same
    cases same
    simp only [scanTail_of_ends ends, ↓reduceDIte, decimal_length_le bound, ↓reduceIte,
      digitsValue_decimal]

theorem tail_head_not_digit (literal : FloatLiteral) (rest : Str) :
    ∀ c ∈ (literal.tail ++ rest).head?, isDigit c = false := by
  obtain ⟨c, tail, split⟩ := List.exists_cons_of_ne_nil literal.tail_nonempty
  intro d member
  rw [split, List.cons_append, List.head?_cons, Option.mem_def, Option.some.injEq] at member
  subst member
  by_contra digit
  rw [Bool.not_eq_false] at digit
  -- a digit starts neither a fraction nor an exponent, so nothing would be consumed
  have plain : c ≠ 46 ∧ c ≠ 101 ∧ c ≠ 69 := by
    refine ⟨?_, ?_, ?_⟩ <;> (rintro rfl; exact absurd digit (by decide))
  have fraction : scanFraction (c :: tail) = ([], c :: tail) := by
    cases tail <;> simp [scanFraction, plain]
  have scans := literal.tail_scans
  rw [split] at scans
  simp [scanTail, fraction, scanExponent, plain] at scans

theorem readUnsigned_float (interpreter : Interpreter) {literal : FloatLiteral} {rest : Str}
    (printed : interpreter.floatRepr literal = some literal) (ends : NumberEnds rest) :
    readUnsigned interpreter literal.negative (literal.whole ++ (literal.tail ++ rest)) =
      .ok (.float (.finite literal), rest) := by
  have scanned := scanWhole_append literal.whole_digits (tail_head_not_digit literal rest)
  have tails : scanTail (literal.tail ++ rest) = (literal.tail, rest) := by
    rw [scanTail_append ends, literal.tail_scans, List.nil_append]
  unfold readUnsigned
  split
  · rename_i failed
    rw [scanned] at failed
    cases failed
  · rename_i whole tail same
    rw [scanned] at same
    cases same
    simp only [tails, literal.tail_nonempty, ↓reduceDIte, printed]

theorem readNumber_of_digit (interpreter : Interpreter) {text : Str} {first : CodePoint}
    (head : text.head? = some first) (digit : isDigit first = true) :
    readNumber interpreter text = readUnsigned interpreter false text ∧
      readNumber interpreter (45 :: text) = readUnsigned interpreter true text := by
  obtain ⟨rest, rfl⟩ := List.head?_eq_some_iff.mp head
  constructor
  · unfold readNumber
    split
    · rename_i same
      cases same
      exact absurd digit (by decide)
    · rfl
  · have other : (str "Infinity").isPrefixOf (first :: rest) = false := by
      have letter : first ≠ 73 := by rintro rfl; exact absurd digit (by decide)
      have spelled : str "Infinity" = 73 :: (str "Infinity").tail := by decide
      rw [spelled, List.isPrefixOf_cons_cons, beq_eq_false_iff_ne.mpr letter.symm, Bool.false_and]
    simp only [readNumber, other, Bool.false_eq_true, ↓reduceIte]

theorem readNumber_int (interpreter : Interpreter) {n : Int} {rest : Str}
    (bound : (Nat.digits 10 n.natAbs).length ≤ maxIntDigits) (ends : NumberEnds rest) :
    readNumber interpreter (intText n ++ rest) = .ok (.int n, rest) := by
  obtain ⟨first, tail, split, digit⟩ := isWhole_head (isWhole_decimal n.natAbs)
  have head : (decimal n.natAbs ++ rest).head? = some first := by rw [split]; rfl
  obtain ⟨plain, signed⟩ := readNumber_of_digit interpreter head digit
  by_cases negative : n < 0
  · simp only [intText, negative, ↓reduceIte, List.cons_append, List.nil_append, signed,
      readUnsigned_int interpreter true bound ends]
    congr 3
    omega
  · simp only [intText, negative, ↓reduceIte, List.nil_append, plain,
      readUnsigned_int interpreter false bound ends, Bool.false_eq_true]
    congr 3
    omega

theorem readNumber_float (interpreter : Interpreter) {literal : FloatLiteral} {rest : Str}
    (printed : interpreter.floatRepr literal = some literal) (ends : NumberEnds rest) :
    readNumber interpreter (literal.text ++ rest) = .ok (.float (.finite literal), rest) := by
  obtain ⟨first, tail, split, digit⟩ := isWhole_head literal.whole_digits
  have head : (literal.whole ++ (literal.tail ++ rest)).head? = some first := by rw [split]; rfl
  obtain ⟨plain, signed⟩ := readNumber_of_digit interpreter head digit
  have unsigned := readUnsigned_float interpreter printed ends
  by_cases negative : literal.negative = true
  · rw [negative] at unsigned
    simp only [FloatLiteral.text, negative, ↓reduceIte, List.cons_append, List.nil_append,
      List.append_assoc, signed, unsigned]
  · rw [Bool.not_eq_true] at negative
    rw [negative] at unsigned
    simp only [FloatLiteral.text, negative, Bool.false_eq_true, ↓reduceIte, List.nil_append,
      List.append_assoc, plain, unsigned]

/-! ## Values -/

namespace Value

mutual

/-- What comes back when a value's text is read, pairs as written. -/
def reread : Value → Value
  | .str s => .str (joinSurrogates s)
  | .list items => .list (rereadItems items)
  | .dict fields =>
      .dict ((sortKeys (rereadFields fields)).map fun field => (joinSurrogates field.1, field.2))
  | value => value

def rereadItems : List Value → List Value
  | [] => []
  | item :: items => item.reread :: rereadItems items

def rereadFields : List (Str × Value) → List (Str × Value)
  | [] => []
  | (key, value) :: fields => (key, value.reread) :: rereadFields fields

end

theorem rereadItems_eq_map (items : List Value) : rereadItems items = items.map reread := by
  induction items with
  | nil => rfl
  | cons item items ih => rw [rereadItems, ih, List.map_cons]

theorem rereadFields_eq_map (fields : List (Str × Value)) :
    rereadFields fields = fields.map fun field => (field.1, field.2.reread) := by
  induction fields with
  | nil => rfl
  | cons field fields ih => rw [rereadFields, ih, List.map_cons]

theorem depthItems_le {items : List Value} {level : Nat} :
    depthItems items ≤ level ↔ ∀ item ∈ items, item.depth ≤ level := by
  induction items with
  | nil => simp [depthItems]
  | cons item items ih => simp [depthItems, ih]

theorem depthFields_le {fields : List (Str × Value)} {level : Nat} :
    depthFields fields ≤ level ↔ ∀ field ∈ fields, field.2.depth ≤ level := by
  induction fields with
  | nil => simp [depthFields]
  | cons field fields ih => simp [depthFields, ih]

theorem printableItems_iff {interpreter : Interpreter} {items : List Value} :
    printableItems interpreter items = true ↔
      ∀ item ∈ items, item.printable interpreter = true := by
  induction items with
  | nil => simp [printableItems]
  | cons item items ih => simp [printableItems, ih]

theorem printableFields_iff {interpreter : Interpreter} {fields : List (Str × Value)} :
    printableFields interpreter fields = true ↔
      ∀ field ∈ fields, field.2.printable interpreter = true := by
  induction fields with
  | nil => simp [printableFields]
  | cons field fields ih => simp [printableFields, ih]

/-- Induction over a value and everything inside it. -/
theorem induction {motive : Value → Prop} (null : motive .null) (bool : ∀ b, motive (.bool b))
    (int : ∀ n, motive (.int n)) (float : ∀ f, motive (.float f)) (str : ∀ s, motive (.str s))
    (list : ∀ items, (∀ item ∈ items, motive item) → motive (.list items))
    (dict : ∀ fields, (∀ field ∈ fields, motive field.2) → motive (.dict fields))
    (value : Value) : motive value := by
  suffices bounded : ∀ level (value : Value), value.depth ≤ level → motive value from
    bounded _ value le_rfl
  intro level
  induction level with
  | zero =>
      intro value flat
      cases value with
      | list items => simp [depth] at flat
      | dict fields => simp [depth] at flat
      | null => exact null
      | bool b => exact bool b
      | int n => exact int n
      | float f => exact float f
      | str s => exact str s
  | succ level ih =>
      intro value shallow
      cases value with
      | list items =>
          rw [depth, Nat.succ_le_succ_iff, depthItems_le] at shallow
          exact list items fun item member => ih item (shallow item member)
      | dict fields =>
          rw [depth, Nat.succ_le_succ_iff, depthFields_le] at shallow
          exact dict fields fun field member => ih field.2 (shallow field member)
      | null => exact null
      | bool b => exact bool b
      | int n => exact int n
      | float f => exact float f
      | str s => exact str s

end Value

/-- Sorting by key does not look at what stands under the keys. -/
theorem sortKeys_map {α β : Type*} (f : α → β) (fields : List (Str × α)) :
    sortKeys (fields.map fun field => (field.1, f field.2)) =
      (sortKeys fields).map fun field => (field.1, f field.2) := by
  symm
  apply List.map_insertionSort
  intro a _ b _
  rfl

theorem mem_sortKeys {α : Type*} {fields : List (Str × α)} {field : Str × α} :
    field ∈ sortKeys fields ↔ field ∈ fields :=
  (List.perm_insertionSort _ _).mem_iff

theorem skipSpace_cons {c : CodePoint} (visible : isSpace c = false) (text : Str) :
    skipSpace (c :: text) = c :: text := by
  simp [skipSpace, visible]

theorem isDigit_visible {c : CodePoint} (digit : isDigit c = true) :
    isSpace c = false ∧ c ≠ 93 := by
  constructor
  · by_contra space
    simp only [isSpace, Bool.not_eq_false, Bool.or_eq_true, decide_eq_true_eq] at space
    rcases space with ((rfl | rfl) | rfl) | rfl <;> exact absurd digit (by decide)
  · rintro rfl
    exact absurd digit (by decide)

/-- A written value starts with a visible character that does not close an array. -/
theorem dumps_head (value : Value) :
    ∃ c text, dumps value = c :: text ∧ isSpace c = false ∧ c ≠ 93 := by
  match value with
  | .null => exact ⟨110, _, rfl, by decide, by decide⟩
  | .bool true => exact ⟨116, _, rfl, by decide, by decide⟩
  | .bool false => exact ⟨102, _, rfl, by decide, by decide⟩
  | .str s => exact ⟨34, _, rfl, by decide, by decide⟩
  | .list items => exact ⟨91, _, rfl, by decide, by decide⟩
  | .dict fields => exact ⟨123, _, rfl, by decide, by decide⟩
  | .int n =>
      obtain ⟨first, rest, split, digit⟩ := isWhole_head (isWhole_decimal n.natAbs)
      rw [dumps, intText, split]
      split_ifs
      · exact ⟨45, _, rfl, by decide, by decide⟩
      · exact ⟨first, _, rfl, isDigit_visible digit⟩
  | .float (.finite literal) =>
      obtain ⟨first, rest, split, digit⟩ := isWhole_head literal.whole_digits
      rw [dumps, FloatNumber.text, FloatLiteral.text, split]
      split_ifs
      · exact ⟨45, _, rfl, by decide, by decide⟩
      · exact ⟨first, _, rfl, isDigit_visible digit⟩
  | .float (.infinite true) => exact ⟨45, _, rfl, by decide, by decide⟩
  | .float (.infinite false) => exact ⟨73, _, rfl, by decide, by decide⟩
  | .float .nan => exact ⟨78, _, rfl, by decide, by decide⟩

theorem skipSpace_dumps (value : Value) (rest : Str) :
    skipSpace (dumps value ++ rest) = dumps value ++ rest := by
  obtain ⟨c, text, split, visible, _⟩ := dumps_head value
  rw [split, List.cons_append, skipSpace_cons visible]

theorem commaSeparated_cons_cons (first second : Str) (texts : List Str) :
    commaSeparated (first :: second :: texts) = first ++ 44 :: commaSeparated (second :: texts) :=
  rfl

theorem length_le_commaSeparated (texts : List Str) :
    texts.length ≤ (commaSeparated texts).length + 1 := by
  induction texts with
  | nil => simp
  | cons text texts ih =>
      cases texts with
      | nil => simp
      | cons second texts =>
          rw [commaSeparated_cons_cons]
          simp only [List.length_append, List.length_cons] at ih ⊢
          omega

theorem numberEnds_cons {c : CodePoint} (ended : isNumberChar c = false) (rest : Str) :
    NumberEnds (c :: rest) := by
  intro d member
  cases Option.mem_def.mp member
  exact ended

/-- A reader that reads each of the given values back. -/
def ReadsBack (item : Reader Value) (value : Value) : Prop :=
  ∀ rest, NumberEnds rest → item (dumps value ++ rest) = .ok (value.reread, rest)

theorem commaSeparated_head (text : Str) (texts : List Str) :
    ∃ rest, commaSeparated (text :: texts) = text ++ rest := by
  cases texts with
  | nil => exact ⟨[], (List.append_nil text).symm⟩
  | cons second texts => exact ⟨_, rfl⟩

theorem readItems_dumps {item : Reader Value} (first : Value) (items : List Value) (rest : Str)
    (fuel : Nat) (enough : items.length < fuel)
    (reads : ∀ value ∈ first :: items, ReadsBack item value) :
    readItems item fuel (commaSeparated ((first :: items).map dumps) ++ 93 :: rest) =
      .ok ((first :: items).map Value.reread, rest) := by
  induction items generalizing first fuel with
  | nil =>
      obtain ⟨fuel, rfl⟩ := Nat.exists_eq_add_of_lt enough
      have read := reads first (by simp) (93 :: rest) (numberEnds_cons (by decide) rest)
      simp only [List.map_cons, List.map_nil, commaSeparated, readItems, read, bind, Except.bind,
        skipSpace_cons (show isSpace 93 = false by decide), ↓reduceIte]
      rfl
  | cons second items ih =>
      obtain ⟨fuel, rfl⟩ := Nat.exists_eq_succ_of_ne_zero (Nat.ne_of_gt (Nat.zero_lt_of_lt enough))
      rw [List.length_cons, Nat.succ_lt_succ_iff] at enough
      have later := ih second fuel enough fun value member => reads value (List.mem_cons_of_mem _ member)
      obtain ⟨tail, split⟩ := commaSeparated_head (dumps second) (items.map dumps)
      rw [List.map_cons, List.map_cons, commaSeparated_cons_cons, List.append_assoc,
        List.cons_append, readItems, reads first (by simp) _ (numberEnds_cons (by decide) _)]
      rw [List.map_cons, split, List.append_assoc] at later
      simp only [bind, Except.bind, skipSpace_cons (show isSpace 44 = false by decide),
        show (44 : CodePoint) ≠ 93 by decide, ↓reduceIte, split, List.append_assoc,
        skipSpace_dumps, later]
      rfl

theorem readPairs_dumps {item : Reader Value} (first : Str × Value) (fields : List (Str × Value))
    (rest : Str) (fuel : Nat) (enough : fields.length < fuel)
    (reads : ∀ field ∈ first :: fields, ReadsBack item field.2) :
    readPairs item fuel (commaSeparated ((first :: fields).map fun field =>
        fieldText (field.1, dumps field.2)) ++ 125 :: rest) =
      .ok ((first :: fields).map fun field => (joinSurrogates field.1, field.2.reread), rest) := by
  induction fields generalizing first fuel with
  | nil =>
      obtain ⟨fuel, rfl⟩ := Nat.exists_eq_succ_of_ne_zero (Nat.ne_of_gt (Nat.zero_lt_of_lt enough))
      have read := reads first (by simp) (125 :: rest) (numberEnds_cons (by decide) rest)
      simp only [List.map_cons, List.map_nil, commaSeparated, fieldText, quote, List.cons_append,
        List.nil_append, List.append_assoc, readPairs, ↓reduceIte, readString_quote, bind,
        Except.bind, skipSpace_cons (show isSpace 58 = false by decide), skipSpace_dumps, read,
        skipSpace_cons (show isSpace 125 = false by decide)]
      rfl
  | cons second fields ih =>
      obtain ⟨fuel, rfl⟩ := Nat.exists_eq_succ_of_ne_zero (Nat.ne_of_gt (Nat.zero_lt_of_lt enough))
      rw [List.length_cons, Nat.succ_lt_succ_iff] at enough
      have later := ih second fuel enough fun value member => reads value (List.mem_cons_of_mem _ member)
      obtain ⟨tail, split⟩ := commaSeparated_head (fieldText (second.1, dumps second.2))
        (fields.map fun field => fieldText (field.1, dumps field.2))
      rw [List.map_cons, List.map_cons, commaSeparated_cons_cons, split]
      rw [List.map_cons, split] at later
      simp only [fieldText, quote, List.cons_append, List.nil_append, List.append_assoc] at later ⊢
      have read := fun text => reads first (by simp) (44 :: text) (numberEnds_cons (by decide) text)
      simp only [readPairs, ↓reduceIte, readString_quote, bind, Except.bind,
        skipSpace_cons (show isSpace 58 = false by decide), skipSpace_dumps, read,
        skipSpace_cons (show isSpace 44 = false by decide),
        show (44 : CodePoint) ≠ 125 by decide,
        skipSpace_cons (show isSpace 34 = false by decide), later]
      rfl

theorem readName_spelled (name : String) (value : Value) (rest : Str) :
    readName name value (str name ++ rest) = .ok (value, rest) := by
  simp [readName, List.isPrefixOf_iff_prefix]

theorem readWith_digit (interpreter : Interpreter) (nested : Option (Reader Value)) {text : Str}
    {first : CodePoint} (head : text.head? = some first)
    (digit : isDigit first = true ∨ first = 45) :
    readWith interpreter nested text = readNumber interpreter text := by
  obtain ⟨rest, rfl⟩ := List.head?_eq_some_iff.mp head
  have letters : first ≠ 34 ∧ first ≠ 123 ∧ first ≠ 91 ∧ first ≠ 110 ∧ first ≠ 116 ∧
      first ≠ 102 ∧ first ≠ 78 ∧ first ≠ 73 := by
    refine ⟨?_, ?_, ?_, ?_, ?_, ?_, ?_, ?_⟩ <;> (rintro rfl; revert digit; decide)
  simp only [readWith, letters, ↓reduceIte]

theorem readWith_scalar (interpreter : Interpreter) (nested : Option (Reader Value))
    {value : Value} (flat : value.depth = 0) (printed : value.printable interpreter = true) :
    ReadsBack (readWith interpreter nested) value := by
  intro rest ends
  match value with
  | .null => exact readName_spelled "null" .null rest
  | .bool true => exact readName_spelled "true" (.bool true) rest
  | .bool false => exact readName_spelled "false" (.bool false) rest
  | .str s =>
      simp only [dumps, quote, List.cons_append, List.append_assoc, List.nil_append, readWith,
        ↓reduceIte, readString_quote]
      rfl
  | .int n =>
      rw [Value.printable, decide_eq_true_eq] at printed
      obtain ⟨first, tail, split, digit⟩ := isWhole_head (isWhole_decimal n.natAbs)
      have head : ∃ first, (intText n ++ rest).head? = some first ∧
          (isDigit first = true ∨ first = 45) := by
        rw [intText, split]
        split_ifs
        · exact ⟨45, rfl, .inr rfl⟩
        · exact ⟨first, rfl, .inl digit⟩
      obtain ⟨first, head, numeric⟩ := head
      rw [dumps, readWith_digit interpreter nested head numeric,
        readNumber_int interpreter printed ends, Value.reread]
      all_goals intros; contradiction
  | .float (.finite literal) =>
      rw [Value.printable, decide_eq_true_eq] at printed
      obtain ⟨first, tail, split, digit⟩ := isWhole_head literal.whole_digits
      have head : ∃ first, (literal.text ++ rest).head? = some first ∧
          (isDigit first = true ∨ first = 45) := by
        rw [FloatLiteral.text, split]
        split_ifs
        · exact ⟨45, rfl, .inr rfl⟩
        · exact ⟨first, rfl, .inl digit⟩
      obtain ⟨first, head, numeric⟩ := head
      rw [dumps, FloatNumber.text, readWith_digit interpreter nested head numeric,
        readNumber_float interpreter printed ends, Value.reread]
      all_goals intros; contradiction
  | .float (.infinite _) => cases printed
  | .float .nan => cases printed
  | .list _ => simp [Value.depth] at flat
  | .dict _ => simp [Value.depth] at flat

theorem readArray_dumps {item : Reader Value} (items : List Value) (rest : Str)
    (reads : ∀ value ∈ items, ReadsBack item value) :
    readArray item (commaSeparated (items.map dumps) ++ 93 :: rest) =
      .ok (.list (items.map Value.reread), rest) := by
  cases items with
  | nil => simp [commaSeparated, readArray, skipSpace_cons (show isSpace 93 = false by decide)]
  | cons first items =>
      have count := length_le_commaSeparated ((first :: items).map dumps)
      have read := readItems_dumps first items rest
        ((commaSeparated ((first :: items).map dumps) ++ 93 :: rest).length + 1)
        (by simp only [List.length_map, List.length_cons, List.length_append] at count ⊢; omega)
        reads
      obtain ⟨tail, split⟩ := commaSeparated_head (dumps first) (items.map dumps)
      obtain ⟨c, text, head, visible, open_⟩ := dumps_head first
      rw [List.map_cons, split, head, List.cons_append, List.cons_append] at read ⊢
      simp only [readArray, skipSpace_cons visible, open_, ↓reduceIte, read, bind, Except.bind]
      rfl

theorem readObject_dumps {item : Reader Value} (fields : List (Str × Value)) (rest : Str)
    (reads : ∀ field ∈ fields, ReadsBack item field.2) :
    readObject item (commaSeparated (fields.map fun field =>
        fieldText (field.1, dumps field.2)) ++ 125 :: rest) =
      .ok (.dict (fields.map fun field => (joinSurrogates field.1, field.2.reread)), rest) := by
  cases fields with
  | nil => simp [commaSeparated, readObject, skipSpace_cons (show isSpace 125 = false by decide)]
  | cons first fields =>
      have count := length_le_commaSeparated ((first :: fields).map fun field =>
        fieldText (field.1, dumps field.2))
      have read := readPairs_dumps first fields rest
        ((commaSeparated ((first :: fields).map fun field =>
          fieldText (field.1, dumps field.2)) ++ 125 :: rest).length + 1)
        (by simp only [List.length_map, List.length_cons, List.length_append] at count ⊢; omega)
        reads
      obtain ⟨tail, split⟩ := commaSeparated_head (fieldText (first.1, dumps first.2))
        (fields.map fun field => fieldText (field.1, dumps field.2))
      rw [List.map_cons, split] at read ⊢
      simp only [fieldText, quote, List.cons_append] at read ⊢
      simp only [readObject, skipSpace_cons (show isSpace 34 = false by decide),
        show (34 : CodePoint) ≠ 125 by decide, ↓reduceIte, read, bind, Except.bind]
      rfl

/-- **Written values are read back.** With enough levels left, the reader takes
exactly the text of a printable value and returns it. -/
theorem readValue_dumps (interpreter : Interpreter) (level : Nat) {value : Value}
    (shallow : value.depth ≤ level) (printed : value.printable interpreter = true) :
    ReadsBack (readValue interpreter level) value := by
  induction level generalizing value with
  | zero => exact readWith_scalar interpreter none (Nat.le_zero.mp shallow) printed
  | succ level ih =>
      intro rest ends
      match value with
      | .list items =>
          rw [Value.depth, Nat.succ_le_succ_iff, Value.depthItems_le] at shallow
          rw [Value.printable, Value.printableItems_iff] at printed
          simp only [dumps, dumpsItems_eq_map, Value.reread, Value.rereadItems_eq_map,
            List.cons_append, List.append_assoc, List.nil_append, readValue, readWith,
            show (91 : CodePoint) ≠ 34 by decide, show (91 : CodePoint) ≠ 123 by decide,
            ↓reduceIte]
          exact readArray_dumps items rest fun item member =>
            ih (shallow item member) (printed item member)
      | .dict fields =>
          rw [Value.depth, Nat.succ_le_succ_iff, Value.depthFields_le] at shallow
          rw [Value.printable, Value.printableFields_iff] at printed
          simp only [dumps, dumpsFields_eq_map, sortKeys_map, Value.reread,
            Value.rereadFields_eq_map, List.map_map, Function.comp_def, List.cons_append,
            List.append_assoc, List.nil_append, readValue, readWith,
            show (123 : CodePoint) ≠ 34 by decide, ↓reduceIte]
          exact readObject_dumps (sortKeys fields) rest fun field member =>
            ih (shallow field (mem_sortKeys.mp member)) (printed field (mem_sortKeys.mp member))
      | .null => exact readWith_scalar interpreter _ rfl printed rest ends
      | .bool _ => exact readWith_scalar interpreter _ rfl printed rest ends
      | .int _ => exact readWith_scalar interpreter _ rfl printed rest ends
      | .float _ => exact readWith_scalar interpreter _ rfl printed rest ends
      | .str _ => exact readWith_scalar interpreter _ rfl printed rest ends

theorem readText_dumps (interpreter : Interpreter) {value : Value}
    (shallow : value.depth ≤ interpreter.recursionLimit)
    (printed : value.printable interpreter = true) :
    readText interpreter (dumps value) = .ok value.reread := by
  have read := readValue_dumps interpreter _ shallow printed [] (by intro c member; cases member)
  have visible := skipSpace_dumps value []
  rw [List.append_nil] at read visible
  simp only [readText, visible, read, bind, Except.bind]
  rfl

theorem loads_dumps (interpreter : Interpreter) {value : Value}
    (shallow : value.depth ≤ interpreter.recursionLimit)
    (printed : value.printable interpreter = true) :
    loads interpreter (dumps value) = .ok value.reread.collapse := by
  rw [loads, readText_dumps interpreter shallow printed]
  rfl

end Json
