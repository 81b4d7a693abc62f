import GeniusNew.Contracts.Inverse
import GeniusNew.Json.Levels

/-! # The depth guard

`_wire_depth` counts brackets on any text, before it is parsed and whether or not it is JSON.
On a JSON text the count is the nesting of its arrays and objects. On every text it is at
least as large as the number of brackets the reader has open at once, so a text that passes
the guard never takes the reader deeper than `_MAX_WIRE_DEPTH`.
-/

namespace GeniusNew

open Json

section Counted

variable {text other : Str} {levels more : Nat}

/-- A scan that starts outside of string literals counts exactly so many levels on the text
and leaves it outside of string literals, as deep as it was. -/
def Counts (text : Str) (levels : Nat) : Prop :=
  ∀ (depth found : Int) (rest : Str), depth ≤ found →
    deepest .start depth found (text ++ rest) =
      deepest .start depth (max found (depth + levels)) rest

theorem Counts.append (first : Counts text levels) (second : Counts other more) :
    Counts (text ++ other) (max levels more) := by
  intro depth found rest shallow
  rw [List.append_assoc, first depth found _ shallow, second depth _ rest (by omega)]
  congr 1
  omega

/-- Nothing but characters the scan passes over. -/
def bracketless (c : CodePoint) : Bool :=
  c ≠ 34 && c ≠ 91 && c ≠ 123 && c ≠ 93 && c ≠ 125

theorem counts_bracketless (plain : text.all bracketless = true) : Counts text 0 := by
  intro depth found rest shallow
  rw [Nat.cast_zero, add_zero, max_eq_left shallow]
  induction text with
  | nil => rw [List.nil_append]
  | cons c text ih =>
      rw [List.all_cons, Bool.and_eq_true] at plain
      have others := plain.1
      simp only [bracketless, Bool.and_eq_true, decide_eq_true_eq, ne_eq] at others
      rw [List.cons_append, deepest, ← ih plain.2]
      simp [Scan.start, others]

theorem Counts.bracket (counts : Counts text levels) {opening closing : CodePoint}
    (opens : opening = 91 ∨ opening = 123) (closes : closing = 93 ∨ closing = 125) :
    Counts (opening :: text ++ [closing]) (levels + 1) := by
  intro depth found rest shallow
  have leaves : ∀ deeper, deepest .start (depth + 1) deeper (closing :: rest) =
      deepest .start depth deeper rest := by
    intro deeper
    rcases closes with rfl | rfl <;> simp [deepest, Scan.start]
  rw [List.append_assoc, List.cons_append, deepest_opening opens,
    counts (depth + 1) _ _ (le_max_right _ _), List.singleton_append, leaves]
  congr 1
  push_cast
  omega

theorem hexDigit_of_hexValue {c : CodePoint} (known : (hexValue c).isSome = true) :
    c ≠ 34 ∧ c ≠ 92 := by
  constructor
  · intro same
    rw [same] at known
    cases known
  · intro same
    rw [same] at known
    cases known

theorem stays_body {body : Str} (inside : Body body) : Stays body := by
  induction inside with
  | nil => exact stays_nil
  | plain quotation backslash _ _ ih => exact (stays_plain quotation backslash).append ih
  | @escape mark rest _ _ ih => exact (stays_escaped mark).append ih
  | @unicode a b c d rest known _ ih =>
      simp only [hexUnit, Option.bind_eq_bind, Option.isSome_bind, Option.any_eq_true] at known
      obtain ⟨_, first, _, second, _, third, _, fourth, _⟩ := known
      have digit : ∀ {c : CodePoint} {n : Nat}, hexValue c = some n → Stays [c] := by
        intro c n value
        have plain := hexDigit_of_hexValue (c := c) (by rw [value, Option.isSome_some])
        exact stays_plain plain.1 plain.2
      exact (stays_escaped 117).append ((digit first).append ((digit second).append
        ((digit third).append ((digit fourth).append ih))))

theorem counts_string {body : Str} (inside : Body body) : Counts (34 :: body ++ [34]) 0 := by
  intro depth found rest shallow
  have opens : Scan.start.next 34 = .literal := rfl
  have closes : Scan.literal.next 34 = .start := rfl
  rw [Nat.cast_zero, add_zero, max_eq_left shallow, List.append_assoc, List.cons_append, deepest,
    if_pos (Or.inr rfl), opens, (stays_body inside).depth, List.singleton_append, deepest,
    if_pos (Or.inr rfl), closes]

theorem bracketless_of_isDigit {c : CodePoint} (digit : isDigit c = true) :
    bracketless c = true := by
  simp only [bracketless, Bool.and_eq_true, decide_eq_true_eq]
  refine ⟨⟨⟨⟨?_, ?_⟩, ?_⟩, ?_⟩, ?_⟩
  all_goals exact ne_of_isDigit digit (by decide)

theorem bracketless_of_isDigits (digits : isDigits text = true) :
    text.all bracketless = true := by
  rw [isDigits, Bool.and_eq_true, List.all_eq_true] at digits
  exact List.all_eq_true.mpr fun c member => bracketless_of_isDigit (digits.2 c member)

theorem bracketless_of_isWhole (whole : isWhole text = true) : text.all bracketless = true := by
  apply List.all_eq_true.mpr
  match text with
  | [] => cases whole
  | first :: rest =>
      intro c member
      simp only [isWhole] at whole
      split_ifs at whole with zero
      · rw [List.isEmpty_iff.mp whole, zero] at member
        obtain rfl := List.mem_singleton.mp member
        decide
      · rw [Bool.and_eq_true, List.all_eq_true] at whole
        rcases List.mem_cons.mp member with rfl | later
        · exact bracketless_of_isDigit whole.1
        · exact bracketless_of_isDigit (whole.2 c later)

theorem bracketless_of_fraction (fraction : Fraction text) : text.all bracketless = true := by
  cases fraction with
  | none => rfl
  | digits digits =>
      rw [List.all_cons, bracketless_of_isDigits digits]
      decide

theorem bracketless_of_exponent (exponent : Exponent text) : text.all bracketless = true := by
  cases exponent with
  | none => rfl
  | digits marks signs digits =>
      rw [List.cons_append, List.all_cons, List.all_append, bracketless_of_isDigits digits]
      rcases marks with rfl | rfl <;> rcases signs with rfl | rfl | rfl <;> decide

theorem counts_number (number : Number text) : Counts text 0 := by
  apply counts_bracketless
  cases number with
  | digits signs digits fractional exponential =>
      rw [List.all_append, List.all_append, List.all_append, bracketless_of_isWhole digits,
        bracketless_of_fraction fractional, bracketless_of_exponent exponential]
      rcases signs with rfl | rfl <;> decide

theorem counts_gap (space : isGap text = true) : Counts text 0 := by
  apply counts_bracketless
  rw [isGap, List.all_eq_true] at space
  apply List.all_eq_true.mpr
  intro c member
  have blank := space c member
  simp only [isSpace, Bool.or_eq_true, decide_eq_true_eq] at blank
  rcases blank with ((rfl | rfl) | rfl) | rfl <;> decide

theorem counts_name (known : text ∈ names) : Counts text 0 := by
  apply counts_bracketless
  revert text
  decide

theorem counts_separator {c : CodePoint} (mark : c = 44 ∨ c = 58) : Counts [c] 0 := by
  apply counts_bracketless
  rcases mark with rfl | rfl <;> decide

/-- On a text of the grammar the scan counts the nesting of its arrays and objects. -/
theorem counts_of_derives {kind : Kind} (derived : Derives kind text levels) :
    Counts text levels := by
  induction derived with
  | name known => exact counts_name known
  | number number => exact counts_number number
  | string inside => exact counts_string inside
  | emptyArray space => exact (counts_gap space).bracket (.inl rfl) (.inl rfl)
  | array _ ih => exact ih.bracket (.inl rfl) (.inl rfl)
  | emptyObject space => exact (counts_gap space).bracket (.inr rfl) (.inr rfl)
  | object _ ih => exact ih.bracket (.inr rfl) (.inr rfl)
  | element leading _ trailing ih =>
      have whole := ((counts_gap leading).append ih).append (counts_gap trailing)
      rwa [Nat.zero_max, Nat.max_zero] at whole
  | lastElement _ ih => exact ih
  | moreElements _ _ ih others =>
      have whole := ih.append ((counts_separator (.inl rfl)).append others)
      rwa [Nat.zero_max, List.singleton_append] at whole
  | member leading inside trailing _ ih =>
      have key := ((counts_gap leading).append (counts_string inside)).append (counts_gap trailing)
      have whole := key.append ((counts_separator (.inr rfl)).append ih)
      rwa [Nat.zero_max, Nat.zero_max, Nat.zero_max, Nat.zero_max, List.singleton_append] at whole
  | lastMember _ ih => exact ih
  | moreMembers _ _ ih others =>
      have whole := ih.append ((counts_separator (.inl rfl)).append others)
      rwa [Nat.zero_max, List.singleton_append] at whole

theorem wireDepth_of_isText (known : IsText text levels) : wireDepth text = levels := by
  have counted := counts_of_derives known 0 0 [] le_rfl
  rw [List.append_nil, deepest] at counted
  rw [wireDepth, counted]
  omega

end Counted

section Reader

variable {text lead : Str} {levels : Nat}

/-- A scan that starts outside of string literals meets so many levels more. -/
def Descends (text : Str) (levels : Nat) : Prop :=
  ∀ depth found : Int, depth ≤ found → depth + levels ≤ deepest .start depth found text

theorem Descends.after {more : Nat} (descends : Descends text levels) (counts : Counts lead more) :
    Descends (lead ++ text) levels := by
  intro depth found shallow
  rw [counts depth found text shallow]
  exact descends depth _ (by omega)

theorem Descends.bracket (descends : Descends text levels) {opening : CodePoint}
    (opens : opening = 91 ∨ opening = 123) : Descends (opening :: text) (levels + 1) := by
  intro depth found shallow
  rw [deepest_opening opens]
  have inner := descends (depth + 1) (max found (depth + 1)) (le_max_right _ _)
  push_cast
  omega

theorem descends_bracket {opening : CodePoint} (opens : opening = 91 ∨ opening = 123) :
    Descends (opening :: text) 1 := by
  intro depth found shallow
  rw [deepest_opening opens]
  exact (le_max_right found _).trans (le_deepest _ _ _ _)

/-- Where the reader runs out of levels, the text descends so far. -/
def Exhausts (item : Reader Value) (levels : Nat) : Prop :=
  ∀ text, item text = .error .recursion → Descends text levels

variable {item : Reader Value}

theorem readString_ne_recursion : readString text ≠ .error .recursion := by
  unfold readString
  split <;> (intro same; cases same)

theorem descends_readItems (sound : Sound item) (exhausts : Exhausts item levels) {fuel : Nat}
    (read : readItems item fuel text = .error .recursion) : Descends text levels := by
  induction fuel generalizing text with
  | zero => cases read
  | succ fuel ih =>
      rw [readItems, refuses_bind] at read
      rcases read with here | ⟨⟨value, after⟩, first, read⟩
      · exact exhausts text here
      · obtain ⟨lead, rfl, derived⟩ := sound first
        obtain ⟨gap, space, split⟩ := exists_gap after
        dsimp only at read
        split at read
        · cases read
        · rename_i c tail shape
          rw [shape] at split
          split_ifs at read with closing comma
          · cases read
          · rw [refuses_bind] at read
            rcases read with further | ⟨_, _, read⟩
            · obtain ⟨between, spaces, next⟩ := exists_gap tail
              subst comma
              rw [split, next]
              have inner := (ih further).after (counts_gap spaces)
              have later := inner.after (counts_separator (.inl rfl))
              exact (later.after (counts_gap space)).after (counts_of_derives derived)
            · cases read
          · cases read

theorem descends_readPairs (sound : Sound item) (exhausts : Exhausts item levels) {fuel : Nat}
    (read : readPairs item fuel text = .error .recursion) : Descends text levels := by
  induction fuel generalizing text with
  | zero => cases read
  | succ fuel ih =>
      match text with
      | [] => cases read
      | quotation :: text =>
          simp only [readPairs] at read
          split_ifs at read with quoted
          swap
          · cases read
          rw [refuses_bind] at read
          rcases read with here | ⟨⟨key, after⟩, opened, read⟩
          · exact (readString_ne_recursion here).elim
          · obtain ⟨body, rfl, inside⟩ := body_of_readString opened
            obtain ⟨gap, space, split⟩ := exists_gap after
            dsimp only at read
            split at read
            · cases read
            · rename_i colon tail shape
              rw [shape] at split
              split_ifs at read with named
              swap
              · cases read
              obtain ⟨before, spaced, next⟩ := exists_gap tail
              have keyed : ∀ {rest : Str}, Descends rest levels →
                  Descends (34 :: (body ++ 34 :: (gap ++ 58 :: (before ++ rest)))) levels := by
                intro rest descends
                have inner := (descends.after (counts_gap spaced)).after
                  (counts_separator (.inr rfl))
                have whole := (inner.after (counts_gap space)).after (counts_string inside)
                simpa using whole
              subst quoted split named
              rw [next]
              rw [refuses_bind] at read
              rcases read with here | ⟨⟨value, later⟩, first, read⟩
              · exact keyed (exhausts _ here)
              · obtain ⟨lead, rejoined, derived⟩ := sound first
                obtain ⟨behind, trailing, end_⟩ := exists_gap later
                dsimp only at read
                split at read
                · cases read
                · rename_i c last ended
                  rw [ended] at end_
                  split_ifs at read with closing comma
                  · cases read
                  · rw [refuses_bind] at read
                    rcases read with further | ⟨_, _, read⟩
                    · obtain ⟨between, spaces, split⟩ := exists_gap last
                      subst comma
                      rw [rejoined, end_, split]
                      apply keyed
                      have inner := (ih further).after (counts_gap spaces)
                      have more := inner.after (counts_separator (.inl rfl))
                      exact (more.after (counts_gap trailing)).after (counts_of_derives derived)
                    · cases read
                  · cases read

theorem descends_readArray (sound : Sound item) (exhausts : Exhausts item levels)
    (read : readArray item text = .error .recursion) : Descends text levels := by
  obtain ⟨gap, space, split⟩ := exists_gap text
  unfold readArray at read
  split at read
  · cases read
  · rename_i c tail shape
    rw [shape] at split
    split_ifs at read with closing
    rw [refuses_bind] at read
    rcases read with inner | ⟨_, _, read⟩
    · rw [split]
      exact (descends_readItems sound exhausts inner).after (counts_gap space)
    · cases read

theorem descends_readObject (sound : Sound item) (exhausts : Exhausts item levels)
    (read : readObject item text = .error .recursion) : Descends text levels := by
  obtain ⟨gap, space, split⟩ := exists_gap text
  unfold readObject at read
  split at read
  · cases read
  · rename_i c tail shape
    rw [shape] at split
    split_ifs at read with closing
    rw [refuses_bind] at read
    rcases read with inner | ⟨_, _, read⟩
    · rw [split]
      exact (descends_readPairs sound exhausts inner).after (counts_gap space)
    · cases read

theorem readName_ne_recursion {name : String} {value : Value} :
    readName name value text ≠ .error .recursion := by
  unfold readName
  split <;> (intro same; cases same)

theorem readUnsigned_ne_recursion {interpreter : Interpreter} {negative : Bool} :
    readUnsigned interpreter negative text ≠ .error .recursion := by
  intro read
  unfold readUnsigned at read
  split at read
  · cases read
  · split at read
    · split at read <;> cases read
    · split at read <;> cases read

theorem readNumber_ne_recursion {interpreter : Interpreter} :
    readNumber interpreter text ≠ .error .recursion := by
  intro read
  unfold readNumber at read
  split at read
  · split_ifs at read
    exact readUnsigned_ne_recursion read
  · exact readUnsigned_ne_recursion read

/-- Only a bracket exhausts the levels: at once, or inside. -/
theorem descends_readWith {interpreter : Interpreter} {nested : Option (Reader Value)}
    (outermost : nested = none → levels = 0)
    (inner : ∀ item ∈ nested, Sound item ∧ Exhausts item levels) :
    Exhausts (readWith interpreter nested) (levels + 1) := by
  intro text read
  match text with
  | [] => cases read
  | c :: text =>
      simp only [readWith] at read
      split_ifs at read with quotation brace bracket null true_ false_ nan infinity
      · rw [refuses_bind] at read
        rcases read with here | ⟨_, _, read⟩
        · exact (readString_ne_recursion here).elim
        · cases read
      · cases nested with
        | none =>
            rw [outermost rfl]
            exact descends_bracket (.inr brace)
        | some item =>
            obtain ⟨sound, exhausts⟩ := inner item rfl
            exact (descends_readObject sound exhausts read).bracket (.inr brace)
      · cases nested with
        | none =>
            rw [outermost rfl]
            exact descends_bracket (.inl bracket)
        | some item =>
            obtain ⟨sound, exhausts⟩ := inner item rfl
            exact (descends_readArray sound exhausts read).bracket (.inl bracket)
      · exact (readName_ne_recursion read).elim
      · exact (readName_ne_recursion read).elim
      · exact (readName_ne_recursion read).elim
      · exact (readName_ne_recursion read).elim
      · exact (readName_ne_recursion read).elim
      · exact (readNumber_ne_recursion read).elim

theorem exhausts_readValue (interpreter : Interpreter) (level : Nat) :
    Exhausts (readValue interpreter level) (level + 1) := by
  induction level with
  | zero =>
      apply descends_readWith
      · exact fun _ => rfl
      · intro item member
        cases member
  | succ level ih =>
      apply descends_readWith
      · intro absent
        cases absent
      · intro item member
        obtain rfl := Option.some.inj member
        exact ⟨sound_readValue interpreter level, ih⟩

end Reader

section Guarded

variable (interpreter : Interpreter) (text : Str)

/-- With as many levels as the guard counts the reader does not run out of them. -/
theorem not_ranOut_of_wireDepth {level : Nat} (counted : wireDepth text ≤ level) :
    ranOut (readValue interpreter level (skipSpace text)) = false := by
  by_contra ran
  have refused := ranOut_iff.mp (Bool.eq_true_of_not_eq_false ran)
  obtain ⟨gap, space, split⟩ := exists_gap text
  have descends := (exhausts_readValue interpreter level _ refused).after (counts_gap space)
  rw [← split] at descends
  have deep := descends 0 0 le_rfl
  rw [← wireDepth] at deep
  push_cast at deep
  omega

theorem wireDepth_nonneg : 0 ≤ wireDepth text := le_deepest _ _ _ _

theorem exists_level :
    ∃ level, ranOut (readValue interpreter level (skipSpace text)) = false := by
  refine ⟨(wireDepth text).toNat, not_ranOut_of_wireDepth interpreter text ?_⟩
  rw [Int.toNat_of_nonneg (wireDepth_nonneg text)]

/-- How many brackets the reader has open at once before it accepts a value or reports its
first error: the smallest limit it does not run out of. -/
def readDepth : Nat := Nat.find (exists_level interpreter text)

theorem readDepth_le_wireDepth : (readDepth interpreter text : Int) ≤ wireDepth text := by
  rw [← Int.toNat_of_nonneg (wireDepth_nonneg text), Int.ofNat_le]
  apply Nat.find_min'
  apply not_ranOut_of_wireDepth
  rw [Int.toNat_of_nonneg (wireDepth_nonneg text)]

/-- The reader runs out of levels exactly below the depth it reaches. -/
theorem readValue_recursion_iff (level : Nat) :
    readValue interpreter level (skipSpace text) = .error .recursion ↔
      level < readDepth interpreter text := by
  constructor
  · intro refused
    by_contra enough
    have ended := Nat.find_spec (exists_level interpreter text)
    have same := agrees_readValue interpreter (not_lt.mp enough) (skipSpace text) (by
      intro ran
      rw [← readDepth, ranOut_iff.mpr ran] at ended
      cases ended)
    rw [same] at refused
    rw [← readDepth, ranOut_iff.mpr refused] at ended
    cases ended
  · intro below
    have ran := Nat.find_min (exists_level interpreter text) below
    exact ranOut_iff.mp (Bool.eq_true_of_not_eq_false ran)

theorem readText_ne_recursion (shallow : readDepth interpreter text ≤ interpreter.recursionLimit) :
    readText interpreter text ≠ .error .recursion := by
  intro refused
  rw [readText, refuses_bind] at refused
  rcases refused with here | ⟨_, _, refused⟩
  · have deep := (readValue_recursion_iff interpreter text _).mp here
    omega
  · dsimp only at refused
    split at refused
    · cases refused
    · cases refused

end Guarded

/-- The depth guard bounds the parser. On every text the reader has at most as many brackets
open at once as the guard counts, before it accepts or reports its first error; on every JSON
text the guard counts the nesting of arrays and objects; so a text that passes the guard takes
the reader no deeper than the bound. -/
theorem depth_guard (interpreter : Interpreter) :
    (∀ text, (readDepth interpreter text : Int) ≤ wireDepth text) ∧
    (∀ text level, readValue interpreter level (skipSpace text) = .error .recursion ↔
      level < readDepth interpreter text) ∧
    (∀ text nesting, IsText text nesting → wireDepth text = nesting) ∧
    (∀ text value, readText interpreter text = .ok value → IsText text value.depth) ∧
    ∀ text, wireDepth text ≤ maxWireDepth →
      readDepth interpreter text ≤ maxWireDepth ∧
        readText interpreter text ≠ .error .recursion := by
  refine ⟨?_, ?_, ?_, ?_, ?_⟩
  · exact readDepth_le_wireDepth interpreter
  · exact readValue_recursion_iff interpreter
  · intro text nesting known
    exact wireDepth_of_isText known
  · intro text value read
    exact isText_of_readText read
  · intro text passed
    have shallow : readDepth interpreter text ≤ maxWireDepth := by
      have bounded := readDepth_le_wireDepth interpreter text
      omega
    refine ⟨shallow, readText_ne_recursion interpreter text (shallow.trans ?_)⟩
    have sufficient := interpreter.recursionLimit_sufficient
    unfold maxWireDepth
    omega

/-- A text that is read, and one whose brackets do not match. -/
theorem depth_guard_demo :
    wireDepth (dumps (.list [.list [.int 7], .dict []])) = 2 ∧
    readDepth literalInterpreter (str "[[\"]\", \x7b]]]]") ≤ maxWireDepth := by
  obtain ⟨_, _, valid, accepted, bounded⟩ := depth_guard literalInterpreter
  constructor
  · have shallow : (Value.list [.list [.int 7], .dict []]).depth ≤
        literalInterpreter.recursionLimit := by decide
    have read := readText_dumps literalInterpreter shallow (by decide)
    exact valid _ 2 (accepted _ _ read)
  · exact (bounded _ (by decide)).1

end GeniusNew
