import GeniusNew.Json.Read

/-! # The grammar of JSON texts

Which texts are JSON, said without a reader, together with how deep their arrays and objects
nest. The grammar is that of the JSON standard with the three constants that CPython adds;
numbers may have any number of digits. Whatever `Json.readValue` accepts is a text of the
grammar, nesting as deep as the value that was read.
-/

namespace Json

/-- White space only. -/
def isGap (text : Str) : Bool := text.all isSpace

def isDigits (text : Str) : Bool := !text.isEmpty && text.all isDigit

/-- What stands between the quotation marks of a string literal. -/
inductive Body : Str → Prop where
  | nil : Body []
  | plain {c : CodePoint} {rest : Str} (quotation : c ≠ 34) (backslash : c ≠ 92)
      (control : 32 ≤ c.val) (body : Body rest) : Body (c :: rest)
  | escape {mark : CodePoint} {rest : Str} (known : (unescape mark).isSome = true)
      (body : Body rest) : Body (92 :: mark :: rest)
  | unicode {a b c d : CodePoint} {rest : Str} (known : (hexUnit a b c d).isSome = true)
      (body : Body rest) : Body (92 :: 117 :: a :: b :: c :: d :: rest)

inductive Fraction : Str → Prop where
  | none : Fraction []
  | digits {text : Str} (digits : isDigits text = true) : Fraction (46 :: text)

inductive Exponent : Str → Prop where
  | none : Exponent []
  | digits {mark : CodePoint} {sign text : Str} (marks : mark = 101 ∨ mark = 69)
      (signs : sign = [] ∨ sign = [43] ∨ sign = [45]) (digits : isDigits text = true) :
      Exponent (mark :: sign ++ text)

/-- A number literal. -/
inductive Number : Str → Prop where
  | digits {minus whole fraction exponent : Str} (signs : minus = [] ∨ minus = [45])
      (digits : isWhole whole = true) (fractional : Fraction fraction)
      (exponential : Exponent exponent) : Number (minus ++ whole ++ fraction ++ exponent)

/-- The literal names, the constants among them. -/
def names : List Str :=
  [str "null", str "true", str "false", str "NaN", str "Infinity", str "-Infinity"]

/-- The nonterminals of the grammar that nest. -/
inductive Kind where
  | value
  /-- A value between white space. -/
  | element
  | elements
  /-- A key and its element. -/
  | member
  | members
  deriving DecidableEq

/-- The texts of a nonterminal, with the nesting of their arrays and objects. -/
inductive Derives : Kind → Str → Nat → Prop where
  | name {text : Str} (known : text ∈ names) : Derives .value text 0
  | number {text : Str} (number : Number text) : Derives .value text 0
  | string {body : Str} (inside : Body body) : Derives .value (34 :: body ++ [34]) 0
  | emptyArray {gap : Str} (space : isGap gap = true) : Derives .value (91 :: gap ++ [93]) 1
  | array {text : Str} {depth : Nat} (inside : Derives .elements text depth) :
      Derives .value (91 :: text ++ [93]) (depth + 1)
  | emptyObject {gap : Str} (space : isGap gap = true) : Derives .value (123 :: gap ++ [125]) 1
  | object {text : Str} {depth : Nat} (inside : Derives .members text depth) :
      Derives .value (123 :: text ++ [125]) (depth + 1)
  | element {before text after : Str} {depth : Nat} (leading : isGap before = true)
      (value : Derives .value text depth) (trailing : isGap after = true) :
      Derives .element (before ++ text ++ after) depth
  | lastElement {text : Str} {depth : Nat} (element : Derives .element text depth) :
      Derives .elements text depth
  | moreElements {text more : Str} {depth deeper : Nat} (element : Derives .element text depth)
      (others : Derives .elements more deeper) :
      Derives .elements (text ++ 44 :: more) (max depth deeper)
  | member {before key after text : Str} {depth : Nat} (leading : isGap before = true)
      (inside : Body key) (trailing : isGap after = true)
      (element : Derives .element text depth) :
      Derives .member (before ++ (34 :: key ++ [34]) ++ after ++ 58 :: text) depth
  | lastMember {text : Str} {depth : Nat} (member : Derives .member text depth) :
      Derives .members text depth
  | moreMembers {text more : Str} {depth deeper : Nat} (member : Derives .member text depth)
      (others : Derives .members more deeper) :
      Derives .members (text ++ 44 :: more) (max depth deeper)

/-- A JSON text whose arrays and objects nest so deep. -/
def IsText (text : Str) (depth : Nat) : Prop := Derives .element text depth

section Readers

variable {α β : Type} {first : Except ReadError α} {next : α → Except ReadError β}

theorem reads_bind {result : β} :
    (first >>= next) = .ok result ↔ ∃ value, first = .ok value ∧ next value = .ok result := by
  cases first with
  | error raised => simp [bind, Except.bind]
  | ok value => simp [bind, Except.bind]

theorem refuses_bind {raised : ReadError} :
    (first >>= next) = .error raised ↔
      first = .error raised ∨ ∃ value, first = .ok value ∧ next value = .error raised := by
  cases first with
  | error raised => simp [bind, Except.bind]
  | ok value => simp [bind, Except.bind]

end Readers

section Tokens

theorem exists_gap (text : Str) : ∃ gap, isGap gap = true ∧ text = gap ++ skipSpace text := by
  refine ⟨text.takeWhile isSpace, ?_, List.takeWhile_append_dropWhile.symm⟩
  apply List.all_eq_true.mpr
  intro c member
  exact List.mem_takeWhile_imp member

theorem body_of_scanUnits {text units rest : Str} (scanned : scanUnits text = some (units, rest)) :
    ∃ body, text = body ++ 34 :: rest ∧ Body body := by
  fun_induction scanUnits text generalizing units with
  | case1 => cases scanned
  | case2 rest' =>
      cases scanned
      exact ⟨[], rfl, .nil⟩
  | case3 => cases scanned
  | case4 a b c d rest' _ ih =>
      obtain ⟨unit, known, scanned⟩ := Option.bind_eq_some_iff.mp scanned
      obtain ⟨⟨inner, last⟩, further, scanned⟩ := Option.bind_eq_some_iff.mp scanned
      cases scanned
      obtain ⟨body, rfl, inside⟩ := ih further
      refine ⟨92 :: 117 :: a :: b :: c :: d :: body, rfl, .unicode ?_ inside⟩
      rw [known, Option.isSome_some]
  | case5 => cases scanned
  | case6 mark rest' _ _ ih =>
      obtain ⟨unit, known, scanned⟩ := Option.bind_eq_some_iff.mp scanned
      obtain ⟨⟨inner, last⟩, further, scanned⟩ := Option.bind_eq_some_iff.mp scanned
      cases scanned
      obtain ⟨body, rfl, inside⟩ := ih further
      refine ⟨92 :: mark :: body, rfl, .escape ?_ inside⟩
      rw [known, Option.isSome_some]
  | case7 => cases scanned
  | case8 c rest' quotation backslash control ih =>
      obtain ⟨⟨inner, last⟩, further, scanned⟩ := Option.bind_eq_some_iff.mp scanned
      cases scanned
      obtain ⟨body, rfl, inside⟩ := ih further
      exact ⟨c :: body, rfl, .plain quotation backslash (not_lt.mp control) inside⟩

theorem body_of_readString {text s rest : Str} (read : readString text = .ok (s, rest)) :
    ∃ body, text = body ++ 34 :: rest ∧ Body body := by
  unfold readString at read
  split at read
  · rename_i units tail scanned
    cases read
    exact body_of_scanUnits scanned
  · cases read

theorem fraction_scanFraction (text : Str) :
    Fraction (scanFraction text).1 ∧ text = (scanFraction text).1 ++ (scanFraction text).2 := by
  match text with
  | [] => exact ⟨.none, rfl⟩
  | [_] => exact ⟨.none, rfl⟩
  | point :: digit :: rest =>
      simp only [scanFraction]
      split_ifs with fraction
      · obtain ⟨rfl, first⟩ := fraction
        refine ⟨.digits ?_, ?_⟩
        · rw [isDigits, List.all_cons, first, Bool.true_and]
          exact List.all_eq_true.mpr fun c member => List.mem_takeWhile_imp member
        · rw [List.cons_append, List.cons_append, List.takeWhile_append_dropWhile]
      · exact ⟨.none, rfl⟩

theorem sign_scanSign (text : Str) :
    ((scanSign text).1 = [] ∨ (scanSign text).1 = [43] ∨ (scanSign text).1 = [45]) ∧
      text = (scanSign text).1 ++ (scanSign text).2 := by
  match text with
  | [] => exact ⟨.inl rfl, rfl⟩
  | sign :: rest =>
      simp only [scanSign]
      split_ifs with marked
      · rcases marked with rfl | rfl
        · exact ⟨.inr (.inl rfl), rfl⟩
        · exact ⟨.inr (.inr rfl), rfl⟩
      · exact ⟨.inl rfl, rfl⟩

theorem exponent_scanExponent (text : Str) :
    Exponent (scanExponent text).1 ∧ text = (scanExponent text).1 ++ (scanExponent text).2 := by
  match text with
  | [] => exact ⟨.none, rfl⟩
  | mark :: rest =>
      simp only [scanExponent]
      split_ifs with exponent
      · obtain ⟨signs, split⟩ := sign_scanSign rest
        refine ⟨.digits exponent.1 signs ?_, ?_⟩
        · cases shape : (scanSign rest).2 with
          | nil => simp [shape] at exponent
          | cons first tail =>
              rw [shape, List.head?_cons, Option.any_some] at exponent
              rw [List.takeWhile_cons_of_pos exponent.2, isDigits, List.all_cons, exponent.2,
                Bool.true_and]
              exact List.all_eq_true.mpr fun c member => List.mem_takeWhile_imp member
        · rw [List.append_assoc, List.takeWhile_append_dropWhile, List.cons_append, ← split]
      · exact ⟨.none, rfl⟩

theorem whole_of_scanWhole {text whole rest : Str}
    (scanned : scanWhole text = some (whole, rest)) : text = whole ++ rest := by
  unfold scanWhole at scanned
  split at scanned
  · cases scanned
  · split_ifs at scanned with zero digit
    · cases scanned
      rw [zero, List.singleton_append]
    · cases scanned
      rw [List.cons_append, List.takeWhile_append_dropWhile]

/-- What is left of a scanned number is what stands after a number of the grammar. -/
theorem number_of_readUnsigned {interpreter : Interpreter} {negative : Bool} {text rest : Str}
    {value : Value} (read : readUnsigned interpreter negative text = .ok (value, rest))
    {minus : Str} (signs : minus = [] ∨ minus = [45]) :
    value.depth = 0 ∧ ∃ lead, text = lead ++ rest ∧ Number (minus ++ lead) := by
  unfold readUnsigned at read
  split at read
  · cases read
  · rename_i whole tail scanned
    have split := whole_of_scanWhole scanned
    have digits := scanWhole_isWhole scanned
    obtain ⟨fractional, fraction⟩ := fraction_scanFraction tail
    obtain ⟨exponential, exponent⟩ := exponent_scanExponent (scanFraction tail).2
    have consumed : text = (whole ++ (scanTail tail).1) ++ (scanTail tail).2 := by
      rw [split, List.append_assoc, scanTail, List.append_assoc, ← exponent, ← fraction]
    have number : Number (minus ++ (whole ++ (scanTail tail).1)) := by
      rw [scanTail, ← List.append_assoc, ← List.append_assoc]
      exact .digits signs digits fractional exponential
    split at read
    · rename_i nonempty
      split at read
      · cases read
        refine ⟨by cases negative <;> rfl, whole, split, ?_⟩
        rwa [nonempty, List.append_nil] at number
      · cases read
    · split at read
      · cases read
        exact ⟨rfl, _, consumed, number⟩
      · cases read
        exact ⟨rfl, _, consumed, number⟩

end Tokens

section Sound

/-- Whatever the reader accepts is a value of the grammar, as deep as what was read. -/
def Sound (item : Reader Value) : Prop :=
  ∀ {text : Str} {value : Value} {rest : Str}, item text = .ok (value, rest) →
    ∃ lead, text = lead ++ rest ∧ Derives .value lead value.depth

theorem sound_readNumber (interpreter : Interpreter) : Sound (readNumber interpreter) := by
  intro text value rest read
  unfold readNumber at read
  split at read
  · rename_i tail
    split_ifs at read with infinite
    · cases read
      obtain ⟨after, rfl⟩ := List.isPrefixOf_iff_prefix.mp infinite
      exact ⟨str "-Infinity", rfl, .name (by simp [names])⟩
    · obtain ⟨flat, lead, rfl, number⟩ := number_of_readUnsigned read (.inr rfl)
      rw [flat]
      exact ⟨45 :: lead, rfl, .number number⟩
  · obtain ⟨flat, lead, rfl, number⟩ := number_of_readUnsigned read (.inl rfl)
    rw [flat]
    exact ⟨lead, rfl, .number number⟩

theorem sound_readName {name : String} {constant : Value} (known : str name ∈ names)
    (flat : constant.depth = 0) : Sound (readName name constant) := by
  intro text value rest read
  unfold readName at read
  split_ifs at read with named
  cases read
  obtain ⟨after, rfl⟩ := List.isPrefixOf_iff_prefix.mp named
  rw [flat, List.drop_left]
  exact ⟨str name, rfl, .name known⟩

variable {item : Reader Value}

theorem sound_readItems (sound : Sound item) {fuel : Nat} {text : Str} {values : List Value}
    {rest : Str} (read : readItems item fuel text = .ok (values, rest)) :
    ∃ lead, text = lead ++ 93 :: rest ∧ ∀ gap, isGap gap = true →
      Derives .elements (gap ++ lead) (Value.depthItems values) := by
  induction fuel generalizing text values with
  | zero => cases read
  | succ fuel ih =>
      rw [readItems, reads_bind] at read
      obtain ⟨⟨value, after⟩, first, read⟩ := read
      obtain ⟨lead, rfl, derived⟩ := sound first
      dsimp only at read
      obtain ⟨gap, space, split⟩ := exists_gap after
      split at read
      · cases read
      · rename_i c tail shape
        rw [shape] at split
        split_ifs at read with closing comma
        · cases read
          subst split closing
          refine ⟨lead ++ gap, by rw [List.append_assoc], ?_⟩
          intro before leading
          rw [Value.depthItems, Value.depthItems, max_eq_left (Nat.zero_le _), ← List.append_assoc]
          exact .lastElement (.element leading derived space)
        · obtain ⟨⟨others, last⟩, further, read⟩ := reads_bind.mp read
          cases read
          subst split comma
          obtain ⟨between, spaces, next⟩ := exists_gap tail
          obtain ⟨inner, rejoined, elements⟩ := ih further
          refine ⟨lead ++ gap ++ 44 :: (between ++ inner), ?_, ?_⟩
          · rw [next, rejoined]
            simp
          · intro before leading
            rw [Value.depthItems, ← List.append_assoc, ← List.append_assoc]
            exact .moreElements (.element leading derived space) (elements between spaces)

theorem sound_readPairs (sound : Sound item) {fuel : Nat} {text : Str}
    {pairs : List (Str × Value)} {rest : Str} (read : readPairs item fuel text = .ok (pairs, rest)) :
    ∃ lead, text = lead ++ 125 :: rest ∧ ∀ gap, isGap gap = true →
      Derives .members (gap ++ lead) (Value.depthFields pairs) := by
  induction fuel generalizing text pairs with
  | zero => cases read
  | succ fuel ih =>
      match text with
      | [] => cases read
      | quotation :: text =>
          simp only [readPairs] at read
          split_ifs at read with quoted
          rw [reads_bind] at read
          obtain ⟨⟨key, after⟩, opened, read⟩ := read
          obtain ⟨body, rfl, inside⟩ := body_of_readString opened
          dsimp only at read
          obtain ⟨gap, space, split⟩ := exists_gap after
          split at read
          · cases read
          · rename_i colon tail shape
            rw [shape] at split
            split_ifs at read with named
            rw [reads_bind] at read
            obtain ⟨⟨value, later⟩, first, read⟩ := read
            obtain ⟨before, spaced, next⟩ := exists_gap tail
            obtain ⟨lead, rejoined, derived⟩ := sound first
            obtain ⟨behind, trailing, end_⟩ := exists_gap later
            dsimp only at read
            split at read
            · cases read
            · rename_i c last ended
              rw [ended] at end_
              subst quoted split named end_
              have member : ∀ leading, isGap leading = true → Derives .member
                  (leading ++ (34 :: body ++ [34]) ++ gap ++ 58 :: (before ++ lead ++ behind))
                  value.depth := by
                intro leading spaces
                exact .member spaces inside space (.element spaced derived trailing)
              rw [next, rejoined]
              split_ifs at read with closing comma
              · cases read
                subst closing
                refine ⟨(34 :: body ++ [34]) ++ gap ++ 58 :: (before ++ lead ++ behind),
                  by simp, ?_⟩
                intro leading spaces
                rw [Value.depthFields, Value.depthFields, max_eq_left (Nat.zero_le _),
                  ← List.append_assoc, ← List.append_assoc]
                exact .lastMember (member leading spaces)
              · obtain ⟨⟨others, final⟩, further, read⟩ := reads_bind.mp read
                cases read
                subst comma
                obtain ⟨between, spaces, split⟩ := exists_gap last
                obtain ⟨inner, again, members⟩ := ih further
                refine ⟨(34 :: body ++ [34]) ++ gap ++ 58 :: (before ++ lead ++ behind) ++
                  44 :: (between ++ inner), ?_, ?_⟩
                · rw [split, again]
                  simp
                · intro leading open_
                  rw [Value.depthFields, ← List.append_assoc, ← List.append_assoc,
                    ← List.append_assoc]
                  exact .moreMembers (member leading open_) (members between spaces)

theorem sound_readArray (sound : Sound item) {text rest : Str} {value : Value}
    (read : readArray item text = .ok (value, rest)) :
    ∃ lead, text = lead ++ rest ∧ Derives .value (91 :: lead) value.depth := by
  obtain ⟨gap, space, split⟩ := exists_gap text
  unfold readArray at read
  split at read
  · cases read
  · rename_i c tail shape
    rw [shape] at split
    split_ifs at read with closing
    · cases read
      subst split closing
      refine ⟨gap ++ [93], by simp, ?_⟩
      rw [Value.depth, Value.depthItems]
      exact .emptyArray space
    · rw [reads_bind] at read
      obtain ⟨⟨items, after⟩, inner, read⟩ := read
      cases read
      obtain ⟨lead, rejoined, elements⟩ := sound_readItems sound inner
      rw [split, rejoined]
      refine ⟨gap ++ lead ++ [93], by simp, ?_⟩
      exact .array (elements gap space)

theorem sound_readObject (sound : Sound item) {text rest : Str} {value : Value}
    (read : readObject item text = .ok (value, rest)) :
    ∃ lead, text = lead ++ rest ∧ Derives .value (123 :: lead) value.depth := by
  obtain ⟨gap, space, split⟩ := exists_gap text
  unfold readObject at read
  split at read
  · cases read
  · rename_i c tail shape
    rw [shape] at split
    split_ifs at read with closing
    · cases read
      subst split closing
      refine ⟨gap ++ [125], by simp, ?_⟩
      rw [Value.depth, Value.depthFields]
      exact .emptyObject space
    · rw [reads_bind] at read
      obtain ⟨⟨pairs, after⟩, inner, read⟩ := read
      cases read
      obtain ⟨lead, rejoined, members⟩ := sound_readPairs sound inner
      rw [split, rejoined]
      refine ⟨gap ++ lead ++ [125], by simp, ?_⟩
      exact .object (members gap space)

theorem sound_readWith (interpreter : Interpreter) {nested : Option (Reader Value)}
    (sound : ∀ item ∈ nested, Sound item) : Sound (readWith interpreter nested) := by
  intro text value rest read
  match text with
  | [] => cases read
  | c :: text =>
      simp only [readWith] at read
      split_ifs at read with quotation brace bracket null true_ false_ nan infinity
      · rw [reads_bind] at read
        obtain ⟨⟨s, after⟩, opened, read⟩ := read
        cases read
        obtain ⟨body, rfl, inside⟩ := body_of_readString opened
        subst quotation
        exact ⟨34 :: body ++ [34], by simp, .string inside⟩
      · cases nested with
        | none => cases read
        | some item =>
            obtain ⟨lead, rfl, derived⟩ := sound_readObject (sound item rfl) read
            subst brace
            exact ⟨123 :: lead, rfl, derived⟩
      · cases nested with
        | none => cases read
        | some item =>
            obtain ⟨lead, rfl, derived⟩ := sound_readArray (sound item rfl) read
            subst bracket
            exact ⟨91 :: lead, rfl, derived⟩
      · exact sound_readName (by simp [names]) rfl read
      · exact sound_readName (by simp [names]) rfl read
      · exact sound_readName (by simp [names]) rfl read
      · exact sound_readName (by simp [names]) rfl read
      · exact sound_readName (by simp [names]) rfl read
      · exact sound_readNumber interpreter read

theorem sound_readValue (interpreter : Interpreter) (level : Nat) :
    Sound (readValue interpreter level) := by
  induction level with
  | zero =>
      apply sound_readWith
      intro item member
      cases member
  | succ level ih =>
      apply sound_readWith
      intro item member
      obtain rfl := Option.some.inj member
      exact ih

/-- A text that is read is a text of the grammar, as deep as the value. -/
theorem isText_of_readText {interpreter : Interpreter} {text : Str} {value : Value}
    (read : readText interpreter text = .ok value) : IsText text value.depth := by
  obtain ⟨before, leading, split⟩ := exists_gap text
  rw [readText, reads_bind] at read
  obtain ⟨⟨found, rest⟩, accepted, read⟩ := read
  obtain ⟨lead, rejoined, derived⟩ := sound_readValue _ _ accepted
  obtain ⟨after, trailing, end_⟩ := exists_gap rest
  dsimp only at read
  split_ifs at read with finished
  cases read
  rw [List.isEmpty_iff.mp finished, List.append_nil] at end_
  subst end_
  rw [split, rejoined, ← List.append_assoc]
  exact .element leading derived trailing

end Sound

end Json
