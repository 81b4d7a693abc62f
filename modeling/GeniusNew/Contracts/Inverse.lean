import GeniusNew.Contracts.Decoded
import GeniusNew.Json.Ordered

/-! # Canonical encoding and strict decoding are inverse

On values without floats `canonical` and `decode_wire` undo each other, up to the order
in which a dictionary's items were added: a wire decodes to a value exactly when it is
the value's canonical text and within the two bounds. The depth that `decode_wire` counts
on the text is the depth of the value.
-/

namespace GeniusNew

open Json

section Depth

/-- The depth that was found is never given up. -/
theorem le_deepest (scan : Scan) (depth found : Int) (text : Str) :
    found ≤ deepest scan depth found text := by
  induction text generalizing scan depth found with
  | nil => exact le_rfl
  | cons c text ih =>
      unfold deepest
      split_ifs
      · exact ih _ _ _
      · exact (le_max_left _ _).trans (ih _ _ _)
      · exact ih _ _ _
      · exact ih _ _ _

/-- The scan of the text finds so many levels more than where it starts. -/
def Reaches (text : Str) (levels : Nat) : Prop :=
  ∀ (depth found : Int) (rest : Str), depth + levels ≤ deepest .start depth found (text ++ rest)

variable {text lead : Str} {levels : Nat}

theorem Reaches.after {more : Nat} (reaches : Reaches text levels) (passes : Passes lead more)
    (tail : Str) : Reaches (lead ++ text ++ tail) levels := by
  intro depth found rest
  obtain ⟨deeper, _, same⟩ := passes.depth depth found (text ++ (tail ++ rest))
  rw [List.append_assoc, List.append_assoc, same]
  exact reaches depth deeper (tail ++ rest)

theorem deepest_opening {opening : CodePoint} (opens : opening = 91 ∨ opening = 123)
    (depth found : Int) (rest : Str) : deepest .start depth found (opening :: rest) =
      deepest .start (depth + 1) (max found (depth + 1)) rest := by
  rcases opens with rfl | rfl <;> simp [deepest, Scan.start]

theorem reaches_bracket {opening : CodePoint} (opens : opening = 91 ∨ opening = 123)
    (closing : CodePoint) : Reaches (opening :: text ++ [closing]) 1 := by
  intro depth found rest
  rw [List.append_assoc, List.cons_append, deepest_opening opens]
  exact (le_max_right found _).trans (le_deepest _ _ _ _)

theorem Reaches.bracket (reaches : Reaches text levels) {opening : CodePoint}
    (opens : opening = 91 ∨ opening = 123) (closing : CodePoint) :
    Reaches (opening :: text ++ [closing]) (levels + 1) := by
  intro depth found rest
  rw [List.append_assoc, List.cons_append, deepest_opening opens]
  have inner := reaches (depth + 1) (max found (depth + 1)) ([closing] ++ rest)
  push_cast
  omega

/-- A text of a list stands after a text that a scan passes. -/
theorem commaSeparated_split {texts : List Str} {item : Str}
    (each : ∀ other ∈ texts, ∃ more, Passes other more) (member : item ∈ texts) :
    ∃ lead tail more, commaSeparated texts = lead ++ item ++ tail ∧ Passes lead more := by
  have comma : Passes [44] 0 := passes_silent (by decide)
  induction texts with
  | nil => cases member
  | cons first texts ih =>
      by_cases here : item = first
      · subst here
        cases texts with
        | nil => exact ⟨[], [], 0, by simp [commaSeparated], passes_nil⟩
        | cons second texts =>
            exact ⟨[], 44 :: commaSeparated (second :: texts), 0, rfl, passes_nil⟩
      · have later := (List.mem_cons.mp member).resolve_left here
        obtain ⟨lead, tail, more, split, passes⟩ :=
          ih (fun other inside => each other (List.mem_cons_of_mem _ inside)) later
        obtain ⟨levels, passed⟩ := each first List.mem_cons_self
        cases texts with
        | nil => cases later
        | cons second texts =>
            refine ⟨first ++ [44] ++ lead, tail, _, ?_, (passed.append comma).append passes⟩
            rw [commaSeparated_cons_cons, split]
            simp

theorem Reaches.of_member {texts : List Str} {item : Str} (reaches : Reaches item levels)
    (each : ∀ other ∈ texts, ∃ more, Passes other more) (member : item ∈ texts) :
    Reaches (commaSeparated texts) levels := by
  obtain ⟨lead, tail, more, split, passes⟩ := commaSeparated_split each member
  rw [split]
  exact reaches.after passes tail

theorem exists_depthItems {items : List Value} (deep : 0 < Value.depthItems items) :
    ∃ item ∈ items, item.depth = Value.depthItems items := by
  induction items with
  | nil => cases deep
  | cons item items ih =>
      rw [Value.depthItems] at deep ⊢
      by_cases here : Value.depthItems items ≤ item.depth
      · exact ⟨item, List.mem_cons_self, (max_eq_left here).symm⟩
      · obtain ⟨other, inside, same⟩ := ih (by omega)
        exact ⟨other, List.mem_cons_of_mem _ inside, by omega⟩

theorem exists_depthFields {fields : List (Str × Value)} (deep : 0 < Value.depthFields fields) :
    ∃ field ∈ fields, field.2.depth = Value.depthFields fields := by
  induction fields with
  | nil => cases deep
  | cons field fields ih =>
      rw [Value.depthFields] at deep ⊢
      by_cases here : Value.depthFields fields ≤ field.2.depth
      · exact ⟨field, List.mem_cons_self, (max_eq_left here).symm⟩
      · obtain ⟨other, inside, same⟩ := ih (by omega)
        exact ⟨other, List.mem_cons_of_mem _ inside, by omega⟩

theorem reaches_dumps {value : Value} (exact_ : floatless value = true) (deep : 0 < value.depth) :
    Reaches (dumps value) value.depth := by
  induction value using Value.induction with
  | null => cases deep
  | bool b => cases deep
  | int n => cases deep
  | float f => cases deep
  | str s => cases deep
  | list items ih =>
      rw [floatless, floatlessItems_iff] at exact_
      rw [dumps, dumpsItems_eq_map, Value.depth]
      by_cases flat : Value.depthItems items = 0
      · rw [flat]
        exact reaches_bracket (.inl rfl) _
      · obtain ⟨item, inside, same⟩ := exists_depthItems (Nat.pos_of_ne_zero flat)
        have each : ∀ other ∈ items.map dumps, ∃ more, Passes other more := by
          intro other member
          obtain ⟨origin, known, rfl⟩ := List.mem_map.mp member
          exact ⟨_, passes_dumps (exact_ origin known)⟩
        have reaches := ih item inside (exact_ item inside) (by omega)
        rw [← same]
        exact (reaches.of_member each (List.mem_map_of_mem inside)).bracket (.inl rfl) _
  | dict fields ih =>
      rw [floatless, floatlessFields_iff] at exact_
      rw [dumps, dumpsFields_eq_map, sortKeys_map, List.map_map, Value.depth]
      by_cases flat : Value.depthFields fields = 0
      · rw [flat]
        exact reaches_bracket (.inr rfl) _
      · obtain ⟨field, inside, same⟩ := exists_depthFields (Nat.pos_of_ne_zero flat)
        have colon : Passes [58] 0 := passes_silent (by decide)
        have each : ∀ other ∈ (sortKeys fields).map (fieldText ∘ fun field =>
            (field.1, dumps field.2)), ∃ more, Passes other more := by
          intro other member
          obtain ⟨origin, known, rfl⟩ := List.mem_map.mp member
          have passes := ((passes_quote origin.1).append colon).append
            (passes_dumps (exact_ origin (mem_sortKeys.mp known)))
          rw [List.append_assoc, List.singleton_append] at passes
          exact ⟨_, passes⟩
        have reaches := (ih field inside (exact_ field inside) (by omega)).after
          ((passes_quote field.1).append colon) []
        rw [List.append_nil, List.append_assoc, List.singleton_append] at reaches
        rw [← same]
        exact (reaches.of_member each
          (List.mem_map.mpr ⟨field, mem_sortKeys.mpr inside, rfl⟩)).bracket (.inr rfl) _

/-- The depth counted on a text is the depth of the value it writes. -/
theorem wireDepth_dumps {value : Value} (exact_ : floatless value = true) :
    wireDepth (dumps value) = value.depth := by
  apply le_antisymm (wireDepth_dumps_le exact_)
  by_cases flat : value.depth = 0
  · rw [flat]
    exact le_deepest _ _ _ _
  · have reached := reaches_dumps exact_ (Nat.pos_of_ne_zero flat) 0 0 []
    rw [List.append_nil, zero_add] at reached
    exact reached

end Depth

section Inverse

variable {interpreter : Interpreter} {left right : Value} {data : Bytes}

theorem floatless_of_isData {value : Value} (known : value.isData = true) :
    floatless value = true := by
  induction value using Value.induction with
  | null => rfl
  | bool b => rfl
  | int n => rfl
  | float f => cases known
  | str s => rfl
  | list items ih =>
      rw [Value.isData, Value.isDataItems_iff] at known
      rw [floatless, floatlessItems_iff]
      exact fun item member => ih item member (known item member)
  | dict fields ih =>
      obtain ⟨_, _, inside⟩ := Value.isData_dict.mp known
      rw [floatless, floatlessFields_iff]
      exact fun field member => ih field member (inside field member)

theorem canonical_of_same (same : left.Same right) :
    canonical interpreter left = canonical interpreter right := by
  unfold canonical canonicalBytes
  rw [Value.depth_of_same same, Value.printable_of_same same, Value.dumps_of_same same]

theorem dumps_of_canonicalBytes (bytes : canonicalBytes left = canonicalBytes right) :
    dumps left = dumps right := by
  have one := decodeUtf8_canonicalBytes left
  rw [bytes, decodeUtf8_canonicalBytes right] at one
  exact (Option.some.inj one).symm

/-- Values with one canonical text are equal. -/
theorem same_of_canonical (leftData : left.isData = true) (rightData : right.isData = true)
    (one : canonical interpreter left = .ok data) (two : canonical interpreter right = .ok data) :
    left.Same right := by
  obtain ⟨leftDeep, leftPrinted, rfl⟩ := canonical_eq_ok.mp one
  obtain ⟨rightDeep, rightPrinted, bytes⟩ := canonical_eq_ok.mp two
  have read := readText_dumps interpreter leftDeep leftPrinted
  rw [dumps_of_canonicalBytes bytes, readText_dumps interpreter rightDeep rightPrinted] at read
  have reread : right.reread = left.reread := Except.ok.inj read
  unfold Value.Same
  rw [← Value.decoded_of_isData leftData, ← Value.decoded_of_isData rightData, Value.decoded,
    Value.decoded, reread]

variable {wanted : List Str} {noun : String} {fields : List (Str × Value)}

theorem wireDepth_of_decodeWire {wire : Option Bytes}
    (accepted : decodeWire interpreter wire wanted noun = .ok fields) :
    wireDepth (dumps (.dict fields)) ≤ maxWireDepth := by
  obtain ⟨data, rfl, _, _, _, encoded⟩ := decodeWire_eq_ok accepted
  obtain ⟨_, _, rfl⟩ := canonical_eq_ok.mp encoded
  unfold decodeWire at accepted
  dsimp only at accepted
  obtain ⟨_, accepted⟩ := guarded_eq_ok.mp accepted
  rw [decodeUtf8_canonicalBytes] at accepted
  dsimp only at accepted
  exact not_lt.mp (guarded_eq_ok.mp accepted).1

theorem hasKeys_of_same {other : List (Str × Value)}
    (same : Value.Same (.dict fields) (.dict other)) (wanted : List Str) :
    hasKeys fields wanted = hasKeys other wanted := by
  unfold Value.Same at same
  rw [Value.ordered_dict, Value.ordered_dict] at same
  rw [← hasKeys_map_sortKeys Value.ordered fields, Value.dict.inj same,
    hasKeys_map_sortKeys Value.ordered other]

theorem exists_dict_of_same {value : Value} (same : Value.Same (.dict fields) value) :
    ∃ other, value = .dict other := by
  unfold Value.Same at same
  rw [Value.ordered_dict] at same
  cases value with
  | dict other => exact ⟨other, rfl⟩
  | list items => cases same
  | _ => cases same

/-- A wire decodes to a value exactly when it is the value's canonical text, within the
bounds. -/
theorem decodeWire_iff {value : Value} (known : value.isData = true) (wire : Bytes) :
    (∃ read, decodeWire interpreter (some wire) wanted noun = .ok read ∧
        Value.Same (.dict read) value) ↔
      (∃ fields, value = .dict fields ∧ hasKeys fields wanted = true) ∧
        canonical interpreter value = .ok wire ∧ wire.length ≤ maxWireBytes ∧
        value.depth ≤ maxWireDepth := by
  constructor
  · rintro ⟨read, accepted, same⟩
    obtain ⟨data, given, short, _, named, encoded⟩ := decodeWire_eq_ok accepted
    obtain rfl := Option.some.inj given
    obtain ⟨fields, rfl⟩ := exists_dict_of_same same
    have shallow := wireDepth_of_decodeWire accepted
    rw [Value.dumps_of_same same, wireDepth_dumps (floatless_of_isData known)] at shallow
    refine ⟨⟨fields, rfl, ?_⟩, ?_, short, by exact_mod_cast shallow⟩
    · rwa [← hasKeys_of_same same]
    · rwa [← canonical_of_same same]
  · rintro ⟨⟨fields, rfl, named⟩, encoded, short, shallow⟩
    have neat := Value.tidy_of_isData known
    have decodes : decodeWire interpreter (some wire) wanted noun = .ok _ :=
      decodeWire_canonical neat (floatless_of_isData known) shallow named encoded short
    obtain ⟨distinct, plain, _⟩ := Value.tidy_dict.mp neat
    refine ⟨_, decodes, ?_⟩
    rw [← Value.decoded_dict_of_keys distinct plain, Value.decoded_of_isData known]
    exact Value.ordered_ordered _

end Inverse

/-- Canonical encoding and strict decoding are inverse: values with one canonical text
are equal, a wire decodes to a value exactly when it is the value's canonical text within
the bounds, no two wires decode to equal values, and the nesting of brackets that is
bounded is the depth of the value. -/
theorem canonical_decode_inverse (interpreter : Interpreter) :
    (∀ left right data, left.isData = true → right.isData = true →
      canonical interpreter left = .ok data → canonical interpreter right = .ok data →
        left.Same right) ∧
    (∀ wire wanted noun value, value.isData = true →
      ((∃ read, decodeWire interpreter (some wire) wanted noun = .ok read ∧
          Value.Same (.dict read) value) ↔
        (∃ fields, value = .dict fields ∧ hasKeys fields wanted = true) ∧
          canonical interpreter value = .ok wire ∧ wire.length ≤ maxWireBytes ∧
          value.depth ≤ maxWireDepth)) ∧
    (∀ one other wanted otherWanted noun otherNoun read otherRead,
      decodeWire interpreter (some one) wanted noun = .ok read →
      decodeWire interpreter (some other) otherWanted otherNoun = .ok otherRead →
      Value.Same (.dict read) (.dict otherRead) → one = other) ∧
    ∀ value wire, value.isData = true → canonical interpreter value = .ok wire →
      ∃ text, decodeUtf8 wire = some text ∧ wireDepth text = value.depth := by
  refine ⟨?_, ?_, ?_, ?_⟩
  · intro left right data leftData rightData
    exact same_of_canonical leftData rightData
  · intro wire wanted noun value known
    exact decodeWire_iff known wire
  · intro one other wanted otherWanted noun otherNoun read otherRead accepted otherAccepted same
    obtain ⟨_, given, _, _, _, encoded⟩ := decodeWire_eq_ok accepted
    obtain ⟨_, otherGiven, _, _, _, otherEncoded⟩ := decodeWire_eq_ok otherAccepted
    obtain rfl := Option.some.inj given
    obtain rfl := Option.some.inj otherGiven
    rw [canonical_of_same same] at encoded
    exact Except.ok.inj (encoded.symm.trans otherEncoded)
  · intro value wire known encoded
    obtain ⟨_, _, rfl⟩ := canonical_eq_ok.mp encoded
    exact ⟨dumps value, decodeUtf8_canonicalBytes value, wireDepth_dumps (floatless_of_isData known)⟩

end GeniusNew
