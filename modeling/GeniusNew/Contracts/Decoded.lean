import GeniusNew.Assoc.Lookup
import GeniusNew.Contracts.Wire

/-! # What a wire decodes to

A value without floats passes the rules `decode_wire` has beyond those of JSON: its
text nests as deep as the value, names no constant and repeats no key. So the
canonical bytes of such a dictionary decode to its fields as JSON returns them, and
whatever decodes is the canonical bytes of its fields.
-/

namespace GeniusNew

open Json

section Scanned

variable {text other : Str} {levels more : Nat}

/-- A text that leaves a scan outside of string literals where it found it, with
brackets at most so deep on the way and without the letters of a constant. -/
structure Passes (text : Str) (levels : Nat) : Prop where
  depth : ∀ (depth found : Int) (rest : Str), ∃ deeper ≤ max found (depth + levels),
    deepest .start depth found (text ++ rest) = deepest .start depth deeper rest
  constant : ∀ rest, namesConstant .start (text ++ rest) = namesConstant .start rest

theorem Passes.append (first : Passes text levels) (second : Passes other more) :
    Passes (text ++ other) (max levels more) where
  depth := by
    intro depth found rest
    obtain ⟨middle, low, one⟩ := first.depth depth found (other ++ rest)
    obtain ⟨deeper, high, two⟩ := second.depth depth middle rest
    refine ⟨deeper, ?_, by rw [List.append_assoc, one, two]⟩
    omega
  constant := by
    intro rest
    rw [List.append_assoc, first.constant, second.constant]

theorem Passes.mono (passes : Passes text levels) (le : levels ≤ more) : Passes text more where
  depth := by
    intro depth found rest
    obtain ⟨deeper, low, same⟩ := passes.depth depth found rest
    exact ⟨deeper, by omega, same⟩
  constant := passes.constant

theorem passes_nil : Passes [] 0 where
  depth := fun _ found _ => ⟨found, le_max_left _ _, rfl⟩
  constant := fun _ => rfl

/-- A character that means nothing to either scan. -/
def silent (c : CodePoint) : Bool :=
  c ≠ 34 && c ≠ 91 && c ≠ 123 && c ≠ 93 && c ≠ 125 && c ≠ 78 && c ≠ 73

theorem passes_silent (quiet : text.all silent = true) : Passes text 0 := by
  induction text with
  | nil => exact passes_nil
  | cons c text ih =>
      rw [List.all_cons, Bool.and_eq_true] at quiet
      have inner := ih quiet.2
      simp only [silent, Bool.and_eq_true, decide_eq_true_eq, ne_eq] at quiet
      constructor
      · intro depth found rest
        obtain ⟨deeper, low, same⟩ := inner.depth depth found rest
        refine ⟨deeper, low, ?_⟩
        rw [List.cons_append, deepest, ← same]
        simp [Scan.start, quiet]
      · intro rest
        have stays : Scan.start.next c = .start := by simp [Scan.start, Scan.next, quiet]
        rw [List.cons_append, namesConstant, stays, inner.constant]
        simp [Scan.start, quiet]

/-- Where a scan stands inside a string literal, not after a backslash. -/
def Scan.literal : Scan := ⟨true, false⟩

/-- A text that stays inside a string literal. -/
structure Stays (text : Str) : Prop where
  depth : ∀ depth found rest,
    deepest .literal depth found (text ++ rest) = deepest .literal depth found rest
  constant : ∀ rest, namesConstant .literal (text ++ rest) = namesConstant .literal rest

theorem Stays.append (first : Stays text) (second : Stays other) : Stays (text ++ other) where
  depth := by
    intro depth found rest
    rw [List.append_assoc, first.depth, second.depth]
  constant := by
    intro rest
    rw [List.append_assoc, first.constant, second.constant]

theorem stays_nil : Stays [] := ⟨fun _ _ _ => rfl, fun _ => rfl⟩

theorem stays_flatMap {α : Type} {items : List α} {f : α → Str}
    (each : ∀ item ∈ items, Stays (f item)) : Stays (items.flatMap f) := by
  induction items with
  | nil => exact stays_nil
  | cons item items ih =>
      rw [List.flatMap_cons]
      refine (each item List.mem_cons_self).append (ih fun other member => ?_)
      exact each other (List.mem_cons_of_mem _ member)

theorem stays_plain {c : CodePoint} (quote : c ≠ 34) (backslash : c ≠ 92) : Stays [c] where
  depth := by
    intro depth found rest
    rw [List.singleton_append, deepest]
    simp [Scan.literal, Scan.next, quote, backslash]
  constant := by
    intro rest
    rw [List.singleton_append, namesConstant]
    simp [Scan.literal, Scan.next, quote, backslash]

theorem stays_escaped (c : CodePoint) : Stays [92, c] where
  depth := by
    intro depth found rest
    rw [List.cons_append, deepest, List.singleton_append, deepest]
    simp [Scan.literal, Scan.next]
  constant := by
    intro rest
    rw [List.cons_append, namesConstant, List.singleton_append, namesConstant]
    simp [Scan.literal, Scan.next]

theorem hexDigit_plain : ∀ d < 16, hexDigit d ≠ 34 ∧ hexDigit d ≠ 92 := by decide

theorem stays_unicodeEscape (n : Nat) : Stays (unicodeEscape n) := by
  have digit : ∀ d, Stays [hexDigit (d % 16)] := fun d =>
    stays_plain (hexDigit_plain _ (Nat.mod_lt _ (by decide))).1
      (hexDigit_plain _ (Nat.mod_lt _ (by decide))).2
  exact (stays_escaped 117).append ((digit _).append ((digit _).append
    ((digit _).append (digit n))))

theorem stays_escape (c : CodePoint) : Stays (escape c) := by
  unfold escape
  split_ifs with quote backslash _ _ _ _ _ plain
  any_goals exact stays_escaped _
  · exact stays_plain quote backslash
  · exact stays_flatMap fun n _ => stays_unicodeEscape n

theorem passes_quote (s : Str) : Passes (quote s) 0 := by
  have inside : Stays (s.flatMap escape) := stays_flatMap fun c _ => stays_escape c
  have opens : Scan.start.next 34 = .literal := rfl
  have closes : Scan.literal.next 34 = .start := rfl
  constructor
  · intro depth found rest
    refine ⟨found, le_max_left _ _, ?_⟩
    rw [quote, List.append_assoc, List.cons_append, deepest, if_pos (Or.inr rfl), opens,
      inside.depth, List.singleton_append, deepest, if_pos (Or.inr rfl), closes]
  · intro rest
    rw [quote, List.append_assoc, List.cons_append, namesConstant, opens, inside.constant,
      List.singleton_append, namesConstant, closes]
    rfl

/-- A bracketed text. -/
theorem Passes.bracket (passes : Passes text levels) {opening closing : CodePoint}
    (opens : opening = 91 ∨ opening = 123) (closes : closing = 93 ∨ closing = 125) :
    Passes (opening :: text ++ [closing]) (levels + 1) where
  depth := by
    intro depth found rest
    have enters : ∀ tail, deepest .start depth found (opening :: tail) =
        deepest .start (depth + 1) (max found (depth + 1)) tail := by
      intro tail
      rcases opens with rfl | rfl <;> simp [deepest, Scan.start]
    have leaves : ∀ deeper, deepest .start (depth + 1) deeper (closing :: rest) =
        deepest .start depth deeper rest := by
      intro deeper
      rcases closes with rfl | rfl <;> simp [deepest, Scan.start]
    obtain ⟨deeper, low, same⟩ :=
      passes.depth (depth + 1) (max found (depth + 1)) ([closing] ++ rest)
    refine ⟨deeper, by omega, ?_⟩
    rw [List.append_assoc, List.cons_append, enters, same, List.singleton_append, leaves]
  constant := by
    intro rest
    have enters : ∀ tail, namesConstant .start (opening :: tail) = namesConstant .start tail := by
      intro tail
      rcases opens with rfl | rfl <;> simp [namesConstant, Scan.start, Scan.next]
    have leaves : namesConstant .start (closing :: rest) = namesConstant .start rest := by
      rcases closes with rfl | rfl <;> simp [namesConstant, Scan.start, Scan.next]
    rw [List.append_assoc, List.cons_append, enters, passes.constant, List.singleton_append,
      leaves]

theorem passes_commaSeparated {texts : List Str} (each : ∀ item ∈ texts, Passes item levels) :
    Passes (commaSeparated texts) levels := by
  have comma : Passes [44] 0 := passes_silent (by decide)
  match texts with
  | [] => exact passes_nil.mono (Nat.zero_le _)
  | [item] => exact each item (List.mem_singleton_self _)
  | first :: second :: rest =>
      have later : Passes (commaSeparated (second :: rest)) levels :=
        passes_commaSeparated fun item member => each item (List.mem_cons_of_mem _ member)
      have whole := ((each first List.mem_cons_self).append comma).append later
      rw [List.append_assoc, List.singleton_append] at whole
      exact whole.mono (by omega)

end Scanned

mutual

/-- No float below. -/
def floatless : Value → Bool
  | .float _ => false
  | .list items => floatlessItems items
  | .dict fields => floatlessFields fields
  | _ => true

def floatlessItems : List Value → Bool
  | [] => true
  | item :: items => floatless item && floatlessItems items

def floatlessFields : List (Str × Value) → Bool
  | [] => true
  | (_, value) :: fields => floatless value && floatlessFields fields

end

theorem floatlessItems_iff {items : List Value} :
    floatlessItems items = true ↔ ∀ item ∈ items, floatless item = true := by
  induction items with
  | nil => simp [floatlessItems]
  | cons item items ih => simp [floatlessItems, ih]

theorem floatlessFields_iff {fields : List (Str × Value)} :
    floatlessFields fields = true ↔ ∀ field ∈ fields, floatless field.2 = true := by
  induction fields with
  | nil => simp [floatlessFields]
  | cons field fields ih => simp [floatlessFields, ih]

theorem silent_digit : ∀ d < 10, silent (Fin.ofNat _ (48 + d)) = true := by decide

theorem passes_intText (n : Int) : Passes (intText n) 0 := by
  have digits : Passes (decimal n.natAbs) 0 := by
    refine passes_silent ?_
    unfold decimal
    split_ifs
    · decide
    · rw [List.all_map, List.all_eq_true]
      intro d member
      exact silent_digit d (Nat.digits_lt_base (by decide) (List.mem_reverse.mp member))
  unfold intText
  split_ifs
  · have sign : Passes [45] 0 := passes_silent (by decide)
    exact sign.append digits
  · exact digits

/-- The text of a value without floats passes, at the value's depth. -/
theorem passes_dumps {value : Value} (exact_ : floatless value = true) :
    Passes (dumps value) value.depth := by
  induction value using Value.induction with
  | null => exact passes_silent (by decide)
  | bool b => cases b <;> exact passes_silent (by decide)
  | int n => exact passes_intText n
  | float f => cases exact_
  | str s => exact passes_quote s
  | list items ih =>
      rw [floatless, floatlessItems_iff] at exact_
      rw [dumps, dumpsItems_eq_map, Value.depth]
      refine Passes.bracket (passes_commaSeparated fun text member => ?_) (.inl rfl) (.inl rfl)
      obtain ⟨item, inside, rfl⟩ := List.mem_map.mp member
      exact (ih item inside (exact_ item inside)).mono
        (Value.depthItems_le.mp le_rfl item inside)
  | dict fields ih =>
      rw [floatless, floatlessFields_iff] at exact_
      rw [dumps, dumpsFields_eq_map, sortKeys_map, List.map_map, Value.depth]
      refine Passes.bracket (passes_commaSeparated fun text member => ?_) (.inr rfl) (.inr rfl)
      obtain ⟨field, inside, rfl⟩ := List.mem_map.mp member
      rw [mem_sortKeys] at inside
      have colon : Passes [58] 0 := passes_silent (by decide)
      have whole := ((passes_quote field.1).append colon).append
        (ih field inside (exact_ field inside))
      rw [List.append_assoc, List.singleton_append] at whole
      exact whole.mono (by have := Value.depthFields_le.mp le_rfl field inside; omega)

theorem wireDepth_dumps_le {value : Value} (exact_ : floatless value = true) :
    wireDepth (dumps value) ≤ value.depth := by
  obtain ⟨deeper, low, same⟩ := (passes_dumps exact_).depth 0 0 []
  rw [List.append_nil] at same
  rw [wireDepth, same, deepest]
  omega

theorem namesConstant_dumps {value : Value} (exact_ : floatless value = true) :
    namesConstant .start (dumps value) = false := by
  have same := (passes_dumps exact_).constant []
  rwa [List.append_nil] at same

theorem decodeUtf8_of_ascii {data : Bytes} (ascii : data.all (· < 128) = true) :
    decodeUtf8 data = some (data.map fun b => Fin.ofNat _ b.toNat) := by
  induction data with
  | nil => rfl
  | cons b data ih =>
      rw [List.all_cons, Bool.and_eq_true, decide_eq_true_eq, UInt8.lt_iff_toNat_lt] at ascii
      have small : b.toNat < 0x80 := ascii.1
      unfold decodeUtf8
      rw [if_pos small, ih ascii.2]
      rfl

theorem decodeUtf8_canonicalBytes (value : Value) :
    decodeUtf8 (canonicalBytes value) = some (dumps value) := by
  have decoded := decodeAscii_canonicalBytes value
  unfold decodeAscii at decoded
  split_ifs at decoded with ascii
  rw [decodeUtf8_of_ascii ascii, decoded]

/-- A tidy value is read as JSON returns it: there is nothing to collapse. -/
theorem reread_of_tidy {value : Value} (neat : value.tidy = true) :
    value.reread = value.decoded := by
  induction value using Value.induction with
  | null => rfl
  | bool b => rfl
  | int n => rfl
  | float f => rfl
  | str s => rfl
  | list items ih =>
      rw [Value.tidy, Value.tidyItems_iff] at neat
      rw [Value.decoded_list, Value.reread, Value.rereadItems_eq_map]
      congr 1
      exact List.map_congr_left fun item member => ih item member (neat item member)
  | dict fields ih =>
      obtain ⟨distinct, plain, inside⟩ := Value.tidy_dict.mp neat
      rw [Value.decoded_dict_of_keys distinct plain, Value.reread, Value.rereadFields_eq_map,
        sortKeys_map, List.map_map]
      congr 1
      apply List.map_congr_left
      intro field member
      rw [mem_sortKeys] at member
      rw [Function.comp_apply, plain field.1 (List.mem_map_of_mem member),
        ih field member (inside field member)]

theorem repeatsKeyItems_eq_any (items : List Value) :
    repeatsKeyItems items = items.any repeatsKey := by
  induction items with
  | nil => rfl
  | cons item items ih => rw [repeatsKeyItems, ih, List.any_cons]

theorem repeatsKeyFields_eq_any (fields : List (Str × Value)) :
    repeatsKeyFields fields = fields.any fun field => repeatsKey field.2 := by
  induction fields with
  | nil => rfl
  | cons field fields ih => rw [repeatsKeyFields, ih, List.any_cons]

theorem repeatsKey_decoded {value : Value} (neat : value.tidy = true) :
    repeatsKey value.decoded = false := by
  induction value using Value.induction with
  | null => rfl
  | bool b => rfl
  | int n => rfl
  | float f => rfl
  | str s => rfl
  | list items ih =>
      rw [Value.tidy, Value.tidyItems_iff] at neat
      rw [Value.decoded_list, repeatsKey, repeatsKeyItems_eq_any, List.any_eq_false]
      intro item member
      obtain ⟨origin, inside, rfl⟩ := List.mem_map.mp member
      rw [ih origin inside (neat origin inside)]
      decide
  | dict fields ih =>
      obtain ⟨distinct, plain, inside⟩ := Value.tidy_dict.mp neat
      have keep : keys ((sortKeys fields).map fun field => (field.1, field.2.decoded)) =
          keys (sortKeys fields) := by
        rw [keys, List.map_map]
        rfl
      have unique : (keys (sortKeys fields)).Nodup :=
        ((keys_sortKeys_perm fields).nodup_iff).mpr distinct
      rw [Value.decoded_dict_of_keys distinct plain, repeatsKey, keep, decide_eq_true unique,
        repeatsKeyFields_eq_any, Bool.not_true, Bool.false_or, List.any_eq_false]
      intro field member
      obtain ⟨origin, found, rfl⟩ := List.mem_map.mp member
      rw [mem_sortKeys] at found
      rw [ih origin found (inside origin found)]
      decide

/-- A dictionary that repeats no key has each key once, and its values repeat
none. -/
theorem nodup_of_repeatsKey {fields : List (Str × Value)}
    (unique : repeatsKey (.dict fields) = false) :
    (keys fields).Nodup ∧ ∀ field ∈ fields, repeatsKey field.2 = false := by
  rw [repeatsKey, Bool.or_eq_false_iff, repeatsKeyFields_eq_any, List.any_eq_false] at unique
  refine ⟨by simpa using unique.1, fun field member => ?_⟩
  exact eq_false_of_ne_true (unique.2 field member)

/-- Dictionaries with the same keys and the same value for each have one text. -/
theorem dumps_dict_of_lookup {fields other : List (Str × Value)} (one : (keys fields).Nodup)
    (two : (keys other).Nodup) (named : hasKeys fields (keys other) = true)
    (same : ∀ key ∈ keys other, fields.lookup key = other.lookup key) :
    dumps (.dict fields) = dumps (.dict other) := by
  have perm := keys_sortKeys_perm other
  have wanted : (keys (sortKeys other)).Nodup := perm.nodup_iff.mpr two
  have sorted : (keys (sortKeys other)).Pairwise fun a b => keyLe a b = true :=
    List.pairwise_map.mpr (sortKeys_sorted other)
  have names : ∀ list : List (Str × Value), hasKeys list (keys other) = true →
      hasKeys list (keys (sortKeys other)) = true := by
    intro list named
    simpa only [hasKeys, perm.mem_iff, List.all_eq_true, Bool.and_eq_true,
      decide_eq_true_eq] using named
  have self : hasKeys other (keys other) = true := by simp [hasKeys]
  have left := sortKeys_of_hasKeys one wanted sorted (names _ named) .null
  have right := sortKeys_of_hasKeys two wanted sorted (names _ self) .null
  have equal : sortKeys fields = sortKeys other := by
    refine (left.trans (List.map_congr_left fun key member => ?_)).trans right.symm
    rw [same key (perm.mem_iff.mp member)]
  rw [← dumps_sortKeys fields, ← dumps_sortKeys other, equal]

section Agreement

variable {read own : List (Str × Value)}

/-- Every field is read as it stands. -/
def Agrees (read own : List (Str × Value)) : Prop :=
  ∀ field ∈ own, (read.lookup field.1).getD .null = field.2

theorem exists_lookup {key : Str} (present : key ∈ keys read) :
    ∃ value, read.lookup key = some value := by
  induction read with
  | nil => cases present
  | cons field read ih =>
      rw [List.lookup_cons]
      cases here : key == field.1 with
      | true => exact ⟨field.2, rfl⟩
      | false =>
          rw [keys, List.map_cons, List.mem_cons] at present
          exact ih (present.resolve_left (ne_of_beq_false here))

theorem lookup_filter_key (p : Str → Bool) (key : Str) :
    (read.filter fun field => p field.1).lookup key = if p key then read.lookup key else none := by
  induction read with
  | nil => simp
  | cons field read ih =>
      obtain ⟨first, value⟩ := field
      cases kept : p first with
      | true =>
          rw [List.filter_cons_of_pos (by simp [kept]), List.lookup_cons, List.lookup_cons, ih]
          cases here : key == first with
          | true =>
              rw [eq_of_beq here, kept]
              rfl
          | false => rfl
      | false =>
          rw [List.filter_cons_of_neg (by simp [kept]), ih, List.lookup_cons]
          cases here : key == first with
          | true => rw [eq_of_beq here, kept, if_neg Bool.false_ne_true, if_neg Bool.false_ne_true]
          | false => rfl

/-- Read fields that agree with known ones have their text, also when both leave
the same keys out. -/
theorem dumps_filter_of_agrees (p : Str → Bool) (distinct : (keys read).Nodup)
    (ownDistinct : (keys own).Nodup) (named : hasKeys read (keys own) = true)
    (agrees : Agrees read own) :
    dumps (.dict (read.filter fun field => p field.1)) =
      dumps (.dict (own.filter fun field => p field.1)) := by
  have filtered (fields : List (Str × Value)) :
      keys (fields.filter fun field => p field.1) = (keys fields).filter p := by
    rw [keys, keys, List.filter_map]
    rfl
  simp only [hasKeys, Bool.and_eq_true, List.all_eq_true, decide_eq_true_eq] at named
  refine dumps_dict_of_lookup ?_ ?_ ?_ fun key member => ?_
  · rw [filtered]
    exact distinct.filter _
  · rw [filtered]
    exact ownDistinct.filter _
  · simp only [hasKeys, Bool.and_eq_true, List.all_eq_true, decide_eq_true_eq, filtered]
    refine ⟨fun key member => ?_, fun key member => ?_⟩
    · obtain ⟨inside, kept⟩ := List.mem_filter.mp member
      exact List.mem_filter.mpr ⟨named.1 key inside, kept⟩
    · obtain ⟨inside, kept⟩ := List.mem_filter.mp member
      exact List.mem_filter.mpr ⟨named.2 key inside, kept⟩
  · obtain ⟨inside, kept⟩ := List.mem_filter.mp (filtered own ▸ member)
    obtain ⟨field, known, rfl⟩ := List.mem_map.mp inside
    obtain ⟨value, found⟩ := exists_lookup (named.2 _ inside)
    have same := agrees field known
    rw [found, Option.getD_some] at same
    rw [lookup_filter_key, lookup_filter_key, kept, if_pos rfl, if_pos rfl, found, same,
      lookup_of_mem ownDistinct known]

theorem dumps_of_agrees (distinct : (keys read).Nodup) (ownDistinct : (keys own).Nodup)
    (named : hasKeys read (keys own) = true) (agrees : Agrees read own) :
    dumps (.dict read) = dumps (.dict own) := by
  have same := dumps_filter_of_agrees (fun _ => true) distinct ownDistinct named agrees
  rwa [List.filter_eq_self.mpr fun _ _ => rfl, List.filter_eq_self.mpr fun _ _ => rfl] at same

/-- Read fields that are canonical are canonical as the known ones they agree with. -/
theorem canonical_of_agrees {interpreter : Interpreter} {data : Bytes}
    (distinct : (keys read).Nodup) (ownDistinct : (keys own).Nodup)
    (named : hasKeys read (keys own) = true) (agrees : Agrees read own)
    (shallow : (Value.dict own).depth ≤ maxWireDepth)
    (encoded : canonical interpreter (.dict read) = .ok data) :
    canonical interpreter (.dict own) = .ok data := by
  obtain ⟨_, printed, rfl⟩ := canonical_eq_ok.mp encoded
  have limit := interpreter.recursionLimit_sufficient
  have four : maxWireDepth = 4 := rfl
  refine canonical_eq_ok.mpr ⟨by omega, ?_, ?_⟩
  · rw [Value.printable, Value.printableFields_iff] at printed ⊢
    intro field known
    rw [← agrees field known]
    cases found : read.lookup field.1 with
    | none => rfl
    | some value => exact printed _ (Assoc.mem_of_lookup found)
  · rw [canonicalBytes, canonicalBytes, dumps_of_agrees distinct ownDistinct named agrees]

/-- The fields that are read back from the text of tidy ones. -/
theorem agrees_decoded (distinct : (keys own).Nodup) :
    Agrees ((sortKeys own).map fun field => (field.1, field.2.decoded))
      (own.map fun field => (field.1, field.2.decoded)) := by
  intro field member
  obtain ⟨origin, inside, rfl⟩ := List.mem_map.mp member
  have sorted : (keys (sortKeys own)).Nodup := ((keys_sortKeys_perm own).nodup_iff).mpr distinct
  rw [Value.lookup_map_snd, lookup_of_perm (sortKeys_perm own) sorted, lookup_of_mem distinct inside]
  rfl

end Agreement

section Wire

variable {interpreter : Interpreter} {wanted : List Str} {noun : String}
  {fields : List (Str × Value)}

/-- What decodes is the canonical bytes of the fields, each key once. -/
theorem decodeWire_eq_ok {wire : Option Bytes}
    (accepted : decodeWire interpreter wire wanted noun = .ok fields) :
    ∃ data, wire = some data ∧ data.length ≤ maxWireBytes ∧ repeatsKey (.dict fields) = false ∧
      hasKeys fields wanted = true ∧ canonical interpreter (.dict fields) = .ok data := by
  unfold decodeWire at accepted
  split at accepted
  · exact (fail_ne_ok accepted).elim
  next data =>
    obtain ⟨sized, accepted⟩ := guarded_eq_ok.mp accepted
    split at accepted
    · exact (fail_ne_ok accepted).elim
    obtain ⟨_, accepted⟩ := guarded_eq_ok.mp accepted
    split at accepted
    · exact (fail_ne_ok accepted).elim
    next read _ =>
      obtain ⟨unique, accepted⟩ := guarded_eq_ok.mp accepted
      obtain ⟨_, accepted⟩ := guarded_eq_ok.mp accepted
      split at accepted
      · next found =>
          obtain ⟨named, accepted⟩ := guarded_eq_ok.mp accepted
          obtain ⟨encoded, canonicalized, accepted⟩ := bind_eq_ok.mp accepted
          obtain ⟨same, accepted⟩ := guarded_eq_ok.mp accepted
          obtain rfl := pure_eq_ok.mp accepted
          rw [not_not.mp same]
          rw [not_or, not_lt] at sized
          refine ⟨encoded, rfl, ?_, eq_false_of_ne_true unique, by simpa using named,
            canonicalized⟩
          rw [← not_not.mp same]
          exact sized.2
      · exact (fail_ne_ok accepted).elim

/-- What decodes is read back from its own text as it stands. -/
theorem reread_of_decodeWire {wire : Option Bytes}
    (accepted : decodeWire interpreter wire wanted noun = .ok fields) :
    (Value.dict fields).reread = .dict fields := by
  obtain ⟨data, rfl, _, _, _, encoded⟩ := decodeWire_eq_ok accepted
  obtain ⟨deep, printed, rfl⟩ := canonical_eq_ok.mp encoded
  have again := readText_dumps interpreter deep printed
  unfold decodeWire at accepted
  dsimp only at accepted
  obtain ⟨_, accepted⟩ := guarded_eq_ok.mp accepted
  rw [decodeUtf8_canonicalBytes] at accepted
  dsimp only at accepted
  obtain ⟨_, accepted⟩ := guarded_eq_ok.mp accepted
  rw [again] at accepted
  obtain ⟨_, accepted⟩ := guarded_eq_ok.mp accepted
  obtain ⟨_, accepted⟩ := guarded_eq_ok.mp accepted
  split at accepted
  · next found shape =>
      obtain ⟨_, accepted⟩ := guarded_eq_ok.mp accepted
      obtain ⟨_, _, accepted⟩ := bind_eq_ok.mp accepted
      obtain ⟨_, accepted⟩ := guarded_eq_ok.mp accepted
      obtain rfl := pure_eq_ok.mp accepted
      exact shape
  · exact (fail_ne_ok accepted).elim

/-- The canonical bytes of a shallow dictionary of texts and integers decode to
its fields. -/
theorem decodeWire_canonical {data : Bytes} (neat : (Value.dict fields).tidy = true)
    (exact_ : floatless (.dict fields) = true) (shallow : (Value.dict fields).depth ≤ maxWireDepth)
    (named : hasKeys fields wanted = true)
    (encoded : canonical interpreter (.dict fields) = .ok data)
    (short : data.length ≤ maxWireBytes) :
    decodeWire interpreter (some data) wanted noun =
      .ok ((sortKeys fields).map fun field => (field.1, field.2.decoded)) := by
  obtain ⟨distinct, plain, _⟩ := Value.tidy_dict.mp neat
  obtain ⟨deep, printed, rfl⟩ := canonical_eq_ok.mp encoded
  have read : readText interpreter (dumps (.dict fields)) = .ok (Value.decoded (.dict fields)) := by
    rw [readText_dumps interpreter deep printed, reread_of_tidy neat]
  have again : canonical interpreter (Value.decoded (.dict fields)) =
      .ok (canonicalBytes (.dict fields)) := by
    refine canonical_eq_ok.mpr ⟨(Value.depth_decoded_le _).trans deep,
      Value.printable_decoded printed, ?_⟩
    rw [canonicalBytes, canonicalBytes, Value.dumps_decoded neat]
  have unique := repeatsKey_decoded neat
  have nests : ¬ wireDepth (dumps (.dict fields)) > maxWireDepth := by
    have bound := wireDepth_dumps_le exact_
    omega
  have nonempty : canonicalBytes (.dict fields) ≠ [] := by
    rw [canonicalBytes, asciiBytes, dumps]
    exact List.cons_ne_nil _ _
  have shape := Value.decoded_dict_of_keys distinct plain
  have renamed := (hasKeys_map_sortKeys Value.decoded fields wanted).trans named
  rw [shape] at read again unique
  unfold decodeWire
  dsimp only
  rw [if_neg (by rw [not_or, not_lt]; exact ⟨nonempty, short⟩), decodeUtf8_canonicalBytes]
  dsimp only
  rw [if_neg nests, read]
  dsimp only
  rw [unique, namesConstant_dumps exact_, renamed]
  exact bind_eq_ok.mpr ⟨_, again, guarded_eq_ok.mpr ⟨not_not.mpr rfl, rfl⟩⟩

end Wire

end GeniusNew
