import GeniusNew.Json.RoundTrip

/-! # The value a text decodes to

`Json.Value.decoded` is what `json.loads` returns for the text of a value. When
the keys of every dictionary are distinct and hold no surrogate pair
(`Json.Value.tidy`), the decoded value has the same text again, so re-encoding
reproduces the bytes; its fields are the decoded fields.
-/

namespace Json

namespace Value

/-- What `json.loads(json.dumps(value))` returns. -/
def decoded (value : Value) : Value := value.reread.collapse

theorem collapseItems_eq_map (items : List Value) : collapseItems items = items.map collapse := by
  induction items with
  | nil => rfl
  | cons item items ih => rw [collapseItems, ih, List.map_cons]

theorem collapseFields_eq_map (fields : List (Str × Value)) :
    collapseFields fields = fields.map fun field => (field.1, field.2.collapse) := by
  induction fields with
  | nil => rfl
  | cons field fields ih => rw [collapseFields, ih, List.map_cons]

@[simp] theorem decoded_null : decoded .null = .null := rfl

@[simp] theorem decoded_bool (b : Bool) : decoded (.bool b) = .bool b := rfl

@[simp] theorem decoded_int (n : Int) : decoded (.int n) = .int n := rfl

@[simp] theorem decoded_float (f : FloatNumber) : decoded (.float f) = .float f := rfl

@[simp] theorem decoded_str (s : Str) : decoded (.str s) = .str (joinSurrogates s) := rfl

@[simp] theorem decoded_list (items : List Value) :
    decoded (.list items) = .list (items.map decoded) := by
  simp only [decoded, reread, rereadItems_eq_map, collapse, collapseItems_eq_map, List.map_map]
  rfl

theorem decoded_dict (fields : List (Str × Value)) :
    decoded (.dict fields) =
      .dict (collect ((sortKeys fields).map fun field =>
        (joinSurrogates field.1, field.2.decoded))) := by
  simp only [decoded, reread, rereadFields_eq_map, sortKeys_map, collapse, collapseFields_eq_map,
    List.map_map]
  rfl

end Value

section Dictionary

variable {α : Type*}

theorem keyLe_total (s t : Str) : keyLe s t = true ∨ keyLe t s = true := by
  induction s generalizing t with
  | nil => exact .inl rfl
  | cons a s ih =>
      cases t with
      | nil => exact .inr rfl
      | cons b t =>
          simp only [keyLe, Bool.or_eq_true, decide_eq_true_eq, Bool.and_eq_true, beq_iff_eq]
          rcases Nat.lt_trichotomy a.val b.val with less | same | greater
          · exact .inl (.inl less)
          · cases Fin.ext same
            exact (ih t).imp (fun le => .inr ⟨rfl, le⟩) (fun le => .inr ⟨rfl, le⟩)
          · exact .inr (.inl greater)

theorem keyLe_trans {s t u : Str} (first : keyLe s t = true) (second : keyLe t u = true) :
    keyLe s u = true := by
  induction s generalizing t u with
  | nil => rfl
  | cons a s ih =>
      match t, u with
      | [], _ => cases first
      | _ :: _, [] => cases second
      | b :: t, c :: u =>
          simp only [keyLe, Bool.or_eq_true, decide_eq_true_eq, Bool.and_eq_true, beq_iff_eq]
            at first second ⊢
          rcases first with less | ⟨rfl, first⟩
          · rcases second with further | ⟨rfl, _⟩
            · exact .inl (less.trans further)
            · exact .inl less
          · rcases second with further | ⟨rfl, second⟩
            · exact .inl further
            · exact .inr ⟨rfl, ih first second⟩

theorem sortKeys_sorted (fields : List (Str × α)) :
    (sortKeys fields).Pairwise fun a b => keyLe a.1 b.1 = true := by
  have : Std.Total fun a b : Str × α => keyLe a.1 b.1 = true := ⟨fun a b => keyLe_total a.1 b.1⟩
  have : IsTrans (Str × α) fun a b => keyLe a.1 b.1 = true := ⟨fun _ _ _ => keyLe_trans⟩
  exact List.pairwise_insertionSort _ fields

theorem sortKeys_of_sorted {fields : List (Str × α)}
    (sorted : fields.Pairwise fun a b => keyLe a.1 b.1 = true) : sortKeys fields = fields :=
  sorted.insertionSort_eq

theorem sortKeys_perm (fields : List (Str × α)) : (sortKeys fields).Perm fields :=
  List.perm_insertionSort _ fields

theorem keys_sortKeys_perm (fields : List (Str × α)) : (keys (sortKeys fields)).Perm (keys fields) :=
  (sortKeys_perm fields).map _

/-- Collecting pairs with distinct keys changes nothing. -/
theorem collect_of_nodup {pairs : List (Str × α)} (distinct : (keys pairs).Nodup) :
    collect pairs = pairs := by
  suffices prefixed : ∀ done, (keys (done ++ pairs)).Nodup →
      pairs.foldl (fun fields pair => assign fields pair.1 pair.2) done = done ++ pairs from
    prefixed [] distinct
  clear distinct
  induction pairs with
  | nil => intro done _; simp
  | cons pair pairs ih =>
      intro done distinct
      have fresh : pair.1 ∉ keys done := by
        intro member
        rw [keys, List.map_append, List.map_cons] at distinct
        exact (List.nodup_append.mp distinct).2.2 pair.1 member pair.1 (by simp) rfl
      rw [List.foldl_cons, assign, ite_eq_right_iff.mpr fun member => (fresh member).elim,
        ih (done ++ [pair]) (by rwa [List.append_assoc]), List.append_assoc]
      rfl

theorem mem_of_mem_collect {pairs : List (Str × α)} {field : Str × α}
    (member : field ∈ collect pairs) : field ∈ pairs := by
  suffices prefixed : ∀ done, field ∈ pairs.foldl (fun fields pair =>
      assign fields pair.1 pair.2) done → field ∈ done ∨ field ∈ pairs from
    (prefixed [] member).resolve_left (List.not_mem_nil)
  clear member
  induction pairs with
  | nil => intro done member; exact .inl member
  | cons pair pairs ih =>
      intro done member
      rcases ih (assign done pair.1 pair.2) member with assigned | later
      · unfold assign at assigned
        split_ifs at assigned with known
        · obtain ⟨old, inside, rfl⟩ := List.mem_map.mp assigned
          split_ifs
          · exact .inr (by simp)
          · exact .inl inside
        · rcases List.mem_append.mp assigned with old | new
          · exact .inl old
          · rw [List.mem_singleton.mp new]
            exact .inr (by simp)
      · exact .inr (List.mem_cons_of_mem _ later)

theorem lookup_of_perm {fields other : List (Str × α)} (same : fields.Perm other)
    (distinct : (keys fields).Nodup) (key : Str) : fields.lookup key = other.lookup key := by
  induction same with
  | nil => rfl
  | cons field same ih =>
      rw [keys, List.map_cons, List.nodup_cons] at distinct
      rw [List.lookup_cons, List.lookup_cons, ih distinct.2]
  | swap first second fields =>
      obtain ⟨first, firstValue⟩ := first
      obtain ⟨second, secondValue⟩ := second
      have apart : second ≠ first := by
        rintro rfl
        simp [keys] at distinct
      by_cases here : key = first
      · subst here
        simp [List.lookup_cons, beq_eq_false_iff_ne.mpr apart.symm]
      · simp [List.lookup_cons, beq_eq_false_iff_ne.mpr here]
  | trans first second ih ih' =>
      rw [ih distinct, ih' ((first.map _).nodup distinct)]

end Dictionary

/-- A string in which no surrogate pair waits to be joined. -/
def joined (s : Str) : Bool := joinSurrogates s = s

theorem joined_of_ascii {s : Str} (ascii : ∀ c ∈ s, c.val < 0xd800) : joined s = true := by
  rw [joined, decide_eq_true_eq]
  induction s with
  | nil => rfl
  | cons c s ih =>
      rw [joinSurrogates_cons_of_not_high, ih fun d member => ascii d (List.mem_cons_of_mem _ member)]
      have bound := ascii c (by simp)
      simp only [isHighSurrogate, Bool.and_eq_false_iff, decide_eq_false_iff_not]
      omega

theorem escape_surrogate {c : CodePoint} (surrogate : 0xd800 ≤ c.val ∧ c.val ≤ 0xdfff) :
    escape c = unicodeEscape c.val := by
  have others : c ≠ 34 ∧ c ≠ 92 ∧ c ≠ 10 ∧ c ≠ 13 ∧ c ≠ 9 ∧ c ≠ 12 ∧ c ≠ 8 := by
    refine ⟨?_, ?_, ?_, ?_, ?_, ?_, ?_⟩ <;> (rintro rfl; revert surrogate; decide)
  simp only [escape, others, ↓reduceIte, codeUnits, show c.val < 0x10000 by omega,
    show ¬ (32 ≤ c.val ∧ c.val ≤ 126) by omega, List.flatMap_cons, List.flatMap_nil,
    List.append_nil]

/-- Joining surrogate pairs does not change how a string is written. -/
theorem escape_joinSurrogates (s : Str) : (joinSurrogates s).flatMap escape = s.flatMap escape := by
  induction s using joinSurrogates.induct with
  | case1 => rfl
  | case2 c => rfl
  | case3 high low rest marked ih =>
      have pair := marked
      simp only [isHighSurrogate, isLowSurrogate, Bool.and_eq_true, decide_eq_true_eq] at pair
      have value : (Fin.ofNat 0x110000 (0x10000 + (high.val - 0xd800) * 0x400 +
          (low.val - 0xdc00))).val = 0x10000 + (high.val - 0xd800) * 0x400 + (low.val - 0xdc00) := by
        rw [Fin.val_ofNat]; omega
      have others : ∀ d : CodePoint, d.val < 0x10000 → Fin.ofNat 0x110000 (0x10000 +
          (high.val - 0xd800) * 0x400 + (low.val - 0xdc00)) ≠ d := by
        intro d bound same
        rw [← same, value] at bound
        omega
      have written : escape (Fin.ofNat 0x110000 (0x10000 + (high.val - 0xd800) * 0x400 +
          (low.val - 0xdc00))) = unicodeEscape high.val ++ unicodeEscape low.val := by
        simp only [escape, others 34 (by decide), others 92 (by decide), others 10 (by decide),
          others 13 (by decide), others 9 (by decide), others 12 (by decide), others 8 (by decide),
          ↓reduceIte, codeUnits, value]
        rw [ite_eq_right_iff.mpr fun plain => by omega, ite_eq_right_iff.mpr fun plane => by omega]
        have first : 0xd800 + (0x10000 + (high.val - 0xd800) * 0x400 + (low.val - 0xdc00) -
            0x10000) / 0x400 = high.val := by omega
        have second : 0xdc00 + (0x10000 + (high.val - 0xd800) * 0x400 + (low.val - 0xdc00) -
            0x10000) % 0x400 = low.val := by omega
        rw [first, second]
        simp only [List.flatMap_cons, List.flatMap_nil, List.append_nil]
      rw [joinSurrogates]
      simp only [marked, ↓reduceIte, List.flatMap_cons, written, ih,
        escape_surrogate (show 0xd800 ≤ high.val ∧ high.val ≤ 0xdfff by omega),
        escape_surrogate (show 0xd800 ≤ low.val ∧ low.val ≤ 0xdfff by omega), List.append_assoc]
  | case4 high low rest apart ih =>
      rw [joinSurrogates, ite_eq_right_iff.mpr fun pair => (apart pair).elim, List.flatMap_cons, ih]
      rfl

/-- What was read holds no pair that is left to join. -/
theorem joinSurrogates_joinSurrogates (s : Str) :
    joinSurrogates (joinSurrogates s) = joinSurrogates s := by
  have once := readString_quote s []
  have twice := readString_quote (joinSurrogates s) []
  rw [escape_joinSurrogates, once] at twice
  exact (Prod.mk.inj (Except.ok.inj twice)).1.symm

theorem quote_joinSurrogates (s : Str) : quote (joinSurrogates s) = quote s := by
  rw [quote, escape_joinSurrogates, quote]

namespace Value

mutual

/-- The keys of every dictionary are distinct and hold no surrogate pair. -/
def tidy : Value → Bool
  | .list items => tidyItems items
  | .dict fields => (keys fields).Nodup && (keys fields).all joined && tidyFields fields
  | _ => true

def tidyItems : List Value → Bool
  | [] => true
  | item :: items => item.tidy && tidyItems items

def tidyFields : List (Str × Value) → Bool
  | [] => true
  | (_, value) :: fields => value.tidy && tidyFields fields

end

theorem reread_eq_str {value : Value} {text : Str} :
    value.reread = .str text ↔ ∃ origin, value = .str origin ∧ joinSurrogates origin = text := by
  cases value with
  | str origin => simp [reread]
  | _ => simp [reread]

/-- A field of a dictionary that was read back comes from a value read back. -/
theorem of_mem_reread {value : Value} {fields : List (Str × Value)} {field : Str × Value}
    (reads : value.reread = .dict fields) (member : field ∈ fields) :
    ∃ origin : Value, origin.reread = field.2 := by
  cases value with
  | dict inner =>
      rw [reread, rereadFields_eq_map, dict.injEq] at reads
      rw [← reads] at member
      obtain ⟨between, inside, rfl⟩ := List.mem_map.mp member
      obtain ⟨origin, _, rfl⟩ := List.mem_map.mp (mem_sortKeys.mp inside)
      exact ⟨origin.2, rfl⟩
  | _ => simp [reread] at reads

theorem tidyItems_iff {items : List Value} :
    tidyItems items = true ↔ ∀ item ∈ items, item.tidy = true := by
  induction items with
  | nil => simp [tidyItems]
  | cons item items ih => simp [tidyItems, ih]

theorem tidyFields_iff {fields : List (Str × Value)} :
    tidyFields fields = true ↔ ∀ field ∈ fields, field.2.tidy = true := by
  induction fields with
  | nil => simp [tidyFields]
  | cons field fields ih => simp [tidyFields, ih]

theorem tidy_dict {fields : List (Str × Value)} :
    (Value.dict fields).tidy = true ↔ (keys fields).Nodup ∧
      (∀ key ∈ keys fields, joinSurrogates key = key) ∧ ∀ field ∈ fields, field.2.tidy = true := by
  simp only [tidy, Bool.and_eq_true, decide_eq_true_eq, List.all_eq_true, joined, tidyFields_iff,
    and_assoc]

/-- A tidy dictionary decodes to its decoded fields, sorted by key. -/
theorem decoded_dict_of_keys {fields : List (Str × Value)} (distinct : (keys fields).Nodup)
    (plain : ∀ key ∈ keys fields, joinSurrogates key = key) :
    decoded (.dict fields) =
      .dict ((sortKeys fields).map fun field => (field.1, field.2.decoded)) := by
  have same : ((sortKeys fields).map fun field => (joinSurrogates field.1, field.2.decoded)) =
      (sortKeys fields).map fun field => (field.1, field.2.decoded) := by
    apply List.map_congr_left
    intro field member
    rw [plain field.1 (List.mem_map_of_mem (mem_sortKeys.mp member))]
  have keep : keys ((sortKeys fields).map fun field => (field.1, field.2.decoded)) =
      keys (sortKeys fields) := by
    rw [keys, List.map_map]
    rfl
  rw [decoded_dict, same, collect_of_nodup]
  rw [keep]
  exact ((keys_sortKeys_perm fields).nodup_iff).mpr distinct

/-- The decoded value of a tidy value has the same text. -/
theorem dumps_decoded {value : Value} (neat : value.tidy = true) :
    dumps value.decoded = dumps value := by
  induction value using Value.induction with
  | null => rfl
  | bool b => rfl
  | int n => rfl
  | float f => rfl
  | str s => rw [decoded_str, dumps, dumps, quote_joinSurrogates]
  | list items ih =>
      rw [tidy, tidyItems_iff] at neat
      rw [decoded_list, dumps, dumps, dumpsItems_eq_map, dumpsItems_eq_map, List.map_map]
      congr 3
      exact List.map_congr_left fun item member => ih item member (neat item member)
  | dict fields ih =>
      obtain ⟨distinct, plain, inside⟩ := tidy_dict.mp neat
      have sorted : sortKeys ((sortKeys fields).map fun field => (field.1, field.2.decoded)) =
          (sortKeys fields).map fun field => (field.1, field.2.decoded) := by
        rw [sortKeys_map, sortKeys_of_sorted (sortKeys_sorted fields)]
      rw [decoded_dict_of_keys distinct plain, dumps, dumps, dumpsFields_eq_map,
        dumpsFields_eq_map, sortKeys_map, sorted, sortKeys_map]
      simp only [List.map_map]
      congr 3
      apply List.map_congr_left
      intro field member
      rw [mem_sortKeys] at member
      simp only [Function.comp_apply, ih field member (inside field member)]

theorem get?_dict (fields : List (Str × Value)) (key : Str) :
    get? (.dict fields) key = fields.lookup key := rfl

theorem lookup_map_snd {α β : Type*} (f : α → β) (fields : List (Str × α)) (key : Str) :
    (fields.map fun field => (field.1, f field.2)).lookup key = (fields.lookup key).map f := by
  induction fields with
  | nil => rfl
  | cons field fields ih =>
      obtain ⟨name, value⟩ := field
      by_cases here : key = name
      · simp [here]
      · simp [List.lookup_cons, beq_eq_false_iff_ne.mpr here, ih]

theorem depth_collapse_le (value : Value) : value.collapse.depth ≤ value.depth := by
  induction value using Value.induction with
  | null => exact le_rfl
  | bool b => exact le_rfl
  | int n => exact le_rfl
  | float f => exact le_rfl
  | str s => exact le_rfl
  | list items ih =>
      rw [collapse, collapseItems_eq_map, depth, depth, Nat.succ_le_succ_iff, depthItems_le]
      intro item member
      obtain ⟨origin, inside, rfl⟩ := List.mem_map.mp member
      exact (ih origin inside).trans (depthItems_le.mp le_rfl origin inside)
  | dict fields ih =>
      rw [collapse, collapseFields_eq_map, depth, depth, Nat.succ_le_succ_iff, depthFields_le]
      intro field member
      obtain ⟨origin, inside, same⟩ := List.mem_map.mp (mem_of_mem_collect member)
      rw [← same]
      exact (ih origin inside).trans (depthFields_le.mp le_rfl origin inside)

theorem depth_reread_le (value : Value) : value.reread.depth ≤ value.depth := by
  induction value using Value.induction with
  | null => exact le_rfl
  | bool b => exact le_rfl
  | int n => exact le_rfl
  | float f => exact le_rfl
  | str s => exact le_rfl
  | list items ih =>
      rw [reread, rereadItems_eq_map, depth, depth, Nat.succ_le_succ_iff, depthItems_le]
      intro item member
      obtain ⟨origin, inside, rfl⟩ := List.mem_map.mp member
      exact (ih origin inside).trans (depthItems_le.mp le_rfl origin inside)
  | dict fields ih =>
      rw [reread, rereadFields_eq_map, depth, depth, Nat.succ_le_succ_iff, depthFields_le]
      intro field member
      obtain ⟨sorted, among, same⟩ := List.mem_map.mp member
      obtain ⟨origin, inside, rfl⟩ := List.mem_map.mp (mem_sortKeys.mp among)
      rw [← same]
      exact (ih origin inside).trans (depthFields_le.mp le_rfl origin inside)

theorem depth_decoded_le (value : Value) : value.decoded.depth ≤ value.depth :=
  (depth_collapse_le _).trans (depth_reread_le value)

/-- What was read back can be printed again. -/
theorem printable_decoded {interpreter : Interpreter} {value : Value}
    (printed : value.printable interpreter = true) :
    value.decoded.printable interpreter = true := by
  induction value using Value.induction with
  | null => rfl
  | bool b => rfl
  | int n => exact printed
  | float f => exact printed
  | str s => rfl
  | list items ih =>
      rw [printable, printableItems_iff] at printed
      rw [decoded_list, printable, printableItems_iff]
      intro item member
      obtain ⟨origin, inside, rfl⟩ := List.mem_map.mp member
      exact ih origin inside (printed origin inside)
  | dict fields ih =>
      rw [printable, printableFields_iff] at printed
      rw [decoded_dict, printable, printableFields_iff]
      intro field member
      obtain ⟨origin, inside, same⟩ := List.mem_map.mp (mem_of_mem_collect member)
      rw [← same]
      exact ih origin (mem_sortKeys.mp inside) (printed origin (mem_sortKeys.mp inside))

/-- Fields with equal texts under equal keys make dictionaries with equal texts. -/
theorem dumps_dict_congr {fields : List (Str × Value)} {f : Value → Value}
    (same : ∀ field ∈ fields, dumps (f field.2) = dumps field.2) :
    dumps (.dict (fields.map fun field => (field.1, f field.2))) = dumps (.dict fields) := by
  have mapped : (fields.map fun field => (field.1, dumps (f field.2))) =
      fields.map fun field => (field.1, dumps field.2) := by
    apply List.map_congr_left
    intro field member
    rw [same field member]
  rw [dumps, dumps, dumpsFields_eq_map, dumpsFields_eq_map, List.map_map]
  exact congrArg (fun texts => 123 :: commaSeparated ((sortKeys texts).map fieldText) ++ [125]) mapped

end Value

section Sorted

theorem keyLe_antisymm {s t : Str} (first : keyLe s t = true) (second : keyLe t s = true) :
    s = t := by
  induction s generalizing t with
  | nil =>
      cases t with
      | nil => rfl
      | cons b t => cases second
  | cons a s ih =>
      cases t with
      | nil => cases first
      | cons b t =>
          simp only [keyLe, Bool.or_eq_true, Bool.and_eq_true, decide_eq_true_eq, beq_iff_eq]
            at first second
          rcases first with below | ⟨rfl, first⟩
          · rcases second with above | ⟨rfl, _⟩ <;> omega
          · rcases second with above | ⟨_, second⟩
            · omega
            · rw [ih first second]

variable {α : Type*}

theorem keys_assign_nodup {fields : List (Str × α)} (distinct : (keys fields).Nodup) (key : Str)
    (value : α) : (keys (assign fields key value)).Nodup := by
  rw [assign]
  split_ifs with known
  · have same : keys (fields.map fun field => if field.1 = key then (key, value) else field) =
        keys fields := by
      rw [keys, keys, List.map_map]
      apply List.map_congr_left
      intro field _
      by_cases here : field.1 = key <;> simp [here]
    rwa [same]
  · rw [keys, List.map_append, ← keys, List.nodup_append]
    refine ⟨distinct, List.nodup_singleton _, ?_⟩
    rintro other member _ inside rfl
    obtain rfl : other = key := List.mem_singleton.mp inside
    exact known member

/-- A dictionary built from pairs has every key once. -/
theorem keys_collect_nodup (pairs : List (Str × α)) : (keys (collect pairs)).Nodup := by
  suffices prefixed : ∀ done : List (Str × α), (keys done).Nodup →
      (keys (pairs.foldl (fun fields pair => assign fields pair.1 pair.2) done)).Nodup from
    prefixed [] List.nodup_nil
  induction pairs with
  | nil => exact fun done distinct => distinct
  | cons pair pairs ih =>
      intro done distinct
      exact ih _ (keys_assign_nodup distinct pair.1 pair.2)

theorem lookup_of_mem {fields : List (Str × α)} (distinct : (keys fields).Nodup)
    {field : Str × α} (member : field ∈ fields) : fields.lookup field.1 = some field.2 := by
  induction fields with
  | nil => cases member
  | cons first fields ih =>
      rw [keys, List.map_cons, List.nodup_cons] at distinct
      rcases List.mem_cons.mp member with rfl | inside
      · rw [List.lookup_cons, beq_self_eq_true]
      · have other : field.1 ≠ first.1 := by
          intro same
          exact distinct.1 (same ▸ List.mem_map.mpr ⟨field, inside, rfl⟩)
        rw [List.lookup_cons, beq_eq_false_iff_ne.mpr other]
        exact ih distinct.2 inside

/-- A dictionary with a known sorted set of keys is sorted into that order. -/
theorem sortKeys_of_hasKeys {fields : List (Str × α)} {wanted : List Str}
    (distinct : (keys fields).Nodup) (wanted_nodup : wanted.Nodup)
    (sorted : wanted.Pairwise fun a b => keyLe a b = true) (named : hasKeys fields wanted = true)
    (default : α) :
    sortKeys fields = wanted.map fun key => (key, (fields.lookup key).getD default) := by
  have sameKeys : keys (sortKeys fields) = wanted := by
    have perm : (keys (sortKeys fields)).Perm wanted := by
      refine (keys_sortKeys_perm fields).trans
        ((List.perm_ext_iff_of_nodup distinct wanted_nodup).mpr fun key => ?_)
      simp only [hasKeys, Bool.and_eq_true, List.all_eq_true, decide_eq_true_eq] at named
      exact ⟨named.1 key, named.2 key⟩
    have ordered : (keys (sortKeys fields)).Pairwise fun a b => keyLe a b = true :=
      List.pairwise_map.mpr (sortKeys_sorted fields)
    exact perm.eq_of_pairwise (fun _ _ _ _ => keyLe_antisymm) ordered sorted
  rw [← sameKeys, keys, List.map_map]
  refine (List.map_id _).symm.trans (List.map_congr_left fun field member => ?_)
  rw [Function.comp_apply, lookup_of_mem distinct ((sortKeys_perm fields).mem_iff.mp member)]
  rfl

theorem hasKeys_map_sortKeys {β : Type*} (f : α → β) (fields : List (Str × α)) (wanted : List Str) :
    hasKeys ((sortKeys fields).map fun field => (field.1, f field.2)) wanted =
      hasKeys fields wanted := by
  have same : keys ((sortKeys fields).map fun field => (field.1, f field.2)) =
      keys (sortKeys fields) := by
    rw [keys, List.map_map]
    rfl
  rw [Bool.eq_iff_iff]
  simp only [hasKeys, same, Bool.and_eq_true, List.all_eq_true, decide_eq_true_eq,
    (keys_sortKeys_perm fields).mem_iff]

theorem lookup_map_sortKeys {β : Type*} (f : α → β) {fields : List (Str × α)}
    (distinct : (keys fields).Nodup) (key : Str) :
    ((sortKeys fields).map fun field => (field.1, f field.2)).lookup key =
      (fields.lookup key).map f := by
  rw [Value.lookup_map_snd, lookup_of_perm (sortKeys_perm fields)
    (((keys_sortKeys_perm fields).nodup_iff).mpr distinct)]

theorem dumps_sortKeys (fields : List (Str × Value)) :
    dumps (.dict (sortKeys fields)) = dumps (.dict fields) := by
  have again : sortKeys (sortKeys fields) = sortKeys fields :=
    sortKeys_of_sorted (sortKeys_sorted fields)
  simp only [dumps, dumpsFields_eq_map, sortKeys_map, again]

/-- What a text is read as has every key once. -/
theorem nodup_of_loads {interpreter : Interpreter} {text : Str} {fields : List (Str × Value)}
    (read : loads interpreter text = .ok (.dict fields)) : (keys fields).Nodup := by
  rw [loads] at read
  cases found : readText interpreter text with
  | error raised => rw [found] at read; cases read
  | ok value =>
      rw [found] at read
      have collapsed : value.collapse = .dict fields := Except.ok.inj read
      cases value with
      | dict pairs =>
          obtain rfl := Value.dict.inj collapsed
          exact keys_collect_nodup _
      | list items => cases collapsed
      | _ => cases collapsed

end Sorted

end Json
