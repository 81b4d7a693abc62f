import GeniusNew.Json.Decoded

/-! # Equal dictionaries

Two dictionaries are equal when they hold the same items, in whatever order these were
added. A value with the items of every dictionary sorted by key (`Value.ordered`)
stands for all values equal to it, and has their text.
-/

namespace Json

/-- Distinct keys sort to one list, whatever order they come in. -/
theorem sortKeys_eq_of_perm {α : Type*} {fields other : List (Str × α)}
    (distinct : (keys fields).Nodup) (same : fields.Perm other) :
    sortKeys fields = sortKeys other := by
  have perm : (sortKeys fields).Perm (sortKeys other) :=
    (sortKeys_perm fields).trans (same.trans (sortKeys_perm other).symm)
  refine perm.eq_of_pairwise ?_ (sortKeys_sorted fields) (sortKeys_sorted other)
  intro one two first second before after
  have key : one.1 = two.1 := keyLe_antisymm before after
  rw [mem_sortKeys] at first second
  have held := lookup_of_mem distinct first
  have found := lookup_of_mem distinct (same.mem_iff.mpr second)
  rw [key, found] at held
  exact Prod.ext key (Option.some.inj held).symm

namespace Value

mutual

/-- The value with the items of its dictionaries sorted by key. -/
def ordered : Value → Value
  | .list items => .list (orderedItems items)
  | .dict fields => .dict (sortKeys (orderedFields fields))
  | value => value

def orderedItems : List Value → List Value
  | [] => []
  | item :: items => item.ordered :: orderedItems items

def orderedFields : List (Str × Value) → List (Str × Value)
  | [] => []
  | (key, value) :: fields => (key, value.ordered) :: orderedFields fields

end

/-- `left == right` of two values without floats that agree in their types. -/
def Same (left right : Value) : Prop := left.ordered = right.ordered

theorem orderedItems_eq_map (items : List Value) : orderedItems items = items.map ordered := by
  induction items with
  | nil => rfl
  | cons item items ih => rw [orderedItems, ih, List.map_cons]

theorem orderedFields_eq_map (fields : List (Str × Value)) :
    orderedFields fields = fields.map fun field => (field.1, field.2.ordered) := by
  induction fields with
  | nil => rfl
  | cons field fields ih => rw [orderedFields, ih, List.map_cons]

theorem ordered_list (items : List Value) : ordered (.list items) = .list (items.map ordered) := by
  rw [ordered, orderedItems_eq_map]

theorem ordered_dict (fields : List (Str × Value)) : ordered (.dict fields) =
    .dict ((sortKeys fields).map fun field => (field.1, field.2.ordered)) := by
  rw [ordered, orderedFields_eq_map, sortKeys_map]

theorem sortKeys_ordered (fields : List (Str × Value)) :
    sortKeys ((sortKeys fields).map fun field => (field.1, field.2.ordered)) =
      (sortKeys fields).map fun field => (field.1, field.2.ordered) := by
  rw [sortKeys_map, sortKeys_of_sorted (sortKeys_sorted fields)]

@[simp] theorem ordered_ordered (value : Value) : value.ordered.ordered = value.ordered := by
  induction value using Value.induction with
  | null => rfl
  | bool b => rfl
  | int n => rfl
  | float f => rfl
  | str s => rfl
  | list items ih =>
      rw [ordered_list, ordered_list, List.map_map]
      congr 1
      exact List.map_congr_left ih
  | dict fields ih =>
      rw [ordered_dict, ordered_dict, sortKeys_ordered, List.map_map]
      congr 1
      apply List.map_congr_left
      intro field member
      exact Prod.ext rfl (ih field (mem_sortKeys.mp member))

theorem same_dict_of_perm {fields other : List (Str × Value)} (distinct : (keys fields).Nodup)
    (perm : fields.Perm other) : Same (.dict fields) (.dict other) := by
  unfold Same
  rw [ordered_dict, ordered_dict, sortKeys_eq_of_perm distinct perm]

theorem length_of_same_dict {fields other : List (Str × Value)}
    (same : Same (.dict fields) (.dict other)) : fields.length = other.length := by
  unfold Same at same
  rw [ordered_dict, ordered_dict] at same
  have sized := congrArg List.length (Value.dict.inj same)
  simpa [(sortKeys_perm fields).length_eq, (sortKeys_perm other).length_eq] using sized

/-- A value has the text of the values equal to it. -/
theorem dumps_ordered (value : Value) : dumps value.ordered = dumps value := by
  induction value using Value.induction with
  | null => rfl
  | bool b => rfl
  | int n => rfl
  | float f => rfl
  | str s => rfl
  | list items ih =>
      rw [ordered_list, dumps, dumps, dumpsItems_eq_map, dumpsItems_eq_map, List.map_map]
      congr 3
      exact List.map_congr_left ih
  | dict fields ih =>
      rw [ordered_dict, dumps, dumps, dumpsFields_eq_map, dumpsFields_eq_map, sortKeys_map,
        sortKeys_ordered, sortKeys_map]
      simp only [List.map_map]
      congr 3
      apply List.map_congr_left
      intro field member
      simp only [Function.comp_apply, ih field (mem_sortKeys.mp member)]

theorem dumps_of_same {left right : Value} (same : Same left right) : dumps left = dumps right := by
  rw [← dumps_ordered left, same, dumps_ordered]

theorem depth_ordered_le {value : Value} {level : Nat} :
    value.ordered.depth ≤ level ↔ value.depth ≤ level := by
  induction value using Value.induction generalizing level with
  | null => rfl
  | bool b => rfl
  | int n => rfl
  | float f => rfl
  | str s => rfl
  | list items ih =>
      rw [ordered_list, depth, depth]
      cases level with
      | zero => simp
      | succ level =>
          simp only [Nat.succ_le_succ_iff, depthItems_le, List.forall_mem_map]
          exact forall₂_congr fun item member => ih item member
  | dict fields ih =>
      rw [ordered_dict, depth, depth]
      cases level with
      | zero => simp
      | succ level =>
          simp only [Nat.succ_le_succ_iff, depthFields_le, List.forall_mem_map, mem_sortKeys]
          exact forall₂_congr fun field member => ih field member

theorem depth_of_same {left right : Value} (same : Same left right) : left.depth = right.depth := by
  apply le_antisymm
  · rw [← depth_ordered_le, same, depth_ordered_le]
  · rw [← depth_ordered_le, ← same, depth_ordered_le]

theorem printable_ordered {interpreter : Interpreter} (value : Value) :
    value.ordered.printable interpreter = value.printable interpreter := by
  induction value using Value.induction with
  | null => rfl
  | bool b => rfl
  | int n => rfl
  | float f => rfl
  | str s => rfl
  | list items ih =>
      rw [ordered_list, printable, printable, Bool.eq_iff_iff]
      simp only [printableItems_iff, List.forall_mem_map]
      exact forall₂_congr fun item member => by rw [ih item member]
  | dict fields ih =>
      rw [ordered_dict, printable, printable, Bool.eq_iff_iff]
      simp only [printableFields_iff, List.forall_mem_map, mem_sortKeys]
      exact forall₂_congr fun field member => by rw [ih field member]

theorem printable_of_same {interpreter : Interpreter} {left right : Value}
    (same : Same left right) : left.printable interpreter = right.printable interpreter := by
  rw [← printable_ordered left, same, printable_ordered]

mutual

/-- Built from null, booleans, integers, texts without an unjoined surrogate pair, lists
and dictionaries. -/
def isData : Value → Bool
  | .float _ => false
  | .str s => joined s
  | .list items => isDataItems items
  | .dict fields => (keys fields).Nodup && (keys fields).all joined && isDataFields fields
  | _ => true

def isDataItems : List Value → Bool
  | [] => true
  | item :: items => item.isData && isDataItems items

def isDataFields : List (Str × Value) → Bool
  | [] => true
  | (_, value) :: fields => value.isData && isDataFields fields

end

theorem isDataItems_iff {items : List Value} :
    isDataItems items = true ↔ ∀ item ∈ items, item.isData = true := by
  induction items with
  | nil => simp [isDataItems]
  | cons item items ih => simp [isDataItems, ih]

theorem isDataFields_iff {fields : List (Str × Value)} :
    isDataFields fields = true ↔ ∀ field ∈ fields, field.2.isData = true := by
  induction fields with
  | nil => simp [isDataFields]
  | cons field fields ih => simp [isDataFields, ih]

theorem isData_dict {fields : List (Str × Value)} :
    (Value.dict fields).isData = true ↔ (keys fields).Nodup ∧
      (∀ key ∈ keys fields, joinSurrogates key = key) ∧
        ∀ field ∈ fields, field.2.isData = true := by
  simp only [isData, Bool.and_eq_true, decide_eq_true_eq, List.all_eq_true, joined,
    isDataFields_iff, and_assoc]

theorem tidy_of_isData {value : Value} (data : value.isData = true) : value.tidy = true := by
  induction value using Value.induction with
  | null => rfl
  | bool b => rfl
  | int n => rfl
  | float f => cases data
  | str s => rfl
  | list items ih =>
      rw [isData, isDataItems_iff] at data
      rw [tidy, tidyItems_iff]
      exact fun item member => ih item member (data item member)
  | dict fields ih =>
      obtain ⟨distinct, plain, inside⟩ := isData_dict.mp data
      exact tidy_dict.mpr ⟨distinct, plain, fun field member => ih field member (inside field member)⟩

/-- Such a value is decoded to itself, sorted. -/
theorem decoded_of_isData {value : Value} (data : value.isData = true) :
    value.decoded = value.ordered := by
  induction value using Value.induction with
  | null => rfl
  | bool b => rfl
  | int n => rfl
  | float f => cases data
  | str s =>
      rw [isData, joined, decide_eq_true_eq] at data
      rw [decoded_str, data]
      rfl
  | list items ih =>
      rw [isData, isDataItems_iff] at data
      rw [decoded_list, ordered_list]
      congr 1
      exact List.map_congr_left fun item member => ih item member (data item member)
  | dict fields ih =>
      obtain ⟨distinct, plain, inside⟩ := isData_dict.mp data
      rw [decoded_dict_of_keys distinct plain, ordered_dict]
      congr 1
      apply List.map_congr_left
      intro field member
      rw [mem_sortKeys] at member
      exact Prod.ext rfl (ih field member (inside field member))

end Value

end Json
