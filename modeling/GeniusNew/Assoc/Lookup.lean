import Mathlib.Data.List.Forall2
import Mathlib.Data.List.Nodup

/-! # Association lists

A table is a list of keys and values in the order they were added. What is looked
up after a key was added or its value replaced.
-/

namespace Assoc

variable {Key Value : Type*} [BEq Key] [LawfulBEq Key] [DecidableEq Key]
  {table : List (Key × Value)} {key other : Key}

/-- The table with another value for a key. -/
def replace (table : List (Key × Value)) (key : Key) (value : Value) : List (Key × Value) :=
  table.map fun entry => if entry.1 = key then (key, value) else entry

theorem lookup_concat (free : table.lookup key = none) (value : Value) :
    List.lookup other (table ++ [(key, value)]) =
      if other = key then some value else table.lookup other := by
  rw [List.lookup_append]
  by_cases same : other = key
  · simp [same, free]
  · have differ : (other == key) = false := beq_false_of_ne same
    simp [List.lookup_cons, differ, same]

theorem lookup_replace (table : List (Key × Value)) (key other : Key) (value : Value) :
    List.lookup other (replace table key value) =
      if other = key then (table.lookup key).map fun _ => value else table.lookup other := by
  induction table with
  | nil => simp [replace]
  | cons entry rest ih =>
      obtain ⟨first, old⟩ := entry
      rw [replace] at ih
      rw [replace, List.map_cons]
      by_cases replaced : first = key
      · subst replaced
        by_cases same : other = first
        · simp [same]
        · have differ : (other == first) = false := beq_false_of_ne same
          rw [if_neg same] at ih
          simp [List.lookup_cons, differ, same, ih]
      · have differ : (key == first) = false := beq_false_of_ne (Ne.symm replaced)
        simp only [replaced, if_false, List.lookup_cons, differ, ih]
        by_cases found : other = first
        · simp [found, replaced]
        · have missed : (other == first) = false := beq_false_of_ne found
          simp [missed]

theorem mem_of_lookup {value : Value} (found : table.lookup key = some value) :
    (key, value) ∈ table := by
  induction table with
  | nil => cases found
  | cons entry rest ih =>
      obtain ⟨first, old⟩ := entry
      by_cases same : key = first
      · subst same
        rw [List.lookup_cons_self] at found
        rw [Option.some.inj found]
        exact List.mem_cons_self
      · have differ : (key == first) = false := beq_false_of_ne same
        rw [List.lookup_cons, differ] at found
        exact List.mem_cons_of_mem _ (ih found)

theorem lookup_isSome_iff : (table.lookup key).isSome = true ↔ key ∈ table.map Prod.fst := by
  induction table with
  | nil => simp
  | cons entry rest ih =>
      obtain ⟨first, old⟩ := entry
      rw [List.map_cons, List.mem_cons, ← ih]
      by_cases same : key = first
      · subst same
        simp
      · have differ : (key == first) = false := beq_false_of_ne same
        simp [List.lookup_cons, differ, same]

omit [DecidableEq Key] in
theorem lookup_of_mem_nodup {value : Value} (distinct : (table.map Prod.fst).Nodup)
    (member : (key, value) ∈ table) : table.lookup key = some value := by
  induction table with
  | nil => cases member
  | cons entry rest ih =>
      obtain ⟨first, old⟩ := entry
      rw [List.map_cons, List.nodup_cons] at distinct
      rcases List.mem_cons.mp member with same | later
      · obtain ⟨rfl, rfl⟩ := Prod.mk.inj same
        exact List.lookup_cons_self
      · have differ : (key == first) = false := by
          refine beq_false_of_ne ?_
          rintro rfl
          exact distinct.1 (List.mem_map.mpr ⟨(key, value), later, rfl⟩)
        rw [List.lookup_cons, differ]
        exact ih distinct.2 later

section Keyed

variable {α κ : Type*} [DecidableEq κ] {key : α → κ} {items : List α} {item : α} {wanted : κ}

/-- With distinct keys, a search by key finds the one item that has the key. -/
theorem find?_key (distinct : (items.map key).Nodup) (member : item ∈ items)
    (keyed : key item = wanted) :
    (items.find? fun other => decide (key other = wanted)) = some item := by
  cases found : items.find? fun other => decide (key other = wanted) with
  | none => exact (List.find?_eq_none.mp found item member (decide_eq_true keyed)).elim
  | some other =>
      have same : decide (key other = wanted) = true := by
        exact List.find?_some (p := fun other => decide (key other = wanted)) found
      have inside := List.mem_of_find?_eq_some found
      have equal := (of_decide_eq_true same).trans keyed.symm
      exact congrArg some (List.inj_on_of_nodup_map distinct inside member equal)

end Keyed

section Related

variable {α β : Type*} {Related : α → β → Prop} {left : List α} {right : List β}

theorem exists_left_of_mem (all : List.Forall₂ Related left right) {b : β} (member : b ∈ right) :
    ∃ a ∈ left, Related a b := by
  induction all with
  | nil => cases member
  | cons related _ ih =>
      rcases List.mem_cons.mp member with rfl | later
      · exact ⟨_, List.mem_cons_self, related⟩
      · obtain ⟨a, inside, held⟩ := ih later
        exact ⟨a, List.mem_cons_of_mem _ inside, held⟩

theorem exists_right_of_mem (all : List.Forall₂ Related left right) {a : α} (member : a ∈ left) :
    ∃ b ∈ right, Related a b := exists_left_of_mem all.flip member

end Related

end Assoc
