import GeniusNew.FileTree.Walk
import GeniusNew.Json.Value

/-! # Paths as texts

A text is read as a path in two ways. The kernel's reading keeps every component, and a slash
at the end asks for a directory as a component `.` does. That of `pathlib` drops both.
-/

namespace FileTree

open Json

def slash : CodePoint := 47

def dot : Str := str "."

def dotdot : Str := str ".."

theorem not_mem_of_mem_splitOn {α : Type} [DecidableEq α] {separator : α} {text part : List α}
    (split : part ∈ text.splitOn separator) : separator ∉ part := by
  induction text generalizing part with
  | nil =>
      rw [List.splitOn_nil, List.mem_singleton] at split
      exact split ▸ List.not_mem_nil
  | cons c text ih =>
      rw [List.splitOn_cons_eq_if_modifyHead] at split
      by_cases same : (c == separator) = true
      · rw [if_pos same] at split
        rcases List.mem_cons.mp split with rfl | split
        · exact List.not_mem_nil
        · exact ih split
      · rw [if_neg same] at split
        cases parts : text.splitOn separator with
        | nil => exact absurd parts (List.splitOn_ne_nil _ _)
        | cons head rest =>
            rw [parts] at split ih
            rcases List.mem_cons.mp split with rfl | split
            · have other : separator ≠ c := fun equal => same (beq_iff_eq.mpr equal.symm)
              exact List.not_mem_cons_of_ne_of_not_mem other (ih List.mem_cons_self)
            · exact ih (List.mem_cons_of_mem _ split)

/-! ## The kernel's reading -/

def component (part : Str) : Component Str :=
  if part = dot then .here else if part = dotdot then .above else .child part

theorem component_eq_here_iff (part : Str) : component part = .here ↔ part = dot := by
  unfold component
  split_ifs with first second <;> simp [first]

theorem component_of_plain {part : Str} (solid : part ≠ dot) (lower : part ≠ dotdot) :
    component part = .child part := by
  rw [component, if_neg solid, if_neg lower]

def kernelComponents (text : Str) : List (Component Str) :=
  let parts := text.splitOn slash
  (parts.filter (· ≠ [])).map component ++ if parts.getLast? = some [] then [.here] else []

def kernelRoute (text : Str) : Route Str where
  absolute := text.head? = some slash
  components := kernelComponents text

/-! ## Pure paths -/

/-- `pathlib.PurePosixPath`: whether it has a root, and the parts after it. -/
structure PurePath where
  absolute : Bool
  tail : List Str
  proper : ∀ part ∈ tail, (part ≠ [] ∧ slash ∉ part) ∧ part ≠ dot

namespace PurePath

def root : PurePath := ⟨true, [], fun _ member => absurd member List.not_mem_nil⟩

def parse (text : Str) : PurePath where
  absolute := text.head? = some slash
  tail := (text.splitOn slash).filter fun part => part ≠ [] ∧ part ≠ dot
  proper := by
    intro part member
    obtain ⟨split, kept⟩ := List.mem_filter.mp member
    obtain ⟨nonempty, solid⟩ := of_decide_eq_true kept
    exact ⟨⟨nonempty, not_mem_of_mem_splitOn split⟩, solid⟩

/-- `str(path)`. -/
def text (path : PurePath) : Str :=
  if path.absolute then slash :: [slash].intercalate path.tail
  else if path.tail = [] then dot else [slash].intercalate path.tail

/-- `path / text`. -/
def join (path : PurePath) (text : Str) : PurePath :=
  let other := parse text
  if other.absolute then other
  else
    { absolute := path.absolute
      tail := path.tail ++ other.tail
      proper := by
        intro part member
        exact (List.mem_append.mp member).elim (path.proper part) (other.proper part) }

def parent (path : PurePath) : PurePath where
  absolute := path.absolute
  tail := path.tail.dropLast
  proper := fun part member => path.proper part (List.mem_of_mem_dropLast member)

@[simp] theorem parent_tail (path : PurePath) : path.parent.tail = path.tail.dropLast := rfl

@[simp] theorem parent_absolute (path : PurePath) : path.parent.absolute = path.absolute := rfl

theorem eq_of_fields {left right : PurePath} (absolute : left.absolute = right.absolute)
    (tail : left.tail = right.tail) : left = right := by
  cases left
  cases right
  cases absolute
  cases tail
  rfl

/-- A single part is read as it is, but `.`. -/
theorem parse_part {part : Str} (whole : part ≠ [] ∧ slash ∉ part) :
    (parse part).absolute = false ∧ (parse part).tail = if part = dot then [] else [part] := by
  obtain ⟨nonempty, unbroken⟩ := whole
  constructor
  · cases part with
    | nil => exact absurd rfl nonempty
    | cons c rest =>
        have other : c ≠ slash := fun same => unbroken (same ▸ List.mem_cons_self)
        simp [parse, other]
  · have split : (parse part).tail = [part].filter fun part => part ≠ [] ∧ part ≠ dot := by
      rw [← List.splitOn_eq_singleton unbroken]
      rfl
    rw [split]
    split_ifs with same <;> simp [nonempty, same]

theorem join_of_relative (path : PurePath) {text : Str} (relative : (parse text).absolute = false) :
    (path.join text).absolute = path.absolute ∧
      (path.join text).tail = path.tail ++ (parse text).tail := by
  rw [join, relative, if_neg Bool.false_ne_true]
  exact ⟨rfl, rfl⟩

theorem join_dot (path : PurePath) : path.join dot = path := by
  have whole : dot ≠ [] ∧ slash ∉ dot := by decide
  obtain ⟨relative, still⟩ := parse_part whole
  obtain ⟨absolute, tail⟩ := join_of_relative path relative
  apply eq_of_fields absolute
  rw [tail, still, if_pos rfl, List.append_nil]

theorem join_part (path : PurePath) {part : Str} (whole : part ≠ [] ∧ slash ∉ part)
    (solid : part ≠ dot) :
    (path.join part).absolute = path.absolute ∧ (path.join part).tail = path.tail ++ [part] := by
  obtain ⟨relative, single⟩ := parse_part whole
  obtain ⟨absolute, tail⟩ := join_of_relative path relative
  refine ⟨absolute, ?_⟩
  rw [tail, single, if_neg solid]

end PurePath

/-! ## How the readings differ -/

/-- What moves a walk is the same in both readings. -/
theorem moves_kernelComponents (text : Str) :
    moves (kernelComponents text) = (PurePath.parse text).tail.map component := by
  have last : moves (if (text.splitOn slash).getLast? = some [] then [.here] else []
      : List (Component Str)) = [] := by
    split_ifs <;> rfl
  rw [kernelComponents, moves, List.filter_append, ← moves, ← moves, last, List.append_nil, moves,
    List.filter_map, List.filter_filter, PurePath.parse]
  congr 1
  apply List.filter_congr
  intro part _
  simp [component_eq_here_iff, and_comm]

/-- The text of an absolute path is read back by the kernel, where the root itself is `.`. -/
theorem kernelComponents_text {path : PurePath} (absolute : path.absolute = true) :
    kernelComponents path.text =
      if path.tail = [] then [.here] else path.tail.map component := by
  have split : path.text.splitOn slash = [] :: ([slash].intercalate path.tail).splitOn slash := by
    rw [PurePath.text, if_pos absolute, List.splitOn_cons_eq_if_modifyHead,
      if_pos (beq_self_eq_true _)]
  split_ifs with empty
  · rw [kernelComponents, split, empty]
    decide
  · have unbroken (part : Str) (member : part ∈ path.tail) : slash ∉ part :=
      (path.proper part member).1.2
    rw [List.splitOn_intercalate _ unbroken empty] at split
    have kept : ([] :: path.tail).filter (· ≠ []) = path.tail := by
      rw [List.filter_cons_of_neg (by simp), List.filter_eq_self]
      exact fun part member => decide_eq_true (path.proper part member).1.1
    have last : ([] :: path.tail).getLast? ≠ some [] := by
      rw [List.getLast?_cons_of_ne_nil empty]
      exact fun ended => (path.proper [] (List.mem_of_getLast? ended)).1.1 rfl
    rw [kernelComponents, split, kept, if_neg last, List.append_nil]

end FileTree
