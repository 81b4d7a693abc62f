import Mathlib.Data.List.Induction

/-! # Resolving a path in a tree of files

Directories hold their entries by name, and a link stands for a path of its own, from the root
or from the directory it is in. A walk takes the components of a path one at a time, puts what
a link stands for in front of what is left, and keeps every node it meets. It gives up after a
bounded number of links.
-/

namespace FileTree

inductive Component (ν : Type) where
  | here
  | above
  | child (name : ν)
  deriving DecidableEq

/-- What a link stands for. -/
structure Route (ν : Type) where
  absolute : Bool
  components : List (Component ν)

inductive Node (ν μ τ : Type) where
  | directory (info : μ) (entries : List (ν × Node ν μ τ))
  | regular (info : μ)
  | link (info : μ) (target : τ)
  | other (info : μ)

/-- Where a walk stops. A component that is asked of anything but a directory stops it there. -/
inductive Ending (ν μ τ : Type) where
  | reached (node : Node ν μ τ)
  | notFound
  | notDirectory (node : Node ν μ τ)
  | tooManyLinks

structure Trace (ν μ τ : Type) where
  met : List (Node ν μ τ)
  ending : Ending ν μ τ

variable {ν μ τ : Type}

def Trace.after (nodes : List (Node ν μ τ)) (trace : Trace ν μ τ) : Trace ν μ τ where
  met := nodes ++ trace.met
  ending := trace.ending

@[simp] theorem Trace.after_met (nodes : List (Node ν μ τ)) (trace : Trace ν μ τ) :
    (trace.after nodes).met = nodes ++ trace.met := rfl

@[simp] theorem Trace.after_ending (nodes : List (Node ν μ τ)) (trace : Trace ν μ τ) :
    (trace.after nodes).ending = trace.ending := rfl

namespace Node

def info : Node ν μ τ → μ
  | .directory info _ => info
  | .regular info => info
  | .link info _ => info
  | .other info => info

def isDirectory : Node ν μ τ → Bool
  | .directory _ _ => true
  | _ => false

def isRegular : Node ν μ τ → Bool
  | .regular _ => true
  | _ => false

def isLink : Node ν μ τ → Bool
  | .link _ _ => true
  | _ => false

variable [DecidableEq ν]

def entry (name : ν) : Node ν μ τ → Option (Node ν μ τ)
  | .directory _ entries => entries.lookup name
  | _ => none

/-- The node at the end of a list of names, each an entry of the directory before it. -/
def find (node : Node ν μ τ) : List ν → Option (Node ν μ τ)
  | [] => some node
  | name :: names => (node.entry name).bind fun child => child.find names

theorem find_nil (node : Node ν μ τ) : node.find [] = some node := rfl

theorem isDirectory_of_entry {node child : Node ν μ τ} {name : ν}
    (entered : node.entry name = some child) : node.isDirectory = true := by
  cases node <;> simp_all [entry, isDirectory]

theorem find_append (node : Node ν μ τ) (names more : List ν) :
    node.find (names ++ more) = (node.find names).bind fun found => found.find more := by
  induction names generalizing node with
  | nil => rfl
  | cons name names ih =>
      rw [List.cons_append, find, find, Option.bind_assoc]
      congr 1
      funext child
      exact ih child

theorem find_concat {root node child : Node ν μ τ} {names : List ν} {name : ν}
    (found : root.find names = some node) (entered : node.entry name = some child) :
    root.find (names ++ [name]) = some child := by
  rw [find_append, found, Option.bind_some, find, entered]
  rfl

/-- What a node is found through is a directory. -/
theorem exists_parent {root node : Node ν μ τ} {names : List ν} {name : ν}
    (found : root.find (names ++ [name]) = some node) :
    ∃ parent, root.find names = some parent ∧ parent.isDirectory = true ∧
      parent.entry name = some node := by
  rw [find_append] at found
  obtain ⟨parent, reached, entered⟩ := Option.bind_eq_some_iff.mp found
  rw [find] at entered
  obtain ⟨child, entered, same⟩ := Option.bind_eq_some_iff.mp entered
  cases same
  exact ⟨parent, reached, isDirectory_of_entry entered, entered⟩

/-- The directory above one that was found, where the one above the root is the root. -/
theorem exists_above {root node : Node ν μ τ} {names : List ν} (found : root.find names = some node)
    (directory : node.isDirectory = true) :
    ∃ parent, root.find names.dropLast = some parent ∧ parent.isDirectory = true := by
  induction names using List.reverseRecOn with
  | nil => exact ⟨node, found, directory⟩
  | append_singleton names name =>
      obtain ⟨parent, reached, inner, -⟩ := exists_parent found
      exact ⟨parent, by rwa [List.dropLast_concat], inner⟩

end Node

section Walk

variable [DecidableEq ν] (root : Node ν μ τ) (read : τ → Route ν) (follow : Bool)

/-- The walk from a directory, as far as the first link it follows. `next` goes on from there. -/
def leg (next : List ν → List (Component ν) → Trace ν μ τ) (place : List ν) :
    List (Component ν) → Trace ν μ τ
  | [] => ⟨[], (root.find place).elim .notFound .reached⟩
  | component :: rest =>
      match root.find place with
      | none => ⟨[], .notFound⟩
      | some node =>
          if node.isDirectory then
            match component with
            | .here => leg next place rest
            | .above => (leg next place.dropLast rest).after (root.find place.dropLast).toList
            | .child name =>
                match node.entry name with
                | none => ⟨[], .notFound⟩
                | some (.link info target) =>
                    if rest.isEmpty && !follow then
                      ⟨[.link info target], .reached (.link info target)⟩
                    else
                      let route := read target
                      (next (if route.absolute then [] else place) (route.components ++ rest)).after
                        (.link info target :: if route.absolute then [root] else [])
                | some child => (leg next (place ++ [name]) rest).after [child]
          else ⟨[], .notDirectory node⟩

/-- The walk that follows at most as many links as its budget. -/
def walk : Nat → List ν → List (Component ν) → Trace ν μ τ
  | 0 => leg root read follow fun _ _ => ⟨[], .tooManyLinks⟩
  | budget + 1 => leg root read follow (walk budget)

variable {root read follow}
variable {budget : Nat} {place : List ν} {node : Node ν μ τ} {rest : List (Component ν)}

theorem walk_nil (found : root.find place = some node) :
    walk root read follow budget place [] = ⟨[], .reached node⟩ := by
  cases budget <;> simp [walk, leg, found]

theorem walk_here (found : root.find place = some node) (directory : node.isDirectory = true) :
    walk root read follow budget place (.here :: rest) =
      walk root read follow budget place rest := by
  cases budget <;> simp [walk, leg, found, directory]

theorem walk_above {parent : Node ν μ τ} (found : root.find place = some node)
    (directory : node.isDirectory = true) (above : root.find place.dropLast = some parent) :
    walk root read follow budget place (.above :: rest) =
      (walk root read follow budget place.dropLast rest).after [parent] := by
  cases budget <;> simp [walk, leg, found, directory, above]

theorem walk_missing {name : ν} (found : root.find place = some node)
    (directory : node.isDirectory = true) (missing : node.entry name = none) :
    walk root read follow budget place (.child name :: rest) = ⟨[], .notFound⟩ := by
  cases budget <;> simp [walk, leg, found, directory, missing]

theorem walk_child {name : ν} {child : Node ν μ τ} (found : root.find place = some node)
    (entered : node.entry name = some child) (solid : child.isLink = false) :
    walk root read follow budget place (.child name :: rest) =
      (walk root read follow budget (place ++ [name]) rest).after [child] := by
  have directory := Node.isDirectory_of_entry entered
  cases child <;> cases budget <;>
    simp_all [walk, leg, Node.isLink]

theorem walk_last {name : ν} {info : μ} {target : τ} (found : root.find place = some node)
    (entered : node.entry name = some (.link info target)) :
    walk root read false budget place [.child name] =
      ⟨[.link info target], .reached (.link info target)⟩ := by
  have directory := Node.isDirectory_of_entry entered
  cases budget <;> simp [walk, leg, found, directory, entered]

theorem walk_link {name : ν} {info : μ} {target : τ} (found : root.find place = some node)
    (entered : node.entry name = some (.link info target)) :
    walk root read true (budget + 1) place (.child name :: rest) =
      (walk root read true budget (if (read target).absolute then [] else place)
        ((read target).components ++ rest)).after
          (.link info target :: if (read target).absolute then [root] else []) := by
  have directory := Node.isDirectory_of_entry entered
  simp [walk, leg, found, directory, entered]

theorem walk_blocked {component : Component ν} (found : root.find place = some node)
    (solid : node.isDirectory = false) :
    walk root read follow budget place (component :: rest) = ⟨[], .notDirectory node⟩ := by
  cases budget <;> simp [walk, leg, found, solid]

/-- The components that move a walk. -/
def moves (components : List (Component ν)) : List (Component ν) :=
  components.filter (· ≠ .here)

theorem moves_cons {component : Component ν} (moving : component ≠ .here)
    (rest : List (Component ν)) : moves (component :: rest) = component :: moves rest :=
  List.filter_cons_of_pos (decide_eq_true moving)

theorem moves_here (rest : List (Component ν)) : moves (.here :: rest) = moves rest := rfl

theorem moves_append (components more : List (Component ν)) :
    moves (components ++ more) = moves components ++ moves more :=
  List.filter_append ..

@[simp] theorem moves_moves (components : List (Component ν)) :
    moves (moves components) = moves components := by
  rw [moves, moves, List.filter_filter]
  simp only [Bool.and_self]

theorem eq_here_of_still {components : List (Component ν)} (still : moves components = [])
    {component : Component ν} (member : component ∈ components) : component = .here := by
  simpa using List.filter_eq_nil_iff.mp still component member

theorem getLast_of_still {components : List (Component ν)} (still : moves components = [])
    (nonempty : components ≠ []) : components.getLast? = some .here := by
  rw [List.getLast?_eq_some_getLast nonempty, eq_here_of_still still (List.getLast_mem nonempty)]

theorem exists_of_moves_eq_cons {components moved : List (Component ν)} {component : Component ν}
    (moving : moves components = component :: moved) :
    ∃ before left, components = before ++ component :: left ∧
      (∀ other ∈ before, other = .here) ∧ moves left = moved := by
  obtain ⟨before, left, split, still, -, rest⟩ := List.filter_eq_cons_iff.mp moving
  exact ⟨before, left, split, fun other member => by simpa using still other member, rest⟩

/-- A walk from a directory passes over what does not move it. -/
theorem walk_passes {before : List (Component ν)} (found : root.find place = some node)
    (directory : node.isDirectory = true) (still : ∀ component ∈ before, component = .here) :
    walk root read follow budget place (before ++ rest) =
      walk root read follow budget place rest := by
  induction before with
  | nil => rfl
  | cons component before ih =>
      rw [List.cons_append, still component List.mem_cons_self, walk_here found directory]
      exact ih fun other member => still other (List.mem_cons_of_mem _ member)

theorem walk_stays {components : List (Component ν)} (found : root.find place = some node)
    (directory : node.isDirectory = true) (still : moves components = []) :
    walk root read follow budget place components = ⟨[], .reached node⟩ := by
  have passed : walk root read follow budget place (components ++ []) =
      walk root read follow budget place [] :=
    walk_passes found directory fun component member => eq_here_of_still still member
  rwa [List.append_nil, walk_nil found] at passed

/-- Names that are found lead the walk to where they are found. -/
theorem walk_descends {names : List ν} {base : Node ν μ τ} (found : root.find place = some base)
    (below : base.find names = some node) (directory : node.isDirectory = true) :
    (walk root read follow budget place (names.map .child ++ rest)).ending =
      (walk root read follow budget (place ++ names) rest).ending := by
  induction names generalizing place base with
  | nil => rw [List.map_nil, List.nil_append, List.append_nil]
  | cons name names ih =>
      rw [Node.find] at below
      obtain ⟨child, entered, below⟩ := Option.bind_eq_some_iff.mp below
      have solid : child.isLink = false := by
        cases child with
        | link info target =>
            cases names with
            | nil =>
                cases below
                cases directory
            | cons => cases below
        | _ => rfl
      rw [List.map_cons, List.cons_append, walk_child found entered solid, Trace.after_ending,
        ih (Node.find_concat found entered) below, List.append_assoc, List.singleton_append]

/-- A walk along names that does not follow its last component reaches what is found there. -/
theorem find_of_walk {names : List ν} {last : Node ν μ τ}
    (found : root.find names.dropLast = some node) (directory : node.isDirectory = true)
    (reached : (walk root read false budget [] (names.map .child)).ending = .reached last) :
    root.find names = some last := by
  induction names using List.reverseRecOn with
  | nil =>
      rw [List.map_nil, walk_nil root.find_nil] at reached
      cases reached
      rfl
  | append_singleton names name =>
      rw [List.dropLast_concat] at found
      rw [List.map_append, walk_descends root.find_nil found directory,
        List.nil_append] at reached
      cases entered : node.entry name with
      | none =>
          rw [List.map_singleton, walk_missing found directory entered] at reached
          cases reached
      | some child =>
          rw [Node.find_concat found entered]
          cases linked : child.isLink with
          | false =>
              rw [List.map_singleton, walk_child found entered linked, Trace.after_ending,
                walk_nil (Node.find_concat found entered)] at reached
              cases reached
              rfl
          | true =>
              cases child with
              | link info target =>
                  rw [List.map_singleton, walk_last found entered] at reached
                  cases reached
                  rfl
              | _ => cases linked

end Walk

end FileTree
