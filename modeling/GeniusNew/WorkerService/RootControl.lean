import GeniusNew.FileTree.Paths

/-! # Root control of an installed path

`_root_controlled` resolves a path by hand and looks at every node on the way. What it splices
into its work list is the target of a link as `pathlib` parses it. The kernel walks over the
same nodes, but where a target ends in a slash or in `.` it asks for a directory, which the
inspection does not.
-/

namespace GeniusNew

open Json FileTree

namespace WorkerService

structure Metadata where
  uid : Nat
  mode : Nat

/-- The text of a link, which is never empty. -/
structure LinkTarget where
  text : Str
  nonempty : text ≠ []

abbrev FileNode := Node Str Metadata LinkTarget

structure FileSystem where
  info : Metadata
  entries : List (Str × FileNode)

namespace FileSystem

def root (fs : FileSystem) : FileNode := .directory fs.info fs.entries

/-- The kernel's walk from a place, with the links it may still follow. -/
def walkFrom (fs : FileSystem) (follow : Bool) (budget : Nat) (place : List Str)
    (components : List (FileTree.Component Str)) : Trace Str Metadata LinkTarget :=
  walk fs.root (fun target => kernelRoute target.text) follow budget place components

/-- How the kernel resolves an absolute path, following at most forty links. -/
def resolve (fs : FileSystem) (follow : Bool) (text : Str) : Trace Str Metadata LinkTarget :=
  (fs.walkFrom follow 40 [] (kernelComponents text)).after [fs.root]

end FileSystem

/-- Whether a text has a file-system encoding: no null character, and no surrogate but those
that stand for a byte. -/
def encodable (text : Str) : Bool :=
  text.all fun c => c.val ≠ 0 && (isLowByte c || !(0xd800 ≤ c.val && c.val ≤ 0xdfff))
where
  isLowByte (c : CodePoint) : Bool := 0xdc80 ≤ c.val && c.val ≤ 0xdcff

inductive FileFault where
  | osError
  | valueError

/-- What `_root_controlled` raises. -/
inductive PathRefusal where
  | contract (message : String)
  | valueError
  deriving DecidableEq

def FileFault.refusal : FileFault → PathRefusal
  | .osError => .contract "worker installed path cannot be inspected"
  | .valueError => .valueError

def lstat (fs : FileSystem) (path : PurePath) : Except FileFault FileNode :=
  if encodable path.text then
    match (fs.resolve false path.text).ending with
    | .reached node => .ok node
    | _ => .error .osError
  else .error .valueError

def readlink (fs : FileSystem) (path : PurePath) : Except FileFault PurePath :=
  match lstat fs path with
  | .ok (.link _ target) => .ok (PurePath.parse target.text)
  | .ok _ => .error .osError
  | .error fault => .error fault

/-- The variables of the loop in `_root_controlled`. -/
structure Inspection where
  current : PurePath
  pending : List Str
  links : Nat

def candidate (current : PurePath) (part : Str) : PurePath :=
  if part = dotdot then current.parent else current.join part

/-- `expected`, of the node that was looked at. -/
def expected (regular : Bool) (pending : List Str) (node : FileNode) : Bool :=
  if pending ≠ [] ∨ regular = false then node.isDirectory else node.isRegular

/-- The loop goes on with the parts of a link's target. -/
def spliced (current target : PurePath) (pending : List Str) (links : Nat) : Inspection :=
  if target.absolute then ⟨PurePath.root, dot :: target.tail ++ pending, links⟩
  else ⟨current, (if target.tail = [] then [dot] else target.tail) ++ pending, links⟩

/-- One turn of the loop, where `part` was popped. -/
def inspectPart (fs : FileSystem) (regular : Bool) (current : PurePath) (part : Str)
    (pending : List Str) (links : Nat) : Except PathRefusal Inspection :=
  match lstat fs (candidate current part) with
  | .error fault => .error fault.refusal
  | .ok node =>
      if node.info.uid ≠ 0 ∨ (node.isLink = false ∧ node.info.mode &&& 0o022 ≠ 0) ∨
          ¬ (node.isLink = true ∨ expected regular pending node = true) then
        .error (.contract "worker installed path is not root controlled")
      else if node.isLink then
        if links + 1 > 40 then .error (.contract "worker installed path has too many symlinks")
        else
          match readlink fs (candidate current part) with
          | .error fault => .error fault.refusal
          | .ok target => .ok (spliced current target pending (links + 1))
      else .ok ⟨candidate current part, pending, links⟩

/-- The loop, for as many turns as there is fuel. -/
def inspect (fs : FileSystem) (regular : Bool) : Nat → Inspection → Option (Except PathRefusal Unit)
  | 0, _ => none
  | fuel + 1, loop =>
      match loop.pending with
      | [] => some (.ok ())
      | part :: pending =>
          match inspectPart fs regular loop.current part pending loop.links with
          | .error refusal => some (.error refusal)
          | .ok next => inspect fs regular fuel next

/-- `_root_controlled`. -/
def rootControlled (fs : FileSystem) (path : PurePath) (regular : Bool) (fuel : Nat) :
    Option (Except PathRefusal Unit) :=
  if path.absolute then inspect fs regular fuel ⟨PurePath.root, dot :: path.tail, 0⟩
  else some (.error (.contract "worker installed path is not absolute"))

/-- Owned by root, and but for a link not writable by group or others. -/
def Controlled (node : FileNode) : Prop :=
  node.info.uid = 0 ∧ (node.isLink = false → node.info.mode &&& 0o022 = 0)

variable {fs : FileSystem} {regular : Bool} {current : PurePath} {part : Str} {pending : List Str}
  {links : Nat} {loop next : Inspection}

theorem readlink_of_lstat {path : PurePath} {info : Metadata} {target : LinkTarget}
    (seen : lstat fs path = .ok (.link info target)) :
    readlink fs path = .ok (PurePath.parse target.text) := by
  rw [readlink, seen]

/-- What a turn that goes on has seen, and where it goes on. -/
theorem inspectPart_cases (went : inspectPart fs regular current part pending links = .ok next) :
    ∃ node, lstat fs (candidate current part) = .ok node ∧ Controlled node ∧
      ((∃ info target, node = .link info target ∧ links + 1 ≤ 40 ∧
          next = spliced current (PurePath.parse target.text) pending (links + 1)) ∨
        (node.isLink = false ∧ expected regular pending node = true ∧
          next = ⟨candidate current part, pending, links⟩)) := by
  unfold inspectPart at went
  cases seen : lstat fs (candidate current part) with
  | error fault =>
      rw [seen] at went
      cases went
  | ok node =>
      simp only [seen] at went
      split at went
      · cases went
      · next accepted =>
          simp only [not_or, not_and, not_not] at accepted
          obtain ⟨owned, guarded, kind⟩ := accepted
          refine ⟨node, rfl, ⟨owned, guarded⟩, ?_⟩
          cases linked : node.isLink with
          | true =>
              rw [if_pos linked] at went
              split at went
              · cases went
              · next few =>
                  cases node with
                  | link info target =>
                      rw [readlink_of_lstat seen] at went
                      cases went
                      exact .inl ⟨info, target, rfl, by omega, rfl⟩
                  | _ => cases linked
          | false =>
              rw [linked, if_neg Bool.false_ne_true] at went
              cases went
              refine .inr ⟨rfl, ?_, rfl⟩
              simpa [linked] using kind

/-! ## The loop ends -/

theorem inspect_more {fuel : Nat} {result : Except PathRefusal Unit}
    (ended : inspect fs regular fuel loop = some result) (extra : Nat) :
    inspect fs regular (fuel + extra) loop = some result := by
  induction fuel generalizing loop with
  | zero => cases ended
  | succ fuel ih =>
      rw [Nat.succ_add, Nat.succ_eq_add_one]
      unfold inspect at ended ⊢
      split at ended
      · exact ended
      · split at ended
        · exact ended
        · exact ih ended

/-- Each turn follows one more link, or leaves one part less. -/
theorem inspectPart_shrinks (went : inspectPart fs regular current part pending links = .ok next) :
    (links < next.links ∧ next.links ≤ 40) ∨ (next.links = links ∧ next.pending = pending) := by
  obtain ⟨node, -, -, ⟨info, target, -, few, rfl⟩ | ⟨-, -, rfl⟩⟩ := inspectPart_cases went
  · left
    have counted : (spliced current (PurePath.parse target.text) pending (links + 1)).links =
        links + 1 := by
      unfold spliced
      split_ifs <;> rfl
    omega
  · exact .inr ⟨rfl, rfl⟩

theorem inspect_ends (fs : FileSystem) (regular : Bool) (loop : Inspection) :
    ∃ fuel result, inspect fs regular fuel loop = some result := by
  cases left : loop.pending with
  | nil => exact ⟨1, .ok (), by rw [inspect, left]⟩
  | cons part pending =>
      cases went : inspectPart fs regular loop.current part pending loop.links with
      | error refusal => exact ⟨1, .error refusal, by simp only [inspect, left, went]⟩
      | ok next =>
          have shrinks := inspectPart_shrinks went
          obtain ⟨fuel, result, ended⟩ := inspect_ends fs regular next
          exact ⟨fuel + 1, result, by simpa only [inspect, left, went] using ended⟩
termination_by (40 - loop.links, loop.pending.length)
decreasing_by
  rcases shrinks with ⟨more, few⟩ | ⟨same, shorter⟩
  · exact Prod.Lex.left _ _ (by omega)
  · rw [same, shorter, left]
    exact Prod.Lex.right _ (by simp)

/-! ## The kernel walks over what was inspected -/

/-- A path that was seen is where the kernel finds the node, as its parent is a directory. -/
theorem find_of_lstat {path : PurePath} {node parent : FileNode} (absolute : path.absolute = true)
    (plain : dotdot ∉ path.tail) (found : fs.root.find path.tail.dropLast = some parent)
    (directory : parent.isDirectory = true) (seen : lstat fs path = .ok node) :
    fs.root.find path.tail = some node := by
  have reached : (fs.resolve false path.text).ending = .reached node := by
    unfold lstat at seen
    split at seen
    · split at seen
      · next other reached =>
          cases seen
          exact reached
      · cases seen
    · cases seen
  rw [FileSystem.resolve, Trace.after_ending, kernelComponents_text absolute] at reached
  split_ifs at reached with empty
  · rw [FileSystem.walkFrom, walk_here fs.root.find_nil rfl, walk_nil fs.root.find_nil] at reached
    cases reached
    rw [empty]
    rfl
  · have names : path.tail.map component = path.tail.map .child := by
      apply List.map_congr_left
      intro part member
      exact component_of_plain (path.proper part member).2 fun same => plain (same ▸ member)
    rw [names] at reached
    exact find_of_walk found directory reached

/-- Where the loop stands: a node that was found and looked at, of the kind that the rest of the
work list asks for. -/
structure Stands (fs : FileSystem) (regular : Bool) (loop : Inspection) (node : FileNode) :
    Prop where
  absolute : loop.current.absolute = true
  plain : dotdot ∉ loop.current.tail
  found : fs.root.find loop.current.tail = some node
  controlled : Controlled node
  kind : expected regular loop.pending node = true
  few : loop.links ≤ 40
  whole : ∀ part ∈ loop.pending, part ≠ [] ∧ slash ∉ part

theorem expected_of_waiting {node : FileNode} (waiting : pending ≠ []) :
    expected regular pending node = node.isDirectory := by
  rw [expected, if_pos (.inl waiting)]

theorem Stands.directory {node : FileNode} (stands : Stands fs regular loop node)
    (waiting : loop.pending = part :: pending) : node.isDirectory = true := by
  have kind := stands.kind
  rwa [waiting, expected_of_waiting (List.cons_ne_nil _ _)] at kind

theorem candidate_dot (current : PurePath) : candidate current dot = current := by
  rw [candidate, if_neg (by decide)]
  exact current.join_dot

theorem candidate_dotdot (current : PurePath) : candidate current dotdot = current.parent :=
  if_pos rfl

theorem candidate_child (current : PurePath) (whole : part ≠ [] ∧ slash ∉ part) (solid : part ≠ dot)
    (lower : part ≠ dotdot) :
    (candidate current part).absolute = current.absolute ∧
      (candidate current part).tail = current.tail ++ [part] := by
  rw [candidate, if_neg lower]
  exact current.join_part whole solid

/-- The path that a turn looks at is found where the kernel goes. -/
theorem Stands.candidate_found {node seen : FileNode} (stands : Stands fs regular loop node)
    (waiting : loop.pending = part :: pending)
    (looked : lstat fs (candidate loop.current part) = .ok seen) :
    (candidate loop.current part).absolute = true ∧ dotdot ∉ (candidate loop.current part).tail ∧
      fs.root.find (candidate loop.current part).tail = some seen := by
  have directory := stands.directory waiting
  obtain ⟨above, aboveFound, aboveDirectory⟩ := Node.exists_above stands.found directory
  by_cases up : part = dotdot
  · subst up
    rw [candidate_dotdot] at looked ⊢
    have plain : dotdot ∉ loop.current.parent.tail := fun member =>
      stands.plain (List.mem_of_mem_dropLast member)
    obtain ⟨higher, higherFound, higherDirectory⟩ := Node.exists_above aboveFound aboveDirectory
    exact ⟨stands.absolute, plain,
      find_of_lstat stands.absolute plain higherFound higherDirectory looked⟩
  · by_cases still : part = dot
    · subst still
      rw [candidate_dot] at looked ⊢
      exact ⟨stands.absolute, stands.plain,
        find_of_lstat stands.absolute stands.plain aboveFound aboveDirectory looked⟩
    · have whole := stands.whole part (waiting ▸ List.mem_cons_self)
      obtain ⟨absolute, tail⟩ := candidate_child loop.current whole still up
      have plain : dotdot ∉ (candidate loop.current part).tail := by
        rw [tail, List.mem_append, List.mem_singleton]
        rintro (member | same)
        · exact stands.plain member
        · exact up same.symm
      have found : fs.root.find (candidate loop.current part).tail.dropLast = some node := by
        rw [tail, List.dropLast_concat]
        exact stands.found
      exact ⟨absolute.trans stands.absolute, plain,
        find_of_lstat (absolute.trans stands.absolute) plain found directory looked⟩

/-- The components that the kernel has left move it as the work list moves the inspection. -/
def Matches (loop : Inspection) (components : List (FileTree.Component Str)) : Prop :=
  moves components = moves (loop.pending.map component)

theorem matches_cons {components : List (FileTree.Component Str)} (same : Matches loop components)
    (waiting : loop.pending = part :: pending) (moving : part ≠ dot) :
    ∃ before left, components = before ++ component part :: left ∧
      (∀ other ∈ before, other = .here) ∧ moves left = moves (pending.map component) := by
  have moved : component part ≠ .here := fun still => moving ((component_eq_here_iff part).mp still)
  rw [Matches, waiting, List.map_cons, moves_cons moved] at same
  exact exists_of_moves_eq_cons same

/-- A link whose target ends in a slash or in `.`. -/
def asksDirectory : FileNode → Bool
  | .link _ target => (kernelComponents target.text).getLast? = some .here
  | _ => false

/-- What is left of the walk when the loop stands somewhere. -/
def kernelWalk (fs : FileSystem) (loop : Inspection) (components : List (FileTree.Component Str)) :
    Trace Str Metadata LinkTarget :=
  fs.walkFrom true (40 - loop.links) loop.current.tail components

/-- A turn of the loop is matched by a walk over nodes that were looked at. -/
def Advances (fs : FileSystem) (regular : Bool) (loop next : Inspection)
    (components : List (FileTree.Component Str)) : Prop :=
  ∃ node nodes left, Stands fs regular next node ∧ Matches next left ∧
    (∀ met ∈ nodes, Controlled met) ∧
    kernelWalk fs loop components = (kernelWalk fs next left).after nodes ∧
    (left.getLast? = some .here →
      components.getLast? = some .here ∨ ∃ link ∈ nodes, asksDirectory link = true)

theorem getLast_of_suffix {before left : List (FileTree.Component Str)}
    {component : FileTree.Component Str} (last : left.getLast? = some .here) :
    (before ++ component :: left).getLast? = some .here := by
  rw [List.getLast?_append, List.getLast?_cons, last]
  rfl

/-- A turn on a node that is no link. -/
theorem Stands.advances_step {node seen : FileNode} {components : List (FileTree.Component Str)}
    (stands : Stands fs regular loop node) (waiting : loop.pending = part :: pending)
    (same : Matches loop components)
    (looked : lstat fs (candidate loop.current part) = .ok seen) (controlled : Controlled seen)
    (solid : seen.isLink = false) (kind : expected regular pending seen = true) :
    Advances fs regular loop ⟨candidate loop.current part, pending, loop.links⟩ components := by
  obtain ⟨absolute, plain, found⟩ := stands.candidate_found waiting looked
  have directory := stands.directory waiting
  have standing : Stands fs regular ⟨candidate loop.current part, pending, loop.links⟩ seen :=
    { absolute := absolute
      plain := plain
      found := found
      controlled := controlled
      kind := kind
      few := stands.few
      whole := fun other member => stands.whole other (waiting ▸ List.mem_cons_of_mem _ member) }
  by_cases still : part = dot
  · subst still
    refine ⟨seen, [], components, standing, ?_, by simp, ?_, .inl⟩
    · rw [Matches, same, waiting]
      rfl
    · rw [candidate_dot]
      rfl
  · obtain ⟨before, left, rfl, passed, rest⟩ := matches_cons same waiting still
    refine ⟨seen, [seen], left, standing, rest, by simpa using controlled, ?_,
      fun last => .inl (getLast_of_suffix last)⟩
    rw [kernelWalk, FileSystem.walkFrom, walk_passes stands.found directory passed]
    by_cases up : part = dotdot
    · subst up
      rw [candidate_dotdot] at found ⊢
      exact walk_above stands.found directory found
    · have whole := stands.whole part (waiting ▸ List.mem_cons_self)
      obtain ⟨-, tail⟩ := candidate_child loop.current whole still up
      rw [tail] at found
      obtain ⟨parent, parentFound, -, entered⟩ := Node.exists_parent found
      rw [stands.found] at parentFound
      cases parentFound
      rw [component_of_plain still up, walk_child stands.found entered solid, kernelWalk, tail]
      rfl

/-- The work list after a link, and what the kernel has in front of it. -/
theorem spliced_matches (current : PurePath) (target : LinkTarget) (links : Nat)
    {left : List (FileTree.Component Str)} (rest : moves left = moves (pending.map component)) :
    Matches (spliced current (PurePath.parse target.text) pending links)
      ((kernelRoute target.text).components ++ left) := by
  have spread : moves ((PurePath.parse target.text).tail.map component) =
      (PurePath.parse target.text).tail.map component := by
    rw [← moves_kernelComponents, moves_moves]
  rw [Matches, moves_append, kernelRoute, rest, moves_kernelComponents, ← spread]
  unfold spliced
  split_ifs with absolute empty
  · rw [List.cons_append, List.map_cons, List.map_append, show component dot = .here from rfl,
      moves_here, moves_append]
  · rw [List.map_append, moves_append, empty]
    rfl
  · rw [List.map_append, moves_append]

theorem spliced_links (current target : PurePath) (pending : List Str) (links : Nat) :
    (spliced current target pending links).links = links := by
  unfold spliced
  split_ifs <;> rfl

theorem spliced_tail (current target : PurePath) (pending : List Str) (links : Nat) :
    (spliced current target pending links).current.tail =
      if target.absolute then [] else current.tail := by
  unfold spliced
  split_ifs <;> rfl

theorem spliced_waiting (current target : PurePath) (pending : List Str) (links : Nat) :
    (spliced current target pending links).pending ≠ [] := by
  unfold spliced
  split_ifs with absolute empty
  · exact List.cons_ne_nil _ _
  · exact List.cons_ne_nil _ _
  · exact List.append_ne_nil_of_left_ne_nil empty _

theorem spliced_whole {target : PurePath} {other : Str}
    (whole : ∀ part ∈ pending, part ≠ [] ∧ slash ∉ part)
    (member : other ∈ (spliced current target pending links).pending) :
    other ≠ [] ∧ slash ∉ other := by
  have cases : other = dot ∨ other ∈ target.tail ∨ other ∈ pending := by
    unfold spliced at member
    split_ifs at member <;> simp_all
  rcases cases with rfl | member | member
  · decide
  · exact (target.proper other member).1
  · exact whole other member

/-- After a link the loop stands at the root or where it stood, before a work list that is not
empty. -/
theorem Stands.exists_spliced {node : FileNode} (target : PurePath) (rooted : Controlled fs.root)
    (stands : Stands fs regular loop node) (waiting : loop.pending = part :: pending)
    (few : loop.links + 1 ≤ 40) :
    ∃ after, Stands fs regular (spliced loop.current target pending (loop.links + 1)) after := by
  have whole : ∀ other ∈ pending, other ≠ [] ∧ slash ∉ other := fun other member =>
    stands.whole other (waiting ▸ List.mem_cons_of_mem _ member)
  have kind (after : FileNode) : expected regular
      (spliced loop.current target pending (loop.links + 1)).pending after = after.isDirectory :=
    expected_of_waiting (spliced_waiting _ _ _ _)
  have bounded : (spliced loop.current target pending (loop.links + 1)).links ≤ 40 := by
    rwa [spliced_links]
  cases absolute : target.absolute with
  | true =>
      have place :
          (spliced loop.current target pending (loop.links + 1)).current = PurePath.root := by
        rw [spliced, if_pos absolute]
      refine ⟨fs.root, ?_, ?_, ?_, rooted, kind _, bounded,
        fun _ => spliced_whole whole⟩ <;> rw [place]
      · rfl
      · exact List.not_mem_nil
      · rfl
  | false =>
      have place :
          (spliced loop.current target pending (loop.links + 1)).current = loop.current := by
        rw [spliced, absolute, if_neg Bool.false_ne_true]
      have directory := stands.directory waiting
      refine ⟨node, ?_, ?_, ?_, stands.controlled, (kind _).trans directory, bounded,
        fun _ => spliced_whole whole⟩ <;> rw [place]
      · exact stands.absolute
      · exact stands.plain
      · exact stands.found

/-- A turn on a link. -/
theorem Stands.advances_link {node : FileNode} {info : Metadata} {target : LinkTarget}
    {components : List (FileTree.Component Str)} (rooted : Controlled fs.root)
    (stands : Stands fs regular loop node) (waiting : loop.pending = part :: pending)
    (same : Matches loop components)
    (looked : lstat fs (candidate loop.current part) = .ok (.link info target))
    (controlled : Controlled (.link info target)) (few : loop.links + 1 ≤ 40) :
    Advances fs regular loop
      (spliced loop.current (PurePath.parse target.text) pending (loop.links + 1)) components := by
  obtain ⟨-, -, found⟩ := stands.candidate_found waiting looked
  have directory := stands.directory waiting
  -- Neither `.` nor `..` is a link, since both are directories the loop came through.
  have still : part ≠ dot := by
    rintro rfl
    rw [candidate_dot, stands.found] at found
    cases found
    cases directory
  have up : part ≠ dotdot := by
    rintro rfl
    obtain ⟨above, aboveFound, aboveDirectory⟩ := Node.exists_above stands.found directory
    rw [candidate_dotdot, PurePath.parent_tail, aboveFound] at found
    cases found
    cases aboveDirectory
  obtain ⟨-, tail⟩ :=
    candidate_child loop.current (stands.whole part (waiting ▸ List.mem_cons_self)) still up
  rw [tail] at found
  obtain ⟨parent, parentFound, -, entered⟩ := Node.exists_parent found
  rw [stands.found] at parentFound
  cases parentFound
  obtain ⟨before, left, rfl, passed, rest⟩ := matches_cons same waiting still
  obtain ⟨after, standing⟩ := stands.exists_spliced (PurePath.parse target.text) rooted waiting few
  refine ⟨after, .link info target :: if (kernelRoute target.text).absolute then [fs.root] else [],
    (kernelRoute target.text).components ++ left, standing, spliced_matches _ target _ rest,
    ?_, ?_, ?_⟩
  · rw [List.forall_mem_cons]
    refine ⟨controlled, ?_⟩
    split_ifs
    · exact List.forall_mem_singleton.mpr rooted
    · exact List.forall_mem_nil _
  · have budget : 40 - loop.links = (40 - (loop.links + 1)) + 1 := by omega
    rw [kernelWalk, FileSystem.walkFrom, walk_passes stands.found directory passed,
      component_of_plain still up, budget, walk_link stands.found entered, kernelWalk,
      spliced_links, spliced_tail]
    rfl
  · intro last
    rw [List.getLast?_append, Option.or_eq_some_iff] at last
    rcases last with last | ⟨-, last⟩
    · exact .inl (getLast_of_suffix last)
    · exact .inr ⟨_, List.mem_cons_self, decide_eq_true last⟩

theorem Stands.advances {node : FileNode} {components : List (FileTree.Component Str)}
    (rooted : Controlled fs.root) (stands : Stands fs regular loop node)
    (waiting : loop.pending = part :: pending) (same : Matches loop components)
    (went : inspectPart fs regular loop.current part pending loop.links = .ok next) :
    Advances fs regular loop next components := by
  obtain ⟨seen, looked, controlled, ⟨info, target, rfl, few, rfl⟩ | ⟨solid, kind, rfl⟩⟩ :=
    inspectPart_cases went
  · exact stands.advances_link rooted waiting same looked controlled few
  · exact stands.advances_step waiting same looked controlled solid kind

/-! ## What an inspection that returns has seen -/

/-- Every node that was met is controlled, and the walk ends at a node of the kind asked for,
though where a directory was asked for by the way a path was written it may stop there. -/
structure Secured (regular : Bool) (asked : Prop) (trace : Trace Str Metadata LinkTarget) :
    Prop where
  controlled : ∀ node ∈ trace.met, Controlled node
  ended : ∃ node, Controlled node ∧ expected regular [] node = true ∧
    (trace.ending = .reached node ∨
      regular = true ∧ trace.ending = .notDirectory node ∧
        (asked ∨ ∃ link ∈ trace.met, asksDirectory link = true))

theorem Secured.after {asked before : Prop} {trace : Trace Str Metadata LinkTarget}
    {nodes : List FileNode} (secured : Secured regular asked trace)
    (controlled : ∀ node ∈ nodes, Controlled node)
    (carried : asked → before ∨ ∃ link ∈ nodes, asksDirectory link = true) :
    Secured regular before (trace.after nodes) where
  controlled := fun node member =>
    (List.mem_append.mp member).elim (controlled node) (secured.controlled node)
  ended := by
    obtain ⟨node, owned, kind, reached | ⟨file, stopped, asks⟩⟩ := secured.ended
    · exact ⟨node, owned, kind, .inl reached⟩
    · refine ⟨node, owned, kind, .inr ⟨file, stopped, ?_⟩⟩
      rcases asks with asks | ⟨link, member, asks⟩
      · rcases carried asks with asks | ⟨link, member, asks⟩
        · exact .inl asks
        · exact .inr ⟨link, List.mem_append_left _ member, asks⟩
      · exact .inr ⟨link, List.mem_append_right _ member, asks⟩

/-- The work list is empty, and at most `.` is left for the kernel. -/
theorem Stands.secured {node : FileNode} {components : List (FileTree.Component Str)}
    (stands : Stands fs regular loop node) (done : loop.pending = [])
    (same : Matches loop components) :
    Secured regular (components.getLast? = some .here) (kernelWalk fs loop components) := by
  have still : moves components = [] := by
    rw [same, done]
    rfl
  have kind := stands.kind
  rw [done] at kind
  cases directory : node.isDirectory with
  | true =>
      rw [kernelWalk, FileSystem.walkFrom, walk_stays stands.found directory still]
      exact ⟨by simp, node, stands.controlled, kind, .inl rfl⟩
  | false =>
      cases components with
      | nil =>
          rw [kernelWalk, FileSystem.walkFrom, walk_nil stands.found]
          exact ⟨by simp, node, stands.controlled, kind, .inl rfl⟩
      | cons first rest =>
          rw [kernelWalk, FileSystem.walkFrom, walk_blocked stands.found directory]
          have file : regular = true := by
            cases regular with
            | true => rfl
            | false => exact absurd (directory.symm.trans kind) Bool.false_ne_true
          have last := getLast_of_still still (List.cons_ne_nil first rest)
          exact ⟨by simp, node, stands.controlled, kind, .inr ⟨file, rfl, .inl last⟩⟩

theorem secured_of_inspect (rooted : Controlled fs.root) {fuel : Nat} {node : FileNode}
    {components : List (FileTree.Component Str)} (stands : Stands fs regular loop node)
    (same : Matches loop components) (ended : inspect fs regular fuel loop = some (.ok ())) :
    Secured regular (components.getLast? = some .here) (kernelWalk fs loop components) := by
  induction fuel generalizing loop node components with
  | zero => cases ended
  | succ fuel ih =>
      cases waiting : loop.pending with
      | nil => exact stands.secured waiting same
      | cons part pending =>
          cases went : inspectPart fs regular loop.current part pending loop.links with
          | error refusal =>
              simp only [inspect, waiting, went] at ended
              cases ended
          | ok next =>
              simp only [inspect, waiting, went] at ended
              obtain ⟨after, nodes, left, standing, matched, controlled, walked, carried⟩ :=
                stands.advances rooted waiting same went
              rw [walked]
              exact (ih standing matched ended).after controlled carried

/-- The first turn looks at the root. -/
theorem controlled_root {path : PurePath} {fuel : Nat}
    (ended : inspect fs regular fuel ⟨PurePath.root, dot :: path.tail, 0⟩ = some (.ok ())) :
    Controlled fs.root := by
  cases fuel with
  | zero => cases ended
  | succ fuel =>
      cases went : inspectPart fs regular PurePath.root dot path.tail 0 with
      | error refusal =>
          simp only [inspect, went] at ended
          cases ended
      | ok next =>
          obtain ⟨seen, looked, controlled, -⟩ := inspectPart_cases went
          rw [candidate_dot] at looked
          have found : fs.root.find PurePath.root.tail = some seen :=
            find_of_lstat rfl List.not_mem_nil fs.root.find_nil rfl looked
          cases found
          exact controlled

theorem secured_of_rootControlled {path : PurePath} {fuel : Nat}
    (returned : rootControlled fs path regular fuel = some (.ok ())) :
    path.absolute = true ∧ Secured regular False (fs.resolve true path.text) := by
  unfold rootControlled at returned
  split at returned
  · next absolute =>
      have rooted := controlled_root returned
      have stands : Stands fs regular ⟨PurePath.root, dot :: path.tail, 0⟩ fs.root :=
        { absolute := rfl
          plain := List.not_mem_nil
          found := rfl
          controlled := rooted
          kind := expected_of_waiting (List.cons_ne_nil _ _)
          few := Nat.zero_le _
          whole := by
            intro part member
            rcases List.mem_cons.mp member with rfl | member
            · decide
            · exact (path.proper part member).1 }
      have same : Matches ⟨PurePath.root, dot :: path.tail, 0⟩ (path.tail.map component) := rfl
      have secured := secured_of_inspect rooted stands same returned
      have walked : fs.resolve true path.text =
          (kernelWalk fs ⟨PurePath.root, dot :: path.tail, 0⟩ (path.tail.map component)).after
            [fs.root] := by
        rw [FileSystem.resolve, kernelComponents_text absolute]
        split_ifs with empty
        · rw [empty, FileSystem.walkFrom, walk_here fs.root.find_nil rfl]
          rfl
        · rfl
      rw [walked]
      refine ⟨absolute, secured.after (List.forall_mem_singleton.mpr rooted) ?_⟩
      intro last
      rw [List.getLast?_map, Option.map_eq_some_iff] at last
      obtain ⟨part, last, still⟩ := last
      have solid := (path.proper part (List.mem_of_getLast? last)).2
      exact absurd ((component_eq_here_iff part).mp still) solid
  · cases returned

/-- The inspection ends on every path. Where it returns, the kernel meets controlled nodes only,
and reaches a file or directory as asked for, or is at that file when the target of a link that
it met asks for a directory. -/
theorem root_controlled (fs : FileSystem) (path : PurePath) (regular : Bool) :
    ∃ result,
      (∃ fuel, ∀ more, fuel ≤ more → rootControlled fs path regular more = some result) ∧
      (result = .ok () → path.absolute = true ∧
        (∀ node ∈ (fs.resolve true path.text).met, Controlled node) ∧
        ∃ node, Controlled node ∧ (if regular then node.isRegular else node.isDirectory) = true ∧
          ((fs.resolve true path.text).ending = .reached node ∨
            regular = true ∧ (fs.resolve true path.text).ending = .notDirectory node ∧
              ∃ link ∈ (fs.resolve true path.text).met, asksDirectory link = true)) := by
  have ends : ∃ fuel result, ∀ more, fuel ≤ more →
      rootControlled fs path regular more = some result := by
    cases absolute : path.absolute with
    | true =>
        obtain ⟨fuel, result, ended⟩ :=
          inspect_ends fs regular ⟨PurePath.root, dot :: path.tail, 0⟩
        refine ⟨fuel, result, fun more enough => ?_⟩
        obtain ⟨extra, rfl⟩ := Nat.exists_eq_add_of_le enough
        rw [rootControlled, if_pos absolute]
        exact inspect_more ended extra
    | false =>
        refine ⟨0, .error (.contract "worker installed path is not absolute"), fun more _ => ?_⟩
        rw [rootControlled, absolute, if_neg Bool.false_ne_true]
  obtain ⟨fuel, result, stable⟩ := ends
  refine ⟨result, ⟨fuel, stable⟩, ?_⟩
  rintro rfl
  obtain ⟨absolute, controlled, node, owned, kind, ended⟩ :=
    secured_of_rootControlled (stable fuel (Nat.le_refl fuel))
  refine ⟨absolute, controlled, node, owned, ?_, ?_⟩
  · cases regular <;> exact kind
  · simpa only [false_or] using ended

/-- A link whose target goes through a directory `user` and a link in it. -/
def relayed (user : Metadata) : FileSystem where
  info := ⟨0, 0o755⟩
  entries :=
    [(str "safe", .directory ⟨0, 0o755⟩
        [(str "link", .link ⟨0, 0o777⟩ ⟨str "../user/relay", by decide⟩)]),
      (str "user", .directory user [(str "relay", .link ⟨0, 0o777⟩ ⟨str "../fixed", by decide⟩)]),
      (str "fixed", .directory ⟨0, 0o755⟩ [(str "python", .regular ⟨0, 0o755⟩)])]

example :
    rootControlled (relayed ⟨0, 0o755⟩) (PurePath.parse (str "/safe/link/python")) true 11 =
      some (.ok ()) := by decide +kernel

example :
    rootControlled (relayed ⟨1000, 0o755⟩) (PurePath.parse (str "/safe/link/python")) true 11 =
      some (.error (.contract "worker installed path is not root controlled")) := by
  decide +kernel

/-- A file and a link to it whose target ends in a slash. -/
def slashedLink : FileSystem where
  info := ⟨0, 0o755⟩
  entries :=
    [(str "f", .regular ⟨0, 0o644⟩), (str "l", .link ⟨0, 0o777⟩ ⟨str "f/", by decide⟩)]

/-- The inspection returns, and the kernel answers that `f` is no directory. -/
theorem slashed_link_accepted :
    rootControlled slashedLink (PurePath.parse (str "/l")) true 4 = some (.ok ()) ∧
      ∀ node,
        (slashedLink.resolve true (PurePath.parse (str "/l")).text).ending ≠ .reached node := by
  constructor
  · rfl
  · intro node reached
    have stopped : (slashedLink.resolve true (PurePath.parse (str "/l")).text).ending =
        .notDirectory (.regular ⟨0, 0o644⟩) := rfl
    rw [stopped] at reached
    cases reached

end WorkerService

end GeniusNew
