import Mathlib.Data.Set.Function
import Mathlib.Data.List.Infix

/-! # Hash chains

A chain hashes each entry together with its position and the hash before it.
`tip` is the hash a chain ends with; an entry list is determined by its tip and
its length as far as the hash has no collision among the values it was applied
to (`eq_of_tip_eq`), and a list whose tip at a position is the tip of a chain of
that length contains that chain (`isPrefix_of_tip_eq`).
-/

namespace HashChain

variable {Entry Hash : Type*} (hash : Nat × Entry × Hash → Hash)

/-- The hash after `entries`, the first of which stands at `position` on `base`. -/
def tip (position : Nat) (base : Hash) : List Entry → Hash
  | [] => base
  | entry :: entries => tip (position + 1) (hash (position, entry, base)) entries

/-- What is hashed on the way to the tip. -/
def inputs (position : Nat) (base : Hash) : List Entry → List (Nat × Entry × Hash)
  | [] => []
  | entry :: entries =>
      (position, entry, base) :: inputs (position + 1) (hash (position, entry, base)) entries

@[simp] theorem tip_nil (position : Nat) (base : Hash) : tip hash position base [] = base := rfl

@[simp] theorem tip_cons (position : Nat) (base : Hash) (entry : Entry) (entries : List Entry) :
    tip hash position base (entry :: entries) =
      tip hash (position + 1) (hash (position, entry, base)) entries := rfl

theorem tip_append (position : Nat) (base : Hash) (first second : List Entry) :
    tip hash position base (first ++ second) =
      tip hash (position + first.length) (tip hash position base first) second := by
  induction first generalizing position base with
  | nil => rfl
  | cons entry first ih =>
      rw [List.cons_append, tip_cons, ih, tip_cons, List.length_cons]
      congr 1
      omega

theorem inputs_append (position : Nat) (base : Hash) (first second : List Entry) :
    inputs hash position base (first ++ second) = inputs hash position base first ++
      inputs hash (position + first.length) (tip hash position base first) second := by
  induction first generalizing position base with
  | nil => rfl
  | cons entry first ih =>
      rw [List.cons_append, inputs, ih, inputs, List.cons_append, tip_cons, List.length_cons]
      congr 3
      omega

variable {hash}

/-- Two chains of one length that end alike are one chain, unless two of the
values hashed along them collide. -/
theorem eq_of_tip_eq {position : Nat} {base base' : Hash} {first second : List Entry}
    (collisionFree : Set.InjOn hash
      { input | input ∈ inputs hash position base first ∨
        input ∈ inputs hash position base' second })
    (sameLength : first.length = second.length)
    (sameTip : tip hash position base first = tip hash position base' second) :
    first = second ∧ base = base' := by
  induction first generalizing position base base' second with
  | nil =>
      obtain rfl : second = [] := List.length_eq_zero_iff.mp sameLength.symm
      exact ⟨rfl, sameTip⟩
  | cons entry first ih =>
      obtain _ | ⟨other, second⟩ := second
      · cases sameLength
      have later : first = second ∧
          hash (position, entry, base) = hash (position, other, base') := by
        refine ih (collisionFree.mono ?_) (Nat.succ.inj sameLength) sameTip
        rintro input (member | member)
        · exact Or.inl (List.mem_cons_of_mem _ member)
        · exact Or.inr (List.mem_cons_of_mem _ member)
      have here := collisionFree (Or.inl List.mem_cons_self) (Or.inr List.mem_cons_self) later.2
      obtain ⟨_, rfl, rfl⟩ := Prod.ext_iff.mp here |>.imp_right Prod.ext_iff.mp
      exact ⟨by rw [later.1], rfl⟩

/-- A chain that passes the tip of another at that chain's length contains it. -/
theorem isPrefix_of_tip_eq {position : Nat} {base : Hash} {first second : List Entry}
    (collisionFree : Set.InjOn hash
      { input | input ∈ inputs hash position base first ∨
        input ∈ inputs hash position base second })
    (reached : first.length ≤ second.length)
    (sameTip : tip hash position base first =
      tip hash position base (second.take first.length)) : first <+: second := by
  have split := inputs_append hash position base (second.take first.length)
    (second.drop first.length)
  rw [List.take_append_drop] at split
  have same : first = second.take first.length := by
    refine (eq_of_tip_eq (collisionFree.mono ?_) ?_ sameTip).1
    · rintro input (member | member)
      · exact Or.inl member
      · refine Or.inr ?_
        rw [split]
        exact List.mem_append_left _ member
    · rw [List.length_take, Nat.min_eq_left reached]
  rw [same]
  exact List.take_prefix _ _

/-- A commitment to a chain: how long it is and the hash it ends with. -/
def Commits (hash : Nat × Entry × Hash → Hash) (base : Hash) (chain : List Entry)
    (count : Nat) (head : Hash) : Prop :=
  count ≤ chain.length ∧ head = tip hash 0 base (chain.take count)

/-- A commitment survives every extension of its chain. -/
theorem Commits.append {base head : Hash} {chain : List Entry} {count : Nat}
    (commits : Commits hash base chain count head) (suffix : List Entry) :
    Commits hash base (chain ++ suffix) count head := by
  obtain ⟨reached, ends⟩ := commits
  refine ⟨by rw [List.length_append]; omega, ?_⟩
  rw [List.take_append_of_le_length reached, ends]

/-- Extending a chain from its committed end commits to the longer chain. -/
theorem commits_extension {base head : Hash} {chain : List Entry}
    (commits : Commits hash base chain chain.length head) (suffix : List Entry) :
    Commits hash base (chain ++ suffix) (chain ++ suffix).length
      (tip hash chain.length head suffix) := by
  refine ⟨le_refl _, ?_⟩
  rw [List.take_length, tip_append, Nat.zero_add, commits.2, List.take_length]

end HashChain
