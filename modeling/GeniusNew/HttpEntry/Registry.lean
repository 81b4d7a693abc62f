import GeniusNew.Assoc.Lookup
import GeniusNew.Contracts.Hexadecimal
import GeniusNew.Contracts.Wire
import Mathlib.Data.List.Perm.Subperm

/-! # API keys and principals

The registry maps lower-cased key digests to principals. A configured key is checked by
`bytes.fromhex` and then lower-cased, so what the registry holds is what was configured
only when no configured key has whitespace and no two differ by letter case alone.
-/

namespace GeniusNew.HttpEntry

open Json

def maxKeyBytes : Nat := 256

def minKeyBytes : Nat := 16

structure Principal where
  subject : Str
  named : subject ≠ []
  bounded : encodedLength subject ≤ 160

instance : DecidableEq Principal := fun one other =>
  decidable_of_iff (one.subject = other.subject)
    ⟨by cases one; cases other; rintro rfl; rfl, congrArg Principal.subject⟩

def Principal.new (subject : Value) : Outcome Principal :=
  match subject with
  | .str subject =>
      if named : subject = [] then fail "subject must be a non-empty string"
      else if bounded : encodedLength subject ≤ 160 then pure ⟨subject, named, bounded⟩
      else fail "subject must be at most 160 bytes"
  | _ => fail "subject must be a non-empty string"

/-- The items of a mapping in its own order. -/
structure Mapping where
  items : List (Value × Value)
  distinct : (items.map Prod.fst).Nodup

/-- One round of the loop over the configured principals, up to the assignment. -/
def checkedItem (item : Value × Value) : Outcome (Str × Principal) :=
  match item.1 with
  | .str digest => do
      if digest.length ≠ 64 then
        fail "principal keys must be SHA-256 digests as 64 hex characters"
      else
        match bytesFromhex digest with
        | none => fail "principal keys must be SHA-256 digests as 64 hex characters"
        | some _ => return (asciiLower digest, ← Principal.new item.2)
  | _ => fail "principal keys must be SHA-256 digests as 64 hex characters"

/-- The loop of `PrincipalRegistry.__init__`. -/
def addItems (table : List (Str × Principal)) : List (Value × Value) →
    Outcome (List (Str × Principal))
  | [] => pure table
  | item :: items => do
      let (digest, principal) ← checkedItem item
      addItems (assign table digest principal) items

structure PrincipalRegistry where
  table : List (Str × Principal)

namespace PrincipalRegistry

def new (principals : Mapping) : Outcome PrincipalRegistry :=
  if principals.items = [] then
    fail "principals must be a non-empty mapping of key digest to subject"
  else do return ⟨← addItems [] principals.items⟩

/-- What is presented as a key: bytes, or a value of another type. -/
inductive Presented where
  | bytes (data : Bytes)
  | other (value : Value)

def digest : Presented → Outcome Digest
  | .bytes key =>
      if minKeyBytes ≤ key.length ∧ key.length ≤ maxKeyBytes then pure (sha256 key)
      else fail "api key must be between 16 and 256 bytes"
  | .other _ => fail "api key must be bytes"

def resolve (registry : PrincipalRegistry) (key : Presented) : Option Principal :=
  match digest key with
  | .ok digest => registry.table.lookup digest.val
  | .error _ => none

def subjects (registry : PrincipalRegistry) : List Str := registry.table.map (·.2.subject)

/-- `len(registry)`. -/
def size (registry : PrincipalRegistry) : Nat := registry.table.length

end PrincipalRegistry

/-- The bytes a configured key stands for are the key's SHA-256 digest. -/
def Names (digest : Str) (key : Bytes) : Prop := bytesFromhex digest = some (Sha256.digest key)

def Admissible (key : Bytes) : Prop := minKeyBytes ≤ key.length ∧ key.length ≤ maxKeyBytes

/-- What a registry that is faithful to its configuration answers. -/
structure Faithful (principals : Mapping) (registry : PrincipalRegistry) : Prop where
  digits : ∀ item ∈ principals.items, ∃ digest, item.1 = .str digest ∧
    digest.length = 64 ∧ ∀ c ∈ digest, isHexDigit c = true
  size : registry.size = principals.items.length
  resolved : ∀ digest subject key, (.str digest, subject) ∈ principals.items →
    Admissible key → Names digest key →
      ∃ principal, registry.resolve (.bytes key) = some principal ∧
        subject = .str principal.subject
  refused : ∀ key, (∀ data, key = .bytes data → Admissible data → ∀ digest subject,
    (.str digest, subject) ∈ principals.items → ¬ Names digest data) →
      registry.resolve key = none

/-- The configured key as the registry stores it. -/
def storedKey : Value → Str
  | .str digest => asciiLower digest
  | _ => []

/-- No configured key has whitespace, and no two differ by letter case alone. -/
def Plain (principals : Mapping) : Prop :=
  (∀ digest subject, (.str digest, subject) ∈ principals.items →
    ∀ c ∈ digest, isBlank c = false) ∧
  (principals.items.map fun item => storedKey item.1).Nodup

theorem Principal.subject_of_new {subject : Value} {principal : Principal}
    (made : Principal.new subject = .ok principal) : subject = .str principal.subject := by
  unfold Principal.new at made
  split at made
  · rename_i subject
    split_ifs at made with named bounded
    · exact (fail_ne_ok made).elim
    · exact congrArg (fun made => Value.str made.subject) (pure_eq_ok.mp made)
    · exact (fail_ne_ok made).elim
  · exact (fail_ne_ok made).elim

theorem checkedItem_eq_ok {item : Value × Value} {entry : Str × Principal}
    (checked : checkedItem item = .ok entry) : ∃ digest data, item.1 = .str digest ∧
      digest.length = 64 ∧ bytesFromhex digest = some data ∧ entry.1 = asciiLower digest ∧
        item.2 = .str entry.2.subject := by
  unfold checkedItem at checked
  split at checked
  · rename_i digest text
    by_cases sized : digest.length ≠ 64
    · rw [if_pos sized] at checked
      exact (fail_ne_ok checked).elim
    · rw [if_neg sized] at checked
      split at checked
      · exact (fail_ne_ok checked).elim
      · rename_i data read
        obtain ⟨principal, made, same⟩ := bind_eq_ok.mp checked
        obtain rfl := pure_eq_ok.mp same
        exact ⟨digest, data, text, not_not.mp sized, read, rfl, Principal.subject_of_new made⟩
  · exact (fail_ne_ok checked).elim

theorem addItems_eq_ok {items : List (Value × Value)} {table after : List (Str × Principal)}
    (added : addItems table items = .ok after) :
    ∃ entries, List.Forall₂ (fun item entry => checkedItem item = .ok entry) items entries ∧
      after = entries.foldl (fun table entry => assign table entry.1 entry.2) table := by
  induction items generalizing table with
  | nil => exact ⟨[], .nil, (pure_eq_ok.mp added).symm⟩
  | cons item items ih =>
      obtain ⟨entry, checked, added⟩ := bind_eq_ok.mp added
      obtain ⟨entries, all, same⟩ := ih added
      exact ⟨entry :: entries, .cons checked all, same⟩

/-- As many keys as pairs means that no two pairs have one key. -/
theorem nodup_of_length_collect {α : Type} {pairs : List (Str × α)}
    (sized : (collect pairs).length = pairs.length) : (pairs.map Prod.fst).Nodup := by
  have distinct := keys_collect_nodup pairs
  have subset : keys (collect pairs) ⊆ pairs.map Prod.fst := by
    intro key member
    obtain ⟨pair, inside, rfl⟩ := List.mem_map.mp member
    exact List.mem_map.mpr ⟨pair, mem_of_mem_collect inside, rfl⟩
  have permuted := (List.subperm_of_subset distinct subset).perm_of_length_le (by simp [keys, sized])
  exact permuted.nodup_iff.mp distinct

section Accepted

variable {principals : Mapping} {registry : PrincipalRegistry}

theorem new_eq_ok (accepted : PrincipalRegistry.new principals = .ok registry) :
    ∃ entries, List.Forall₂ (fun item entry => checkedItem item = .ok entry)
        principals.items entries ∧
      registry.table = collect entries := by
  unfold PrincipalRegistry.new at accepted
  split_ifs at accepted with empty
  · exact (fail_ne_ok accepted).elim
  · obtain ⟨table, added, same⟩ := bind_eq_ok.mp accepted
    obtain rfl := pure_eq_ok.mp same
    exact addItems_eq_ok added

variable {entries : List (Str × Principal)}
  (all : List.Forall₂ (fun item entry => checkedItem item = .ok entry) principals.items entries)

include all

theorem storedKeys : entries.map Prod.fst = principals.items.map fun item => storedKey item.1 := by
  generalize principals.items = items at all
  induction all with
  | nil => rfl
  | cons checked _ ih =>
      obtain ⟨digest, data, text, -, -, stored, -⟩ := checkedItem_eq_ok checked
      rw [List.map_cons, List.map_cons, ih, stored, text]
      rfl

theorem entry_of_item {item : Value × Value} (member : item ∈ principals.items) :
    ∃ entry ∈ entries, checkedItem item = .ok entry := by
  obtain ⟨index, within, same⟩ := List.mem_iff_getElem.mp member
  have sized := all.length_eq
  refine ⟨entries[index], List.getElem_mem _, ?_⟩
  rw [← same]
  exact (List.forall₂_iff_get.mp all).2 index within (sized ▸ within)

theorem item_of_entry {entry : Str × Principal} (member : entry ∈ entries) :
    ∃ item ∈ principals.items, checkedItem item = .ok entry := by
  obtain ⟨index, within, same⟩ := List.mem_iff_getElem.mp member
  have sized := all.length_eq
  refine ⟨principals.items[index], List.getElem_mem _, ?_⟩
  rw [← same]
  exact (List.forall₂_iff_get.mp all).2 index (sized ▸ within) within

end Accepted

theorem PrincipalRegistry.resolve_eq_some {registry : PrincipalRegistry} {key : Presented}
    {principal : Principal} : registry.resolve key = some principal ↔
      ∃ data, key = .bytes data ∧ Admissible data ∧
        registry.table.lookup (hex (Sha256.digest data)) = some principal := by
  cases key with
  | other value => simp [resolve, digest, fail]
  | bytes data =>
      unfold resolve digest
      dsimp only
      by_cases admissible : minKeyBytes ≤ data.length ∧ data.length ≤ maxKeyBytes
      · rw [if_pos admissible]
        constructor
        · intro found
          exact ⟨data, rfl, admissible, found⟩
        · rintro ⟨_, same, _, found⟩
          obtain rfl := Presented.bytes.inj same
          exact found
      · rw [if_neg admissible]
        constructor
        · intro found
          cases found
        · rintro ⟨_, same, accepted, _⟩
          obtain rfl := Presented.bytes.inj same
          exact (admissible accepted).elim

section Faithful

variable {principals : Mapping} {registry : PrincipalRegistry}

theorem plain_of_faithful (accepted : PrincipalRegistry.new principals = .ok registry)
    (faithful : Faithful principals registry) : Plain principals := by
  obtain ⟨entries, all, table⟩ := new_eq_ok accepted
  constructor
  · intro digest subject member c inside
    obtain ⟨other, same, -, digits⟩ := faithful.digits _ member
    obtain rfl := Value.str.inj same
    exact isBlank_of_isHexDigit (digits c inside)
  · rw [← storedKeys all]
    apply nodup_of_length_collect
    rw [← table, ← all.length_eq]
    exact faithful.size

theorem faithful_of_plain (accepted : PrincipalRegistry.new principals = .ok registry)
    (plain : Plain principals) : Faithful principals registry := by
  obtain ⟨entries, all, table⟩ := new_eq_ok accepted
  have distinct : (entries.map Prod.fst).Nodup := by
    rw [storedKeys all]
    exact plain.2
  have kept : registry.table = entries := by
    rw [table]
    exact collect_of_nodup distinct
  constructor
  case digits =>
    intro item member
    obtain ⟨entry, -, checked⟩ := entry_of_item all member
    obtain ⟨digest, data, text, sized, read, -, -⟩ := checkedItem_eq_ok checked
    refine ⟨digest, text, sized, ?_⟩
    have spaced := plain.1 digest item.2 (by rwa [← text])
    exact (lowered_of_bytesFromhex spaced read).1
  case size =>
    rw [PrincipalRegistry.size, kept, all.length_eq]
  case resolved =>
    intro digest subject key member admissible named
    obtain ⟨entry, inside, checked⟩ := entry_of_item all member
    obtain ⟨_, _, text, -, -, stored, held⟩ := checkedItem_eq_ok checked
    obtain rfl := Value.str.inj text
    have lowered := (lowered_of_bytesFromhex (plain.1 digest subject member) named).2
    refine ⟨entry.2, PrincipalRegistry.resolve_eq_some.mpr ⟨key, rfl, admissible, ?_⟩, held⟩
    rw [kept, ← lowered, ← stored]
    exact Assoc.lookup_of_mem_nodup distinct inside
  case refused =>
    intro key foreign
    by_contra answered
    obtain ⟨principal, found⟩ := Option.ne_none_iff_exists'.mp answered
    obtain ⟨data, same, admissible, held⟩ := PrincipalRegistry.resolve_eq_some.mp found
    rw [kept] at held
    obtain ⟨item, member, checked⟩ := item_of_entry all (Assoc.mem_of_lookup held)
    obtain ⟨digest, _, text, -, -, stored, -⟩ := checkedItem_eq_ok checked
    have named : Names digest data := bytesFromhex_of_lowered stored.symm
    exact foreign data same admissible digest item.2 (by rwa [← text]) named

/-- A registry is faithful to the mapping it accepted exactly when no configured key has
whitespace and no two differ by letter case alone. -/
theorem registry_faithful_iff (accepted : PrincipalRegistry.new principals = .ok registry) :
    Faithful principals registry ↔ Plain principals :=
  ⟨plain_of_faithful accepted, faithful_of_plain accepted⟩

end Faithful

section Demo

def demoPrincipal : Principal := ⟨str "subject-a", by decide, by decide⟩

def laterPrincipal : Principal := ⟨str "subject-b", by decide, by decide⟩

def demoMapping : Mapping where
  items := [(.str (List.replicate 64 97), .str (str "subject-a"))]
  distinct := List.nodup_singleton _

theorem registry_faithful_demo :
    PrincipalRegistry.new demoMapping =
        .ok ⟨[(List.replicate 64 97, demoPrincipal)]⟩ ∧
      (Faithful demoMapping ⟨[(List.replicate 64 97, demoPrincipal)]⟩ ↔
        Plain demoMapping) := by
  have accepted : PrincipalRegistry.new demoMapping =
      .ok ⟨[(List.replicate 64 97, demoPrincipal)]⟩ := rfl
  exact ⟨accepted, registry_faithful_iff accepted⟩

/-- One digest configured in both letter cases, for two subjects. -/
def twoSpellings : Mapping where
  items := [(.str (List.replicate 64 97), .str (str "subject-a")),
    (.str (List.replicate 64 65), .str (str "subject-b"))]
  distinct := by
    refine List.nodup_cons.mpr ⟨?_, List.nodup_singleton _⟩
    intro member
    have same := Value.str.inj (List.mem_singleton.mp member)
    exact absurd same (by decide)

/-- The two entries meet in one slot, so the registry holds one entry for two. -/
theorem two_spellings_meet : ¬ ∀ principals registry,
    PrincipalRegistry.new principals = .ok registry → Faithful principals registry := by
  intro faithful
  have accepted : PrincipalRegistry.new twoSpellings =
      .ok ⟨[(List.replicate 64 97, laterPrincipal)]⟩ := rfl
  have sized := (faithful _ _ accepted).size
  exact absurd sized (by decide)

/-- A text of 62 digits and two blanks is configured and never presented. -/
example : (PrincipalRegistry.new ⟨[(.str (List.replicate 62 97 ++ [32, 32]),
    .str (str "subject-a"))], List.nodup_singleton _⟩).isOk = true := rfl

end Demo

end GeniusNew.HttpEntry
