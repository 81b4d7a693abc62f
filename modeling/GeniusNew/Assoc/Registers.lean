import Mathlib.Data.List.AList
import Mathlib.Data.List.Perm.Basic

/-! # Registers

Some rows of a table and some entries of a log carry a mark. The log accounts for
the table when both show the same marks, each of them as often; and it stays so when
a row and an entry change together.
-/

namespace Assoc

variable {Key Row Entry Mark : Type*} [DecidableEq Key]
  {table : AList fun _ : Key => Row} {log : List Entry}
  {mark : Key → Row → Option Mark} {noted : Entry → Option Mark}
  {key : Key} {row old : Row} {entry : Entry}

/-- The marks of the rows of a table. -/
def marks (mark : Key → Row → Option Mark) (table : AList fun _ : Key => Row) : List Mark :=
  table.entries.filterMap fun entry => mark entry.1 entry.2

theorem mem_marks {found : Mark} : found ∈ marks mark table ↔
    ∃ key row, table.lookup key = some row ∧ mark key row = some found := by
  unfold marks
  rw [List.mem_filterMap]
  constructor
  · rintro ⟨held, member, shown⟩
    exact ⟨held.1, held.2, AList.mem_lookup_iff.mpr member, shown⟩
  · rintro ⟨key, row, stored, shown⟩
    exact ⟨⟨key, row⟩, AList.mem_lookup_iff.mp stored, shown⟩

omit [DecidableEq Key] in
theorem marks_cons (mark : Key → Row → Option Mark) (held : Sigma fun _ : Key => Row)
    (rest : List (Sigma fun _ : Key => Row)) :
    (held :: rest).filterMap (fun entry => mark entry.1 entry.2) =
      (mark held.1 held.2).toList ++ rest.filterMap fun entry => mark entry.1 entry.2 := by
  rw [List.filterMap_cons]
  cases mark held.1 held.2 with
  | none => rfl
  | some found => rfl

theorem marks_insert_fresh (mark : Key → Row → Option Mark) (row : Row) (fresh : key ∉ table) :
    marks mark (table.insert key row) = (mark key row).toList ++ marks mark table := by
  unfold marks
  rw [AList.entries_insert_of_notMem fresh, marks_cons]

/-- A row is the only one of its key. -/
theorem perm_cons_kerase (found : table.lookup key = some old) :
    table.entries.Perm (⟨key, old⟩ :: table.entries.kerase key) := by
  have member : key ∈ table.entries.keys := by
    rw [← AList.keys, ← AList.mem_keys, ← AList.lookup_isSome, found]
    rfl
  obtain ⟨value, front, back, absent, split, erased⟩ := List.exists_of_kerase member
  have same : value = old := by
    have present : (⟨key, value⟩ : Sigma fun _ : Key => Row) ∈ table.entries := by
      rw [split]
      exact List.mem_append_right _ List.mem_cons_self
    exact Option.some.inj ((AList.mem_lookup_iff.mpr present).symm.trans found)
  rw [erased, split, same]
  exact List.perm_middle

theorem marks_insert (mark : Key → Row → Option Mark) (row : Row)
    (found : table.lookup key = some old) : ∃ rest,
    (marks mark table).Perm ((mark key old).toList ++ rest) ∧
      marks mark (table.insert key row) = (mark key row).toList ++ rest := by
  refine ⟨(table.entries.kerase key).filterMap fun entry => mark entry.1 entry.2, ?_, ?_⟩
  · rw [← marks_cons mark ⟨key, old⟩]
    exact (perm_cons_kerase found).filterMap _
  · unfold marks
    rw [AList.entries_insert, marks_cons]

/-- The log accounts for the marks of the table. -/
def Accounts (mark : Key → Row → Option Mark) (noted : Entry → Option Mark)
    (table : AList fun _ : Key => Row) (log : List Entry) : Prop :=
  (marks mark table).Perm (log.filterMap noted)

omit [DecidableEq Key] in
theorem accounts_empty (mark : Key → Row → Option Mark) (noted : Entry → Option Mark) :
    Accounts mark noted ∅ [] := List.Perm.nil

namespace Accounts

theorem filterMap_concat (noted : Entry → Option Mark) (log : List Entry) (entry : Entry) :
    (log ++ [entry]).filterMap noted = log.filterMap noted ++ (noted entry).toList := by
  rw [List.filterMap_append]
  cases shown : noted entry with
  | none => rw [List.filterMap_cons_none shown, List.filterMap_nil, Option.toList_none]
  | some found => rw [List.filterMap_cons_some shown, List.filterMap_nil, Option.toList_some]

omit [DecidableEq Key] in
/-- An entry without a mark. -/
theorem passed (accounts : Accounts mark noted table log) (silent : noted entry = none) :
    Accounts mark noted table (log ++ [entry]) := by
  unfold Accounts
  rw [filterMap_concat, silent, Option.toList_none, List.append_nil]
  exact accounts

/-- A new row and an entry with its mark. -/
theorem added (accounts : Accounts mark noted table log) (fresh : key ∉ table)
    (same : mark key row = noted entry) :
    Accounts mark noted (table.insert key row) (log ++ [entry]) := by
  unfold Accounts
  rw [filterMap_concat, marks_insert_fresh mark row fresh, same]
  exact List.perm_append_comm.trans (accounts.append_right _)

/-- A row gets its first mark, and an entry has it too. -/
theorem gained (accounts : Accounts mark noted table log) (found : table.lookup key = some old)
    (plain : mark key old = none) (same : mark key row = noted entry) :
    Accounts mark noted (table.insert key row) (log ++ [entry]) := by
  obtain ⟨rest, before, after⟩ := marks_insert mark row found
  rw [plain, Option.toList_none, List.nil_append] at before
  unfold Accounts
  rw [filterMap_concat, after, same]
  exact List.perm_append_comm.trans ((before.symm.trans accounts).append_right _)

/-- A row that changes keeps its mark, and the entry has none. -/
theorem kept (accounts : Accounts mark noted table log) (found : table.lookup key = some old)
    (same : mark key row = mark key old) (silent : noted entry = none) :
    Accounts mark noted (table.insert key row) (log ++ [entry]) := by
  obtain ⟨rest, before, after⟩ := marks_insert mark row found
  refine passed ?_ silent
  unfold Accounts
  rw [after, same]
  exact before.symm.trans accounts

/-- Every mark of the table is in the log, and every one of the log in the table. -/
theorem mem_iff (accounts : Accounts mark noted table log) {found : Mark} :
    (∃ key row, table.lookup key = some row ∧ mark key row = some found) ↔
      ∃ entry ∈ log, noted entry = some found := by
  rw [← mem_marks, List.Perm.mem_iff accounts, List.mem_filterMap]

theorem length_le (accounts : Accounts mark noted table log)
    (total : ∀ key row, table.lookup key = some row → (mark key row).isSome = true) :
    table.entries.length ≤ log.length := by
  have whole : (marks mark table).length = table.entries.length := by
    unfold marks
    rw [List.length_filterMap_eq_countP, List.countP_eq_length]
    exact fun held member => total held.1 held.2 (AList.mem_lookup_iff.mpr member)
  rw [← whole, List.Perm.length_eq accounts]
  exact List.length_filterMap_le _ _

end Accounts

section Distinct

variable {Item Shown Name : Type*} {items : List Item} {view : Item → Option Shown}

/-- Entries that are told apart stay so among some of them. -/
theorem nodup_map_filter (distinct : (items.filterMap view).Nodup) {keep : Item → Bool}
    {shown : Item → Shown} (agree : ∀ item, keep item = true → view item = some (shown item)) :
    ((items.filter keep).map shown).Nodup := by
  have same : (items.filter keep).filterMap view = (items.filter keep).map shown := by
    rw [← List.filterMap_eq_map']
    exact List.filterMap_congr fun item member => agree item (List.mem_filter.mp member).2
  rw [← same]
  exact (List.filter_sublist.filterMap view).nodup distinct

/-- The only entry that shows something. -/
theorem filter_eq_singleton (distinct : (items.filterMap view).Nodup) {keep : Item → Bool}
    {item : Item} (member : item ∈ items) (kept : keep item = true) {found : Shown}
    (agree : ∀ other, keep other = true → view other = some found) :
    items.filter keep = [item] := by
  have inside : item ∈ items.filter keep := List.mem_filter.mpr ⟨member, kept⟩
  have few : ((items.filter keep).map fun _ => found).Nodup := nodup_map_filter distinct agree
  rw [List.map_const', List.nodup_replicate] at few
  obtain ⟨only, same⟩ := List.length_eq_one_iff.mp
    (le_antisymm few (List.length_pos_of_mem inside))
  rw [same, List.mem_singleton] at inside
  rw [same, inside]

/-- What names its entry is told apart with the entries. -/
theorem nodup_filterMap_of_map {name : Item → Name} (named : Shown → Name)
    (distinct : (items.map name).Nodup)
    (agree : ∀ item found, view item = some found → named found = name item) :
    (items.filterMap view).Nodup := by
  refine List.pairwise_filterMap.mpr ((List.pairwise_map.mp distinct).imp ?_)
  intro item other apart found shown again shows same
  exact apart ((agree item found shown).symm.trans ((congrArg named same).trans
    (agree other again shows)))

/-- Entries that show the same are one. -/
theorem eq_of_shown (distinct : (items.filterMap view).Nodup) {one other : Item}
    (first : one ∈ items) (second : other ∈ items) {found : Shown} (shown : view one = some found)
    (shows : view other = some found) : one = other := by
  by_contra different
  have apart : items.Pairwise fun a b => ¬ (view a = some found ∧ view b = some found) :=
    (List.pairwise_filterMap.mp distinct).imp fun unlike same =>
      unlike found same.1 found same.2 rfl
  have symmetric : Std.Symm fun a b => ¬ (view a = some found ∧ view b = some found) :=
    ⟨fun _ _ unlike same => unlike ⟨same.2, same.1⟩⟩
  exact apart.forall first second different ⟨shown, shows⟩

end Distinct

section Slots

variable {Item Shown : Type*} {items : List Item} {view : Item → Option Shown} {index : Nat}
  {before after : Item}

/-- An entry that shows nothing any more leaves what the others show. -/
theorem filterMap_set_sublist (silent : view after = none) :
    ((items.set index after).filterMap view).Sublist (items.filterMap view) := by
  induction items generalizing index with
  | nil => exact List.Sublist.refl _
  | cons item items ih =>
      cases index with
      | zero =>
          rw [List.set_cons_zero, List.filterMap_cons, silent, List.filterMap_cons]
          cases view item with
          | none => exact List.Sublist.refl _
          | some found => exact List.sublist_cons_self _ _
      | succ index =>
          rw [List.set_cons_succ, List.filterMap_cons, List.filterMap_cons]
          cases view item with
          | none => exact ih
          | some found => exact ih.cons_cons found

/-- What an entry shows no more is taken out of what all show. -/
theorem perm_filterMap_set {found : Shown} (here : items[index]? = some before)
    (shown : view before = some found) (silent : view after = none) :
    (items.filterMap view).Perm (found :: (items.set index after).filterMap view) := by
  induction items generalizing index with
  | nil => cases here
  | cons item items ih =>
      cases index with
      | zero =>
          obtain rfl : item = before := Option.some.inj here
          rw [List.set_cons_zero, List.filterMap_cons, List.filterMap_cons, silent, shown]
      | succ index =>
          rw [List.set_cons_succ, List.filterMap_cons, List.filterMap_cons]
          cases view item with
          | none => exact ih here
          | some other => exact ((ih here).cons other).trans (List.Perm.swap _ _ _)

/-- An entry shows one thing in place of what it showed. -/
theorem subperm_filterMap_set {found : Shown} (shown : view after = some found) :
    ((items.set index after).filterMap view).Subperm (found :: items.filterMap view) := by
  induction items generalizing index with
  | nil => exact List.nil_subperm
  | cons item items ih =>
      cases index with
      | zero =>
          rw [List.set_cons_zero, List.filterMap_cons_some shown, List.filterMap_cons]
          cases view item with
          | none => exact List.Subperm.refl _
          | some other => exact ((List.sublist_cons_self _ _).cons_cons found).subperm
      | succ index =>
          rw [List.set_cons_succ, List.filterMap_cons, List.filterMap_cons]
          cases view item with
          | none => exact ih
          | some other =>
              exact ((List.subperm_cons other).mpr ih).trans (List.Perm.swap _ _ _).subperm

end Slots

end Assoc
