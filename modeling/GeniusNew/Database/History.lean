import GeniusNew.Database.Jobs

/-! # The history of a token

What every transaction keeps of the approval records: a row holds the record whose hash
it has, the records of a token are a granted root and at most one successor, and the
pointer of the token names the last of them. Current grants of one scope never
overlap in time, and a consumed approval has exactly one job.
-/

namespace GeniusNew.Database

open Json Orchestrator

variable {interpreter : Interpreter} {before after : Tables} {transaction : Transaction}

/-- The first record of a token. -/
structure Root (tokenDigest : Str) (row : ApprovalRow) : Prop where
  token : row.tokenDigest = tokenDigest
  granted : row.state = .granted
  first : row.previousHash = none
  changed : row.changedAt = row.issuedAt

/-- The records of a token: a granted root, and at most one successor, which is then
the current record. -/
inductive History (tables : Tables) (tokenDigest current : Str) : Prop
  | root {row : ApprovalRow} (found : tables.records.lookup current = some row)
      (root : Root tokenDigest row)
      (only : ∀ other held, tables.records.lookup other = some held →
        held.tokenDigest = tokenDigest → other = current)
  | successor {root : Str} {row : ApprovalRow} {state : ApprovalState} {changedAt : Int}
      (found : tables.records.lookup root = some row) (first : Root tokenDigest row)
      (follows : tables.records.lookup current =
        some { row with state, changedAt, previousHash := some root })
      (closed : state ≠ .granted) (later : row.changedAt ≤ changedAt)
      (only : ∀ other held, tables.records.lookup other = some held →
        held.tokenDigest = tokenDigest → other = root ∨ other = current)

/-- The record that the pointer of a token names is of the token. -/
theorem History.current {tables : Tables} {tokenDigest current : Str}
    (history : History tables tokenDigest current) :
    ∃ row, tables.records.lookup current = some row ∧ row.tokenDigest = tokenDigest := by
  cases history with
  | root found root => exact ⟨_, found, root.token⟩
  | successor found first follows => exact ⟨_, follows, first.token⟩

/-- A granted current record is the root. -/
theorem History.open_ {tables : Tables} {tokenDigest current : Str} {row : ApprovalRow}
    (history : History tables tokenDigest current)
    (found : tables.records.lookup current = some row) (granted : row.state = .granted) :
    Root tokenDigest row ∧ ∀ other held, tables.records.lookup other = some held →
      held.tokenDigest = tokenDigest → other = current := by
  cases history with
  | root stored root only =>
      obtain rfl := Option.some.inj (stored.symm.trans found)
      exact ⟨root, only⟩
  | successor _ _ follows closed =>
      obtain rfl := Option.some.inj (follows.symm.trans found)
      exact absurd granted closed

/-- A record of another token changes nothing. -/
theorem History.insert {tokenDigest current recordHash : Str} {row : ApprovalRow}
    (history : History before tokenDigest current)
    (records : after.records = before.records.insert recordHash row)
    (fresh : recordHash ∉ before.records) (apart : row.tokenDigest ≠ tokenDigest) :
    History after tokenDigest current := by
  have kept {other : Str} {held : ApprovalRow} (found : before.records.lookup other = some held) :
      after.records.lookup other = some held := by
    have different : other ≠ recordHash := fun same =>
      fresh (Table.mem_iff.mpr ⟨held, same ▸ found⟩)
    rw [records, Table.lookup_insert_eq, if_neg different, found]
  have older {other : Str} {held : ApprovalRow} (found : after.records.lookup other = some held)
      (owned : held.tokenDigest = tokenDigest) : before.records.lookup other = some held := by
    rw [records, Table.lookup_insert_eq] at found
    split_ifs at found with same
    · obtain rfl := Option.some.inj found
      exact absurd owned apart
    · exact found
  cases history with
  | root found root only =>
      exact .root (kept found) root fun other held stored owned =>
        only other held (older stored owned) owned
  | successor found first follows closed later only =>
      exact .successor (kept found) first (kept follows) closed later fun other held stored owned =>
        only other held (older stored owned) owned

theorem History.frame {tokenDigest current : Str} (history : History before tokenDigest current)
    (records : after.records = before.records) : History after tokenDigest current := by
  cases history with
  | root found root only => exact .root (by rwa [records]) root (by rwa [records])
  | successor found first follows closed later only =>
      exact .successor (by rwa [records]) first (by rwa [records]) closed later (by rwa [records])

/-- The records and their pointers. -/
structure Chained (interpreter : Interpreter) (tables : Tables) : Prop where
  holds : ∀ recordHash row, tables.records.lookup recordHash = some row →
    ∃ record, Holds interpreter recordHash row record
  pointed : ∀ recordHash row, tables.records.lookup recordHash = some row →
    row.tokenDigest ∈ tables.tokens
  history : ∀ tokenDigest current, tables.tokens.lookup tokenDigest = some current →
    History tables tokenDigest current

theorem Chained.frame (chained : Chained interpreter before)
    (records : after.records = before.records) (tokens : after.tokens = before.tokens) :
    Chained interpreter after := by
  obtain ⟨holds, pointed, history⟩ := chained
  refine ⟨by rwa [records], by rwa [records, tokens], ?_⟩
  rw [tokens]
  exact fun tokenDigest current found => (history tokenDigest current found).frame records

/-- A record becomes the current one of its token. -/
theorem Chained.recorded (chained : Chained interpreter before) {tokenDigest recordHash : Str}
    {row : ApprovalRow} {record : ApprovalRecord}
    (records : after.records = before.records.insert recordHash row)
    (tokens : after.tokens = before.tokens.insert tokenDigest recordHash)
    (fresh : recordHash ∉ before.records) (owned : row.tokenDigest = tokenDigest)
    (holds : Holds interpreter recordHash row record)
    (history : History after tokenDigest recordHash) : Chained interpreter after := by
  constructor
  · intro other held found
    rw [records, Table.lookup_insert_eq] at found
    split_ifs at found with same
    · obtain rfl := Option.some.inj found
      rw [same]
      exact ⟨record, holds⟩
    · exact chained.holds other held found
  · intro other held found
    rw [records, Table.lookup_insert_eq] at found
    rw [tokens, AList.mem_insert]
    split_ifs at found with same
    · obtain rfl := Option.some.inj found
      exact .inl owned
    · exact .inr (chained.pointed other held found)
  · intro other current found
    rw [tokens, Table.lookup_insert_eq] at found
    split_ifs at found with same
    · obtain rfl := Option.some.inj found
      rw [same]
      exact history
    · refine (chained.history other current found).insert records fresh ?_
      rw [owned]
      exact fun equal => same equal.symm

section Grant

variable {scope : ApprovalScope} {created : Bool} {now ttlSeconds : Int} {drawn : Option Bytes}
  {token : Bytes} {record : ApprovalRecord} {raw : Bytes}

/-- The row that a grant stores holds a record of the scope as it is read back. -/
theorem Grants.holds
    (grants : Grants interpreter before scope created now ttlSeconds drawn token record raw) :
    ∃ read, Holds interpreter record.recordHash.val (approvalRow record raw) read ∧
      read.scope = scope.joined := by
  obtain ⟨read, readable⟩ := grants.read
  exact ⟨read, holds_of_approvalRecord grants.encoded grants.short readable⟩

theorem Grants.root
    (grants : Grants interpreter before scope created now ttlSeconds drawn token record raw) :
    Root (hex record.tokenDigest) (approvalRow record raw) := by
  obtain ⟨_, _, _, _, _, entry, _⟩ := newGrant_eq_ok grants.minted
  exact ⟨rfl, by rw [approvalRow, entry], by rw [approvalRow, entry]; rfl, by rw [approvalRow, entry]⟩

theorem Grants.chained (chained : Chained interpreter before)
    (grants : Grants interpreter before scope created now ttlSeconds drawn token record raw)
    (records : after.records =
      before.records.insert record.recordHash.val (approvalRow record raw))
    (tokens : after.tokens =
      before.tokens.insert (hex record.tokenDigest) record.recordHash.val) :
    Chained interpreter after := by
  obtain ⟨read, holds, _⟩ := grants.holds
  refine chained.recorded records tokens grants.fresh rfl holds
    (.root (by rw [records, AList.lookup_insert]) grants.root fun other held found owned => ?_)
  rw [records, Table.lookup_insert_eq] at found
  split_ifs at found with same
  · exact same
  · exact absurd (owned ▸ chained.pointed other held found) grants.free

end Grant

section Successor

variable {token : Bytes} {scope : ApprovalScope} {now : Int} {state : ApprovalState} {current : Str}
  {row : ApprovalRow} {record updated : ApprovalRecord} {raw : Bytes}

/-- The record that a change reads is the one that the row holds. -/
theorem Succeeds.holds (chained : Chained interpreter before)
    (succeeds : Succeeds interpreter before token scope now state current row record updated raw) :
    Holds interpreter current row record := by
  obtain ⟨other, holds⟩ := chained.holds current row succeeds.found
  obtain rfl := Except.ok.inj (holds.read.symm.trans succeeds.read)
  exact holds

/-- The successor takes the columns of the current record over. -/
theorem Succeeds.columns (chained : Chained interpreter before)
    (succeeds : Succeeds interpreter before token scope now state current row record updated raw) :
    approvalRow updated raw =
        { row with state, changedAt := now, previousHash := some current } ∧
      Holds interpreter updated.recordHash.val (approvalRow updated raw) updated :=
  (succeeds.holds chained).succeeds succeeds.written succeeds.encoded succeeds.timed succeeds.timely

theorem Succeeds.root (chained : Chained interpreter before)
    (succeeds : Succeeds interpreter before token scope now state current row record updated raw) :
    Root (hex (Sha256.digest token)) row ∧ ∀ other held, before.records.lookup other = some held →
      held.tokenDigest = hex (Sha256.digest token) → other = current := by
  refine (chained.history _ _ succeeds.pointer).open_ succeeds.found ?_
  have columns := (succeeds.holds chained).columns
  rw [columns]
  exact succeeds.granted

theorem Succeeds.chained (chained : Chained interpreter before)
    (succeeds : Succeeds interpreter before token scope now state current row record updated raw)
    (closed : state ≠ .granted)
    (records : after.records =
      before.records.insert updated.recordHash.val (approvalRow updated raw))
    (tokens : after.tokens =
      before.tokens.insert (hex (Sha256.digest token)) updated.recordHash.val) :
    Chained interpreter after := by
  obtain ⟨same, holds⟩ := succeeds.columns chained
  obtain ⟨root, only⟩ := succeeds.root chained
  have apart : current ≠ updated.recordHash.val := fun equal =>
    succeeds.fresh (Table.mem_iff.mpr ⟨row, equal ▸ succeeds.found⟩)
  have columns := (succeeds.holds chained).columns
  have issued : row.issuedAt = record.issuedAt := by rw [columns]; rfl
  have older : after.records.lookup current = some row := by
    rw [records, Table.lookup_insert_eq, if_neg apart, succeeds.found]
  have newer : after.records.lookup updated.recordHash.val =
      some { row with state, changedAt := now, previousHash := some current } := by
    rw [records, AList.lookup_insert, same]
  have owned : (approvalRow updated raw).tokenDigest = hex (Sha256.digest token) := by
    rw [same]
    exact root.token
  refine chained.recorded records tokens succeeds.fresh owned holds
    (.successor older root newer closed ?_ fun other held found token => ?_)
  · rw [root.changed, issued]
    exact succeeds.timed.1
  · rw [records, Table.lookup_insert_eq] at found
    split_ifs at found with equal
    · exact .inr equal
    · exact .inl (only other held found token)

end Successor

theorem Chained.effect (chained : Chained interpreter before)
    (effect : Effect interpreter before transaction after) : Chained interpreter after := by
  cases effect with
  | grant grants => exact grants.chained chained rfl rfl
  | revoke succeeds => exact succeeds.chained chained (by decide) rfl rfl
  | consume succeeds => exact succeeds.chained chained (by decide) rfl rfl
  | add => exact chained.frame rfl rfl
  | refuse => exact chained.frame rfl rfl
  | burned => exact chained
  | admitted => exact chained
  | replayed => exact chained
  | reserve => exact chained.frame rfl rfl
  | commit => exact chained.frame rfl rfl
  | accept => exact chained.frame rfl rfl

end GeniusNew.Database
