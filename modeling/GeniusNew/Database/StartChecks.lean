import GeniusNew.Database.Coherence

/-! # The checks of a start

A process that opens the database checks the approvals, the accepted results and the
queue before it serves a request, and refuses to start on anything this code could
not have written. Every state that the transactions reach passes.
-/

namespace GeniusNew.Database

open Json Orchestrator Transition

/-- `_check_acceptance_bindings`: the full join has no row without its partner. -/
def checkAcceptanceBindings (tables : Tables) : Outcome Unit :=
  let unbound (digest : Str) (row : AcceptanceRow) : Bool :=
    ¬ (tables.jobs.lookup row.jobId).any fun job =>
      job.handoffSha256 = digest ∧ job.state = .completed
  let unaccepted (jobId : Str) (job : JobRow) : Bool :=
    job.state = .completed ∧
      ¬ (tables.acceptances.lookup job.handoffSha256).any fun row => row.jobId = jobId
  if tables.acceptances.any unbound || tables.jobs.any unaccepted then
    fail "acceptance ledger and completed jobs do not match"
  else .ok ()

/-- What `_check_approvals` asks of a successor of the root. -/
def follows (root successor : ApprovalRecord) : Bool :=
  successor.previousHash = some root.recordHash ∧ successor.state ≠ .granted ∧
    successor.scope = root.scope ∧ successor.issuedAt = root.issuedAt ∧
    successor.expiresAt = root.expiresAt ∧ root.changedAt ≤ successor.changedAt

/-- What `_check_approvals` asks of the job of a consumed approval. -/
def reservedFor (tables : Tables) (tip : ApprovalRecord) : Bool :=
  (tables.jobs.lookup tip.scope.jobId).any fun job =>
    job.handoffSha256 = tip.scope.handoffSha256.val ∧ job.state.running = true ∧
      job.reservedAt = some tip.changedAt ∧ job.expiresAt = tip.scope.handoffExpiresAt ∧
      tip.scope.jobId ∉ tables.pending

/-- The body of the loop of `_check_approvals`: the records of one token, and the
jobs of the consumed approvals so far. -/
def checkHistory (tables : Tables) (consumedJobs : List Str) (tokenDigest : Str)
    (history : List ApprovalRecord) : Outcome (List Str) :=
  match history.filter fun record => record.previousHash = none with
  | [root] =>
      if root.state ≠ .granted ∨ root.changedAt ≠ root.issuedAt then
        fail "approval history must have one granted root"
      else
        let successors := history.filter fun record => record.previousHash ≠ none
        if successors.length > 1 ∨ ¬ successors.all (follows root) then
          fail "approval history is not an immutable one-way chain"
        else
          let tip := successors.head?.getD root
          if tables.tokens.lookup tokenDigest ≠ some tip.recordHash.val then
            fail "approval pointer must name the only history tip"
          else if tip.state ≠ .consumed then return consumedJobs
          else if tip.scope.jobId ∈ consumedJobs then
            fail "consumed approval does not match its reserved job"
          else do
            parameters storeUnavailable [tip.scope.jobId]
            if ¬ reservedFor tables tip then
              fail "consumed approval does not match its reserved job"
            else return tip.scope.jobId :: consumedJobs
  | _ => fail "approval history must have one granted root"

/-- The loop of `_check_approvals` over the tokens. -/
def checkHistories (tables : Tables) (records : List ApprovalRecord) :
    List Str → List Str → Outcome Unit
  | _, [] => .ok ()
  | consumedJobs, tokenDigest :: tokenDigests => do
      let consumedJobs ← checkHistory tables consumedJobs tokenDigest
        (records.filter fun record => hex record.tokenDigest = tokenDigest)
      checkHistories tables records consumedJobs tokenDigests

/-- The tokens of the records, each where its first record is. -/
def tokensOf (records : List ApprovalRecord) : List Str :=
  ((records.map fun record => hex record.tokenDigest).reverse.dedup).reverse

/-- `_check_approvals`. -/
def checkApprovals (interpreter : Interpreter) (tables : Tables) : Outcome Unit := do
  let records ← tables.records.entries.mapM fun entry =>
    approvalRecord interpreter entry.1 entry.2 (bounded entry.2.scope)
  if ¬ ((∀ tokenDigest ∈ tokensOf records, tokenDigest ∈ tables.tokens) ∧
      ∀ tokenDigest ∈ tables.tokens.keys, tokenDigest ∈ tokensOf records) then
    fail "approval records and pointers do not match"
  else checkHistories tables records [] (tokensOf records)

/-- A row of the queue joined with the row of its job. -/
def PostgresPendingJobs.joined (interpreter : Interpreter) (policy : Policy)
    (verifier : HandoffVerifier) (tables : Tables) (jobId : Str) (row : PendingRow) :
    Outcome (Option Wiring.Waiting) :=
  match tables.jobs.lookup jobId with
  | none => return none
  | some job => some <$> waiting interpreter policy verifier jobId row job

/-- `PostgresPendingJobs._check`. -/
def PostgresPendingJobs.check (interpreter : Interpreter) (policy : Policy)
    (verifier : HandoffVerifier) (tables : Tables) : Outcome Unit :=
  let unqueued (jobId : Str) (job : JobRow) : Bool :=
    job.state = .pendingApproval ∧ jobId ∉ tables.pending
  let settled (jobId : Str) (_ : PendingRow) : Bool :=
    ¬ (tables.jobs.lookup jobId).any fun job => job.state = .pendingApproval
  if tables.jobs.any unqueued || tables.pending.any settled then
    fail "pending rows and pending ledger states do not match"
  else do
    let _ ← tables.pending.entries.mapM fun entry =>
      joined interpreter policy verifier tables entry.1 entry.2
    return ()

section Bindings

variable {interpreter : Interpreter} {tables : Tables}

theorem Accepted.checked (accepted : Accepted tables) : checkAcceptanceBindings tables = .ok () := by
  refine if_neg ?_
  rw [Bool.or_eq_true, Table.any_eq_true, Table.any_eq_true]
  rintro (⟨digest, row, found, unbound⟩ | ⟨jobId, job, found, unaccepted⟩)
  · obtain ⟨_, _, job, stored, bound, completed, _⟩ := accepted.accepted digest row found
    rw [stored, Option.any_some] at unbound
    exact of_decide_eq_true unbound (decide_eq_true ⟨bound, completed⟩)
  · obtain ⟨completed, absent⟩ := of_decide_eq_true unaccepted
    obtain ⟨row, stored, named⟩ := accepted.completed jobId job found completed
    rw [stored, Option.any_some] at absent
    exact absent (decide_eq_true named)

end Bindings

section Lists

variable {α β : Type}

theorem mapM_eq_ok {f : α → Outcome β} {items : List α}
    (each : ∀ item ∈ items, ∃ made, f item = .ok made) :
    ∃ made, items.mapM f = .ok made ∧
      List.Forall₂ (fun item result => f item = .ok result) items made := by
  induction items with
  | nil => exact ⟨[], rfl, .nil⟩
  | cons item items ih =>
      obtain ⟨first, one⟩ := each item List.mem_cons_self
      obtain ⟨rest, others, pairs⟩ := ih fun other member => each other (List.mem_cons_of_mem _ member)
      refine ⟨first :: rest, ?_, .cons one pairs⟩
      rw [List.mapM_cons, one]
      exact bind_eq_ok.mpr ⟨first, rfl, bind_eq_ok.mpr ⟨rest, others, rfl⟩⟩

theorem exists_of_forall₂ {Related : α → β → Prop} {items : List α} {made : List β}
    (pairs : List.Forall₂ Related items made) {result : β} (member : result ∈ made) :
    ∃ item ∈ items, Related item result := by
  induction pairs with
  | nil => exact (List.not_mem_nil member).elim
  | cons related _ ih =>
      obtain rfl | inside := List.mem_cons.mp member
      · exact ⟨_, List.mem_cons_self, related⟩
      · obtain ⟨item, found, relates⟩ := ih inside
        exact ⟨item, List.mem_cons_of_mem _ found, relates⟩

theorem map_of_forall₂ {γ : Type} {Related : α → β → Prop} {items : List α} {made : List β}
    {left : α → γ} {right : β → γ} (pairs : List.Forall₂ Related items made)
    (same : ∀ item result, Related item result → right result = left item) :
    made.map right = items.map left := by
  induction pairs with
  | nil => rfl
  | cons related _ ih => rw [List.map_cons, List.map_cons, same _ _ related, ih]

theorem filter_eq_singleton {condition : α → Bool} {items : List α} {item : α}
    (distinct : items.Nodup) (member : item ∈ items) (holds : condition item = true)
    (only : ∀ other ∈ items, condition other = true → other = item) :
    items.filter condition = [item] := by
  refine List.perm_singleton.mp ((List.perm_ext_iff_of_nodup (distinct.filter _)
    (List.nodup_singleton item)).mpr fun other => ?_)
  rw [List.mem_filter, List.mem_singleton]
  constructor
  · rintro ⟨inside, passes⟩
    exact only other inside passes
  · rintro rfl
    exact ⟨member, holds⟩

end Lists

section Records

variable {interpreter : Interpreter} {tables : Tables} {records : List ApprovalRecord}

/-- The records of the table, each once. -/
structure ReadFrom (interpreter : Interpreter) (tables : Tables) (records : List ApprovalRecord) :
    Prop where
  distinct : records.Nodup
  member : ∀ record, record ∈ records ↔ ∃ row,
    tables.records.lookup record.recordHash.val = some row ∧
      Holds interpreter record.recordHash.val row record

theorem Chained.read (chained : Chained interpreter tables) : ∃ records,
    (tables.records.entries.mapM fun entry =>
      approvalRecord interpreter entry.1 entry.2 (bounded entry.2.scope)) = .ok records ∧
    ReadFrom interpreter tables records := by
  have held : ∀ entry ∈ tables.records.entries, ∃ record,
      Holds interpreter entry.1 entry.2 record := fun entry member =>
    chained.holds entry.1 entry.2 (AList.mem_lookup_iff.mpr member)
  obtain ⟨records, read, pairs⟩ := mapM_eq_ok fun entry member => by
    obtain ⟨record, holds⟩ := held entry member
    exact ⟨record, holds.read⟩
  have named : records.map (fun record => record.recordHash.val) = tables.records.keys :=
    map_of_forall₂ pairs fun entry record reads => approvalRecord_named reads
  refine ⟨records, read, List.Nodup.of_map _ (named ▸ tables.records.keys_nodup), fun record => ?_⟩
  constructor
  · intro member
    obtain ⟨entry, found, reads⟩ := exists_of_forall₂ pairs member
    obtain ⟨other, holds⟩ := held entry found
    obtain rfl := Except.ok.inj (holds.read.symm.trans reads)
    rw [holds.named]
    exact ⟨entry.2, AList.mem_lookup_iff.mpr found, holds⟩
  · rintro ⟨row, found, holds⟩
    have key : record.recordHash.val ∈ records.map fun record => record.recordHash.val := by
      rw [named]
      exact AList.mem_keys.mp (Table.mem_iff.mpr ⟨row, found⟩)
    obtain ⟨other, member, same⟩ := List.mem_map.mp key
    obtain ⟨entry, stored, reads⟩ := exists_of_forall₂ pairs member
    obtain ⟨again, others⟩ := held entry stored
    obtain rfl := Except.ok.inj (others.read.symm.trans reads)
    have line := AList.mem_lookup_iff.mpr stored
    rw [← others.named, same, found] at line
    obtain rfl := Option.some.inj line
    rw [← others.named, same] at others
    rw [holds.unique others]
    exact member

/-- The record that a row of a token holds is among the records of the token. -/
theorem ReadFrom.of_row (read : ReadFrom interpreter tables records) {recordHash : Str}
    {row : ApprovalRow} {record : ApprovalRecord}
    (found : tables.records.lookup recordHash = some row)
    (holds : Holds interpreter recordHash row record) : record ∈ records := by
  refine (read.member record).mpr ⟨row, ?_, ?_⟩
  · rw [holds.named, found]
  · rw [holds.named]
    exact holds

/-- A record with the hash of a row is the one that the row holds. -/
theorem ReadFrom.unique (read : ReadFrom interpreter tables records) {recordHash : Str}
    {row : ApprovalRow} {record other : ApprovalRecord}
    (found : tables.records.lookup recordHash = some row)
    (holds : Holds interpreter recordHash row record) (member : other ∈ records)
    (same : other.recordHash.val = recordHash) : other = record := by
  obtain ⟨line, stored, others⟩ := (read.member other).mp member
  rw [same, found] at stored
  obtain rfl := Option.some.inj stored
  rw [same] at others
  exact others.unique holds

theorem Holds.tokenDigest {recordHash : Str} {row : ApprovalRow} {record : ApprovalRecord}
    (holds : Holds interpreter recordHash row record) : row.tokenDigest = hex record.tokenDigest :=
  congrArg ApprovalRow.tokenDigest holds.columns

theorem Holds.state {recordHash : Str} {row : ApprovalRow} {record : ApprovalRecord}
    (holds : Holds interpreter recordHash row record) : row.state = record.state :=
  congrArg ApprovalRow.state holds.columns

/-- A successor row holds a record that follows the one of its root. -/
theorem Holds.follows {root recordHash : Str} {row : ApprovalRow} {state : ApprovalState}
    {changedAt : Int} {elder tip : ApprovalRecord} (older : Holds interpreter root row elder)
    (holds : Holds interpreter recordHash
      { row with state, changedAt, previousHash := some root } tip)
    (linked : tip.previousHash = some elder.recordHash) (closed : state ≠ .granted)
    (later : row.changedAt ≤ changedAt) : follows elder tip = true := by
  have one := older.columns
  have two := holds.columns
  have scopes : tip.scope = elder.scope := by
    have same := ApprovalScope.joined_of_canonical holds.encoded older.encoded
    rwa [holds.joined, older.joined] at same
  have issues : row.issuedAt = tip.issuedAt := congrArg ApprovalRow.issuedAt two
  have issued : row.issuedAt = elder.issuedAt := congrArg ApprovalRow.issuedAt one
  have expires : row.expiresAt = tip.expiresAt := congrArg ApprovalRow.expiresAt two
  have expired : row.expiresAt = elder.expiresAt := congrArg ApprovalRow.expiresAt one
  have moved : tip.state = state := holds.state.symm
  have stamped : tip.changedAt = changedAt := (congrArg ApprovalRow.changedAt two).symm
  have begun : elder.changedAt = row.changedAt := (congrArg ApprovalRow.changedAt one).symm
  refine decide_eq_true ⟨linked, ?_, scopes, issues.symm.trans issued,
    expires.symm.trans expired, ?_⟩
  · rw [moved]
    exact closed
  · rw [stamped, begun]
    exact later

/-- The records of a token as the loop finds them. -/
inductive Reads (history : List ApprovalRecord) (tip : ApprovalRecord) : Prop
  | root (all : history = [tip]) (first : tip.previousHash = none) (granted : tip.state = .granted)
      (changed : tip.changedAt = tip.issuedAt)
  | successor {root : ApprovalRecord} (roots : (history.filter fun record =>
        record.previousHash = none) = [root])
      (successors : (history.filter fun record => record.previousHash ≠ none) = [tip])
      (granted : root.state = .granted) (changed : root.changedAt = root.issuedAt)
      (followed : follows root tip = true)

theorem Chained.reads (chained : Chained interpreter tables)
    (read : ReadFrom interpreter tables records) {tokenDigest current : Str}
    (pointed : tables.tokens.lookup tokenDigest = some current) : ∃ row tip,
    tables.records.lookup current = some row ∧ Holds interpreter current row tip ∧
      hex tip.tokenDigest = tokenDigest ∧
      Reads (records.filter fun record => hex record.tokenDigest = tokenDigest) tip := by
  cases chained.history tokenDigest current pointed with
  | @root row found root only =>
      obtain ⟨tip, holds⟩ := chained.holds current row found
      have owned : hex tip.tokenDigest = tokenDigest := holds.tokenDigest.symm.trans root.token
      have first : tip.previousHash = none := by
        have column := congrArg ApprovalRow.previousHash holds.columns
        exact Option.map_eq_none_iff.mp (column.symm.trans root.first)
      refine ⟨row, tip, found, holds, owned, .root ?_ first (holds.state.symm.trans root.granted) ?_⟩
      · refine filter_eq_singleton read.distinct (read.of_row found holds) (decide_eq_true owned)
          fun other member same => ?_
        obtain ⟨line, stored, others⟩ := (read.member other).mp member
        exact read.unique found holds member (only _ line stored
          (others.tokenDigest.trans (of_decide_eq_true same)))
      · have columns := holds.columns
        have changed := root.changed
        rw [columns] at changed
        exact changed
  | @successor root row state changedAt found first followed closed later only =>
      obtain ⟨elder, older⟩ := chained.holds root row found
      obtain ⟨tip, holds⟩ := chained.holds current _ followed
      have owned : hex tip.tokenDigest = tokenDigest := holds.tokenDigest.symm.trans first.token
      have rooted : hex elder.tokenDigest = tokenDigest := older.tokenDigest.symm.trans first.token
      have start : elder.previousHash = none := by
        have column := congrArg ApprovalRow.previousHash older.columns
        exact Option.map_eq_none_iff.mp (column.symm.trans first.first)
      have linked : tip.previousHash = some elder.recordHash := by
        have column := congrArg ApprovalRow.previousHash holds.columns
        obtain ⟨digest, link, same⟩ := Option.map_eq_some_iff.mp column.symm
        rw [link, Subtype.ext (same.trans older.named.symm)]
      have opened := first.changed
      rw [older.columns] at opened
      have either : ∀ other ∈ records, hex other.tokenDigest = tokenDigest →
          other = elder ∨ other = tip := by
        intro other member same
        obtain ⟨line, stored, others⟩ := (read.member other).mp member
        obtain one | two := only _ line stored (others.tokenDigest.trans same)
        · exact .inl (read.unique found older member one)
        · exact .inr (read.unique followed holds member two)
      refine ⟨_, tip, followed, holds, owned, .successor ?_ ?_
        (older.state.symm.trans first.granted) opened (older.follows holds linked closed later)⟩
      · rw [List.filter_filter]
        refine filter_eq_singleton read.distinct (read.of_row found older) ?_
          fun other member same => ?_
        · rw [Bool.and_eq_true, decide_eq_true_iff, decide_eq_true_iff]
          exact ⟨start, rooted⟩
        · rw [Bool.and_eq_true, decide_eq_true_iff, decide_eq_true_iff] at same
          obtain rfl | rfl := either other member same.2
          · rfl
          · rw [linked] at same
            cases same.1
      · rw [List.filter_filter]
        refine filter_eq_singleton read.distinct (read.of_row followed holds) ?_
          fun other member same => ?_
        · rw [Bool.and_eq_true, decide_eq_true_iff, decide_eq_true_iff, linked]
          exact ⟨Option.some_ne_none _, owned⟩
        · rw [Bool.and_eq_true, decide_eq_true_iff, decide_eq_true_iff] at same
          obtain rfl | rfl := either other member same.2
          · exact absurd start same.1
          · rfl

/-- Such a history passes, where a consumed approval has its job to itself. -/
theorem Reads.checked {history : List ApprovalRecord} {tip : ApprovalRecord} {tokenDigest : Str}
    {consumedJobs : List Str} (reads : Reads history tip)
    (pointed : tables.tokens.lookup tokenDigest = some tip.recordHash.val)
    (bound : tip.state = .consumed → tip.scope.jobId ∉ consumedJobs ∧ Storable tip.scope.jobId ∧
      reservedFor tables tip = true) :
    checkHistory tables consumedJobs tokenDigest history =
      .ok (if tip.state = .consumed then tip.scope.jobId :: consumedJobs else consumedJobs) := by
  cases reads with
  | root all first granted changed =>
      have unconsumed : tip.state ≠ .consumed := by
        rw [granted]
        decide
      have roots : [tip].filter (fun record => record.previousHash = none) = [tip] := by
        simp [first]
      have successors : [tip].filter (fun record => record.previousHash ≠ none) = [] := by
        simp [first]
      rw [if_neg unconsumed, all]
      unfold checkHistory
      rw [roots]
      dsimp only
      rw [successors]
      refine guarded_eq_ok.mpr ⟨not_or.mpr ⟨not_not.mpr granted, not_not.mpr changed⟩,
        guarded_eq_ok.mpr ⟨by simp, guarded_eq_ok.mpr ⟨not_not.mpr pointed, if_pos unconsumed⟩⟩⟩
  | @successor root roots successors granted changed followed =>
      unfold checkHistory
      rw [roots]
      dsimp only
      rw [successors]
      refine guarded_eq_ok.mpr ⟨not_or.mpr ⟨not_not.mpr granted, not_not.mpr changed⟩,
        guarded_eq_ok.mpr ⟨by simp [followed], guarded_eq_ok.mpr ⟨not_not.mpr pointed, ?_⟩⟩⟩
      rw [List.head?_cons, Option.getD_some]
      by_cases consumed : tip.state = .consumed
      · obtain ⟨alone, carried, reserved⟩ := bound consumed
        rw [if_neg (not_not.mpr consumed), if_pos consumed]
        refine guarded_eq_ok.mpr ⟨alone, bind_eq_ok.mpr ⟨(), parameters_eq_ok.mpr ?_,
          guarded_eq_ok.mpr ⟨not_not.mpr reserved, rfl⟩⟩⟩
        exact List.forall_mem_singleton.mpr carried
      · rw [if_pos consumed, if_neg consumed]
        rfl

/-- The job that a consumed record is for passes. -/
theorem Coherent.reservedFor (coherent : Coherent interpreter tables) {current : Str}
    {record : ApprovalRecord} (consumed : Consumed interpreter tables current record) :
    Storable record.scope.jobId ∧ reservedFor tables record = true := by
  obtain ⟨job, found, binds⟩ := coherent.spent.bound current record consumed
  refine ⟨coherent.queued.named _ (Table.mem_iff.mpr ⟨job, found⟩), ?_⟩
  have settled : job.state ≠ .pendingApproval := by
    intro waits
    have running := binds.running
    rw [waits] at running
    cases running
  rw [Database.reservedFor, found, Option.any_some]
  exact decide_eq_true ⟨binds.bound, binds.running, binds.reserved, binds.expires,
    AList.lookup_eq_none.mp (coherent.queued.absent found settled)⟩

/-- The jobs that were found are those of the tokens that the loop has passed. -/
def Found (interpreter : Interpreter) (tables : Tables) (tokenDigests : List Str)
    (consumedJobs : List Str) : Prop :=
  ∀ jobId ∈ consumedJobs, ∃ recordHash record, Consumed interpreter tables recordHash record ∧
    record.scope.jobId = jobId ∧ hex record.tokenDigest ∉ tokenDigests

theorem Coherent.checkHistories (coherent : Coherent interpreter tables)
    (read : ReadFrom interpreter tables records) {tokenDigests consumedJobs : List Str}
    (distinct : tokenDigests.Nodup) (pointed : ∀ tokenDigest ∈ tokenDigests,
      tokenDigest ∈ tables.tokens) (found : Found interpreter tables tokenDigests consumedJobs) :
    checkHistories tables records consumedJobs tokenDigests = .ok () := by
  induction tokenDigests generalizing consumedJobs with
  | nil => rfl
  | cons tokenDigest tokenDigests ih =>
      obtain ⟨apart, distinct⟩ := List.nodup_cons.mp distinct
      obtain ⟨here, later⟩ := List.forall_mem_cons.mp pointed
      obtain ⟨current, pointer⟩ := Table.mem_iff.mp here
      obtain ⟨row, tip, stored, holds, owned, reads⟩ := coherent.chained.reads read pointer
      have spent (consumed : tip.state = .consumed) : Consumed interpreter tables current tip :=
        ⟨⟨row, stored, holds⟩, consumed⟩
      have passed := reads.checked (by rw [holds.named]; exact pointer) fun consumed => by
        refine ⟨fun member => ?_, coherent.reservedFor (spent consumed)⟩
        obtain ⟨other, held, before, same, passed⟩ := found _ member
        obtain rfl := coherent.spent.once other held current tip before (spent consumed) same
        obtain ⟨⟨line, again, holding⟩, _⟩ := before
        obtain rfl := Option.some.inj (stored.symm.trans again)
        rw [holding.unique holds, owned] at passed
        exact passed List.mem_cons_self
      rw [Database.checkHistories, passed]
      refine ih distinct later fun jobId member => ?_
      have older : jobId ∈ consumedJobs → ∃ recordHash record,
          Consumed interpreter tables recordHash record ∧ record.scope.jobId = jobId ∧
            hex record.tokenDigest ∉ tokenDigests := by
        intro seen
        obtain ⟨other, held, before, same, outside⟩ := found jobId seen
        exact ⟨other, held, before, same, fun inside => outside (List.mem_cons_of_mem _ inside)⟩
      split_ifs at member with consumed
      · obtain rfl | seen := List.mem_cons.mp member
        · exact ⟨current, tip, spent consumed, rfl, by rwa [owned]⟩
        · exact older seen
      · exact older member

theorem Coherent.checkApprovals (coherent : Coherent interpreter tables) :
    checkApprovals interpreter tables = .ok () := by
  obtain ⟨records, done, read⟩ := coherent.chained.read
  have tokens (tokenDigest : Str) : tokenDigest ∈ tokensOf records ↔
      ∃ record ∈ records, hex record.tokenDigest = tokenDigest := by
    rw [tokensOf, List.mem_reverse, List.mem_dedup, List.mem_reverse, List.mem_map]
  have pointed : ∀ tokenDigest ∈ tokensOf records, tokenDigest ∈ tables.tokens := by
    intro tokenDigest member
    obtain ⟨record, inside, rfl⟩ := (tokens tokenDigest).mp member
    obtain ⟨row, found, holds⟩ := (read.member record).mp inside
    rw [← holds.tokenDigest]
    exact coherent.chained.pointed _ row found
  have named : ∀ tokenDigest ∈ tables.tokens.keys, tokenDigest ∈ tokensOf records := by
    intro tokenDigest member
    obtain ⟨current, pointer⟩ := Table.mem_iff.mp (AList.mem_keys.mpr member)
    obtain ⟨row, tip, found, holds, owned, _⟩ := coherent.chained.reads read pointer
    exact (tokens tokenDigest).mpr ⟨tip, read.of_row found holds, owned⟩
  refine bind_eq_ok.mpr ⟨records, done, guarded_eq_ok.mpr
    ⟨not_not.mpr ⟨pointed, named⟩, coherent.checkHistories read ?_ pointed ?_⟩⟩
  · exact List.nodup_reverse.mpr (List.nodup_dedup _)
  · exact fun jobId member => (List.not_mem_nil member).elim

end Records

section Queue

variable {interpreter : Interpreter} {policy : Policy} {verifier : HandoffVerifier}
  {before after : Tables} {transaction : Transaction}

section Current

variable {wire : Option Bytes} {subject jobId : Str} {now later : Int} {handoff : Handoff}

/-- What is read while it is current is read at any time at which it is. -/
theorem fromObject_current {fields : List (Str × Value)} {allowPending : Bool}
    (checked : fromObject fields ⟨subject, jobId, policy, now⟩ verifier allowPending = .ok handoff)
    (started : handoff.issuedAt ≤ later) (running : later < handoff.expiresAt) :
    fromObject fields ⟨subject, jobId, policy, later⟩ verifier allowPending = .ok handoff := by
  obtain ⟨named, grant, granted, shaped, hashed, hexadecimal, signed, matched, _, _, pending⟩ :=
    fromObject_eq_ok.mp checked
  obtain ⟨version, job, user, orchestrator, worker, tier, tools, sandbox, state, policyVersion,
    expires⟩ := matched
  exact fromObject_eq_ok.mpr ⟨named, grant, granted, shaped, hashed, hexadecimal, signed,
    ⟨version, job, user, orchestrator, worker, tier, tools, sandbox, state, policyVersion, expires⟩,
    started, running, pending⟩

theorem validate_current
    (validated : validate interpreter wire ⟨subject, jobId, policy, now⟩ verifier = .ok handoff)
    (started : handoff.issuedAt ≤ later) (running : later < handoff.expiresAt) :
    validate interpreter wire ⟨subject, jobId, policy, later⟩ verifier = .ok handoff := by
  obtain ⟨fields, decoded, checked⟩ := bind_eq_ok.mp validated
  exact bind_eq_ok.mpr ⟨fields, decoded, fromObject_current checked started running⟩

theorem validatePending_current
    (validated : validatePending interpreter wire ⟨subject, jobId, policy, now⟩ verifier =
      .ok handoff)
    (started : handoff.issuedAt ≤ later) (running : later < handoff.expiresAt) :
    validatePending interpreter wire ⟨subject, jobId, policy, later⟩ verifier = .ok handoff := by
  obtain ⟨fields, decoded, validated⟩ := bind_eq_ok.mp validated
  obtain ⟨found, checked, validated⟩ := bind_eq_ok.mp validated
  obtain ⟨waits, same⟩ := guarded_eq_ok.mp validated
  obtain rfl := pure_eq_ok.mp same
  exact bind_eq_ok.mpr ⟨fields, decoded, bind_eq_ok.mpr
    ⟨found, fromObject_current checked started running, validated⟩⟩

/-- What validates while it is current validates at the time it was issued. -/
theorem validatePending_issuance
    (validated : validatePending interpreter wire ⟨subject, jobId, policy, now⟩ verifier =
      .ok handoff) :
    validatePending interpreter wire ⟨subject, jobId, policy, handoff.issuedAt⟩ verifier =
      .ok handoff := by
  obtain ⟨started, running⟩ := (validatePending_validated validated).current
  exact validatePending_current validated le_rfl (started.trans_lt running)

end Current

/-- The wires of the queue validate at the times their jobs were created. -/
def Issued (interpreter : Interpreter) (policy : Policy) (verifier : HandoffVerifier)
    (tables : Tables) : Prop :=
  ∀ jobId row, tables.pending.lookup jobId = some row → ∃ job handoff,
    tables.jobs.lookup jobId = some job ∧
      validatePending interpreter (some row.wire) ⟨row.subject, jobId, policy, job.createdAt⟩
        verifier = .ok handoff ∧
      handoff.issuedAt = job.createdAt ∧ handoff.toBytes = row.wire ∧
        handoff.expiresAt = row.expiresAt

/-- The trusted policy and the public verifier of every instance are these. -/
def Transaction.Under (policy : Policy) (verifier : HandoffVerifier) : Transaction → Prop
  | .add held checker _ _ _ => held = policy ∧ checker = verifier
  | _ => True

theorem Issued.kept (issued : Issued interpreter policy verifier before)
    (kept : ∀ jobId row, after.pending.lookup jobId = some row →
      before.pending.lookup jobId = some row ∧
        after.jobs.lookup jobId = before.jobs.lookup jobId) :
    Issued interpreter policy verifier after := by
  intro jobId row found
  obtain ⟨older, same⟩ := kept jobId row found
  rw [same]
  exact issued jobId row older

/-- A job that leaves the queue, or is not in it, may change its row. -/
theorem Issued.settled (issued : Issued interpreter policy verifier before) {jobId : Str}
    {row : JobRow} (jobs : after.jobs = before.jobs.insert jobId row)
    (left : ∀ other, after.pending.lookup other =
      if other = jobId then none else before.pending.lookup other) :
    Issued interpreter policy verifier after := by
  refine issued.kept fun other held found => ?_
  rw [left] at found
  rw [jobs, Table.lookup_insert_eq]
  split_ifs at found with same
  exact ⟨found, if_neg same⟩

theorem Issued.added {jobId : Str} {waiting : Wiring.Waiting} {now : Int}
    (issued : Issued interpreter policy verifier before)
    (validated : validatePending interpreter (some waiting.wire)
      ⟨waiting.subject, jobId, policy, now⟩ verifier = .ok waiting.handoff) :
    Issued interpreter policy verifier { before with
      jobs := before.jobs.insert jobId (waitingJob waiting now)
      pending := before.pending.insert jobId (waitingRow waiting) } := by
  intro other row found
  rw [Table.lookup_insert_eq] at found
  split_ifs at found with same
  · obtain rfl := Option.some.inj found
    obtain ⟨data, wired, encoded⟩ := (validatePending_validated validated).encoded
    obtain ⟨_, _, written⟩ := canonical_eq_ok.mp encoded
    rw [same]
    exact ⟨_, waiting.handoff, AList.lookup_insert _, validatePending_issuance validated, rfl,
      written.symm.trans (Option.some.inj wired).symm, rfl⟩
  · obtain ⟨job, handoff, stored, rest⟩ := issued other row found
    exact ⟨job, handoff, (AList.lookup_insert_ne same).trans stored, rest⟩

theorem Issued.effect (issued : Issued interpreter policy verifier before) (queued : Queued before)
    (under : transaction.Under policy verifier)
    (effect : Effect interpreter before transaction after) :
    Issued interpreter policy verifier after := by
  have frame {tables : Tables} (jobs : tables.jobs = before.jobs)
      (pending : tables.pending = before.pending) : Issued interpreter policy verifier tables :=
    issued.kept fun jobId row found => ⟨by rwa [pending] at found, by rw [jobs]⟩
  cases effect with
  | add validated =>
      obtain ⟨rfl, rfl⟩ := under
      exact issued.added validated
  | refuse => exact issued.settled rfl (Table.lookup_erase_eq ·)
  | consume => exact issued.settled rfl (Table.lookup_erase_eq ·)
  | grant => exact frame rfl rfl
  | revoke => exact frame rfl rfl
  | burned => exact issued
  | admitted => exact issued
  | replayed => exact issued
  | reserve fresh =>
      refine issued.settled rfl (lookup_of_absent (AList.lookup_eq_none.mpr fun present => fresh ?_))
      obtain ⟨row, held⟩ := Table.mem_iff.mp present
      obtain ⟨job, stored, _⟩ := queued.queued _ row held
      exact Table.mem_iff.mpr ⟨job, stored⟩
  | commit found _ open_ =>
      exact issued.settled rfl (lookup_of_absent (queued.absent found (by rw [open_]; decide)))
  | accept _ _ found _ committed =>
      exact issued.settled rfl (lookup_of_absent (queued.absent found (by rw [committed]; decide)))

theorem Issued.checked (issued : Issued interpreter policy verifier before)
    (queued : Queued before) :
    PostgresPendingJobs.check interpreter policy verifier before = .ok () := by
  have agree : ¬ ((before.jobs.any fun jobId job =>
      job.state = .pendingApproval ∧ jobId ∉ before.pending) ||
      before.pending.any fun jobId _ =>
        ¬ (before.jobs.lookup jobId).any fun job => job.state = .pendingApproval) = true := by
    rw [Bool.or_eq_true, Table.any_eq_true, Table.any_eq_true]
    rintro (⟨jobId, job, found, waits⟩ | ⟨jobId, row, found, settled⟩)
    · obtain ⟨state, absent⟩ := of_decide_eq_true waits
      exact absent (queued.waiting jobId job found state)
    · obtain ⟨job, stored, waits⟩ := queued.queued jobId row found
      rw [stored, Option.any_some] at settled
      exact of_decide_eq_true settled (decide_eq_true waits.state)
  have each : ∀ entry ∈ before.pending.entries, ∃ made,
      PostgresPendingJobs.joined interpreter policy verifier before entry.1 entry.2 =
        .ok made := by
    intro entry member
    have found := AList.mem_lookup_iff.mpr member
    obtain ⟨job, stored, waits⟩ := queued.queued entry.1 entry.2 found
    obtain ⟨other, handoff, again, validated, created, written, expires⟩ :=
      issued entry.1 entry.2 found
    obtain rfl := Option.some.inj (stored.symm.trans again)
    refine ⟨some ⟨entry.2.subject, entry.2.wire, handoff, entry.2.traceId, 0⟩, ?_⟩
    unfold PostgresPendingJobs.joined
    rw [stored]
    dsimp only
    unfold PostgresPendingJobs.waiting
    rw [bounded_of_short waits.short]
    dsimp only
    rw [if_neg ?_, validated]
    · have binds : ¬ (handoff.issuedAt ≠ job.createdAt ∨ handoff.toBytes ≠ entry.2.wire ∨
          handoff.expiresAt ≠ entry.2.expiresAt) := by
        rw [created, written, expires]
        simp
      simp only [bind, Except.bind, if_neg binds]
      rfl
    · rw [waits.state, waits.subject, waits.expires, waits.wired, waits.traced]
      simp
  obtain ⟨made, done, _⟩ := mapM_eq_ok each
  unfold PostgresPendingJobs.check
  dsimp only
  exact (if_neg agree).trans (bind_eq_ok.mpr ⟨made, done, rfl⟩)

end Queue

end GeniusNew.Database
