import GeniusNew.Database.History
import GeniusNew.Transition.Once

/-! # The tables agree

What holds between the tables after any transactions in any order. A consumed
approval has exactly one job, which left the queue when it was consumed; current
grants of one scope never overlap in time; and a job leaves the queue once and is
committed to execution once.
-/

namespace GeniusNew.Database

open Json Orchestrator Transition

variable {interpreter : Interpreter} {before after : Tables} {transaction : Transaction}

/-- A job that was reserved for its execution. -/
def JobState.running : JobState → Bool
  | .reserved | .executionCommitted | .completed => true
  | .pendingApproval | .refused => false

/-- The job of a consumed approval. -/
structure Binds (record : ApprovalRecord) (job : JobRow) : Prop where
  bound : job.handoffSha256 = record.scope.handoffSha256.val
  running : job.state.running = true
  reserved : job.reservedAt = some record.changedAt
  expires : job.expiresAt = record.scope.handoffExpiresAt

/-- A row holds a consumed record. -/
structure Consumed (interpreter : Interpreter) (tables : Tables) (recordHash : Str)
    (record : ApprovalRecord) : Prop where
  stored : ∃ row, tables.records.lookup recordHash = some row ∧
    Holds interpreter recordHash row record
  consumed : record.state = .consumed

/-- Every consumed approval has its job, and no job has two. -/
structure Spent (interpreter : Interpreter) (tables : Tables) : Prop where
  bound : ∀ recordHash record, Consumed interpreter tables recordHash record →
    ∃ job, tables.jobs.lookup record.scope.jobId = some job ∧ Binds record job
  once : ∀ recordHash record other held, Consumed interpreter tables recordHash record →
    Consumed interpreter tables other held → record.scope.jobId = held.scope.jobId →
    recordHash = other

theorem Consumed.frame {recordHash : Str} {record : ApprovalRecord}
    (consumed : Consumed interpreter after recordHash record)
    (records : after.records = before.records) : Consumed interpreter before recordHash record := by
  obtain ⟨⟨row, found, holds⟩, state⟩ := consumed
  exact ⟨⟨row, by rwa [records] at found, holds⟩, state⟩

/-- A record that is not consumed adds no consumed record. -/
theorem Consumed.older {recordHash added : Str} {row : ApprovalRow} {record : ApprovalRecord}
    (consumed : Consumed interpreter after recordHash record)
    (records : after.records = before.records.insert added row) (open_ : row.state ≠ .consumed) :
    Consumed interpreter before recordHash record := by
  obtain ⟨⟨held, found, holds⟩, state⟩ := consumed
  rw [records, Table.lookup_insert_eq] at found
  split_ifs at found with same
  · obtain rfl := Option.some.inj found
    have columns := congrArg ApprovalRow.state holds.columns
    exact absurd (columns.trans state) open_
  · exact ⟨⟨held, found, holds⟩, state⟩

/-- The row of a job changes without losing what its approval is bound to. -/
theorem Spent.moved (spent : Spent interpreter before) {jobId : Str} {row : JobRow}
    (jobs : after.jobs = before.jobs.insert jobId row)
    (older : ∀ recordHash record, Consumed interpreter after recordHash record →
      Consumed interpreter before recordHash record)
    (kept : ∀ job, before.jobs.lookup jobId = some job → job.state.running = true →
      row.state.running = true ∧ row.handoffSha256 = job.handoffSha256 ∧
        row.reservedAt = job.reservedAt ∧ row.expiresAt = job.expiresAt) :
    Spent interpreter after := by
  constructor
  · intro recordHash record consumed
    obtain ⟨job, found, binds⟩ := spent.bound recordHash record (older _ _ consumed)
    rw [jobs, Table.lookup_insert_eq]
    split_ifs with same
    · obtain ⟨running, bound, reserved, expires⟩ := kept job (same ▸ found) binds.running
      exact ⟨row, rfl, bound.trans binds.bound, running, reserved.trans binds.reserved,
        expires.trans binds.expires⟩
    · exact ⟨job, found, binds⟩
  · intro recordHash record other held one two
    exact spent.once recordHash record other held (older _ _ one) (older _ _ two)

theorem Spent.frame (spent : Spent interpreter before) (jobs : after.jobs = before.jobs)
    (older : ∀ recordHash record, Consumed interpreter after recordHash record →
      Consumed interpreter before recordHash record) : Spent interpreter after := by
  constructor
  · intro recordHash record consumed
    rw [jobs]
    exact spent.bound recordHash record (older _ _ consumed)
  · intro recordHash record other held one two
    exact spent.once recordHash record other held (older _ _ one) (older _ _ two)

/-- The scope of the record that an approval is consumed through. -/
theorem Succeeds.scope {token : Bytes} {scope : ApprovalScope} {now : Int} {state : ApprovalState}
    {current : Str} {row : ApprovalRow} {record updated : ApprovalRecord} {raw : Bytes}
    (chained : Chained interpreter before)
    (succeeds : Succeeds interpreter before token scope now state current row record updated raw) :
    updated.scope = scope.joined := by
  have joined := (succeeds.holds chained).joined
  have entry := ApprovalStore.record_eq_ok succeeds.written
  rw [← ApprovalScope.joined_of_scopeMatches succeeds.matched, joined, entry]

theorem Spent.consumed (spent : Spent interpreter before) (chained : Chained interpreter before)
    {token : Bytes} {scope : ApprovalScope} {now : Int} {current : Str} {row : ApprovalRow}
    {record updated : ApprovalRecord} {raw : Bytes} {job : JobRow}
    (succeeds : Succeeds interpreter before token scope now .consumed current row record updated
      raw)
    (carried : Storable scope.jobId) (found : before.jobs.lookup scope.jobId = some job)
    (waits : job.state = .pendingApproval) (bound : job.handoffSha256 = scope.handoffSha256.val)
    (expires : job.expiresAt = scope.handoffExpiresAt) :
    Spent interpreter ((before.recorded (hex (Sha256.digest token)) updated.recordHash.val
      (approvalRow updated raw)).dequeued scope.jobId
        { job with state := .reserved, reservedAt := some now, updatedAt := now }) := by
  have scopes := succeeds.scope chained
  have named : updated.scope.jobId = scope.jobId := by
    rw [scopes]
    exact joinSurrogates_of_encodable carried.1
  have changed : updated.changedAt = now := by
    rw [ApprovalStore.record_eq_ok succeeds.written]
  obtain ⟨_, stored⟩ := succeeds.columns chained
  -- a consumed record is the new one, or one that was there before and of another job
  have cases_ : ∀ recordHash held, Consumed interpreter
      ((before.recorded (hex (Sha256.digest token)) updated.recordHash.val
        (approvalRow updated raw)).dequeued scope.jobId
          { job with state := .reserved, reservedAt := some now, updatedAt := now })
        recordHash held →
      (recordHash = updated.recordHash.val ∧ held = updated) ∨
        (Consumed interpreter before recordHash held ∧ held.scope.jobId ≠ scope.jobId) := by
    rintro recordHash held ⟨⟨line, present, holds⟩, state⟩
    have split := (Table.lookup_insert_eq recordHash).symm.trans present
    split_ifs at split with same
    · obtain rfl := Option.some.inj split
      rw [same] at holds
      exact .inl ⟨same, holds.unique stored⟩
    · have older : Consumed interpreter before recordHash held := ⟨⟨line, split, holds⟩, state⟩
      refine .inr ⟨older, fun equal => ?_⟩
      obtain ⟨other, there, binds⟩ := spent.bound recordHash held older
      rw [equal, found] at there
      obtain rfl := Option.some.inj there
      have running := binds.running
      rw [waits] at running
      cases running
  constructor
  · intro recordHash held consumed
    obtain ⟨_, rfl⟩ | ⟨older, apart⟩ := cases_ recordHash held consumed
    · rw [named]
      refine ⟨_, AList.lookup_insert _, ?_, rfl, ?_, ?_⟩
      · rw [scopes]
        exact bound
      · rw [changed]
      · rw [scopes]
        exact expires
    · obtain ⟨other, there, binds⟩ := spent.bound recordHash held older
      exact ⟨other, (AList.lookup_insert_ne apart).trans there, binds⟩
  · intro recordHash held other line one two same
    obtain ⟨first, rfl⟩ | ⟨older, apart⟩ := cases_ recordHash held one
    · obtain ⟨second, rfl⟩ | ⟨_, different⟩ := cases_ other line two
      · exact first.trans second.symm
      · exact absurd (same.symm.trans named) different
    · obtain ⟨_, rfl⟩ | ⟨elder, _⟩ := cases_ other line two
      · exact absurd (same.trans named) apart
      · exact spent.once recordHash held other line older elder same

theorem Spent.effect (spent : Spent interpreter before) (chained : Chained interpreter before)
    (effect : Effect interpreter before transaction after) : Spent interpreter after := by
  have unchanged {tables : Tables} (records : tables.records = before.records) :
      ∀ recordHash record, Consumed interpreter tables recordHash record →
        Consumed interpreter before recordHash record :=
    fun recordHash record consumed => consumed.frame records
  have new {jobId : Str} {row : JobRow} (fresh : jobId ∉ before.jobs) :
      ∀ job, before.jobs.lookup jobId = some job → job.state.running = true →
        row.state.running = true ∧ row.handoffSha256 = job.handoffSha256 ∧
          row.reservedAt = job.reservedAt ∧ row.expiresAt = job.expiresAt :=
    fun job found => absurd (Table.mem_iff.mpr ⟨job, found⟩) fresh
  cases effect with
  | add _ _ _ fresh => exact spent.moved rfl (unchanged rfl) (new fresh)
  | refuse found waits =>
      refine spent.moved rfl (unchanged rfl) fun other same running => ?_
      obtain rfl := Option.some.inj (found.symm.trans same)
      rw [waits] at running
      cases running
  | grant grants =>
      refine spent.frame rfl fun recordHash record consumed => consumed.older rfl ?_
      rw [grants.root.granted]
      decide
  | revoke succeeds =>
      refine spent.frame rfl fun recordHash record consumed => consumed.older rfl ?_
      rw [(succeeds.columns chained).1]
      exact fun same => nomatch same
  | consume succeeds carried found waits _ bound expires =>
      exact spent.consumed chained succeeds carried found waits bound expires
  | burned => exact spent
  | admitted => exact spent
  | replayed => exact spent
  | reserve fresh => exact spent.moved rfl (unchanged rfl) (new fresh)
  | commit found =>
      refine spent.moved rfl (unchanged rfl) fun other same _ => ?_
      obtain rfl := Option.some.inj (found.symm.trans same)
      exact ⟨rfl, rfl, rfl, rfl⟩
  | accept _ _ found =>
      refine spent.moved rfl (unchanged rfl) fun other same _ => ?_
      obtain rfl := Option.some.inj (found.symm.trans same)
      exact ⟨rfl, rfl, rfl, rfl⟩

/-- The current record of a token is granted. -/
structure Open (tables : Tables) (tokenDigest : Str) (row : ApprovalRow) : Prop where
  current : ∃ recordHash, tables.tokens.lookup tokenDigest = some recordHash ∧
    tables.records.lookup recordHash = some row
  granted : row.state = .granted

/-- Two current grants of one scope are never valid at one time. -/
def Exclusive (tables : Tables) : Prop :=
  ∀ one row two other, Open tables one row → Open tables two other → row.scope = other.scope →
    one = two ∨ row.expiresAt ≤ other.issuedAt ∨ other.expiresAt ≤ row.issuedAt

theorem Exclusive.frame (exclusive : Exclusive before) (records : after.records = before.records)
    (tokens : after.tokens = before.tokens) : Exclusive after := by
  have older {tokenDigest : Str} {row : ApprovalRow} (open_ : Open after tokenDigest row) :
      Open before tokenDigest row := by
    obtain ⟨current, granted⟩ := open_
    exact ⟨by rwa [records, tokens] at current, granted⟩
  exact fun one row two other first second same => exclusive one row two other (older first)
    (older second) same

/-- A current grant after a record was written is its row or was there before. -/
theorem Open.older (chained : Chained interpreter before) {tokenDigest recordHash other : Str}
    {row held : ApprovalRow} (records : after.records = before.records.insert recordHash row)
    (tokens : after.tokens = before.tokens.insert tokenDigest recordHash)
    (fresh : recordHash ∉ before.records) (open_ : Open after other held) :
    (other = tokenDigest ∧ held = row) ∨ Open before other held := by
  obtain ⟨⟨current, pointed, found⟩, granted⟩ := open_
  rw [tokens, Table.lookup_insert_eq] at pointed
  rw [records, Table.lookup_insert_eq] at found
  split_ifs at pointed with same
  · obtain rfl := Option.some.inj pointed
    rw [if_pos rfl] at found
    exact .inl ⟨same, (Option.some.inj found).symm⟩
  · obtain ⟨line, stored, _⟩ := (chained.history other current pointed).current
    have apart : current ≠ recordHash := fun equal =>
      fresh (Table.mem_iff.mpr ⟨line, equal ▸ stored⟩)
    rw [if_neg apart] at found
    exact .inr ⟨⟨current, pointed, found⟩, granted⟩

/-- A change only closes. -/
theorem Exclusive.closed (exclusive : Exclusive before) (chained : Chained interpreter before)
    {tokenDigest recordHash : Str} {row : ApprovalRow}
    (records : after.records = before.records.insert recordHash row)
    (tokens : after.tokens = before.tokens.insert tokenDigest recordHash)
    (fresh : recordHash ∉ before.records) (closed : row.state ≠ .granted) : Exclusive after := by
  have older {other : Str} {held : ApprovalRow} (open_ : Open after other held) :
      Open before other held := by
    obtain ⟨_, rfl⟩ | older := open_.older chained records tokens fresh
    · exact absurd open_.granted closed
    · exact older
  exact fun one row two other first second same => exclusive one row two other (older first)
    (older second) same

/-- A scope that has a valid grant gets no other. -/
theorem Exclusive.granted (exclusive : Exclusive before) (chained : Chained interpreter before)
    {scope : ApprovalScope} {created : Bool} {now ttlSeconds : Int} {drawn : Option Bytes}
    {token : Bytes} {record : ApprovalRecord} {raw : Bytes}
    (grants : Grants interpreter before scope created now ttlSeconds drawn token record raw) :
    Exclusive (before.recorded (hex record.tokenDigest) record.recordHash.val
      (approvalRow record raw)) := by
  obtain ⟨_, _, _, _, _, entry, _⟩ := newGrant_eq_ok grants.minted
  have issued : (approvalRow record raw).issuedAt = now := by rw [approvalRow, entry]
  have ended {tokenDigest : Str} {row : ApprovalRow} (open_ : Open before tokenDigest row)
      (same : row.scope = raw) : row.expiresAt ≤ now := by
    obtain ⟨⟨current, pointed, found⟩, granted⟩ := open_
    have inactive := Table.any_eq_false.mp grants.inactive tokenDigest current pointed
    obtain ⟨line, stored, owned⟩ := (chained.history tokenDigest current pointed).current
    obtain rfl := Option.some.inj (found.symm.trans stored)
    rw [found, Option.any_some, decide_eq_false_iff_not] at inactive
    exact not_lt.mp fun later => inactive ⟨owned, same, granted, later⟩
  intro one row two other first second same
  obtain ⟨rfl, rfl⟩ | elder := first.older chained rfl rfl grants.fresh
  · obtain ⟨rfl, _⟩ | older := second.older chained rfl rfl grants.fresh
    · exact .inl rfl
    · exact .inr (.inr (by rw [issued]; exact ended older same.symm))
  · obtain ⟨rfl, rfl⟩ | older := second.older chained rfl rfl grants.fresh
    · exact .inr (.inl (by rw [issued]; exact ended elder same))
    · exact exclusive one row two other elder older same

theorem Exclusive.effect (exclusive : Exclusive before) (chained : Chained interpreter before)
    (effect : Effect interpreter before transaction after) : Exclusive after := by
  cases effect with
  | grant grants => exact exclusive.granted chained grants
  | revoke succeeds =>
      refine exclusive.closed chained rfl rfl succeeds.fresh ?_
      rw [(succeeds.columns chained).1]
      exact fun same => nomatch same
  | consume succeeds =>
      refine exclusive.closed chained rfl rfl succeeds.fresh ?_
      rw [(succeeds.columns chained).1]
      exact fun same => nomatch same
  | add => exact exclusive.frame rfl rfl
  | refuse => exact exclusive.frame rfl rfl
  | burned => exact exclusive
  | admitted => exact exclusive
  | replayed => exact exclusive
  | reserve => exact exclusive.frame rfl rfl
  | commit => exact exclusive.frame rfl rfl
  | accept => exact exclusive.frame rfl rfl

/-- What holds of the tables between any two transactions. -/
structure Coherent (interpreter : Interpreter) (tables : Tables) : Prop where
  queued : Queued tables
  accepted : Accepted tables
  chained : Chained interpreter tables
  spent : Spent interpreter tables
  exclusive : Exclusive tables

theorem coherent_empty : Coherent interpreter Tables.empty := by
  have absent {Row : Type} {key : Str} {row : Row} : (∅ : Table Row).lookup key ≠ some row := by
    rw [AList.lookup_empty]
    exact fun same => nomatch same
  constructor
  · exact ⟨fun _ _ found => absurd found absent, fun _ _ found => absurd found absent,
      fun _ member => absurd member (AList.notMem_empty _)⟩
  · exact ⟨fun _ _ found => absurd found absent, fun _ _ found => absurd found absent⟩
  · exact ⟨fun _ _ found => absurd found absent, fun _ _ found => absurd found absent,
      fun _ _ found => absurd found absent⟩
  · have unspent {recordHash : Str} {record : ApprovalRecord} :
        ¬ Consumed interpreter Tables.empty recordHash record := by
      rintro ⟨⟨row, found, _⟩, _⟩
      exact absurd found absent
    exact ⟨fun _ _ consumed => absurd consumed unspent,
      fun _ _ _ _ consumed => absurd consumed unspent⟩
  · rintro one row two other ⟨⟨current, pointed, _⟩, _⟩
    exact absurd pointed absent

theorem Coherent.effect (coherent : Coherent interpreter before)
    (effect : Effect interpreter before transaction after) : Coherent interpreter after where
  queued := coherent.queued.effect effect
  accepted := coherent.accepted.effect effect
  chained := coherent.chained.effect effect
  spent := coherent.spent.effect coherent.chained effect
  exclusive := coherent.exclusive.effect coherent.chained effect

theorem Coherent.run {transactions : List Transaction} (coherent : Coherent interpreter before)
    (ran : Transition.run (step interpreter) before transactions = some after) :
    Coherent interpreter after :=
  run_invariant (Coherent interpreter)
    (fun _ _ _ _ holds stepped => holds.effect (effect_of_perform (step_eq_some.mp stepped)))
    coherent ran

/-- A transaction that takes a job out of the queue. -/
def Transaction.dequeues (jobId : Str) : Transaction → Bool
  | .consume _ scope _ _ => scope.jobId = jobId
  | .refuse refused _ _ => refused = jobId
  | _ => false

/-- A transaction that commits a job to its execution. -/
def Transaction.commits (jobId : Str) : Transaction → Bool
  | .commitExecution reservation _ => reservation.jobId = jobId
  | _ => false

/-- The row of a job that has left some states for good. -/
def Left (states : List JobState) (jobId : Str) (tables : Tables) : Prop :=
  ∃ job, tables.jobs.lookup jobId = some job ∧ job.state ∉ states

/-- States that no move leads into are left for good. -/
theorem Left.effect {states : List JobState} {jobId : Str} (left : Left states jobId before)
    (closed : ∀ job later, Moves job later → later.state ∈ states → job.state ∈ states)
    (queued : Queued before) (effect : Effect interpreter before transaction after) :
    Left states jobId after := by
  obtain ⟨job, found, outside⟩ := left
  obtain ⟨later, stored, moved⟩ := effect.job queued found
  refine ⟨later, stored, fun inside => outside ?_⟩
  cases moved with
  | refl => exact inside
  | single moves => exact closed job later moves inside

theorem Coherent.step {tables next : Tables} (coherent : Coherent interpreter tables)
    (stepped : step interpreter tables transaction = some next) : Coherent interpreter next :=
  coherent.effect (effect_of_perform (step_eq_some.mp stepped))

/-- A job leaves the queue at most once. -/
theorem closes_dequeues (interpreter : Interpreter) (jobId : Str) :
    Closes (step interpreter) (Coherent interpreter) (Transaction.dequeues jobId)
      (Left [.pendingApproval] jobId) where
  kept := fun _ _ _ coherent stepped => coherent.step stepped
  brought := by
    intro tables transaction next coherent kind stepped
    cases effect_of_perform (step_eq_some.mp stepped) with
    | refuse =>
        rw [← of_decide_eq_true kind]
        exact ⟨_, AList.lookup_insert _, by dsimp only; decide⟩
    | consume =>
        rw [← of_decide_eq_true kind]
        exact ⟨_, AList.lookup_insert _, by dsimp only; decide⟩
    | _ => cases kind
  preserved := by
    intro tables transaction next coherent left stepped
    refine left.effect (fun job later moves inside => ?_) coherent.queued
      (effect_of_perform (step_eq_some.mp stepped))
    cases moves with
    | _ => exact nomatch List.mem_singleton.mp inside
  disabled := by
    rintro tables transaction next coherent kind stepped ⟨job, found, outside⟩
    have waits : ∀ {other : Str} {row : JobRow}, other = jobId →
        tables.jobs.lookup other = some row → row.state = .pendingApproval → False := by
      intro other row same held state
      rw [same, found] at held
      obtain rfl := Option.some.inj held
      exact outside (List.mem_singleton.mpr state)
    cases effect_of_perform (step_eq_some.mp stepped) with
    | refuse held state => exact waits (of_decide_eq_true kind) held state
    | consume _ _ held state => exact waits (of_decide_eq_true kind) held state
    | _ => cases kind

/-- A job is committed to its execution at most once. -/
theorem closes_commits (interpreter : Interpreter) (jobId : Str) :
    Closes (step interpreter) (Coherent interpreter) (Transaction.commits jobId)
      (Left [.pendingApproval, .reserved] jobId) where
  kept := fun _ _ _ coherent stepped => coherent.step stepped
  brought := by
    intro tables transaction next coherent kind stepped
    cases effect_of_perform (step_eq_some.mp stepped) with
    | commit =>
        rw [← of_decide_eq_true kind]
        exact ⟨_, AList.lookup_insert _, by dsimp only; decide⟩
    | _ => cases kind
  preserved := by
    intro tables transaction next coherent left stepped
    refine left.effect (fun job later moves inside => ?_) coherent.queued
      (effect_of_perform (step_eq_some.mp stepped))
    cases moves with
    | reserved waits => rw [waits]; decide
    | refused => exact absurd inside (by dsimp only; decide)
    | committed => exact absurd inside (by dsimp only; decide)
    | completed => exact absurd inside (by dsimp only; decide)
  disabled := by
    rintro tables transaction next coherent kind stepped ⟨job, found, outside⟩
    cases effect_of_perform (step_eq_some.mp stepped) with
    | commit held _ open_ =>
        rw [of_decide_eq_true kind, found] at held
        obtain rfl := Option.some.inj held
        rw [open_] at outside
        exact outside (by decide)
    | _ => cases kind

/-- Along a run the row of a job makes moves and nothing else. -/
theorem job_of_run {jobId : Str} {job : JobRow} {transactions : List Transaction}
    (coherent : Coherent interpreter before) (found : before.jobs.lookup jobId = some job)
    (ran : Transition.run (step interpreter) before transactions = some after) :
    ∃ later, after.jobs.lookup jobId = some later ∧ Relation.ReflTransGen Moves job later := by
  have ends : Coherent interpreter after ∧ ∃ later, after.jobs.lookup jobId = some later ∧
      Relation.ReflTransGen Moves job later := by
    refine run_invariant (fun tables => Coherent interpreter tables ∧
      ∃ later, tables.jobs.lookup jobId = some later ∧ Relation.ReflTransGen Moves job later)
      ?_ ⟨coherent, job, found, .refl⟩ ran
    rintro tables transaction next _ ⟨holds, row, held, moved⟩ stepped
    have effect := effect_of_perform (step_eq_some.mp stepped)
    obtain ⟨later, stored, move⟩ := effect.job holds.queued held
    exact ⟨holds.effect effect, later, stored, moved.trans move.to_reflTransGen⟩
  exact ends.2

/-- A job leaves the queue at most once, by a consumed approval or a refusal, and is
committed to its execution at most once. Its row makes the moves of its life in their
order, and a completed or a refused one stays. -/
theorem life_of_job (interpreter : Interpreter) (first rest : List Transaction)
    (middle tables : Tables) (jobId : Str)
    (before : Transition.run (step interpreter) Tables.empty first = some middle)
    (after : Transition.run (step interpreter) middle rest = some tables) :
    (first ++ rest).countP (Transaction.dequeues jobId) ≤ 1 ∧
      (first ++ rest).countP (Transaction.commits jobId) ≤ 1 ∧
      ∀ job, middle.jobs.lookup jobId = some job → ∃ later,
        tables.jobs.lookup jobId = some later ∧ Relation.ReflTransGen Moves job later ∧
          (job.state = .completed ∨ job.state = .refused → later = job) := by
  have whole : Transition.run (step interpreter) Tables.empty (first ++ rest) = some tables :=
    (run_append _).mpr ⟨middle, before, after⟩
  refine ⟨(closes_dequeues interpreter jobId).once coherent_empty whole,
    (closes_commits interpreter jobId).once coherent_empty whole, fun job found => ?_⟩
  obtain ⟨later, stored, moved⟩ := job_of_run (coherent_empty.run before) found after
  exact ⟨later, stored, moved, final_of_moves moved⟩

/-- A reservation of a job that needs no approval. -/
def demoReservation : Reservation :=
  ⟨str "job-1", str "alice", ⟨List.replicate 64 97, by decide⟩, 160, 110⟩

theorem run_demo : ∃ middle tables,
    Transition.run (step literalInterpreter) Tables.empty [.reserveAdmitted demoReservation none] =
      some middle ∧
    Transition.run (step literalInterpreter) middle [.commitExecution demoReservation 111] =
      some tables := by
  have ran : (Transition.run (step literalInterpreter) Tables.empty
      [.reserveAdmitted demoReservation none, .commitExecution demoReservation 111]).isSome =
        true := by decide +kernel
  obtain ⟨tables, ran⟩ := Option.isSome_iff_exists.mp ran
  obtain ⟨middle, before, after⟩ := (run_append (step literalInterpreter)).mp
    (show Transition.run _ _ ([.reserveAdmitted demoReservation none] ++
      [.commitExecution demoReservation 111]) = some tables from ran)
  exact ⟨middle, tables, before, after⟩

theorem life_of_job_demo : ∃ middle tables : Tables,
    Transition.run (step literalInterpreter) Tables.empty [.reserveAdmitted demoReservation none] =
      some middle ∧
    ∀ job, middle.jobs.lookup demoReservation.jobId = some job → ∃ later,
      tables.jobs.lookup demoReservation.jobId = some later ∧
        Relation.ReflTransGen Moves job later := by
  obtain ⟨middle, tables, before, after⟩ := run_demo
  refine ⟨middle, tables, before, fun job found => ?_⟩
  obtain ⟨_, _, lives⟩ := life_of_job _ _ _ _ _ demoReservation.jobId before after
  obtain ⟨later, stored, moved, _⟩ := lives job found
  exact ⟨later, stored, moved⟩

end GeniusNew.Database
