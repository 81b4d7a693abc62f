import GeniusNew.Database.Effects

/-! # Jobs, the queue and the accepted results

What every transaction keeps of the tables of the jobs: the queue holds exactly the
jobs that wait, and an accepted result completes exactly the job it is bound to.
-/

namespace GeniusNew.Database

open Json Orchestrator

variable {interpreter : Interpreter} {before after : Tables} {transaction : Transaction}

/-- A row of the queue and the row of its job. -/
structure Waits (row : PendingRow) (job : JobRow) : Prop where
  state : job.state = .pendingApproval
  unreserved : job.reservedAt = none
  subject : row.subject = job.subject
  expires : row.expiresAt = job.expiresAt
  wired : (sha256 row.wire).val = job.handoffSha256
  traced : row.traceId = str "trace-" ++ job.handoffSha256.take 16
  short : row.wire.length ≤ maxWireBytes

/-- The queue holds the jobs that wait for approval and no others. -/
structure Queued (tables : Tables) : Prop where
  queued : ∀ jobId row, tables.pending.lookup jobId = some row →
    ∃ job, tables.jobs.lookup jobId = some job ∧ Waits row job
  waiting : ∀ jobId job, tables.jobs.lookup jobId = some job → job.state = .pendingApproval →
    jobId ∈ tables.pending
  named : ∀ jobId ∈ tables.jobs, Storable jobId

/-- A job that does not wait is not in the queue. -/
theorem Queued.absent (queued : Queued before) {jobId : Str} {job : JobRow}
    (found : before.jobs.lookup jobId = some job) (settled : job.state ≠ .pendingApproval) :
    before.pending.lookup jobId = none := by
  cases held : before.pending.lookup jobId with
  | none => rfl
  | some row =>
      obtain ⟨other, same, waits⟩ := queued.queued jobId row held
      obtain rfl := Option.some.inj (found.symm.trans same)
      exact absurd waits.state settled

/-- A row of a job gets a state that does not wait. -/
theorem Queued.settled (queued : Queued before) {jobId : Str} {row : JobRow}
    (jobs : after.jobs = before.jobs.insert jobId row) (carried : Storable jobId)
    (settled : row.state ≠ .pendingApproval)
    (left : ∀ other, after.pending.lookup other =
      if other = jobId then none else before.pending.lookup other) : Queued after := by
  constructor
  · intro other held found
    rw [left] at found
    split_ifs at found with same
    obtain ⟨job, stored, waits⟩ := queued.queued other held found
    exact ⟨job, by rw [jobs, Table.lookup_insert_eq, if_neg same, stored], waits⟩
  · intro other job found waits
    rw [jobs, Table.lookup_insert_eq] at found
    split_ifs at found with same
    · obtain rfl := Option.some.inj found
      exact absurd waits settled
    · obtain ⟨held, stored⟩ := Table.mem_iff.mp (queued.waiting other job found waits)
      exact Table.mem_iff.mpr ⟨held, by rw [left, if_neg same, stored]⟩
  · intro other member
    rw [jobs, AList.mem_insert] at member
    obtain rfl | member := member
    · exact carried
    · exact queued.named other member

theorem Queued.frame (queued : Queued before) (jobs : after.jobs = before.jobs)
    (pending : after.pending = before.pending) : Queued after := by
  obtain ⟨row, job, named⟩ := queued
  exact ⟨by rwa [jobs, pending], by rwa [jobs, pending], by rwa [jobs]⟩

/-- A row that is taken out, or was not there. -/
theorem lookup_of_absent {jobId : Str} (absent : before.pending.lookup jobId = none) (other : Str) :
    before.pending.lookup other = if other = jobId then none else before.pending.lookup other := by
  split_ifs with same
  · rw [same, absent]
  · rfl

theorem Queued.effect (queued : Queued before)
    (effect : Effect interpreter before transaction after) : Queued after := by
  have known {jobId : Str} {job : JobRow} (found : before.jobs.lookup jobId = some job) :
      Storable jobId := queued.named jobId (Table.mem_iff.mpr ⟨job, found⟩)
  cases effect with
  | add validated traced room fresh carried short =>
      constructor
      · intro other held found
        rw [Table.lookup_insert_eq] at found
        split_ifs at found with same
        · obtain rfl := Option.some.inj found
          rw [same]
          exact ⟨_, AList.lookup_insert _, rfl, rfl, rfl, rfl, rfl, traced, short⟩
        · obtain ⟨job, stored, waits⟩ := queued.queued other held found
          exact ⟨job, by rw [Table.lookup_insert_eq, if_neg same, stored], waits⟩
      · intro other job found waits
        rw [Table.lookup_insert_eq] at found
        split_ifs at found with same
        · exact (AList.mem_insert _).mpr (.inl same)
        · exact (AList.mem_insert _).mpr (.inr (queued.waiting other job found waits))
      · intro other member
        obtain rfl | member := (AList.mem_insert _).mp member
        · exact carried
        · exact queued.named other member
  | refuse found =>
      exact queued.settled rfl (known found) (fun same => nomatch same) (Table.lookup_erase_eq ·)
  | consume _ carried =>
      exact queued.settled rfl carried (fun same => nomatch same) (Table.lookup_erase_eq ·)
  | grant => exact queued.frame rfl rfl
  | revoke => exact queued.frame rfl rfl
  | burned => exact queued
  | admitted => exact queued
  | replayed => exact queued
  | reserve fresh carried =>
      refine queued.settled rfl carried (fun same => nomatch same) (lookup_of_absent ?_)
      refine AList.lookup_eq_none.mpr fun present => fresh ?_
      obtain ⟨row, held⟩ := Table.mem_iff.mp present
      obtain ⟨job, stored, _⟩ := queued.queued _ row held
      exact Table.mem_iff.mpr ⟨job, stored⟩
  | commit found _ open_ =>
      exact queued.settled rfl (known found) (fun same => nomatch same)
        (lookup_of_absent (queued.absent found (by rw [open_]; decide)))
  | accept _ _ found _ committed =>
      exact queued.settled rfl (known found) (fun same => nomatch same)
        (lookup_of_absent (queued.absent found (by rw [committed]; decide)))

/-- A result is accepted for exactly the jobs that are completed. -/
structure Accepted (tables : Tables) : Prop where
  accepted : ∀ digest row, tables.acceptances.lookup digest = some row →
    digest = (sha256 row.handoffWire).val ∧ row.resultSha256 = (sha256 row.resultWire).val ∧
      ∃ job, tables.jobs.lookup row.jobId = some job ∧ job.handoffSha256 = digest ∧
        job.state = .completed ∧ job.updatedAt = row.acceptedAt
  completed : ∀ jobId job, tables.jobs.lookup jobId = some job → job.state = .completed →
    ∃ row, tables.acceptances.lookup job.handoffSha256 = some row ∧ row.jobId = jobId

theorem Accepted.moved (accepted : Accepted before) {jobId : Str} {row : JobRow}
    (jobs : after.jobs = before.jobs.insert jobId row)
    (acceptances : after.acceptances = before.acceptances) (unfinished : row.state ≠ .completed)
    (earlier : ∀ job, before.jobs.lookup jobId = some job → job.state ≠ .completed) :
    Accepted after := by
  constructor
  · intro digest held found
    rw [acceptances] at found
    obtain ⟨wire, result, job, stored, bound, completed, timed⟩ := accepted.accepted digest held found
    have apart : held.jobId ≠ jobId := fun same => earlier job (same ▸ stored) completed
    exact ⟨wire, result, job, by rw [jobs, Table.lookup_insert_eq, if_neg apart, stored], bound,
      completed, timed⟩
  · intro other job found completed
    rw [jobs, Table.lookup_insert_eq] at found
    rw [acceptances]
    split_ifs at found with same
    · obtain rfl := Option.some.inj found
      exact absurd completed unfinished
    · exact accepted.completed other job found completed

theorem Accepted.frame (accepted : Accepted before) (jobs : after.jobs = before.jobs)
    (acceptances : after.acceptances = before.acceptances) : Accepted after := by
  obtain ⟨row, job⟩ := accepted
  exact ⟨by rwa [jobs, acceptances], by rwa [jobs, acceptances]⟩

theorem Accepted.inserted (accepted : Accepted before) {jobId : Str} {handoffWire resultWire : Bytes}
    {now : Int} {job : JobRow} (fresh : (sha256 handoffWire).val ∉ before.acceptances)
    (found : before.jobs.lookup jobId = some job)
    (bound : job.handoffSha256 = (sha256 handoffWire).val)
    (committed : job.state = .executionCommitted) :
    Accepted { before with
      acceptances := before.acceptances.insert (sha256 handoffWire).val
        ⟨jobId, handoffWire, (sha256 resultWire).val, resultWire, now⟩
      jobs := before.jobs.insert jobId { job with state := .completed, updatedAt := now } } := by
  constructor
  · intro digest held stored
    rw [Table.lookup_insert_eq] at stored
    split_ifs at stored with same
    · obtain rfl := Option.some.inj stored
      exact ⟨same, rfl, _, AList.lookup_insert _, bound.trans same.symm, rfl, rfl⟩
    · obtain ⟨wire, result, other, present, agrees, completed, timed⟩ :=
        accepted.accepted digest held stored
      have apart : held.jobId ≠ jobId := by
        intro equal
        rw [equal, found] at present
        obtain rfl := Option.some.inj present
        rw [committed] at completed
        cases completed
      exact ⟨wire, result, other, by rw [Table.lookup_insert_eq, if_neg apart, present], agrees,
        completed, timed⟩
  · intro other row stored completed
    rw [Table.lookup_insert_eq] at stored
    split_ifs at stored with same
    · obtain rfl := Option.some.inj stored
      exact ⟨_, by rw [bound, AList.lookup_insert], same.symm⟩
    · obtain ⟨held, present, named⟩ := accepted.completed other row stored completed
      have apart : row.handoffSha256 ≠ (sha256 handoffWire).val := by
        intro equal
        exact fresh (Table.mem_iff.mpr ⟨held, equal ▸ present⟩)
      exact ⟨held, by rw [Table.lookup_insert_eq, if_neg apart, present], named⟩

theorem Accepted.effect (accepted : Accepted before)
    (effect : Effect interpreter before transaction after) : Accepted after := by
  have unfinished {jobId : Str} {job : JobRow} (found : before.jobs.lookup jobId = some job)
      (state : job.state ≠ .completed) :
      ∀ other, before.jobs.lookup jobId = some other → other.state ≠ .completed := by
    intro other same
    obtain rfl := Option.some.inj (found.symm.trans same)
    exact state
  have new {jobId : Str} (fresh : jobId ∉ before.jobs) :
      ∀ other, before.jobs.lookup jobId = some other → other.state ≠ .completed :=
    fun other found => absurd (Table.mem_iff.mpr ⟨other, found⟩) fresh
  cases effect with
  | add _ _ _ fresh => exact accepted.moved rfl rfl (fun same => nomatch same) (new fresh)
  | refuse found waits =>
      exact accepted.moved rfl rfl (fun same => nomatch same)
        (unfinished found (by rw [waits]; decide))
  | consume _ _ found waits =>
      exact accepted.moved rfl rfl (fun same => nomatch same)
        (unfinished found (by rw [waits]; decide))
  | grant => exact accepted.frame rfl rfl
  | revoke => exact accepted.frame rfl rfl
  | burned => exact accepted
  | admitted => exact accepted
  | replayed => exact accepted
  | reserve fresh => exact accepted.moved rfl rfl (fun same => nomatch same) (new fresh)
  | commit found _ open_ =>
      exact accepted.moved rfl rfl (fun same => nomatch same)
        (unfinished found (by rw [open_]; decide))
  | accept fresh _ found bound committed => exact accepted.inserted fresh found bound committed

/-- What a transaction can do to the row of a job. -/
inductive Moves (job : JobRow) : JobRow → Prop
  | reserved {now : Int} (waits : job.state = .pendingApproval) (first : job.reservedAt = none) :
      Moves job { job with state := .reserved, reservedAt := some now, updatedAt := now }
  | refused {now : Int} (waits : job.state = .pendingApproval) :
      Moves job { job with state := .refused, updatedAt := now }
  | committed {now : Int} (open_ : job.state = .reserved) :
      Moves job { job with state := .executionCommitted, updatedAt := now }
  | completed {now : Int} (committed : job.state = .executionCommitted) :
      Moves job { job with state := .completed, updatedAt := now }

/-- A completed job and a refused one stay as they are. -/
theorem Moves.unfinished {job later : JobRow} (moves : Moves job later) :
    job.state ≠ .completed ∧ job.state ≠ .refused := by
  cases moves with
  | reserved waits => rw [waits]; decide
  | refused waits => rw [waits]; decide
  | committed open_ => rw [open_]; decide
  | completed committed => rw [committed]; decide

/-- A job that was decided never waits again. -/
theorem Moves.decided {job later : JobRow} (moves : Moves job later) :
    later.state ≠ .pendingApproval := by
  cases moves <;> exact fun same => nomatch same

theorem final_of_moves {job later : JobRow} (moved : Relation.ReflTransGen Moves job later)
    (final : job.state = .completed ∨ job.state = .refused) : later = job := by
  obtain rfl | ⟨next, moves, _⟩ := Relation.ReflTransGen.cases_head moved
  · rfl
  · obtain ⟨completed, refused⟩ := moves.unfinished
    exact final.elim (absurd · completed) (absurd · refused)

/-- The row of a job stays or makes one move. -/
theorem Effect.job (effect : Effect interpreter before transaction after) (queued : Queued before)
    {jobId : Str} {job : JobRow} (found : before.jobs.lookup jobId = some job) :
    ∃ later, after.jobs.lookup jobId = some later ∧ Relation.ReflGen Moves job later := by
  have stays : ∃ later, before.jobs.lookup jobId = some later ∧ Relation.ReflGen Moves job later :=
    ⟨job, found, .refl⟩
  have fresh {other : Str} {row : JobRow} (absent : other ∉ before.jobs) : ∃ later,
      (before.jobs.insert other row).lookup jobId = some later ∧ Relation.ReflGen Moves job later := by
    have apart : jobId ≠ other := fun same => absent (Table.mem_iff.mpr ⟨job, same ▸ found⟩)
    exact ⟨job, (AList.lookup_insert_ne apart).trans found, .refl⟩
  have moved {other : Str} {row next : JobRow} (held : before.jobs.lookup other = some row)
      (moves : Moves row next) : ∃ later,
      (before.jobs.insert other next).lookup jobId = some later ∧
        Relation.ReflGen Moves job later := by
    by_cases same : jobId = other
    · subst same
      obtain rfl := Option.some.inj (held.symm.trans found)
      exact ⟨next, AList.lookup_insert _, .single moves⟩
    · exact ⟨job, (AList.lookup_insert_ne same).trans found, .refl⟩
  cases effect with
  | add _ _ _ absent => exact fresh absent
  | refuse held waits => exact moved held (.refused waits)
  | grant => exact stays
  | revoke => exact stays
  | consume _ _ held waits _ _ _ pending =>
      obtain ⟨row, same, agrees⟩ := queued.queued _ _ pending
      obtain rfl := Option.some.inj (held.symm.trans same)
      exact moved held (.reserved waits agrees.unreserved)
  | burned => exact stays
  | reserve absent => exact fresh absent
  | admitted => exact stays
  | commit held _ open_ => exact moved held (.committed open_)
  | replayed => exact stays
  | accept _ _ held _ committed => exact moved held (.completed committed)

/-- A job leaves the queue only decided. -/
theorem Effect.waiting (effect : Effect interpreter before transaction after)
    (queued : Queued before) {jobId : Str} {row : PendingRow}
    (found : before.pending.lookup jobId = some row) :
    after.pending.lookup jobId = some row ∨
      ∃ job, after.jobs.lookup jobId = some job ∧ job.state ≠ .pendingApproval := by
  have left {other : Str} {job : JobRow} (decided : job.state ≠ .pendingApproval) :
      (before.pending.erase other).lookup jobId = some row ∨
        ∃ job_, (before.jobs.insert other job).lookup jobId = some job_ ∧
          job_.state ≠ .pendingApproval := by
    by_cases same : jobId = other
    · subst same
      exact .inr ⟨job, AList.lookup_insert _, decided⟩
    · exact .inl ((AList.lookup_erase_ne same).trans found)
  cases effect with
  | @add _ _ other _ _ _ _ _ fresh =>
      obtain ⟨job, stored, _⟩ := queued.queued jobId row found
      have apart : jobId ≠ other := fun same => fresh (Table.mem_iff.mpr ⟨job, same ▸ stored⟩)
      exact .inl ((AList.lookup_insert_ne apart).trans found)
  | refuse => exact left fun same => nomatch same
  | consume => exact left fun same => nomatch same
  | _ => exact .inl found

end GeniusNew.Database
