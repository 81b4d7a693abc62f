import GeniusNew.Database.Stores

/-! # What a statement does

For each statement of the stores, what held when it returned: the constraints and the
triggers it passed and the row it left. The stores' own lemmas are assembled from
these, and none of them unfolds a statement again.
-/

namespace GeniusNew.Database

open Json Orchestrator

section Jobs

variable {unavailable : String} {before after : Tables} {jobId : Str} {changed : Nat}

/-- A text that a statement can carry. -/
def Storable (text : Str) : Prop := (encodeUtf8 text).isSome = true ∧ 0 ∉ text

theorem parameters_eq_ok {texts : List Str} {done : Unit} :
    parameters unavailable texts = .ok done ↔ ∀ text ∈ texts, Storable text := by
  induction texts with
  | nil => exact ⟨fun _ text member => (List.not_mem_nil member).elim, fun _ => rfl⟩
  | cons text texts ih =>
      rw [List.forall_mem_cons, ← ih, parameters, Storable]
      cases encodeUtf8 text with
      | none => simp
      | some bytes => simp [guarded_eq_ok]

/-- A row was inserted, or its key was taken. -/
theorem insertJob_eq_ok {row : JobRow}
    (returned : insertJob unavailable jobId row before = .ok (changed, after)) :
    (jobId ∈ before.jobs ∧ changed = 0 ∧ after = before) ∨
      (jobId ∉ before.jobs ∧ Storable jobId ∧ changed = 1 ∧
        after = { before with jobs := before.jobs.insert jobId row }) := by
  obtain ⟨_, texts, returned⟩ := bind_eq_ok.mp returned
  obtain ⟨_, returned⟩ := guarded_eq_ok.mp returned
  split at returned
  · next taken =>
      obtain ⟨rfl, rfl⟩ := Prod.mk.inj (pure_eq_ok.mp returned)
      exact .inl ⟨taken, rfl, rfl⟩
  · next free =>
      obtain ⟨rfl, rfl⟩ := Prod.mk.inj (pure_eq_ok.mp returned)
      exact .inr ⟨free, (parameters_eq_ok.mp texts) jobId List.mem_cons_self, rfl, rfl⟩

/-- A row was changed within the trigger, or none was selected. -/
theorem updateJob_eq_ok {selected : JobRow → Bool} {set : JobRow → JobRow}
    (returned : updateJob unavailable jobId selected set before = .ok (changed, after)) :
    (changed = 0 ∧ after = before) ∨
      ∃ row, before.jobs.lookup jobId = some row ∧ selected row = true ∧ changed = 1 ∧
        enforceJobTransition row (set row) = true ∧
        after = { before with jobs := before.jobs.insert jobId (set row) } := by
  obtain ⟨_, _, returned⟩ := bind_eq_ok.mp returned
  split at returned
  · obtain ⟨rfl, rfl⟩ := Prod.mk.inj (pure_eq_ok.mp returned)
    exact .inl ⟨rfl, rfl⟩
  next row found =>
    split at returned
    · obtain ⟨rfl, rfl⟩ := Prod.mk.inj (pure_eq_ok.mp returned)
      exact .inl ⟨rfl, rfl⟩
    next taken =>
      obtain ⟨passed, returned⟩ := guarded_eq_ok.mp returned
      obtain ⟨rfl, rfl⟩ := Prod.mk.inj (pure_eq_ok.mp returned)
      exact .inr ⟨row, found, not_not.mp taken, rfl, (not_not.mp passed).2.2, rfl⟩

/-- A statement that selects every row of the key changes the one there is. -/
theorem updateJob_selects {set : JobRow → JobRow} {row : JobRow}
    (returned : updateJob unavailable jobId (fun _ => true) set before = .ok (changed, after))
    (found : before.jobs.lookup jobId = some row) :
    after = { before with jobs := before.jobs.insert jobId (set row) } := by
  unfold updateJob at returned
  obtain ⟨_, _, returned⟩ := bind_eq_ok.mp returned
  rw [found] at returned
  dsimp only at returned
  rw [if_neg (not_not.mpr rfl)] at returned
  obtain ⟨_, returned⟩ := guarded_eq_ok.mp returned
  obtain ⟨_, rfl⟩ := Prod.mk.inj (pure_eq_ok.mp returned)
  rfl

theorem insertPending_eq_ok {row : PendingRow}
    (returned : insertPending unavailable jobId row before = .ok after) :
    jobId ∉ before.pending ∧ jobId ∈ before.jobs ∧ row.wire.length ≤ maxWireBytes ∧
      encodedLength row.traceId ≤ maxTraceBytes ∧
      after = { before with pending := before.pending.insert jobId row } := by
  obtain ⟨_, _, returned⟩ := bind_eq_ok.mp returned
  obtain ⟨passed, returned⟩ := guarded_eq_ok.mp returned
  obtain rfl := pure_eq_ok.mp returned
  simp only [not_or, not_not, gt_iff_lt, not_lt] at passed
  exact ⟨passed.1, passed.2.1, passed.2.2.1, passed.2.2.2.1, rfl⟩

theorem deletePending_eq_ok (returned : deletePending unavailable jobId before = .ok after) :
    after = { before with pending := before.pending.erase jobId } := by
  obtain ⟨_, _, returned⟩ := bind_eq_ok.mp returned
  exact (pure_eq_ok.mp returned).symm

/-- An acceptance was inserted and completed the job it is bound to. -/
theorem insertAcceptance_eq_ok {digest : Str} {row : AcceptanceRow}
    (returned : insertAcceptance unavailable digest row before = .ok after) :
    digest ∉ before.acceptances ∧
      (∀ other held, before.acceptances.lookup other = some held →
        held.resultSha256 ≠ row.resultSha256) ∧
      ∃ job, before.jobs.lookup row.jobId = some job ∧ job.handoffSha256 = digest ∧
        job.state = .executionCommitted ∧
        after = { before with
          acceptances := before.acceptances.insert digest row
          jobs := before.jobs.insert row.jobId
            { job with state := .completed, updatedAt := row.acceptedAt } } := by
  unfold insertAcceptance at returned
  obtain ⟨_, _, returned⟩ := bind_eq_ok.mp returned
  obtain ⟨passed, returned⟩ := guarded_eq_ok.mp returned
  obtain ⟨⟨changed, completed⟩, updated, returned⟩ := bind_eq_ok.mp returned
  obtain ⟨one, returned⟩ := guarded_eq_ok.mp returned
  obtain rfl := pure_eq_ok.mp returned
  simp only [not_or] at passed
  obtain ⟨_, free, unique, _⟩ := passed
  refine ⟨free, fun other held found same => ?_, ?_⟩
  · exact unique (Table.any_eq_true.mpr ⟨other, held, found, decide_eq_true same⟩)
  · obtain ⟨zero, _⟩ | ⟨job, found, selected, _, _, rfl⟩ := updateJob_eq_ok updated
    · exact absurd (one (by rw [zero]; decide)) not_false
    · obtain ⟨bound, committed⟩ := of_decide_eq_true selected
      exact ⟨job, found, bound, committed, rfl⟩

end Jobs

section Approvals

variable {unavailable : String} {before after : Tables} {recordHash tokenDigest : Str}
  {row : ApprovalRow}

/-- What `enforce_approval_record` lets pass. -/
theorem enforceApprovalRecord_eq_true {records : Table ApprovalRow} {new : ApprovalRow} :
    enforceApprovalRecord records new = true ↔
      (match new.previousHash with
        | none => new.state = .granted
        | some previous => ∃ old, records.lookup previous = some old ∧
            old.tokenDigest = new.tokenDigest ∧ old.state = .granted ∧ new.state ≠ .granted ∧
            (new.scope, new.issuedAt, new.expiresAt) = (old.scope, old.issuedAt, old.expiresAt) ∧
            old.changedAt ≤ new.changedAt) ∧
        (new.state = .consumed → new.changedAt < new.expiresAt) := by
  rw [enforceApprovalRecord, Bool.and_eq_true, decide_eq_true_iff]
  refine and_congr_left fun _ => ?_
  cases new.previousHash with
  | none => exact decide_eq_true_iff
  | some previous =>
      cases found : records.lookup previous with
      | none => simp [found]
      | some old => simp [found]

theorem insertApproval_eq_ok
    (returned : insertApproval unavailable recordHash row before = .ok after) :
    recordHash ∉ before.records ∧ row.scope.length ≤ maxWireBytes ∧
      (∀ other held, before.records.lookup other = some held →
        held.tokenDigest = row.tokenDigest → held.previousHash ≠ row.previousHash) ∧
      enforceApprovalRecord before.records row = true ∧
      after = { before with records := before.records.insert recordHash row } := by
  obtain ⟨_, _, returned⟩ := bind_eq_ok.mp returned
  obtain ⟨passed, returned⟩ := guarded_eq_ok.mp returned
  obtain rfl := pure_eq_ok.mp returned
  simp only [not_or, not_not, gt_iff_lt, not_lt] at passed
  obtain ⟨fresh, short, _, _, _, unique, enforced⟩ := passed
  refine ⟨fresh, short, fun other held found token previous => ?_, enforced, rfl⟩
  exact unique (Table.any_eq_true.mpr ⟨other, held, found, decide_eq_true ⟨token, previous⟩⟩)

theorem insertToken_eq_ok
    (returned : insertToken unavailable tokenDigest recordHash before = .ok after) :
    tokenDigest ∉ before.tokens ∧
      after = { before with tokens := before.tokens.insert tokenDigest recordHash } := by
  obtain ⟨_, _, returned⟩ := bind_eq_ok.mp returned
  split at returned
  · exact (fail_ne_ok returned).elim
  · obtain ⟨passed, returned⟩ := guarded_eq_ok.mp returned
    exact ⟨fun taken => passed (.inl taken), (pure_eq_ok.mp returned).symm⟩

/-- The pointer of a token moves to a successor of the record it named. -/
theorem updateToken_eq_ok {current : Str}
    (returned : updateToken unavailable tokenDigest recordHash before = .ok after)
    (held : before.tokens.lookup tokenDigest = some current) :
    after = { before with tokens := before.tokens.insert tokenDigest recordHash } := by
  unfold updateToken at returned
  obtain ⟨_, _, returned⟩ := bind_eq_ok.mp returned
  rw [held] at returned
  dsimp only at returned
  split at returned
  · exact (fail_ne_ok returned).elim
  · obtain ⟨_, returned⟩ := guarded_eq_ok.mp returned
    exact (pure_eq_ok.mp returned).symm

end Approvals

end GeniusNew.Database
