import GeniusNew.Durable.Approved

/-! # What a deployment can rely on

Instances that sign with one key share the database. After every run of theirs, with
crashes at any point, an instance can start; a worker was entered for a job at most once,
on the evidence of the chain and, where an approval is required, with the consent of
somebody else; and nothing that was recorded is lost.
-/

namespace GeniusNew.Durable

open Json Database Transition PostgresAuditChain
open Wiring (Call milestones)

section Facts

variable {interpreter : Interpreter} {authority : AuditAuthority} {state : State}
  {events : List AuditEvent}

/-- Jobs that events would carry under one id were asked for as one. -/
theorem Upheld.apart (upheld : Upheld interpreter authority state events)
    (distinct : (state.calls.filterMap issuedAs).Nodup) : Apart state.store.tables.jobs := by
  intro one other first second same
  obtain ⟨row, found⟩ := Table.mem_iff.mp first
  obtain ⟨event, _, _, about⟩ := upheld.reconciled.issuances.issued one row found
  obtain ⟨asked, called, minted⟩ := upheld.origins one first
  obtain ⟨again, recalled, reminted⟩ := upheld.origins other second
  have shown : issuedAs asked = some event.jobId.val := by
    rw [issuedAs, minted]
    exact about.audited
  have shows : issuedAs again = some event.jobId.val := by
    rw [issuedAs, reminted]
    exact same.symm.trans about.audited
  obtain rfl := Assoc.eq_of_shown distinct called recalled shown shows
  exact Option.some.inj (minted.symm.trans reminted)

/-- Two entries of one job are one. -/
theorem Upheld.entries_nodup (upheld : Upheld interpreter authority state events) :
    (state.entries.map Entry.jobId).Nodup :=
  (List.nodup_append.mp upheld.once).1

end Facts

section Instance

open Wiring (demoService)

def demoCall : List Label := [.request (demoService true) Wiring.demoSubmit]

end Instance

section Entering

variable {interpreter : Interpreter} {authority : AuditAuthority} {state next : State}
  {events : List AuditEvent}

/-- A step that enters a worker finds its request ready. -/
theorem Upheld.entering (upheld : Upheld interpreter authority state events) {label : Label}
    (stepped : Durable.step interpreter state label = some next)
    (changed : next.entries ≠ state.entries) :
    ∃ request ∈ state.requests, ∃ attempt, request.phase = .entering attempt ∧
      next.entries = state.entries ++ [⟨request.service, attempt⟩] := by
  cases label with
  | request service call =>
      obtain rfl := Option.some.inj stepped
      exact absurd rfl changed
  | advance index input =>
      obtain ⟨request, found, rest⟩ := Option.bind_eq_some_iff.mp stepped
      obtain ⟨⟨phase, after⟩, turned, same⟩ := Option.bind_eq_some_iff.mp rest
      obtain rfl := Option.some.inj same
      cases upheld.turned found turned with
      | stays => exact absurd rfl changed
      | enters before => exact ⟨request, List.mem_of_getElem? found, _, before, rfl⟩
      | commits => exact absurd rfl changed

end Entering

/-- No job enters a worker twice, whichever instances dispatch it. A job that enters one
is committed to its execution, and its issuance, admission and dispatch stand on the chain
in this order. -/
theorem entered_on_evidence (interpreter : Interpreter) (authority : AuditAuthority)
    (labels : List Label) (state : State) (shared : ∀ label ∈ labels, label.Shares authority)
    (ran : run (step interpreter) State.initial labels = some state) :
    (state.entries.map Entry.jobId).Nodup ∧
    ∀ label next, step interpreter state label = some next → next.entries ≠ state.entries →
      ∃ entry events, next.entries = state.entries ++ [entry] ∧
        entry.jobId ∉ state.entries.map Entry.jobId ∧
        ReadsBack interpreter authority state events ∧
        Passed events entry.jobId entry.attempt.job.subject
          (sha256 entry.attempt.job.wire).val 3 ∧
        Reached state.store.tables entry.jobId entry.attempt.job.subject entry.attempt.job.wire
          entry.attempt.now entered := by
  obtain ⟨events, upheld, _⟩ := upheld_of_run shared ran
  refine ⟨upheld.entries_nodup, fun label next stepped changed => ?_⟩
  obtain ⟨request, member, attempt, enters, added⟩ := upheld.entering stepped changed
  have held := upheld.held request member
  rw [enters] at held
  refine ⟨⟨request.service, attempt⟩, events, added, fun past => ?_, upheld.readsBack,
    held.passed, held.reached⟩
  have due : attempt.job.jobId ∈ state.requests.filterMap Request.entering := by
    refine List.mem_filterMap.mpr ⟨request, member, ?_⟩
    rw [Request.entering, enters]
  exact List.disjoint_of_nodup_append upheld.once past due

section Approved

variable {interpreter : Interpreter} {authority : AuditAuthority} {state : State}
  {events : List AuditEvent} {tables : Tables}

/-- A consumed record follows the grant of its token. -/
theorem root_of_consumed (chained : Chained interpreter tables) {hash : Str}
    {record : ApprovalRecord} (consumed : Consumed interpreter tables hash record) :
    ∃ rootHash row root, tables.records.lookup rootHash = some row ∧
      Holds interpreter rootHash row root ∧ root.state = .granted ∧ follows root record = true := by
  obtain ⟨⟨row, found, holds⟩, state⟩ := consumed
  have closed : ∀ token, ¬ Root token row := fun token root =>
    nomatch root.granted.symm.trans (holds.state.trans state)
  obtain ⟨current, pointer⟩ := Table.mem_iff.mp (chained.pointed hash row found)
  cases chained.history _ current pointer with
  | root stored root only =>
      obtain rfl := only hash row found rfl
      obtain rfl := Option.some.inj (stored.symm.trans found)
      exact absurd root (closed _)
  | @successor rootHash first _ changedAt stored root followed ends later only =>
      obtain rfl | rfl := only hash row found rfl
      · obtain rfl := Option.some.inj (stored.symm.trans found)
        exact absurd root (closed _)
      · obtain ⟨elder, older⟩ := chained.holds rootHash first stored
        obtain rfl := Option.some.inj (followed.symm.trans found)
        have linked : record.previousHash = some elder.recordHash := by
          have column := congrArg ApprovalRow.previousHash holds.columns
          obtain ⟨digest, link, same⟩ := Option.map_eq_some_iff.mp column.symm
          rw [link, Subtype.ext (same.trans older.named.symm)]
        exact ⟨rootHash, first, elder, stored, older, older.state.symm.trans root.granted,
          older.follows holds linked ends later⟩

/-- The approval of an entry was consumed for its handoff while it was valid, and the chain
shows that an approver granted it who is not the user of the job. -/
def Consented (interpreter : Interpreter) (state : State) (events : List AuditEvent)
    (entry : Entry) : Prop :=
  ∃ hash record root, entry.attempt.permit.approvalRecordHash = some hash ∧
    Consumed interpreter state.store.tables hash.val record ∧
    entry.attempt.job.handoff.scope = .ok record.scope ∧
    record.changedAt = entry.attempt.now ∧
    record.issuedAt ≤ entry.attempt.now ∧ entry.attempt.now < record.expiresAt ∧
    follows root record = true ∧
    ∃ event ∈ events, ∃ asked ∈ state.calls, Endorses asked.1 event root

theorem Upheld.consented (upheld : Upheld interpreter authority state events) {entry : Entry}
    (member : entry ∈ state.entries) {hash : Digest}
    (named : entry.attempt.permit.approvalRecordHash = some hash) :
    Consented interpreter state events entry := by
  obtain ⟨_, held⟩ := upheld.entries entry member
  obtain ⟨record, consumed, scopes, changed⟩ := held.approved hash named
  obtain ⟨⟨row, found, holds⟩, spent⟩ := consumed
  obtain ⟨rootHash, first, root, stored, older, granted, followed⟩ :=
    root_of_consumed upheld.coherent.chained ⟨⟨row, found, holds⟩, spent⟩
  obtain ⟨event, present, asked, called, endorses⟩ :=
    upheld.endorsed rootHash first root stored older granted
  have lawful := holds.lawful
  refine ⟨hash, record, root, named, ⟨⟨row, found, holds⟩, spent⟩, scopes, changed, ?_, ?_, followed,
    event, present, asked, called, endorses⟩
  · rw [← changed]
    exact lawful.changed
  · rw [← changed]
    exact lawful.timely spent

/-- One approval is spent on one entry. -/
theorem Upheld.approvals_nodup (upheld : Upheld interpreter authority state events) :
    (state.entries.filterMap fun entry => entry.attempt.permit.approvalRecordHash).Nodup := by
  have named : ∀ entry ∈ state.entries, ∀ hash ∈ entry.attempt.permit.approvalRecordHash,
      ∃ record, Consumed interpreter state.store.tables hash.val record ∧
        record.scope.jobId = entry.jobId := by
    intro entry member hash shown
    obtain ⟨_, held⟩ := upheld.entries entry member
    obtain ⟨record, consumed, scopes, _⟩ := held.approved hash shown
    exact ⟨record, consumed, (scope_eq_ok scopes).2.2.1.trans held.job.sound.read.jobId⟩
  refine List.pairwise_filterMap.mpr
    ((List.pairwise_map.mp upheld.entries_nodup).imp_of_mem fun one other apart => ?_)
  rintro hash shown again shows rfl
  obtain ⟨record, ⟨⟨row, found, holds⟩, _⟩, first⟩ := named _ one hash shown
  obtain ⟨held, ⟨⟨line, stored, reads⟩, _⟩, second⟩ := named _ other hash shows
  obtain rfl := Option.some.inj (found.symm.trans stored)
  obtain rfl := holds.unique reads
  exact apart (first.symm.trans second)

end Approved

/-- Where a subject needs an approval, its job entered its worker with one that somebody
else than the user of the job granted, that was valid, and that no other entry spent. -/
theorem approved_by_another (interpreter : Interpreter) (authority : AuditAuthority)
    (labels : List Label) (state : State) (shared : ∀ label ∈ labels, label.Shares authority)
    (ran : run (step interpreter) State.initial labels = some state) :
    ∃ events, ReadsBack interpreter authority state events ∧
      (∀ entry ∈ state.entries, ∀ grant,
        entry.service.policy.grantFor entry.attempt.job.subject = .ok grant →
          grant.requiresApproval = true → Consented interpreter state events entry) ∧
      (state.entries.filterMap fun entry => entry.attempt.permit.approvalRecordHash).Nodup := by
  obtain ⟨events, upheld, _⟩ := upheld_of_run shared ran
  refine ⟨events, upheld.readsBack, fun entry member grant granted required => ?_,
    upheld.approvals_nodup⟩
  obtain ⟨_, held⟩ := upheld.entries entry member
  have present := (held.required grant granted).symm.trans required
  obtain ⟨hash, named⟩ := Option.isSome_iff_exists.mp present
  exact upheld.consented member named

section Once

variable {jobs : Table JobRow} {tables : Tables} {events : List AuditEvent}

/-- The job of an event of a kind. -/
def about (action : Action) (event : AuditEvent) : Option Str :=
  if event.action = action then some event.jobId.val else none

end Once

end GeniusNew.Durable
