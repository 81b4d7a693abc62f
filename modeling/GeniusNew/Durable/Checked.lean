import GeniusNew.Database.StartChecks
import GeniusNew.Durable.Reconciled

/-! # The start check accepts

Where tables and events go together, every job was issued once and job ids are told
apart by what events carry of them, `check_core_bindings` accepts whatever rows its
queries return.
-/

namespace GeniusNew.Durable

open Json Assoc Database PostgresAuditChain

/-- The job of an issuance. -/
def issuedId (event : AuditEvent) : Option Str :=
  if event.action = .handoffIssued then some event.jobId.val else none

/-- Job ids are told apart by what events carry of them. -/
def Apart (jobs : Table JobRow) : Prop :=
  ∀ one other, one ∈ jobs → other ∈ jobs → audited one = audited other → one = other

/-- A row of the job ledger with its id as events carry it. -/
def named (line : Line JobRow) : Str × JobRow := ((audited line.1).getD [], line.2)

theorem mapM_map {α β : Type} {f : α → Outcome β} {g : α → β} {items : List α}
    (each : ∀ item ∈ items, f item = .ok (g item)) : items.mapM f = .ok (items.map g) := by
  induction items with
  | nil => rfl
  | cons item items ih =>
      obtain ⟨first, others⟩ := List.forall_mem_cons.mp each
      rw [List.mapM_cons, first, List.map_cons]
      exact bind_eq_ok.mpr ⟨_, rfl, bind_eq_ok.mpr ⟨_, ih others, rfl⟩⟩

theorem filterMap_of_forall₂ {α β : Type} {view : α → Option β} {items : List α} {made : List β}
    (pairs : List.Forall₂ (fun item result => view item = some result) items made) :
    items.filterMap view = made := by
  induction pairs with
  | nil => rfl
  | cons shown _ ih => rw [List.filterMap_cons_some shown, ih]

/-- A query that may return every row returns them all. -/
theorem Selects.perm {Row : Type} {limit : Nat} {table : Table Row} {lines : List (Line Row)}
    (selects : Selects limit table lines) (few : table.entries.length ≤ limit) :
    lines.Perm table.entries := by
  refine selects.held.perm_of_length_le ?_
  rw [selects.whole, min_eq_right few]

section Jobs

variable {jobs : Table JobRow} {events : List AuditEvent} {lines : List (Line JobRow)}

/-- Whatever the queries return is in the table. -/
theorem lookup_of_perm {Row : Type} {table : Table Row} {lines : List (Line Row)}
    (all : lines.Perm table.entries) {line : Line Row} (member : line ∈ lines) :
    table.lookup line.1 = some line.2 :=
  AList.mem_lookup_iff.mpr (all.mem_iff.mp member)

theorem mem_of_lookup {Row : Type} {table : Table Row} {lines : List (Line Row)}
    (all : lines.Perm table.entries) {key : Str} {row : Row} (found : table.lookup key = some row) :
    (⟨key, row⟩ : Line Row) ∈ lines :=
  all.mem_iff.mpr (AList.mem_lookup_iff.mp found)

/-- The one issuance of a job. -/
theorem Issuances.only (issuances : Issuances jobs events)
    (unique : (events.filterMap issuedId).Nodup) {jobId : Str} {row : JobRow}
    (found : jobs.lookup jobId = some row) : ∃ event ∈ events, event.action = .handoffIssued ∧
      About event jobId row.subject row.handoffSha256 ∧
      issuedUnder events event.jobId.val row.handoffSha256 = [event] := by
  obtain ⟨event, member, action, about⟩ := issuances.issued jobId row found
  refine ⟨event, member, action, about, filter_eq_singleton unique member
    (decide_eq_true ⟨action, rfl, about.digest⟩) (?_ : ∀ other, _ → _ = some event.jobId.val)⟩
  intro other kept
  obtain ⟨issued, same, _⟩ := of_decide_eq_true kept
  rw [issuedId, if_pos issued, same]

theorem Issuances.named_eq (issuances : Issuances jobs events) {line : Line JobRow}
    (found : jobs.lookup line.1 = some line.2) :
    audited line.1 = some (named line).1 := by
  obtain ⟨event, _, _, about⟩ := issuances.issued line.1 line.2 found
  rw [named, about.audited, Option.getD_some]

theorem Issuances.checkIssuance (issuances : Issuances jobs events)
    (unique : (events.filterMap issuedId).Nodup) {line : Line JobRow}
    (found : jobs.lookup line.1 = some line.2) :
    PostgresAuditChain.checkIssuance events line = .ok (named line) := by
  obtain ⟨event, _, _, about, only⟩ := issuances.only unique found
  obtain ⟨bytes, result, encoded, bound⟩ := about.subject
  have binds : [event].all (bindsSubject (sha256 bytes)) = true := by
    rw [List.all_cons, List.all_nil, Bool.and_true, bindsSubject, bound]
    exact decide_eq_true rfl
  refine bind_eq_ok.mpr ⟨event.jobId.val, about.jobId, ?_⟩
  dsimp only
  rw [only]
  refine guarded_eq_ok.mpr ⟨List.cons_ne_nil _ _, bind_eq_ok.mpr ⟨bytes, encoded, ?_⟩⟩
  refine guarded_eq_ok.mpr ⟨not_not.mpr binds, guarded_eq_ok.mpr ⟨not_not.mpr rfl, ?_⟩⟩
  rw [named, about.audited]
  rfl

/-- The ids of the rows, as events carry them, are told apart. -/
theorem Issuances.nodup_named (issuances : Issuances jobs events) (apart : Apart jobs)
    (all : lines.Perm jobs.entries) : ((lines.map named).map Prod.fst).Nodup := by
  have keys : (lines.map Sigma.fst).Nodup := (all.map Sigma.fst).nodup_iff.mpr jobs.nodupKeys
  rw [List.map_map, List.Nodup, List.pairwise_map]
  refine (List.pairwise_map.mp keys).imp_of_mem fun one other different same => ?_
  have first := lookup_of_perm all one
  have second := lookup_of_perm all other
  refine different (apart _ _ (Table.mem_iff.mpr ⟨_, first⟩) (Table.mem_iff.mpr ⟨_, second⟩) ?_)
  rw [issuances.named_eq first, issuances.named_eq second]
  exact congrArg some same

/-- No more jobs than events. -/
theorem Issuances.length_le (issuances : Issuances jobs events) (apart : Apart jobs) :
    jobs.entries.length ≤ events.length := by
  have distinct := issuances.nodup_named apart (List.Perm.refl jobs.entries)
  have known : (jobs.entries.map named).map Prod.fst ⊆ events.filterMap issuedId := by
    intro safe member
    obtain ⟨pair, inside, rfl⟩ := List.mem_map.mp member
    obtain ⟨line, held, rfl⟩ := List.mem_map.mp inside
    have found := AList.mem_lookup_iff.mpr held
    obtain ⟨event, present, action, about⟩ := issuances.issued _ _ found
    refine List.mem_filterMap.mpr ⟨event, present, ?_⟩
    rw [issuedId, if_pos action, ← about.audited]
    exact issuances.named_eq found
  have few := (List.subperm_of_subset distinct known).length_le
  rw [List.length_map, List.length_map] at few
  exact few.trans (List.length_filterMap_le _ _)

theorem Issuances.checkPending (issuances : Issuances jobs events)
    (unique : (events.filterMap issuedId).Nodup) (apart : Apart jobs)
    (all : lines.Perm jobs.entries) :
    PostgresAuditChain.checkPending events (lines.map named) = .ok () := by
  refine if_neg (not_not.mpr ((List.perm_ext_iff_of_nodup ?_ ?_).mpr fun key => ?_))
  · refine List.Nodup.of_map Prod.fst ?_
    rw [List.map_map]
    refine nodup_map_filter unique fun event kept => ?_
    rw [issuedId, if_pos (of_decide_eq_true kept).1]
    rfl
  · refine List.Nodup.of_map Prod.fst ?_
    rw [List.map_map]
    exact (List.filter_sublist.map Prod.fst).nodup (issuances.nodup_named apart all)
  · simp only [List.mem_map, List.mem_filter, decide_eq_true_eq]
    constructor
    · rintro ⟨event, ⟨member, action, reason⟩, rfl⟩
      obtain ⟨jobId, row, found, about⟩ := issuances.waiting event member action reason
      obtain ⟨issued, present, issues, names, only⟩ := issuances.only unique found
      have same : issued = event := by
        have here : event ∈ issuedUnder events issued.jobId.val row.handoffSha256 :=
          List.mem_filter.mpr ⟨member, decide_eq_true ⟨action,
            Except.ok.inj (about.jobId.symm.trans names.jobId), about.digest⟩⟩
        rw [only, List.mem_singleton] at here
        exact here.symm
      subst same
      have safe : named ⟨jobId, row⟩ = (issued.jobId.val, row) := by
        rw [named, about.audited]
        rfl
      refine ⟨_, ⟨⟨⟨jobId, row⟩, mem_of_lookup all found, rfl⟩, ?_⟩, ?_⟩
      · rw [safe, only, List.head?_cons, Option.any_some]
        exact decide_eq_true reason
      · rw [safe, about.digest]
    · rintro ⟨pair, ⟨⟨line, member, rfl⟩, chosen⟩, rfl⟩
      obtain ⟨event, present, action, about, only⟩ :=
        issuances.only unique (lookup_of_perm all member)
      have safe : named line = (event.jobId.val, line.2) := by
        rw [named, about.audited]
        rfl
      rw [safe] at chosen ⊢
      rw [only, List.head?_cons, Option.any_some] at chosen
      exact ⟨event, ⟨present, action, of_decide_eq_true chosen⟩, by rw [about.digest]⟩

/-- The marks of the rows that were read are those of the table. -/
theorem Issuances.marks (issuances : Issuances jobs events) (mark : Str → JobRow → Option Mark)
    (all : lines.Perm jobs.entries) :
    ((lines.map named).filterMap fun job => mark job.1 job.2).Perm
      (Assoc.marks (marked mark) jobs) := by
  have same : (lines.map named).filterMap (fun job => mark job.1 job.2) =
      lines.filterMap fun line => marked mark line.1 line.2 := by
    rw [List.filterMap_map]
    refine List.filterMap_congr fun line member => ?_
    rw [marked, issuances.named_eq (lookup_of_perm all member)]
    rfl
  rw [same]
  exact all.filterMap _

theorem Issuances.checkAdmissions (issuances : Issuances jobs events) (apart : Apart jobs)
    (admissions : Accounts (marked admissionMark) admissionEvent jobs events)
    (all : lines.Perm jobs.entries) :
    PostgresAuditChain.checkAdmissions events (lines.map named) = .ok () := by
  have expected : ((lines.map named).filterMap fun job => admissionMark job.1 job.2).Nodup := by
    refine nodup_filterMap_of_map Prod.fst (issuances.nodup_named apart all) ?_
    intro job mark shown
    unfold admissionMark at shown
    split_ifs at shown
    rw [← Option.some.inj shown]
  have same : ((events.filter fun event => event.action = .handoffAdmitted).map fun event =>
      (eventMark event, event.approvalRecordHash)).map Prod.fst =
        events.filterMap admissionEvent := by
    rw [List.map_map, ← List.filterMap_eq_map', List.filterMap_filter]
    refine List.filterMap_congr fun event _ => ?_
    by_cases admitted : event.action = .handoffAdmitted
    · simp [admissionEvent, admitted]
    · simp [admissionEvent, admitted]
  have agree := (issuances.marks admissionMark all).trans admissions
  unfold PostgresAuditChain.checkAdmissions
  refine guarded_eq_ok.mpr ⟨not_or.mpr ⟨not_not.mpr ?_, not_not.mpr expected⟩,
    guarded_eq_ok.mpr ⟨not_not.mpr ?_, rfl⟩⟩
  · refine List.Nodup.of_map Prod.fst ?_
    rw [same]
    exact agree.nodup_iff.mp expected
  · rw [same]
    exact agree.symm

end Jobs

section Approvals

variable {interpreter : Interpreter} {tables : Tables} {events : List AuditEvent}

/-- The scope that a record was stored with. -/
theorem scopeOf_eq_ok {recordHash : Str} {row : ApprovalRow} {record : ApprovalRecord}
    (holds : Holds interpreter recordHash row record) :
    scopeOf interpreter ⟨recordHash, row⟩ = .ok (recordHash, record.scope.fields) := by
  have decoded := decodeWire_scope holds.encoded holds.short
  rw [holds.joined] at decoded
  unfold PostgresAuditChain.scopeOf
  rw [bounded_of_short holds.short]
  exact bind_eq_ok.mpr ⟨_, decoded, rfl⟩

theorem scopeOf_named {line : Line ApprovalRow} {made : Str × List (Str × Value)}
    (read : scopeOf interpreter line = .ok made) : made.1 = line.1 := by
  unfold PostgresAuditChain.scopeOf at read
  cases selected : bounded line.2.scope with
  | none =>
      rw [selected] at read
      exact (fail_ne_ok read).elim
  | some raw =>
      rw [selected] at read
      obtain ⟨_, _, same⟩ := bind_eq_ok.mp read
      rw [← pure_eq_ok.mp same]

theorem Describes.bindsScope {event : AuditEvent} {scope : ApprovalScope}
    (describes : Describes event scope) : bindsScope scope.fields event = .ok true := by
  have job : auditSafeOf scope.fields "job_id" "job_id" = .ok event.jobId.val := describes.jobId
  have user : auditSafeOf scope.fields "user_id" "subject" = .ok event.subject.val :=
    describes.subject
  have version : auditSafeOf scope.fields "policy_version" "policy_version" =
      .ok event.policyVersion.val := describes.version
  have digest : PostgresApprovalStore.holdsText scope.fields "handoff_sha256"
      event.handoffSha256.val = true := by
    rw [describes.digest]
    exact decide_eq_true rfl
  unfold PostgresAuditChain.bindsScope
  simp only [job, user, version, digest, bind, Except.bind, ne_eq, not_true_eq_false, or_self,
    if_false, pure, Except.pure, decide_true]

theorem Receipts.checkApprovals (receipts : Receipts interpreter tables.records events)
    (chained : Chained interpreter tables)
    (approvals : Accounts approvalMark approvalEvent tables.records events)
    {lines : List (Line ApprovalRow)} (all : lines.Perm tables.records.entries) :
    PostgresAuditChain.checkApprovals interpreter events lines = .ok () := by
  have each : ∀ line ∈ lines, ∃ made, scopeOf interpreter line = .ok made := by
    intro line member
    obtain ⟨record, holds⟩ := chained.holds _ _ (lookup_of_perm all member)
    exact ⟨_, scopeOf_eq_ok holds⟩
  obtain ⟨scopes, read, pairs⟩ := mapM_eq_ok each
  have keys : scopes.map Prod.fst = lines.map Sigma.fst :=
    map_of_forall₂ pairs fun line made reads => scopeOf_named reads
  have distinct : (scopes.map Prod.fst).Nodup := by
    rw [keys]
    exact (all.map Sigma.fst).nodup_iff.mpr tables.records.nodupKeys
  -- every event that names a record finds the scope of this record
  have bound : ∀ event ∈ events.filter fun event => (approvalEvent event).isSome,
      checkReceipt scopes event = .ok () := by
    intro event member
    obtain ⟨inside, shown⟩ := List.mem_filter.mp member
    obtain ⟨hash, row, record, receipt, found, holds, describes⟩ := receipts event inside shown
    obtain ⟨made, present, reads⟩ := exists_right_of_mem pairs (mem_of_lookup all found)
    obtain rfl := Except.ok.inj ((scopeOf_eq_ok holds).symm.trans reads)
    have scope := lookup_of_mem_nodup distinct present
    unfold checkReceipt
    rw [receipt, Option.bind_some, scope]
    exact bind_eq_ok.mpr ⟨true, describes.bindsScope, if_neg (not_not.mpr rfl)⟩
  refine bind_eq_ok.mpr ⟨scopes, read, guarded_eq_ok.mpr ⟨not_not.mpr ?_,
    bind_eq_ok.mpr ⟨_, mapM_map bound, rfl⟩⟩⟩
  exact (approvals.symm : List.Perm _ _).trans (all.filterMap _).symm

end Approvals

section Results

variable {tables : Tables} {events : List AuditEvent}

theorem acceptedMark_of_resultMark {line : Line AcceptanceRow} {mark : ResultMark}
    (made : resultMark line = .ok mark) : acceptedMark line.1 line.2 = some mark := by
  obtain ⟨safe, carried, same⟩ := bind_eq_ok.mp made
  rw [acceptedMark, audited_eq_some.mpr carried, Option.map_some]
  exact congrArg some (pure_eq_ok.mp same)

theorem resultMark_eq_ok (issuances : Issuances tables.jobs events) (accepted : Accepted tables)
    {line : Line AcceptanceRow} (found : tables.acceptances.lookup line.1 = some line.2) :
    ∃ mark, resultMark line = .ok mark := by
  obtain ⟨_, _, job, held, _⟩ := accepted.accepted line.1 line.2 found
  obtain ⟨event, _, _, about⟩ := issuances.issued _ job held
  exact ⟨_, bind_eq_ok.mpr ⟨_, about.jobId, rfl⟩⟩

theorem checkResults_eq_ok (issuances : Issuances tables.jobs events) (accepted : Accepted tables)
    (results : Accounts acceptedMark resultEvent tables.acceptances events)
    {lines : List (Line AcceptanceRow)} (all : lines.Perm tables.acceptances.entries) :
    checkResults events lines = .ok () := by
  obtain ⟨expected, read, pairs⟩ := mapM_eq_ok fun line member =>
    resultMark_eq_ok issuances accepted (lookup_of_perm all member)
  have same : lines.filterMap (fun line => acceptedMark line.1 line.2) = expected :=
    filterMap_of_forall₂ (pairs.imp fun _ _ made => acceptedMark_of_resultMark made)
  refine bind_eq_ok.mpr ⟨expected, read, guarded_eq_ok.mpr ⟨not_not.mpr ?_, rfl⟩⟩
  rw [← same]
  exact (results.symm : List.Perm _ _).trans (all.filterMap _).symm

theorem acceptances_length_le (issuances : Issuances tables.jobs events)
    (accepted : Accepted tables)
    (results : Accounts acceptedMark resultEvent tables.acceptances events) :
    tables.acceptances.entries.length ≤ events.length := by
  refine results.length_le fun digest row found => ?_
  obtain ⟨mark, made⟩ : ∃ mark, resultMark ⟨digest, row⟩ = .ok mark :=
    resultMark_eq_ok issuances accepted found
  exact Option.isSome_iff_exists.mpr ⟨mark, acceptedMark_of_resultMark made⟩

end Results

/-- The start check accepts tables and events that go together. -/
theorem Reconciled.checked {interpreter : Interpreter} {tables : Tables} {events : List AuditEvent}
    (reconciled : Reconciled interpreter tables events) (coherent : Coherent interpreter tables)
    (apart : Apart tables.jobs) (unique : (events.filterMap issuedId).Nodup)
    {jobs : List (Line JobRow)} {approvals : List (Line ApprovalRow)}
    {acceptances : List (Line AcceptanceRow)}
    (ofJobs : Selects (events.length + 1) tables.jobs jobs)
    (ofApprovals : Selects (events.length + 1) tables.records approvals)
    (ofAcceptances : Selects (events.length + 1) tables.acceptances acceptances) :
    checkCoreBindings interpreter events jobs approvals acceptances = .ok () := by
  obtain ⟨issuances, admissions, executions, refusals, granted, receipts, results⟩ := reconciled
  have allJobs := ofJobs.perm (Nat.le_succ_of_le (issuances.length_le apart))
  have allApprovals := ofApprovals.perm
    (Nat.le_succ_of_le (granted.length_le fun _ _ _ => rfl))
  have allAcceptances := ofAcceptances.perm
    (Nat.le_succ_of_le (acceptances_length_le issuances coherent.accepted results))
  have issued : jobs.mapM (checkIssuance events) = .ok (jobs.map named) :=
    mapM_map fun line member => issuances.checkIssuance unique (lookup_of_perm allJobs member)
  have executed := ((issuances.marks executionMark allJobs).trans executions).symm
  have refused := ((issuances.marks refusalMark allJobs).trans refusals).symm
  refine bind_eq_ok.mpr ⟨_, issued, ?_⟩
  refine bind_eq_ok.mpr ⟨_, issuances.checkPending unique apart allJobs, ?_⟩
  refine bind_eq_ok.mpr ⟨_, issuances.checkAdmissions apart admissions allJobs, ?_⟩
  refine bind_eq_ok.mpr ⟨(), guarded_eq_ok.mpr ⟨not_not.mpr executed, rfl⟩, ?_⟩
  refine bind_eq_ok.mpr ⟨(), guarded_eq_ok.mpr ⟨not_not.mpr refused, rfl⟩, ?_⟩
  refine bind_eq_ok.mpr ⟨_, receipts.checkApprovals coherent.chained granted allApprovals, ?_⟩
  exact checkResults_eq_ok issuances coherent.accepted results allAcceptances

end GeniusNew.Durable
