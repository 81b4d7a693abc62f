import GeniusNew.Durable.Reconciled
import GeniusNew.Durable.Requests
import GeniusNew.Service.Evidence

/-! # What a request holds

A request was told something of its job by the tables and by the chain, and keeps it
through its later steps. Whatever the other requests commit in the meantime, it stays
true: jobs only move on, records stay, and the chain only grows.
-/

namespace GeniusNew.Durable

open Json Database
open Wiring (Call Job Waiting milestones)

/-- A job whose execution was committed. -/
def entered : JobState → Bool
  | .executionCommitted | .completed => true
  | .pendingApproval | .reserved | .refused => false

/-- The first decisions about a job are on the chain, in their order. -/
def Passed (events : List AuditEvent) (jobId subject digest : Str) (count : Nat) : Prop :=
  ∃ found : List AuditEvent, found.Sublist events ∧
    found.map AuditEvent.action = milestones.take count ∧
    ∀ event ∈ found, About event jobId subject digest

/-- The job is in the ledger, for its subject and with its handoff. -/
def Stands (tables : Tables) (jobId subject : Str) (wire : Bytes) : Prop :=
  ∃ row, tables.jobs.lookup jobId = some row ∧ row.subject = subject ∧
    row.handoffSha256 = (sha256 wire).val

/-- The job was reserved at a time, and is that far. -/
def Reached (tables : Tables) (jobId subject : Str) (wire : Bytes) (now : Int)
    (far : JobState → Bool) : Prop :=
  ∃ row, tables.jobs.lookup jobId = some row ∧ row.subject = subject ∧
    row.handoffSha256 = (sha256 wire).val ∧ row.reservedAt = some now ∧ far row.state = true

/-- A record of an approval that was consumed for a handoff, at a time. -/
def Approved (interpreter : Interpreter) (tables : Tables) (hash : Digest) (handoff : Handoff)
    (now : Int) : Prop :=
  ∃ record, Consumed interpreter tables hash.val record ∧ handoff.scope = .ok record.scope ∧
    record.changedAt = now

variable (interpreter : Interpreter) (service : Wiring.Service) (call : Call) (tables : Tables)
  (events : List AuditEvent)

/-- A job whose issuance is on the chain. A job that waited is in the ledger, and any
other has the id of its request. -/
structure Job.Held (job : Job) : Prop where
  sound : job.Sound interpreter service
  issued : Passed events job.jobId job.subject (sha256 job.wire).val 1
  waited : job.restored.isSome = true → Stands tables job.jobId job.subject job.wire
  called : job.restored = none → call.minted = some job.jobId

/-- A dispatch that was admitted, with the decisions that were recorded of it. -/
structure Attempt.Held (attempt : Attempt) (count : Nat) (far : JobState → Bool) : Prop where
  job : Job.Held interpreter service call tables events attempt.job
  handoff : attempt.permit.handoff = attempt.job.handoff
  reserved : attempt.reservation.jobId = attempt.job.jobId ∧
    attempt.reservation.handoffSha256 = sha256 attempt.job.wire
  reached : Reached tables attempt.job.jobId attempt.job.subject attempt.job.wire attempt.now far
  passed : Passed events attempt.job.jobId attempt.job.subject (sha256 attempt.job.wire).val count
  required : ∀ grant, service.policy.grantFor attempt.job.subject = .ok grant →
    grant.requiresApproval = attempt.permit.approvalRecordHash.isSome
  approved : ∀ hash ∈ attempt.permit.approvalRecordHash,
    Approved interpreter tables hash attempt.job.handoff attempt.now

/-- A decision on a job that waits. -/
structure Approval.Held (approval : Approval) : Prop where
  sound : approval.waiting.Sound interpreter service approval.jobId
  stands : Stands tables approval.jobId approval.waiting.subject approval.waiting.wire
  role : service.approvers.userId (some approval.approver) = .ok approval.approverUserId

def Phase.Held : Phase → Prop
  | .called | .approved _ _ | .returned | .raised => True
  | .queueing job _ => job.Sound interpreter service ∧ call.minted = some job.jobId
  | .issued job _ => job.Sound interpreter service ∧ job.restored = none ∧
      call.minted = some job.jobId ∧ job.handoff.approvalState ≠ pendingApproval
  | .starting job | .admitting job _ _ | .refusing job _ =>
      Job.Held interpreter service call tables events job
  | .committing attempt =>
      attempt.Held interpreter service call tables events 2 JobState.running
  | .entering attempt | .running attempt | .verifying attempt _ =>
      attempt.Held interpreter service call tables events 3 entered
  | .approving approval => approval.Held interpreter service tables
  | .lapsing approval _ | .granting approval _ => approval.Held interpreter service tables ∧
      approval.waiting.handoff.userId ≠ approval.approverUserId

section Later

variable {interpreter service call tables events} {after : Tables}

/-- What a transaction leaves of what was there. -/
structure Later (before after : Tables) : Prop where
  jobs : ∀ jobId job, before.jobs.lookup jobId = some job →
    ∃ later, after.jobs.lookup jobId = some later ∧ Relation.ReflGen Moves job later
  records : ∀ recordHash row, before.records.lookup recordHash = some row →
    after.records.lookup recordHash = some row

theorem Later.refl (tables : Tables) : Later tables tables :=
  ⟨fun _ job found => ⟨job, found, .refl⟩, fun _ _ found => found⟩

theorem records_insert {recordHash : Str} {row : ApprovalRow} (fresh : recordHash ∉ tables.records)
    {other : Str} {held : ApprovalRow} (found : tables.records.lookup other = some held) :
    (tables.records.insert recordHash row).lookup other = some held := by
  have apart : other ≠ recordHash := fun same => fresh (Table.mem_iff.mpr ⟨held, same ▸ found⟩)
  exact (AList.lookup_insert_ne apart).trans found

theorem Commits.later {event : AuditEvent} (commits : Commits interpreter tables events after event)
    (queued : Queued tables) : Later tables after where
  jobs := by
    intro jobId job found
    obtain rfl | ⟨_, effect⟩ := commits.effect
    · exact ⟨job, found, .refl⟩
    · exact effect.job queued found
  records := by
    intro recordHash row found
    cases commits with
    | granted grants => exact records_insert grants.fresh found
    | consumed succeeds => exact records_insert succeeds.fresh found
    | queued effect => cases effect; exact found
    | refused effect => cases effect; exact found
    | _ => exact found

theorem moves_kept {job later : JobRow} (moved : Relation.ReflGen Moves job later) :
    later.subject = job.subject ∧ later.handoffSha256 = job.handoffSha256 := by
  cases moved with
  | refl => exact ⟨rfl, rfl⟩
  | single moves => cases moves <;> exact ⟨rfl, rfl⟩

/-- How far a job is, it does not go back, and the time of its reservation stays. -/
def Forward (far : JobState → Bool) : Prop :=
  ∀ job later, Moves job later → far job.state = true →
    far later.state = true ∧ later.reservedAt = job.reservedAt

theorem forward_running : Forward JobState.running := by
  intro job later moves far
  cases moves with
  | reserved waits => rw [waits] at far; cases far
  | refused waits => rw [waits] at far; cases far
  | committed => exact ⟨rfl, rfl⟩
  | completed => exact ⟨rfl, rfl⟩

theorem forward_entered : Forward entered := by
  intro job later moves far
  cases moves with
  | reserved waits => rw [waits] at far; cases far
  | refused waits => rw [waits] at far; cases far
  | committed => exact ⟨rfl, rfl⟩
  | completed => exact ⟨rfl, rfl⟩

theorem Stands.later {jobId subject : Str} {wire : Bytes}
    (stands : Stands tables jobId subject wire) (later : Later tables after) :
    Stands after jobId subject wire := by
  obtain ⟨row, found, owned, bound⟩ := stands
  obtain ⟨next, stored, moved⟩ := later.jobs jobId row found
  obtain ⟨subjects, digests⟩ := moves_kept moved
  exact ⟨next, stored, subjects.trans owned, digests.trans bound⟩

theorem Reached.later {jobId subject : Str} {wire : Bytes} {now : Int} {far : JobState → Bool}
    (reached : Reached tables jobId subject wire now far) (forward : Forward far)
    (later : Later tables after) : Reached after jobId subject wire now far := by
  obtain ⟨row, found, owned, bound, reserved, state⟩ := reached
  obtain ⟨next, stored, moved⟩ := later.jobs jobId row found
  obtain ⟨subjects, digests⟩ := moves_kept moved
  cases moved with
  | refl => exact ⟨row, stored, owned, bound, reserved, state⟩
  | single moves =>
      obtain ⟨far, times⟩ := forward row next moves state
      exact ⟨next, stored, subjects.trans owned, digests.trans bound, times.trans reserved, far⟩

theorem Approved.later {hash : Digest} {handoff : Handoff} {now : Int}
    (approved : Approved interpreter tables hash handoff now) (later : Later tables after) :
    Approved interpreter after hash handoff now := by
  obtain ⟨record, ⟨⟨row, found, holds⟩, state⟩, rest⟩ := approved
  exact ⟨record, ⟨⟨row, later.records _ _ found, holds⟩, state⟩, rest⟩

theorem Passed.append {jobId subject digest : Str} {count : Nat}
    (passed : Passed events jobId subject digest count) (more : List AuditEvent) :
    Passed (events ++ more) jobId subject digest count := by
  obtain ⟨found, inside, rest⟩ := passed
  exact ⟨found, inside.trans (List.sublist_append_left _ _), rest⟩

/-- The decision that is due is the next one on the chain. -/
theorem Passed.next {jobId subject digest : Str} {count : Nat} {event : AuditEvent}
    (passed : Passed events jobId subject digest count)
    (due : milestones[count]? = some event.action) (about : About event jobId subject digest) :
    Passed (events ++ [event]) jobId subject digest (count + 1) := by
  obtain ⟨found, inside, actions, abouts⟩ := passed
  refine ⟨found ++ [event], inside.append (List.Sublist.refl _), ?_, fun other member => ?_⟩
  · rw [List.map_append, actions, List.take_add_one, due]
    rfl
  · obtain earlier | last := List.mem_append.mp member
    · exact abouts other earlier
    · rwa [List.mem_singleton.mp last]

theorem passed_zero (events : List AuditEvent) (jobId subject digest : Str) :
    Passed events jobId subject digest 0 :=
  ⟨[], List.nil_sublist _, rfl, fun _ member => nomatch member⟩

theorem Passed.issues {jobId subject digest : Str} (passed : Passed events jobId subject digest 1) :
    Issues events jobId subject digest := by
  obtain ⟨found, inside, actions, abouts⟩ := passed
  obtain ⟨event, rfl⟩ : ∃ event, found = [event] := by
    rw [← List.length_eq_one_iff, ← List.length_map AuditEvent.action, actions]
    rfl
  exact ⟨event, inside.subset List.mem_cons_self, (List.cons.inj actions).1,
    abouts event List.mem_cons_self⟩

theorem passed_of_issues {jobId subject digest : Str} (issues : Issues events jobId subject digest) :
    Passed events jobId subject digest 1 := by
  obtain ⟨event, member, action, about⟩ := issues
  refine ⟨[event], List.singleton_sublist.mpr member, ?_, ?_⟩
  · rw [List.map_singleton, action]
    rfl
  · exact fun other inside => List.mem_singleton.mp inside ▸ about

theorem Job.Held.later {job : Job} (held : Job.Held interpreter service call tables events job)
    (later : Later tables after) (more : List AuditEvent) :
    Job.Held interpreter service call after (events ++ more) job where
  sound := held.sound
  issued := held.issued.append more
  waited := fun restored => (held.waited restored).later later
  called := held.called

theorem Attempt.Held.later {attempt : Attempt} {count : Nat} {far : JobState → Bool}
    (held : attempt.Held interpreter service call tables events count far) (forward : Forward far)
    (later : Later tables after) (more : List AuditEvent) :
    attempt.Held interpreter service call after (events ++ more) count far where
  job := held.job.later later more
  handoff := held.handoff
  reserved := held.reserved
  reached := held.reached.later forward later
  passed := held.passed.append more
  required := held.required
  approved := fun hash member => (held.approved hash member).later later

theorem Approval.Held.later {approval : Approval}
    (held : approval.Held interpreter service tables) (later : Later tables after) :
    approval.Held interpreter service after where
  sound := held.sound
  stands := held.stands.later later
  role := held.role

/-- What a request holds stays true, whatever is committed. -/
theorem Phase.Held.later {phase : Phase}
    (held : phase.Held interpreter service call tables events) (later : Later tables after)
    (more : List AuditEvent) :
    phase.Held interpreter service call after (events ++ more) := by
  cases phase with
  | starting job => exact Job.Held.later held later more
  | admitting job now endpoint => exact Job.Held.later held later more
  | refusing job refusal => exact Job.Held.later held later more
  | committing attempt => exact Attempt.Held.later held forward_running later more
  | entering attempt => exact Attempt.Held.later held forward_entered later more
  | running attempt => exact Attempt.Held.later held forward_entered later more
  | verifying attempt resultWire => exact Attempt.Held.later held forward_entered later more
  | approving approval => exact Approval.Held.later held later
  | lapsing approval now => exact ⟨held.1.later later, held.2⟩
  | granting approval now => exact ⟨held.1.later later, held.2⟩
  | _ => exact held

end Later

end GeniusNew.Durable
