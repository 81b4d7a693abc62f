import GeniusNew.Audit.Rehydrated
import GeniusNew.Audit.Verified
import GeniusNew.Contracts.Issued

/-! # Events derived from a handoff

`event_from_handoff` takes the job, the subject and the policy version from the
handoff, and its payload only as the digest it carries. An identifier that an
entry could not carry is recorded as the digest of itself.
-/

namespace GeniusNew

open Json

def constitutionVersion : Str := str "constitution-v1-draft"

/-- `_audit_safe`. -/
def auditSafe (value : Str) (field : String) : Outcome Str :=
  if value = [] then fail (field ++ " must be a non-empty identifier")
  else
    match identifier (.str value) field with
    | .ok text => .ok text.val
    | .error (.contractError _) =>
        match encodeUtf8 value with
        | some bytes => .ok (str "sha256:" ++ (sha256 bytes).val)
        | none => .error .unicodeError
    | .error raised => .error raised

/-- What a component says about a handoff, besides the handoff. -/
structure Report where
  traceId : Str
  actor : ComponentActor
  action : Action
  decision : Decision
  reasonCode : Str
  occurredAt : Int
  approvalRecordHash : Option Str
  apiSubject : Option Str
  resultSha256 : Option Digest

def optionalStr : Option Str → Value
  | some text => .str text
  | none => .null

/-- The digest of an exact subject, where one is bound. -/
def apiSubjectSha256 : Option Str → Outcome Value
  | none => .ok .null
  | some subject => do
      let bytes ← subjectBytes subject
      return .str (sha256 bytes).val

/-- `event_from_handoff`. -/
def eventFromHandoff (handoff : Handoff) (report : Report) : Outcome AuditEvent := do
  let hashed ← compareDigest (sha256 (canonicalBytes (payloadDict handoff.payload))).val
    handoff.payloadSha256
  if !hashed then fail "handoff payload no longer matches its digest"
  else if report.approvalRecordHash.isSome ∧ handoff.approvalState ≠ pendingApproval then
    fail "approval_record_hash is not allowed for a handoff that needs no approval"
  else if report.apiSubject = none ∧ report.resultSha256.isSome then
    fail "result digest needs a bound API subject"
  else do
    let traceId ← identifier (.str report.traceId) "trace_id"
    let jobId ← auditSafe handoff.jobId "job_id"
    let subject ← auditSafe handoff.userId "subject"
    let policyVersion ← auditSafe handoff.policyVersion "policy_version"
    let apiSubject ← apiSubjectSha256 report.apiSubject
    AuditEvent.ofArguments {
      traceId := .str traceId.val
      jobId := .str jobId
      actor := report.actor
      subject := .str subject
      action := .str report.action.text
      decision := .str report.decision.text
      reasonCode := .str report.reasonCode
      policyVersion := .str policyVersion
      constitutionVersion := .str constitutionVersion
      handoffSha256 := .str (sha256 handoff.toBytes).val
      payloadSha256 := .str handoff.payloadSha256
      occurredAt := .int report.occurredAt
      approvalRecordHash := optionalStr report.approvalRecordHash
      eventVersion := .int (if report.apiSubject.isSome then 2 else 1)
      apiSubjectSha256 := apiSubject
      resultSha256 := AuditEvent.digestValue? report.resultSha256 }

theorem oneOf_eq_ok {α : Type} {ofText? : Str → Option α} {text : Str} {message : String}
    {member : α} (read : oneOf ofText? (.str text) message = .ok member) :
    ofText? text = some member := by
  unfold oneOf at read
  dsimp only at read
  split at read
  · next found =>
      obtain rfl := Except.ok.inj read
      exact found
  · exact (fail_ne_ok read).elim

theorem occurredAt_eq_ok {number : Int} {time : OccurredAt}
    (read : occurredAt (.int number) = .ok time) : time.val = number := by
  unfold occurredAt at read
  dsimp only at read
  split_ifs at read
  · rw [← Except.ok.inj read]
  · exact (fail_ne_ok read).elim

/-- An event names the handoff it is about, and the action it was derived for. -/
theorem eventFromHandoff_eq_ok {handoff : Handoff} {report : Report} {event : AuditEvent}
    (derived : eventFromHandoff handoff report = .ok event) :
    event.handoffSha256 = sha256 handoff.toBytes ∧ event.action = report.action ∧
      event.occurredAt.val = report.occurredAt := by
  obtain ⟨_, _, derived⟩ := bind_eq_ok.mp derived
  obtain ⟨_, derived⟩ := guarded_eq_ok.mp derived
  obtain ⟨_, derived⟩ := guarded_eq_ok.mp derived
  obtain ⟨_, derived⟩ := guarded_eq_ok.mp derived
  simp only [bind_eq_ok] at derived
  obtain ⟨_, _, _, _, _, _, _, _, _, _, made⟩ := derived
  simp only [AuditEvent.ofArguments, bind_eq_ok] at made
  obtain ⟨_, _, _, _, _, _, _, _, _, _, handed, digested, _, _, _, _, action, acts, _, _, _, _, _,
    _, time, occurs, same⟩ := made
  obtain rfl := pure_eq_ok.mp same
  refine ⟨?_, ?_, ?_⟩
  · exact Subtype.ext (Value.str.inj (digest_eq_ok.mp digested)).symm
  · have found := oneOf_eq_ok acts
    rw [Action.ofText?_text] at found
    exact (Option.some.inj found).symm
  · exact occurredAt_eq_ok occurs

end GeniusNew
