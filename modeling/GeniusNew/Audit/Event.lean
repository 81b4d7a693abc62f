import GeniusNew.Contracts.Basic

/-! # Audit events

What a security-relevant decision may be recorded as. A field of an event is of
a type whose values already passed the field's check, so an event that the
constructor would refuse cannot be built; `AuditEvent.ofArguments` is that
constructor on arbitrary values. An event is written as a dictionary
(`AuditEvent.toDict`) and rebuilt from one by `rehydrateEvent`.
-/

namespace GeniusNew

open Json

def maxIdentifierBytes : Nat := 160

/-- 2100-01-01T00:00:00Z. -/
def maxOccurredAt : Int := 4102444800

inductive Action where
  | handoffIssued
  | handoffAdmitted
  | handoffRejected
  | approvalGranted
  | approvalConsumed
  | approvalRevoked
  | executionDispatched
  | resultAccepted
  | resultRejected
  deriving DecidableEq

namespace Action

def all : List Action :=
  [handoffIssued, handoffAdmitted, handoffRejected, approvalGranted, approvalConsumed,
    approvalRevoked, executionDispatched, resultAccepted, resultRejected]

def text : Action → Str
  | handoffIssued => str "HANDOFF_ISSUED"
  | handoffAdmitted => str "HANDOFF_ADMITTED"
  | handoffRejected => str "HANDOFF_REJECTED"
  | approvalGranted => str "APPROVAL_GRANTED"
  | approvalConsumed => str "APPROVAL_CONSUMED"
  | approvalRevoked => str "APPROVAL_REVOKED"
  | executionDispatched => str "EXECUTION_DISPATCHED"
  | resultAccepted => str "RESULT_ACCEPTED"
  | resultRejected => str "RESULT_REJECTED"

def ofText? (text : Str) : Option Action := all.find? fun action => action.text = text

end Action

inductive Decision where
  | allowed
  | denied
  deriving DecidableEq

namespace Decision

def text : Decision → Str
  | allowed => str "ALLOWED"
  | denied => str "DENIED"

def ofText? (text : Str) : Option Decision :=
  [allowed, denied].find? fun decision => decision.text = text

end Decision

/-- The roles of the constitution. -/
inductive Component where
  | orchestrator
  | gateway
  | worker
  | monitor
  | forensics
  deriving DecidableEq

namespace Component

def text : Component → Str
  | orchestrator => str "orchestrator"
  | gateway => str "gateway"
  | worker => str "worker"
  | monitor => str "monitor"
  | forensics => str "forensics"

def ofText? (text : Str) : Option Component :=
  [orchestrator, gateway, worker, monitor, forensics].find? fun component => component.text = text

end Component

/-- `str.isspace` of one character. -/
def isWhitespace (c : CodePoint) : Bool :=
  (9 ≤ c.val && c.val ≤ 13) || (28 ≤ c.val && c.val ≤ 32) || c.val = 0x85 || c.val = 0xa0 ||
    c.val = 0x1680 || (0x2000 ≤ c.val && c.val ≤ 0x200a) || c.val = 0x2028 || c.val = 0x2029 ||
    c.val = 0x202f || c.val = 0x205f || c.val = 0x3000

def isIdentifier (text : Str) : Bool :=
  !text.isEmpty && !text.any isWhitespace && (dumps (.str text)).length ≤ maxIdentifierBytes

abbrev Identifier := { text : Str // isIdentifier text = true }

def isLowerAlnum (c : CodePoint) : Bool := isDigit c || 97 ≤ c.val && c.val ≤ 122

/-- `[a-z0-9][a-z0-9-]{0,62}` as a whole. -/
def isInstanceId : Str → Bool
  | [] => false
  | first :: rest => isLowerAlnum first && rest.all (fun c => isLowerAlnum c || c = 45) &&
      rest.length ≤ 62

abbrev InstanceId := { text : Str // isInstanceId text = true }

def isUpper (c : CodePoint) : Bool := 65 ≤ c.val && c.val ≤ 90

/-- `[A-Z][A-Z0-9_]{0,63}` as a whole. -/
def isReasonCode : Str → Bool
  | [] => false
  | first :: rest => isUpper first && rest.all (fun c => isUpper c || isDigit c || c = 95) &&
      rest.length ≤ 63

abbrev ReasonCode := { text : Str // isReasonCode text = true }

abbrev OccurredAt := { time : Int // 0 < time ∧ time ≤ maxOccurredAt }

structure ComponentActor where
  component : Component
  instanceId : InstanceId
  deriving DecidableEq

def ComponentActor.identifier (actor : ComponentActor) : Str :=
  actor.component.text ++ 58 :: actor.instanceId.val

/-- The bindings only a version two event carries. -/
inductive Bindings where
  | legacy
  | bound (apiSubjectSha256 : Digest) (resultSha256 : Option Digest)
  deriving DecidableEq

/-- Exactly an accepted result names its result digest. -/
def Bindings.agree (action : Action) : Bindings → Bool
  | .legacy => true
  | .bound _ result => result.isSome = decide (action = .resultAccepted)

structure AuditEvent where
  traceId : Identifier
  jobId : Identifier
  actor : ComponentActor
  subject : Identifier
  action : Action
  decision : Decision
  reasonCode : ReasonCode
  policyVersion : Identifier
  constitutionVersion : Identifier
  handoffSha256 : Digest
  payloadSha256 : Digest
  occurredAt : OccurredAt
  approvalRecordHash : Option Digest
  bindings : Bindings
  bindings_agree : bindings.agree action = true
  deriving DecidableEq

def identifier (value : Value) (field : String) : Outcome Identifier :=
  match value with
  | .str text =>
      if text.isEmpty then fail (field ++ " must be a non-empty identifier")
      else if text.any isWhitespace then fail (field ++ " must not contain whitespace")
      else if accepted : isIdentifier text = true then .ok ⟨text, accepted⟩
      else fail (field ++ " must serialize to at most 160 bytes")
  | _ => fail (field ++ " must be a non-empty identifier")

def digest (value : Value) (field : String) : Outcome Digest :=
  match value with
  | .str text =>
      if accepted : isHexText 64 text = true then .ok ⟨text, accepted⟩
      else fail (field ++ " must be a lowercase SHA-256 digest")
  | _ => fail (field ++ " must be a lowercase SHA-256 digest")

def digest? (value : Value) (field : String) : Outcome (Option Digest) :=
  match value with
  | .null => .ok none
  | value => (digest value field).map some

/-- A member of a closed set of words. -/
def oneOf {α : Type} (ofText? : Str → Option α) (value : Value) (message : String) : Outcome α :=
  match value with
  | .str text =>
      match ofText? text with
      | some member => .ok member
      | none => fail message
  | _ => fail message

def reasonCode (value : Value) : Outcome ReasonCode :=
  match value with
  | .str text =>
      if accepted : isReasonCode text = true then .ok ⟨text, accepted⟩
      else fail "reason_code must be an uppercase code of at most 64 characters"
  | _ => fail "reason_code must be an uppercase code of at most 64 characters"

def occurredAt (value : Value) : Outcome OccurredAt :=
  match value with
  | .int time =>
      if accepted : 0 < time ∧ time ≤ maxOccurredAt then .ok ⟨time, accepted⟩
      else fail "occurred_at must be between 1 and 4102444800"
  | _ => fail "occurred_at must be an integer"

/-- `ComponentActor(component, instance_id, _ACTOR_PROVENANCE)`. -/
def componentActor (component instanceId : Str) : Outcome ComponentActor := do
  let component ← oneOf Component.ofText? (.str component)
    "component is not one of the constitution's roles"
  if accepted : isInstanceId instanceId = true then .ok ⟨component, ⟨instanceId, accepted⟩⟩
  else fail "instance_id must be a lowercase identifier of at most 63 characters"

/-- The version two bindings, checked against the version and the action. -/
def bindings (action : Action) (version apiSubject result : Value) :
    Outcome { bindings : Bindings // bindings.agree action = true } :=
  match version with
  | .int 1 =>
      match apiSubject, result with
      | .null, .null => .ok ⟨.legacy, rfl⟩
      | _, _ => fail "legacy audit event cannot carry version two bindings"
  | .int 2 => do
      let subject ← digest apiSubject "api_subject_sha256"
      if accepted : action = .resultAccepted then
        let result ← digest result "result_sha256"
        return ⟨.bound subject (some result), by simp [Bindings.agree, accepted]⟩
      else
        match result with
        | .null => return ⟨.bound subject none, by simp [Bindings.agree, accepted]⟩
        | _ => fail "result_sha256 is only allowed for an accepted result"
  | _ => fail "event_version is not supported"

/-- What the constructor of an event is given. -/
structure EventArguments where
  traceId : Value
  jobId : Value
  actor : ComponentActor
  subject : Value
  action : Value
  decision : Value
  reasonCode : Value
  policyVersion : Value
  constitutionVersion : Value
  handoffSha256 : Value
  payloadSha256 : Value
  occurredAt : Value
  approvalRecordHash : Value
  eventVersion : Value
  apiSubjectSha256 : Value
  resultSha256 : Value

namespace AuditEvent

/-- `AuditEvent(...)` with the checks of `__post_init__` in their order. -/
def ofArguments (arguments : EventArguments) : Outcome AuditEvent := do
  let traceId ← identifier arguments.traceId "trace_id"
  let jobId ← identifier arguments.jobId "job_id"
  let subject ← identifier arguments.subject "subject"
  let policyVersion ← identifier arguments.policyVersion "policy_version"
  let constitutionVersion ← identifier arguments.constitutionVersion "constitution_version"
  let handoffSha256 ← digest arguments.handoffSha256 "handoff_sha256"
  let payloadSha256 ← digest arguments.payloadSha256 "payload_sha256"
  let approvalRecordHash ← digest? arguments.approvalRecordHash "approval_record_hash"
  let action ← oneOf Action.ofText? arguments.action "action is not an allowed audit action"
  let decision ← oneOf Decision.ofText? arguments.decision
    "decision is not an allowed audit decision"
  let bound ← GeniusNew.bindings action arguments.eventVersion arguments.apiSubjectSha256
    arguments.resultSha256
  let reasonCode ← GeniusNew.reasonCode arguments.reasonCode
  let occurredAt ← GeniusNew.occurredAt arguments.occurredAt
  return {
    traceId, jobId, actor := arguments.actor, subject, action, decision, reasonCode, policyVersion,
    constitutionVersion, handoffSha256, payloadSha256, occurredAt, approvalRecordHash
    bindings := bound.val
    bindings_agree := bound.property }

def digestValue? : Option Digest → Value
  | some digest => .str digest.val
  | none => .null

/-- The fields every event has. -/
def commonFields (event : AuditEvent) : List (Str × Value) :=
  [(str "action", .str event.action.text),
    (str "actor", .str event.actor.identifier),
    (str "approval_record_hash", digestValue? event.approvalRecordHash),
    (str "constitution_version", .str event.constitutionVersion.val),
    (str "decision", .str event.decision.text),
    (str "handoff_sha256", .str event.handoffSha256.val),
    (str "job_id", .str event.jobId.val),
    (str "occurred_at", .int event.occurredAt.val),
    (str "payload_sha256", .str event.payloadSha256.val),
    (str "policy_version", .str event.policyVersion.val),
    (str "reason_code", .str event.reasonCode.val),
    (str "subject", .str event.subject.val),
    (str "trace_id", .str event.traceId.val)]

/-- The fields a version two event adds. -/
def boundFields : Bindings → List (Str × Value)
  | .legacy => []
  | .bound subject result =>
      [(str "event_version", .int 2),
        (str "api_subject_sha256", .str subject.val),
        (str "result_sha256", digestValue? result)]

def fields (event : AuditEvent) : List (Str × Value) :=
  event.commonFields ++ boundFields event.bindings

def toDict (event : AuditEvent) : Value := .dict event.fields

def toBytes (event : AuditEvent) : Bytes := canonicalBytes event.toDict

end AuditEvent

def eventKeys : List Str :=
  [str "action", str "actor", str "approval_record_hash", str "constitution_version",
    str "decision", str "handoff_sha256", str "job_id", str "occurred_at", str "payload_sha256",
    str "policy_version", str "reason_code", str "subject", str "trace_id"]

def eventV2Keys : List Str :=
  eventKeys ++ [str "event_version", str "api_subject_sha256", str "result_sha256"]

/-- Rebuild an event read back as data. -/
def rehydrateEvent (value : Value) : Outcome AuditEvent :=
  match value with
  | .dict fields =>
      if hasKeys fields eventKeys || hasKeys fields eventV2Keys then
        -- a missing key of a version two event takes the constructor's default
        let field (key : String) (default : Value) : Value := (fields.lookup (str key)).getD default
        match field "actor" .null with
        | .str actor =>
            if actor.count 58 = 1 then do
              let actor ← componentActor (actor.takeWhile (· ≠ 58))
                ((actor.dropWhile (· ≠ 58)).drop 1)
              AuditEvent.ofArguments {
                traceId := field "trace_id" .null
                jobId := field "job_id" .null
                actor
                subject := field "subject" .null
                action := field "action" .null
                decision := field "decision" .null
                reasonCode := field "reason_code" .null
                policyVersion := field "policy_version" .null
                constitutionVersion := field "constitution_version" .null
                handoffSha256 := field "handoff_sha256" .null
                payloadSha256 := field "payload_sha256" .null
                occurredAt := field "occurred_at" .null
                approvalRecordHash := field "approval_record_hash" .null
                eventVersion := field "event_version" (.int 1)
                apiSubjectSha256 := field "api_subject_sha256" .null
                resultSha256 := field "result_sha256" .null }
            else fail "record carries a malformed actor"
        | _ => fail "record carries a malformed actor"
      else fail "record carries a malformed event"
  | _ => fail "record carries a malformed event"

end GeniusNew
