import GeniusNew.Json.Length
import GeniusNew.Results.Accepted
import GeniusNew.Service.Wiring

/-! # Which decisions can be recorded

An entry carries an identifier as it stands, or the digest of its UTF-8 text. An event
can be derived from a validated handoff exactly when each of its identifiers can be
carried so.
-/

namespace GeniusNew

open Json

section Identifiers

theorem fits_of_isLowerHex {c : CodePoint} (digit : isLowerHex c = true) :
    unescaped c = true ∧ isWhitespace c = false := by
  simp only [isLowerHex, isDigit, Bool.or_eq_true, Bool.and_eq_true, decide_eq_true_eq] at digit
  have quotation : c ≠ 34 := by
    rintro rfl
    revert digit
    decide
  have backslash : c ≠ 92 := by
    rintro rfl
    revert digit
    decide
  constructor
  · simp only [unescaped, Bool.and_eq_true, decide_eq_true_eq]
    exact ⟨⟨⟨by omega, by omega⟩, quotation⟩, backslash⟩
  · simp only [isWhitespace, Bool.or_eq_false_iff, Bool.and_eq_false_iff, decide_eq_false_iff_not]
    omega

/-- A short label followed by hexadecimal digits is an identifier. -/
theorem isIdentifier_append_hex {label digits : Str} (nonempty : label ≠ [])
    (plain : label.all (fun c => unescaped c && !isWhitespace c) = true)
    (hexadecimal : ∀ c ∈ digits, isLowerHex c = true)
    (short : label.length + digits.length + 2 ≤ maxIdentifierBytes) :
    isIdentifier (label ++ digits) = true := by
  have each : ∀ c ∈ label ++ digits, unescaped c = true ∧ isWhitespace c = false := by
    intro c member
    rcases List.mem_append.mp member with inside | inside
    · simpa using List.all_eq_true.mp plain c inside
    · exact fits_of_isLowerHex (hexadecimal c inside)
  have visible : (label ++ digits).all unescaped = true :=
    List.all_eq_true.mpr fun c member => (each c member).1
  have solid : (label ++ digits).any isWhitespace = false := by
    refine List.any_eq_false.mpr fun c member => ?_
    rw [(each c member).2]
    exact Bool.false_ne_true
  have length : (dumps (.str (label ++ digits))).length ≤ maxIdentifierBytes := by
    rwa [dumps, length_quote visible, List.length_append]
  have named : (label ++ digits).isEmpty = false := by
    rw [List.isEmpty_eq_false_iff]
    exact List.append_ne_nil_of_left_ne_nil nonempty digits
  simp only [isIdentifier, named, solid, length, Bool.not_false, Bool.and_true, decide_true]

/-- A trace id is always an identifier. -/
theorem isIdentifier_traceId (digest : Digest) :
    isIdentifier (str "trace-" ++ digest.val.take 16) = true := by
  have hexadecimal := digest.property
  simp only [isHexText, Bool.and_eq_true, List.all_eq_true] at hexadecimal
  apply isIdentifier_append_hex (by decide) (by decide)
  · intro c member
    exact hexadecimal.2 c (List.mem_of_mem_take member)
  · have bound : (digest.val.take 16).length ≤ 16 := List.length_take_le 16 _
    have label : (str "trace-").length = 6 := by decide
    rw [label, maxIdentifierBytes]
    omega

/-- So is the digest that stands for a text. -/
theorem isIdentifier_digest (digest : Digest) :
    isIdentifier (str "sha256:" ++ digest.val) = true := by
  have hexadecimal := digest.property
  simp only [isHexText, Bool.and_eq_true, List.all_eq_true, decide_eq_true_eq] at hexadecimal
  apply isIdentifier_append_hex (by decide) (by decide) hexadecimal.2
  rw [hexadecimal.1]
  decide

end Identifiers

/-- An entry can carry the value, or the digest of its UTF-8 text. -/
def Carried (value : Str) : Prop := isIdentifier value = true ∨ (encodeUtf8 value).isSome = true

section Carried

variable {value : Str}

theorem auditSafe_of_isIdentifier {text : Str} (fits : isIdentifier text = true) (field : String) :
    auditSafe text field = .ok text := by
  have nonempty : text ≠ [] := by
    rintro rfl
    cases fits
  unfold auditSafe
  rw [if_neg nonempty, identifier_val ⟨text, fits⟩]

/-- What is no identifier is refused, and nothing else happens to it. -/
theorem identifier_of_not (unfit : ¬ isIdentifier value = true) (field : String) :
    ∃ message, identifier (.str value) field = fail message := by
  unfold identifier
  dsimp only
  by_cases empty : value.isEmpty = true
  · exact ⟨_, if_pos empty⟩
  · rw [if_neg empty]
    by_cases blank : value.any isWhitespace = true
    · exact ⟨_, if_pos blank⟩
    · rw [if_neg blank, dif_neg unfit]
      exact ⟨_, rfl⟩

theorem auditSafe_of_not (nonempty : value ≠ []) (unfit : ¬ isIdentifier value = true)
    (field : String) : auditSafe value field =
      match encodeUtf8 value with
      | some bytes => .ok (str "sha256:" ++ (sha256 bytes).val)
      | none => .error .unicodeError := by
  obtain ⟨message, refused⟩ := identifier_of_not unfit field
  unfold auditSafe
  rw [if_neg nonempty, refused]
  rfl

/-- A value is projected into an entry exactly when it can be carried. -/
theorem auditSafe_iff (nonempty : value ≠ []) (field : String) :
    (∃ id : Identifier, auditSafe value field = .ok id.val) ↔ Carried value := by
  by_cases fits : isIdentifier value = true
  · exact ⟨fun _ => .inl fits, fun _ => ⟨⟨value, fits⟩, auditSafe_of_isIdentifier fits field⟩⟩
  · rw [auditSafe_of_not nonempty fits]
    unfold Carried
    cases encodeUtf8 value with
    | none => simp [fits]
    | some bytes => exact ⟨fun _ => .inr rfl, fun _ => ⟨⟨_, isIdentifier_digest (sha256 bytes)⟩, rfl⟩⟩

theorem carried_of_auditSafe {text : Str} {field : String}
    (safe : auditSafe value field = .ok text) : Carried value := by
  by_cases nonempty : value = []
  · rw [auditSafe, if_pos nonempty] at safe
    exact (fail_ne_ok safe).elim
  · by_cases fits : isIdentifier value = true
    · exact .inl fits
    · rw [auditSafe_of_not nonempty fits] at safe
      right
      cases encoded : encodeUtf8 value with
      | some bytes => rfl
      | none =>
          rw [encoded] at safe
          cases safe

end Carried

/-- What is said of a handoff agrees with the rules of an event. -/
structure Report.Fits (report : Report) (handoff : Handoff) : Prop where
  reasonCode : isReasonCode report.reasonCode = true
  occurredAt : 0 < report.occurredAt ∧ report.occurredAt ≤ maxOccurredAt
  approval : ∀ hash, report.approvalRecordHash = some hash →
    isHexText 64 hash = true ∧ handoff.approvalState = pendingApproval
  apiSubject : ∀ subject, report.apiSubject = some subject → ∃ bytes, subjectBytes subject = .ok bytes
  result : report.resultSha256.isSome =
    decide (report.apiSubject.isSome = true ∧ report.action = .resultAccepted)

section Derived

variable {handoff : Handoff} {report : Report}

theorem Report.Fits.exists_approval (fits : report.Fits handoff) :
    ∃ hash : Option Digest, optionalStr report.approvalRecordHash = AuditEvent.digestValue? hash := by
  cases held : report.approvalRecordHash with
  | none => exact ⟨none, rfl⟩
  | some hash => exact ⟨some ⟨hash, (fits.approval hash held).1⟩, rfl⟩

/-- The bindings of an event, with the values its constructor is given for them. -/
theorem Report.Fits.exists_bindings (fits : report.Fits handoff) :
    ∃ bound : Bindings, bound.agree report.action = true ∧
      apiSubjectSha256 report.apiSubject = .ok bound.apiSubject ∧
      Value.int (if report.apiSubject.isSome then 2 else 1) = bound.version ∧
      AuditEvent.digestValue? report.resultSha256 = bound.result := by
  have result := fits.result
  cases named : report.apiSubject with
  | none =>
      rw [named] at result
      have absent : report.resultSha256 = none := by simpa using result
      exact ⟨.legacy, rfl, rfl, rfl, by rw [absent]; rfl⟩
  | some subject =>
      obtain ⟨bytes, encoded⟩ := fits.apiSubject subject named
      rw [named] at result
      refine ⟨.bound (sha256 bytes) report.resultSha256, ?_, bind_eq_ok.mpr ⟨bytes, encoded, rfl⟩,
        rfl, rfl⟩
      rw [Bindings.agree, decide_eq_true_eq, result]
      simp

/-- An event can be derived from whatever fits it. -/
theorem eventFromHandoff_of_fits (fits : report.Fits handoff)
    (traced : isIdentifier report.traceId = true)
    (hashed : handoff.payloadSha256 = (sha256 (canonicalBytes (payloadDict handoff.payload))).val)
    {jobId userId policyVersion : Identifier}
    (job : auditSafe handoff.jobId "job_id" = .ok jobId.val)
    (user : auditSafe handoff.userId "subject" = .ok userId.val)
    (policy : auditSafe handoff.policyVersion "policy_version" = .ok policyVersion.val) :
    ∃ event, eventFromHandoff handoff report = .ok event := by
  obtain ⟨hash, approved⟩ := fits.exists_approval
  obtain ⟨bound, agree, subject, version, result⟩ := fits.exists_bindings
  let trace : Identifier := ⟨report.traceId, traced⟩
  let event : AuditEvent := {
    traceId := trace
    jobId
    actor := report.actor
    subject := userId
    action := report.action
    decision := report.decision
    reasonCode := ⟨report.reasonCode, fits.reasonCode⟩
    policyVersion
    constitutionVersion := ⟨constitutionVersion, by decide⟩
    handoffSha256 := sha256 handoff.toBytes
    payloadSha256 := sha256 (canonicalBytes (payloadDict handoff.payload))
    occurredAt := ⟨report.occurredAt, fits.occurredAt⟩
    approvalRecordHash := hash
    bindings := bound
    bindings_agree := agree }
  have compared : compareDigest (sha256 (canonicalBytes (payloadDict handoff.payload))).val
      handoff.payloadSha256 = .ok true := by
    rw [hashed]
    exact compareDigest_hash.mpr rfl
  refine ⟨event, bind_eq_ok.mpr ⟨true, compared, guarded_eq_ok.mpr ⟨by decide, guarded_eq_ok.mpr
    ⟨?_, guarded_eq_ok.mpr ⟨?_, ?_⟩⟩⟩⟩⟩
  · rintro ⟨some_, other⟩
    obtain ⟨given, held⟩ := Option.isSome_iff_exists.mp some_
    exact other (fits.approval given held).2
  · rintro ⟨absent, some_⟩
    rw [fits.result, absent] at some_
    simp at some_
  · refine bind_eq_ok.mpr ⟨trace, identifier_val trace _, bind_eq_ok.mpr ⟨jobId.val, job,
      bind_eq_ok.mpr ⟨userId.val, user, bind_eq_ok.mpr ⟨policyVersion.val, policy,
        bind_eq_ok.mpr ⟨_, subject, ?_⟩⟩⟩⟩⟩
    rw [approved, version, result, hashed]
    exact event.ofArguments_arguments

/-- Two handoffs that agree on all an event takes from a handoff: of the payload that is
two digests. -/
structure Handoff.SameRecord (other handoff : Handoff) : Prop where
  jobId : other.jobId = handoff.jobId
  userId : other.userId = handoff.userId
  policyVersion : other.policyVersion = handoff.policyVersion
  approvalState : other.approvalState = handoff.approvalState
  payloadSha256 : other.payloadSha256 = handoff.payloadSha256
  handoffSha256 : sha256 other.toBytes = sha256 handoff.toBytes

theorem eventFromHandoff_congr {other : Handoff} (same : other.SameRecord handoff)
    (hashed : handoff.payloadSha256 = (sha256 (canonicalBytes (payloadDict handoff.payload))).val)
    (otherHashed : other.payloadSha256 = (sha256 (canonicalBytes (payloadDict other.payload))).val) :
    eventFromHandoff other report = eventFromHandoff handoff report := by
  unfold eventFromHandoff
  rw [← otherHashed, ← hashed, same.jobId, same.userId, same.policyVersion, same.approvalState,
    same.payloadSha256, same.handoffSha256]

theorem carried_of_eventFromHandoff {event : AuditEvent}
    (derived : eventFromHandoff handoff report = .ok event) :
    Carried handoff.jobId ∧ Carried handoff.userId ∧ Carried handoff.policyVersion := by
  obtain ⟨_, _, derived⟩ := bind_eq_ok.mp derived
  obtain ⟨_, derived⟩ := guarded_eq_ok.mp derived
  obtain ⟨_, derived⟩ := guarded_eq_ok.mp derived
  obtain ⟨_, derived⟩ := guarded_eq_ok.mp derived
  obtain ⟨_, _, derived⟩ := bind_eq_ok.mp derived
  obtain ⟨_, job, derived⟩ := bind_eq_ok.mp derived
  obtain ⟨_, user, derived⟩ := bind_eq_ok.mp derived
  obtain ⟨_, policy, _⟩ := bind_eq_ok.mp derived
  exact ⟨carried_of_auditSafe job, carried_of_auditSafe user, carried_of_auditSafe policy⟩

end Derived

section Validated

variable {interpreter : Interpreter} {handoff : Handoff} {report : Report}

theorem named_of_validated (validated : Results.IsValidated interpreter handoff) :
    handoff.jobId ≠ [] ∧ handoff.userId ≠ [] ∧ handoff.policyVersion ≠ [] := by
  obtain ⟨_, presented, _, _, known⟩ := validated.exists_validated
  obtain ⟨grant, _, granted, _⟩ := known.granted
  rw [granted.jobId, granted.userId, granted.policyVersion]
  exact ⟨known.named, grant.texts_nonempty.1, presented.policy.texts_nonempty.1⟩

/-- What `to_bytes` of a validated handoff returns. -/
theorem canonical_of_validated (validated : Results.IsValidated interpreter handoff) :
    canonical interpreter handoff.toDict = .ok handoff.toBytes := by
  obtain ⟨_, _, _, _, known⟩ := validated.exists_validated
  obtain ⟨data, _, encoded⟩ := known.encoded
  rwa [(canonical_eq_ok.mp encoded).2.2] at encoded

/-- A decision about a validated handoff can be recorded, in an event that knows of the
payload no more than two digests, exactly when each identifier of the handoff is an
identifier of an entry or has a UTF-8 text. -/
theorem decision_recorded_iff (validated : Results.IsValidated interpreter handoff)
    (traced : Wiring.traceId handoff = .ok report.traceId) (fits : report.Fits handoff) :
    (∃ event, eventFromHandoff handoff report = .ok event ∧
        canonical interpreter handoff.toDict = .ok handoff.toBytes ∧
        ∀ other, Results.IsValidated interpreter other → other.SameRecord handoff →
          eventFromHandoff other report = .ok event) ↔
      Carried handoff.jobId ∧ Carried handoff.userId ∧ Carried handoff.policyVersion := by
  constructor
  · rintro ⟨event, derived, -⟩
    exact carried_of_eventFromHandoff derived
  · rintro ⟨job, user, policy⟩
    obtain ⟨jobNamed, userNamed, policyNamed⟩ := named_of_validated validated
    obtain ⟨digest, _, made⟩ := bind_eq_ok.mp traced
    have trace : isIdentifier report.traceId = true := by
      rw [← pure_eq_ok.mp made]
      exact isIdentifier_traceId digest
    obtain ⟨jobId, jobSafe⟩ := (auditSafe_iff jobNamed "job_id").mpr job
    obtain ⟨userId, userSafe⟩ := (auditSafe_iff userNamed "subject").mpr user
    obtain ⟨policyVersion, policySafe⟩ := (auditSafe_iff policyNamed "policy_version").mpr policy
    obtain ⟨event, derived⟩ :=
      eventFromHandoff_of_fits fits trace validated.hashed jobSafe userSafe policySafe
    refine ⟨event, derived, canonical_of_validated validated, ?_⟩
    intro other otherValidated same
    rw [eventFromHandoff_congr same validated.hashed otherValidated.hashed]
    exact derived

end Validated

section Demo

/-- A job id with a surrogate that stands alone, and a space. -/
def strangeJobId : Str := [0xd800, 32]

def strangePresented (now : Int) : Presented :=
  { demoPresented false now with jobId := strangeJobId }

def strangeHandoff : Handoff :=
  issuedHandoff (str "Example text") (strangePresented 100) (demoGrant false) digestSigner

theorem validated_strange : Results.IsValidated literalInterpreter strangeHandoff := by
  have issued : issue literalInterpreter (payloadDict (str "Example text")) (strangePresented 100)
      digestSigner = .ok strangeHandoff.toBytes := by
    apply issue_of_short (by decide) (List.cons_ne_nil _ _) rfl
    · decide +kernel
    · rfl
  have plain : (strangePresented 100).joined = true := by decide
  obtain ⟨read, decoded, accepted⟩ := fromObject_of_issue plain (le_refl 100)
    (by decide : (100 : Int) < 100 + 60) rfl (fun waits => waits) issued
  have same : joinSurrogates (str "Example text") = str "Example text" := by decide
  rw [same] at accepted
  exact ⟨_, strangePresented 100, digestSigner.verifier, .inl (bind_eq_ok.mpr ⟨read, decoded, accepted⟩)⟩

def reportOf (handoff : Handoff) : Report where
  traceId := str "trace-" ++ (sha256 handoff.toBytes).val.take 16
  actor := ⟨.gateway, str "gateway-1", by decide⟩
  action := .handoffAdmitted
  decision := .allowed
  reasonCode := str "POLICY_SATISFIED"
  occurredAt := 101
  approvalRecordHash := none
  apiSubject := some (str "subject-demo")
  resultSha256 := none

theorem reportOf_fits (handoff : Handoff) : (reportOf handoff).Fits handoff where
  reasonCode := (by decide : isReasonCode (str "POLICY_SATISFIED") = true)
  occurredAt := (by decide : (0 : Int) < 101 ∧ (101 : Int) ≤ maxOccurredAt)
  approval := nofun
  apiSubject := by
    intro subject held
    rw [← Option.some.inj held]
    exact ⟨asciiBytes (str "subject-demo"), by decide⟩
  result := (by decide : false =
    decide (true = true ∧ Action.handoffAdmitted = Action.resultAccepted))

theorem traceId_reportOf {handoff : Handoff}
    (validated : Results.IsValidated interpreter handoff) :
    Wiring.traceId handoff = .ok (reportOf handoff).traceId :=
  bind_eq_ok.mpr ⟨sha256 handoff.toBytes, handoffDigest_eq_ok.mpr ⟨validated.hashed, rfl⟩, rfl⟩

theorem decision_recorded_demo :
    ∃ event, eventFromHandoff (demoHandoff false) (reportOf (demoHandoff false)) = .ok event := by
  have validated : Results.IsValidated literalInterpreter (demoHandoff false) :=
    Results.validated_demo
  have recorded := decision_recorded_iff validated (traceId_reportOf validated) (reportOf_fits _)
  have carried : Carried (str "job-demo") ∧ Carried (str "user-demo") ∧ Carried (str "policy-v1") :=
    ⟨.inl (by decide), .inl (by decide), .inl (by decide)⟩
  obtain ⟨event, derived, -⟩ := recorded.mpr carried
  exact ⟨event, derived⟩

/-- The digest that is to stand for an id has no UTF-8 text to be taken of. -/
theorem strange_unrecorded : ¬ ∀ interpreter handoff report,
    Results.IsValidated interpreter handoff → Wiring.traceId handoff = .ok report.traceId →
      report.Fits handoff → ∃ event, eventFromHandoff handoff report = .ok event := by
  intro recorded
  obtain ⟨event, derived⟩ := recorded literalInterpreter strangeHandoff (reportOf strangeHandoff)
    validated_strange (traceId_reportOf validated_strange) (reportOf_fits _)
  have carried := (carried_of_eventFromHandoff derived).1
  exact absurd carried (by unfold Carried; decide)

end Demo

end GeniusNew
