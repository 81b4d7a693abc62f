import GeniusNew.Anchor.Reserialized
import GeniusNew.Approvals.Provenance
import GeniusNew.Service.Wiring

/-! # What a recorded event says

An event that a component derived from a handoff names the job, the subject and the
policy version of this handoff as far as an event can carry them. For a handoff that
was read from a wire it says the same once it comes back from the database.
-/

namespace GeniusNew

open Json Wiring

/-- An event carries an identifier itself, or the digest of its text. -/
theorem auditSafe_cases {text safe : Str} {field : String}
    (carried : auditSafe text field = .ok safe) :
    safe = text ∨ ∃ digest : Digest, safe = str "sha256:" ++ digest.val := by
  unfold auditSafe at carried
  obtain ⟨_, carried⟩ := guarded_eq_ok.mp carried
  split at carried
  · next id read =>
      obtain rfl := Except.ok.inj carried
      exact .inl (Value.str.inj (value_of_identifier read)).symm
  · split at carried
    · next bytes _ =>
        obtain rfl := Except.ok.inj carried
        exact .inr ⟨sha256 bytes, rfl⟩
    · cases carried
  · cases carried

theorem joinSurrogates_auditSafe {text safe : Str} {field : String}
    (plain : joinSurrogates text = text) (carried : auditSafe text field = .ok safe) :
    joinSurrogates safe = safe := by
  obtain rfl | ⟨digest, rfl⟩ := auditSafe_cases carried
  · exact plain
  · refine joinSurrogates_of_ascii fun c member => ?_
    have prefixed : (str "sha256:").all (fun c => c.val < 128) = true := by decide
    have ascii : c.val < 128 := by
      obtain head | tail := List.mem_append.mp member
      · exact of_decide_eq_true (List.all_eq_true.mp prefixed c head)
      · exact of_decide_eq_true (List.all_eq_true.mp (ascii_of_isHexText digest.property) c tail)
    omega

/-- A handoff with the texts that decoding returns. -/
structure Handoff.Plain (handoff : Handoff) : Prop where
  jobId : joinSurrogates handoff.jobId = handoff.jobId
  userId : joinSurrogates handoff.userId = handoff.userId
  policyVersion : joinSurrogates handoff.policyVersion = handoff.policyVersion

theorem Validated.plain {interpreter : Interpreter} {wire : Option Bytes} {presented : Presented}
    {verifier : HandoffVerifier} {pending : Bool} {handoff : Handoff}
    (validated : Validated interpreter wire presented verifier pending handoff) :
    handoff.Plain := by
  have joined := validated.joined
  simp only [Handoff.fields, Handoff.bodyFields, List.cons_append, List.nil_append,
    List.forall_mem_cons, Value.decoded_str, Value.str.injEq] at joined
  obtain ⟨_, job, user, _, _, _, _, _, _, version, _⟩ := joined
  exact ⟨job, user, version⟩

/-- What an event says of the handoff that a notice was recorded of. -/
structure Tells (event : AuditEvent) (handoff : Handoff) (notice : Notice) (apiSubject : Str) :
    Prop where
  action : event.action = notice.action
  reason : event.reasonCode.val = str notice.reasonCode
  occurred : event.occurredAt.val = notice.occurredAt
  receipt : event.approvalRecordHash.map Subtype.val = notice.approvalRecordHash
  digest : event.handoffSha256 = sha256 handoff.toBytes
  jobId : auditSafe handoff.jobId "job_id" = .ok event.jobId.val
  subject : auditSafe handoff.userId "subject" = .ok event.subject.val
  version : auditSafe handoff.policyVersion "policy_version" = .ok event.policyVersion.val
  bindings : ∃ bytes, subjectBytes apiSubject = .ok bytes ∧
    event.bindings = .bound (sha256 bytes) notice.resultSha256

section Tells

variable {event : AuditEvent} {handoff : Handoff} {notice : Notice} {traceId apiSubject : Str}

theorem optionalStr_eq {receipt : Option Digest} {given : Option Str}
    (same : AuditEvent.digestValue? receipt = optionalStr given) :
    receipt.map Subtype.val = given := by
  cases receipt with
  | none =>
      cases given with
      | none => rfl
      | some text => cases same
  | some digest =>
      cases given with
      | none => cases same
      | some text => exact congrArg some (Value.str.inj same)

/-- A bound event has the digests that it was made from. -/
theorem bindings_eq {bindings : Bindings} {subject : Digest} {result : Option Digest}
    (bound : bindings.apiSubject = .str subject.val)
    (held : bindings.result = AuditEvent.digestValue? result) :
    bindings = .bound subject result := by
  cases bindings with
  | legacy => cases bound
  | bound other found =>
      obtain rfl := Subtype.ext (Value.str.inj bound)
      have same : found.map Subtype.val = result.map Subtype.val := by
        refine optionalStr_eq ?_
        rw [show AuditEvent.digestValue? found = _ from held]
        cases result with
        | none => rfl
        | some digest => rfl
      rw [Option.map_injective Subtype.val_injective same]

theorem tells_of_event (derived : notice.event handoff traceId apiSubject = .ok event) :
    Tells event handoff notice apiSubject := by
  obtain ⟨actor, _, derived⟩ := bind_eq_ok.mp derived
  have action := (eventFromHandoff_eq_ok derived).2.1
  obtain ⟨_, _, derived⟩ := bind_eq_ok.mp derived
  obtain ⟨_, derived⟩ := guarded_eq_ok.mp derived
  obtain ⟨_, derived⟩ := guarded_eq_ok.mp derived
  obtain ⟨_, derived⟩ := guarded_eq_ok.mp derived
  obtain ⟨trace, _, derived⟩ := bind_eq_ok.mp derived
  obtain ⟨job, jobs, derived⟩ := bind_eq_ok.mp derived
  obtain ⟨subject, subjects, derived⟩ := bind_eq_ok.mp derived
  obtain ⟨version, versions, derived⟩ := bind_eq_ok.mp derived
  obtain ⟨api, apis, made⟩ := bind_eq_ok.mp derived
  obtain ⟨bytes, encoded, same⟩ := bind_eq_ok.mp apis
  obtain rfl := pure_eq_ok.mp same
  have values := AuditEvent.arguments_of_ofArguments made
  simp only [AuditEvent.arguments, EventArguments.mk.injEq, Value.str.injEq, Value.int.injEq]
    at values
  obtain ⟨_, named, _, about, _, _, reason, policy, _, digest, _, occurred, receipt, _, bound,
    result⟩ := values
  exact ⟨action, reason, occurred, optionalStr_eq receipt, Subtype.ext digest, named ▸ jobs,
    about ▸ subjects, policy ▸ versions, bytes, encoded, bindings_eq bound result⟩

/-- An event of a plain handoff says the same when it comes back. -/
theorem Tells.joined (tells : Tells event handoff notice apiSubject) (plain : handoff.Plain) :
    Tells event.joined handoff notice apiSubject where
  action := tells.action
  reason := tells.reason
  occurred := tells.occurred
  receipt := tells.receipt
  digest := tells.digest
  jobId := by
    rw [tells.jobId]
    exact congrArg Except.ok (joinSurrogates_auditSafe plain.jobId tells.jobId).symm
  subject := by
    rw [tells.subject]
    exact congrArg Except.ok (joinSurrogates_auditSafe plain.userId tells.subject).symm
  version := by
    rw [tells.version]
    exact congrArg Except.ok (joinSurrogates_auditSafe plain.policyVersion tells.version).symm
  bindings := tells.bindings

end Tells

end GeniusNew
