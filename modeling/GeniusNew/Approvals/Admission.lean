import GeniusNew.Approvals.Gateway
import GeniusNew.Contracts.Issued

/-! # What the gateway admits

A permit is minted for a wire that validates for the subject, job and policy it
was presented with: without an approval where the grant requires none, and else
with the one that was consumed for exactly the validated handoff.
-/

namespace GeniusNew

open Json

section Validated

variable {interpreter : Interpreter} {presented : Presented} {verifier : HandoffVerifier}
  {wire : Option Bytes} {handoff : Handoff}

/-- Validated for a subject, a job and a policy, whether or not approval is pending. -/
structure Validated (interpreter : Interpreter) (wire : Option Bytes) (presented : Presented)
    (verifier : HandoffVerifier) (pending : Bool) (handoff : Handoff) : Prop where
  named : presented.jobId ≠ []
  encoded : ∃ data, wire = some data ∧ canonical interpreter handoff.toDict = .ok data
  granted : ∃ grant, presented.policy.grantFor presented.subject = .ok grant ∧
    handoff.Granted presented grant ∧ grant.requiresApproval = pending
  hashed : handoff.payloadSha256 = (sha256 (canonicalBytes (payloadDict handoff.payload))).val
  current : handoff.issuedAt ≤ presented.now ∧ presented.now < handoff.expiresAt
  read : ∃ fields, decodeWire interpreter wire handoffKeys "handoff" = .ok fields ∧
    handoffOf fields = .ok handoff

theorem validated_of_fromObject {read : List (Str × Value)} {allowPending pending : Bool}
    (decoded : decodeWire interpreter wire handoffKeys "handoff" = .ok read)
    (accepted : fromObject read presented verifier allowPending = .ok handoff)
    (state : handoff.approvalState = pendingApproval ↔ pending = true) :
    Validated interpreter wire presented verifier pending handoff := by
  obtain ⟨data, rfl, _⟩ := decodeWire_eq_ok decoded
  obtain ⟨named, grant, found, shaped, hashed, _, _, granted, started, running, _⟩ :=
    fromObject_eq_ok.mp accepted
  refine ⟨named, ⟨data, rfl, canonical_handoff decoded shaped⟩, ⟨grant, found, granted, ?_⟩, hashed,
    ⟨started, running⟩, read, decoded, shaped⟩
  rw [Bool.eq_iff_iff, ← approvalState_eq_pending, ← granted.approvalState]
  exact state

theorem validate_validated
    (accepted : validate interpreter wire presented verifier = .ok handoff) :
    Validated interpreter wire presented verifier false handoff := by
  obtain ⟨read, decoded, accepted⟩ := bind_eq_ok.mp accepted
  obtain ⟨_, _, _, _, _, _, _, _, _, _, refused⟩ := fromObject_eq_ok.mp accepted
  exact validated_of_fromObject decoded accepted ⟨refused, fun absurd => nomatch absurd⟩

theorem validatePending_validated
    (accepted : validatePending interpreter wire presented verifier = .ok handoff) :
    Validated interpreter wire presented verifier true handoff := by
  obtain ⟨read, decoded, accepted⟩ := bind_eq_ok.mp accepted
  obtain ⟨found, checked, accepted⟩ := bind_eq_ok.mp accepted
  obtain ⟨waits, accepted⟩ := guarded_eq_ok.mp accepted
  obtain rfl := pure_eq_ok.mp accepted
  exact validated_of_fromObject decoded checked ⟨fun _ => rfl, fun _ => not_not.mp waits⟩

/-- A wire has one handoff, wherever and whenever it is validated. -/
theorem Validated.unique {other : Handoff} {elsewhere : Presented} {checker : HandoffVerifier}
    {pending waiting : Bool}
    (one : Validated interpreter wire presented verifier pending handoff)
    (two : Validated interpreter wire elsewhere checker waiting other) : handoff = other := by
  obtain ⟨fields, decoded, shaped⟩ := one.read
  obtain ⟨again, decodes, shapes⟩ := two.read
  obtain rfl := Except.ok.inj (decoded.symm.trans decodes)
  exact Except.ok.inj (shaped.symm.trans shapes)

theorem Validated.jobId {pending : Bool}
    (validated : Validated interpreter wire presented verifier pending handoff) :
    handoff.jobId = presented.jobId := by
  obtain ⟨_, _, granted, _⟩ := validated.granted
  exact granted.jobId

end Validated

section Admitted

variable {interpreter : Interpreter} {presented : Presented} {gateway : Gateway}
  {wire token : Option Bytes} {handoff : Handoff} {permit : DispatchPermit}
  {records after : List (Bytes × ApprovalRecord)} {transaction : Bool}

theorem rejecting_eq_ok {α : Type} {reason : Rejection} {outcome : Outcome α} {value : α} :
    rejecting reason outcome = .ok value ↔ outcome = .ok value := by
  unfold rejecting
  split <;> simp

theorem passing_eq_ok {α : Type} {outcome : Outcome α} {value : α} :
    passing outcome = .ok value ↔ outcome = .ok value := by
  unfold passing
  split <;> simp

/-- Of the checks a gateway's own permit passes through, only the digest and the
lifetime can refuse. -/
theorem ofArguments_eq {digest : Digest} {now : Int} {approval : Option Digest}
    (digested : handoffDigest handoff = .ok digest) :
    DispatchPermit.ofArguments ⟨handoff, digest.val, gateway.gatewayId, now,
        approval.map Subtype.val, some ⟨digest.val, gateway.gatewayId, now,
          approval.map Subtype.val⟩, true⟩ =
      if ¬ (handoff.issuedAt ≤ now ∧ now < handoff.expiresAt) then
        fail "dispatch permit admission is outside the handoff lifetime"
      else .ok ⟨handoff, digest, gateway.gatewayId, now, approval⟩ := by
  have named := gateway.gatewayId_valid
  have hashed : DispatchPermit.approvalHash (approval.map Subtype.val) = .ok approval := by
    cases approval with
    | none => rfl
    | some hash => exact dif_pos hash.property
  unfold DispatchPermit.ofArguments
  simp only [digested, named, hashed, digest.property, bind, Except.bind, pure, Except.pure,
    Bool.true_eq_false, if_false, dite_true, ne_eq, not_true_eq_false]

theorem permit_eq_ok {now : Int} {approval : Option Digest} :
    gateway.permit handoff now approval = .ok permit ↔
      ∃ digest, handoffDigest handoff = .ok digest ∧
        (handoff.issuedAt ≤ now ∧ now < handoff.expiresAt) ∧
        permit = ⟨handoff, digest, gateway.gatewayId, now, approval⟩ := by
  simp only [Gateway.permit, bind_eq_ok, passing_eq_ok]
  refine exists_congr fun digest => and_congr_right fun digested => ?_
  rw [ofArguments_eq digested, guarded_eq_ok, not_not]
  exact and_congr_right fun _ => ⟨fun same => (Except.ok.inj same).symm, fun same => same ▸ rfl⟩

/-- How a permit comes to be: what was validated, and which approval was consumed. -/
inductive Admitted (interpreter : Interpreter) (gateway : Gateway) (wire : Option Bytes)
    (presented : Presented) (transaction : Bool) (records : List (Bytes × ApprovalRecord)) :
    Option Bytes → DispatchPermit → List (Bytes × ApprovalRecord) → Prop
  | free {handoff : Handoff}
      (validated : Validated interpreter wire presented gateway.handoffVerifier false handoff) :
      Admitted interpreter gateway wire presented transaction records none
        ⟨handoff, sha256 handoff.toBytes, gateway.gatewayId, presented.now, none⟩ records
  | approved {handoff : Handoff} {given : Bytes} {scope : ApprovalScope} {receipt : ApprovalReceipt}
      {after : List (Bytes × ApprovalRecord)}
      (validated : Validated interpreter wire presented gateway.handoffVerifier true handoff)
      (scope_eq : createScope interpreter wire presented gateway.handoffVerifier = .ok scope)
      (consumed : ApprovalStore.consume interpreter records given scope presented.now transaction =
        .ok (receipt, after)) :
      Admitted interpreter gateway wire presented transaction records (some given)
        ⟨handoff, sha256 handoff.toBytes, gateway.gatewayId, presented.now,
          some receipt.recordHash⟩ after

theorem admission_admitted
    (answer : gateway.admission interpreter wire presented token transaction records =
      (.ok permit, after)) :
    Admitted interpreter gateway wire presented transaction records token permit after := by
  unfold Gateway.admission at answer
  split at answer
  · cases (Prod.mk.inj answer).1
  split_ifs at answer with required
  · split at answer
    · cases (Prod.mk.inj answer).1
    split at answer
    · cases (Prod.mk.inj answer).1
    next given _ handoff scope pending =>
      split at answer
      · cases (Prod.mk.inj answer).1
      next receipt left consumed =>
        obtain ⟨minted, rfl⟩ := Prod.mk.inj answer
        obtain ⟨read, validated, pending⟩ := bind_eq_ok.mp pending
        obtain ⟨made, scopes, same⟩ := bind_eq_ok.mp pending
        obtain ⟨rfl, rfl⟩ := Prod.mk.inj (Except.ok.inj same)
        obtain ⟨digest, digested, _, rfl⟩ := permit_eq_ok.mp minted
        obtain ⟨_, rfl⟩ := handoffDigest_eq_ok.mp digested
        exact .approved (validatePending_validated (rejecting_eq_ok.mp validated))
          (rejecting_eq_ok.mp scopes) (rejecting_eq_ok.mp consumed)
  · split at answer
    · cases (Prod.mk.inj answer).1
    obtain ⟨minted, rfl⟩ := Prod.mk.inj answer
    obtain ⟨handoff, validated, minted⟩ := bind_eq_ok.mp minted
    obtain ⟨digest, digested, _, rfl⟩ := permit_eq_ok.mp minted
    obtain ⟨_, rfl⟩ := handoffDigest_eq_ok.mp digested
    exact .free (validate_validated (rejecting_eq_ok.mp validated))

theorem Admitted.validated
    (admitted : Admitted interpreter gateway wire presented transaction records token permit after) :
    ∃ pending, Validated interpreter wire presented gateway.handoffVerifier pending permit.handoff := by
  cases admitted with
  | free validated => exact ⟨false, validated⟩
  | approved validated => exact ⟨true, validated⟩

/-- What an admission does to the approvals, also where it raises: nothing, or one
consumption. -/
theorem admission_records {answer : Except GatewayRaised DispatchPermit}
    (answered : gateway.admission interpreter wire presented token transaction records =
      (answer, after)) :
    after = records ∨ ∃ given scope receipt, ApprovalStore.consume interpreter records given scope
      presented.now transaction = .ok (receipt, after) := by
  unfold Gateway.admission at answered
  split at answered
  · exact Or.inl (Prod.mk.inj answered).2.symm
  split_ifs at answered
  · split at answered
    · exact Or.inl (Prod.mk.inj answered).2.symm
    split at answered
    · exact Or.inl (Prod.mk.inj answered).2.symm
    split at answered
    · exact Or.inl (Prod.mk.inj answered).2.symm
    next consumed =>
      obtain ⟨_, rfl⟩ := Prod.mk.inj answered
      exact Or.inr ⟨_, _, _, rejecting_eq_ok.mp consumed⟩
  · split at answered
    · exact Or.inl (Prod.mk.inj answered).2.symm
    · exact Or.inl (Prod.mk.inj answered).2.symm

theorem Admitted.jobId
    (admitted : Admitted interpreter gateway wire presented transaction records token permit after) :
    permit.handoff.jobId = presented.jobId := by
  cases admitted with
  | free validated => exact validated.jobId
  | approved validated => exact validated.jobId

/-- What the gateway admits is for the job it was asked about. -/
theorem admission_jobId
    (answer : (gateway.admission interpreter wire presented token transaction records).1 =
      .ok permit) : permit.handoff.jobId = presented.jobId :=
  (admission_admitted (Prod.ext answer rfl)).jobId

end Admitted

theorem demo_gatewayId : isGatewayId (str "gateway-demo") = true := by decide

def demoGateway : Gateway := ⟨str "gateway-demo", digestSigner.verifier, demo_gatewayId⟩

def demoPermit : DispatchPermit where
  handoff := demoHandoff false
  handoffSha256 := sha256 (demoHandoff false).toBytes
  gatewayId := str "gateway-demo"
  admittedAt := 101
  approvalRecordHash := none

theorem validate_demo {now : Int} (started : 100 ≤ now) (running : now < 160) :
    validate literalInterpreter (some (demoHandoff false).toBytes) (demoPresented false now)
      digestSigner.verifier = .ok (demoHandoff false) := by
  have plain : (demoPresented false now).joined = true := by
    change (demoPresented false 0).joined = true
    decide
  have found : (demoPresented false now).policy.grantFor (demoPresented false now).subject =
      .ok (demoGrant false) := rfl
  have permitted : (demoGrant false).requiresApproval = true → false = true := id
  obtain ⟨read, decoded, accepted⟩ :=
    fromObject_of_issue plain started running found permitted (issue_demo false)
  have same : joinSurrogates (str "Example text") = str "Example text" := by decide
  rw [same] at accepted
  exact bind_eq_ok.mpr ⟨read, decoded, accepted⟩

theorem validatePending_issued {time now : Int} (started : time ≤ now) (running : now < time + 60)
    (issued : issue literalInterpreter (payloadDict (str "Example text"))
      (demoPresented true time) digestSigner = .ok (demoIssued true time).toBytes) :
    validatePending literalInterpreter (some (demoIssued true time).toBytes)
      (demoPresented true now) digestSigner.verifier = .ok (demoIssued true time) := by
  have plain : (demoPresented true now).joined = true := by
    change (demoPresented true 0).joined = true
    decide
  have found : (demoPresented true now).policy.grantFor (demoPresented true now).subject =
      .ok (demoGrant true) := rfl
  obtain ⟨read, decoded, accepted⟩ :=
    fromObject_of_issue plain started running found (fun _ => rfl) issued
  have same : joinSurrogates (str "Example text") = str "Example text" := by decide
  have waits : (demoGrant true).approvalState = pendingApproval := by decide
  rw [same] at accepted
  exact bind_eq_ok.mpr ⟨read, decoded, bind_eq_ok.mpr
    ⟨_, accepted, guarded_eq_ok.mpr ⟨not_not.mpr waits, rfl⟩⟩⟩

theorem validatePending_demo {now : Int} (started : 100 ≤ now) (running : now < 160) :
    validatePending literalInterpreter (some (demoHandoff true).toBytes) (demoPresented true now)
      digestSigner.verifier = .ok (demoHandoff true) :=
  validatePending_issued started running (issue_demo true)

theorem admission_demo (records : List (Bytes × ApprovalRecord)) :
    demoGateway.admission literalInterpreter (some (demoHandoff false).toBytes)
      (demoPresented false 101) none false records = (.ok demoPermit, records) := by
  have digested : handoffDigest (demoHandoff false) = .ok (sha256 (demoHandoff false).toBytes) :=
    handoffDigest_eq_ok.mpr ⟨rfl, rfl⟩
  have minted : demoGateway.permit (demoHandoff false) 101 none = .ok demoPermit :=
    permit_eq_ok.mpr ⟨_, digested, by decide, rfl⟩
  have found : rejecting .subjectNotAuthorized
      ((demoPresented false 101).policy.grantFor (demoPresented false 101).subject) =
        .ok (demoGrant false) := rfl
  have free : (demoGrant false).requiresApproval ≠ true := by decide
  unfold Gateway.admission
  rw [found]
  dsimp only
  rw [if_neg free]
  exact Prod.ext (bind_eq_ok.mpr ⟨_, rejecting_eq_ok.mpr (validate_demo (by decide) (by decide)), minted⟩) rfl

end GeniusNew
