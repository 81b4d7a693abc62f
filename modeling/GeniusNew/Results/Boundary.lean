import GeniusNew.Contracts.Contained
import GeniusNew.Results.SingleUse

/-! # The boundary of refusals

Where a wire reaches the service, only refusals leave it, with one exception:
`hmac.compare_digest` takes no text that is not ASCII. It is met by the hash a
handoff claims for its payload, before the signature is checked, and by the
identifiers of a result that is signed. `contained_iff_comparable` says of each
call exactly when.
-/

namespace GeniusNew

open Json

section Approvals

variable {interpreter : Interpreter}

theorem contained_canonical {value : Value} (shallow : value.depth ≤ 16) :
    Contained some (canonical interpreter value) := by
  have limit := interpreter.recursionLimit_sufficient
  unfold canonical
  rw [if_pos (shallow.trans limit), contained_ite]
  exact ⟨fun _ => contained_ok _, fun _ => contained_fail _⟩

theorem contained_scope (handoff : Handoff) : Contained some handoff.scope := by
  unfold Handoff.scope ApprovalScope.ofArguments
  refine contained_bind.mpr ⟨contained_string _ _, fun _ _ => contained_bind.mpr
    ⟨contained_string _ _, fun jobId one => contained_bind.mpr
    ⟨contained_string _ _, fun userId two => contained_bind.mpr
    ⟨contained_string _ _, fun workerAgentId three => contained_bind.mpr
    ⟨contained_string _ _, fun riskTier four => contained_bind.mpr
    ⟨contained_string _ _, fun policyVersion five => contained_bind.mpr
    ⟨contained_string _ _, fun _ _ => contained_bind.mpr
    ⟨contained_integer _ _, fun _ _ => ?_⟩⟩⟩⟩⟩⟩⟩⟩
  split
  · split
    · rw [contained_ite]
      refine ⟨fun _ => contained_fail _, fun _ => ?_⟩
      split
      · exact contained_pure _
      · next empty =>
          exact (empty ⟨(string_eq_ok.mp one).2, (string_eq_ok.mp two).2, (string_eq_ok.mp three).2,
            (string_eq_ok.mp four).2, (string_eq_ok.mp five).2⟩).elim
    · exact contained_fail _
  · exact contained_fail _

theorem depth_scope (scope : ApprovalScope) : scope.toDict.depth = 1 := rfl

theorem depth_entry_le (entry : ApprovalEntry) : entry.toDict.depth ≤ 16 := by
  have flat : ((entry.previousHash.map fun hash => Value.str hash.val).getD .null).depth = 0 := by
    cases entry.previousHash <;> rfl
  simp only [ApprovalEntry.toDict, Value.depth, Value.depthFields, flat, depth_scope]
  decide

theorem contained_record (entry : ApprovalEntry) : Contained some (entry.record interpreter) := by
  unfold ApprovalEntry.record
  exact contained_bind.mpr ⟨contained_canonical (depth_entry_le entry), fun _ _ => contained_pure _⟩

theorem contained_consume (records : ApprovalStore.Records) (token : Bytes) (scope : ApprovalScope)
    (now : Int) (transaction : Bool) :
    Contained some (ApprovalStore.consume interpreter records token scope now transaction) := by
  have shallow (scope : ApprovalScope) : Contained some (canonical interpreter scope.toDict) :=
    contained_canonical ((depth_scope scope).trans_le (by decide))
  unfold ApprovalStore.consume ApprovalStore.transition
  rw [contained_ite]
  refine ⟨fun _ => contained_fail _, fun _ => ?_⟩
  rw [contained_ite]
  refine ⟨fun _ => contained_fail _, fun _ => ?_⟩
  split
  · exact contained_fail _
  · simp only [contained_ite, contained_bind, scopeMatches, shallow, contained_record, contained_fail,
      contained_pure, implies_true, and_self]

end Approvals

section Gateway

variable {interpreter : Interpreter} {gateway : Gateway} {wire token : Option Bytes}
  {presented : Presented} {handoff : Handoff}

/-- The exception that `GatewayRejected` is not. -/
def GatewayRaised.cause : GatewayRaised → Option Raised
  | rejected _ _ => none
  | raised exception => some exception

theorem contained_rejecting {α : Type} {reason : Rejection} {outcome : Outcome α} :
    Contained GatewayRaised.cause (rejecting reason outcome) ↔ Contained some outcome := by
  cases outcome with
  | ok value => exact iff_of_true (contained_ok value) (contained_ok value)
  | error raised =>
      cases raised <;> simp [rejecting, contained_error, GatewayRaised.cause]

theorem contained_passing {α : Type} {outcome : Outcome α} :
    Contained GatewayRaised.cause (passing outcome) ↔ Contained some outcome := by
  cases outcome with
  | ok value => exact iff_of_true (contained_ok value) (contained_ok value)
  | error raised => simp [passing, contained_error, GatewayRaised.cause]

theorem contained_rejected {α : Type} (message : String) (reason : Rejection) :
    Contained GatewayRaised.cause (.error (.rejected message reason) : Except GatewayRaised α) := by
  simp [contained_error, GatewayRaised.cause]

theorem contained_handoffDigest
    (hashed : handoff.payloadSha256 = (sha256 (canonicalBytes (payloadDict handoff.payload))).val) :
    Contained some (handoffDigest handoff) := by
  rw [handoffDigest_eq_ok.mpr ⟨hashed, rfl⟩]
  exact contained_ok _

theorem contained_permit {now : Int} {approval : Option Digest}
    (hashed : handoff.payloadSha256 = (sha256 (canonicalBytes (payloadDict handoff.payload))).val) :
    Contained GatewayRaised.cause (gateway.permit handoff now approval) := by
  unfold Gateway.permit
  refine contained_bind.mpr ⟨contained_passing.mpr (contained_handoffDigest hashed),
    fun digest digested => ?_⟩
  rw [contained_passing, ofArguments_eq (passing_eq_ok.mp digested), contained_ite]
  exact ⟨fun _ => contained_fail _, fun _ => contained_ok _⟩

/-- What `Gateway.admit` returns, as one computation. -/
theorem admission_fst {transaction : Bool} {records : ApprovalStore.Records} :
    (gateway.admission interpreter wire presented token transaction records).1 = (do
      let grant ← rejecting .subjectNotAuthorized (presented.policy.grantFor presented.subject)
      if grant.requiresApproval then
        match token with
        | none => .error (.rejected "approval token is required" .approvalRequired)
        | some token => do
            let (handoff, scope) ← gateway.pendingHandoff interpreter wire presented
            let (receipt, _) ← rejecting .approvalNotValid
              (ApprovalStore.consume interpreter records token scope presented.now transaction)
            gateway.permit handoff presented.now (some receipt.recordHash)
      else
        match token with
        | some _ => .error (.rejected
            "approval token is not allowed when policy does not require approval" .approvalUnexpected)
        | none => do
            let handoff ← rejecting .handoffNotValid
              (validate interpreter wire presented gateway.handoffVerifier)
            gateway.permit handoff presented.now none) := by
  unfold Gateway.admission
  cases rejecting .subjectNotAuthorized (presented.policy.grantFor presented.subject) with
  | error refusal => rfl
  | ok grant =>
      change _ = ite _ _ _
      dsimp only
      split_ifs
      · cases token with
        | none => rfl
        | some given =>
            dsimp only
            cases gateway.pendingHandoff interpreter wire presented with
            | error refusal => rfl
            | ok pair =>
                obtain ⟨handoff, scope⟩ := pair
                dsimp only
                change _ = (rejecting .approvalNotValid (ApprovalStore.consume interpreter records
                  given scope presented.now transaction) >>= _)
                cases rejecting .approvalNotValid (ApprovalStore.consume interpreter records
                    given scope presented.now transaction) with
                | error refusal => rfl
                | ok answer => rfl
      · cases token <;> rfl

theorem contained_admission {transaction : Bool} {records : ApprovalStore.Records} :
    Contained GatewayRaised.cause
        (gateway.admission interpreter wire presented token transaction records).1 ↔
      ∀ grant, presented.policy.grantFor presented.subject = .ok grant →
        token.isSome = grant.requiresApproval → HashComparable interpreter wire presented := by
  rw [admission_fst, contained_bind, contained_rejecting]
  simp only [contained_grantFor, true_and, rejecting_eq_ok]
  refine forall_congr' fun grant => imp_congr_right fun found => ?_
  cases required : grant.requiresApproval with
  | false =>
      cases token with
      | some given => simp [contained_rejected]
      | none =>
          simp only [Bool.false_eq_true, if_false, Option.isSome_none, true_implies]
          rw [contained_bind, contained_rejecting, contained_validate]
          refine and_iff_left_of_imp fun _ handoff validated => ?_
          exact contained_permit (validate_validated (rejecting_eq_ok.mp validated)).hashed
  | true =>
      cases token with
      | none => simp [contained_rejected]
      | some given =>
          simp only [if_true, Option.isSome_some, true_implies]
          have pending : Contained GatewayRaised.cause
              (gateway.pendingHandoff interpreter wire presented) ↔
                HashComparable interpreter wire presented := by
            unfold Gateway.pendingHandoff createScope
            rw [contained_bind, contained_rejecting, contained_validatePending]
            refine and_iff_left_of_imp fun comparable handoff _ => contained_bind.mpr
              ⟨contained_rejecting.mpr (contained_bind.mpr ⟨?_, fun _ _ => contained_scope _⟩),
                fun _ _ => contained_pure _⟩
            exact contained_validatePending.mpr comparable
          rw [contained_bind, pending]
          refine and_iff_left_of_imp fun _ pair found => ?_
          obtain ⟨handoff, scope⟩ := pair
          obtain ⟨read, validated, rest⟩ := bind_eq_ok.mp found
          obtain ⟨_, _, same⟩ := bind_eq_ok.mp rest
          obtain ⟨rfl, _⟩ := Prod.mk.inj (Except.ok.inj same)
          refine contained_bind.mpr
            ⟨contained_rejecting.mpr (contained_consume _ _ _ _ _), fun _ _ => ?_⟩
          exact contained_permit (validatePending_validated (rejecting_eq_ok.mp validated)).hashed

end Gateway

namespace Results

variable {interpreter : Interpreter} {wire : Option Bytes} {handoff : Handoff}
  {verifier : WorkerVerifier} {now : Int}

theorem contained_digest (value : Value) (field : String) : Contained some (digest value field) := by
  unfold digest
  split
  · rw [contained_ite]
    exact ⟨fun _ => contained_ok _, fun _ => contained_fail _⟩
  · exact contained_fail _

theorem contained_reasonCode (code : Str) : Contained some (reasonCode code) := by
  unfold reasonCode
  rw [contained_ite]
  exact ⟨fun _ => contained_ok _, fun _ => contained_fail _⟩

theorem contained_signedFields : Contained some (signedFields interpreter wire verifier) := by
  simp only [signedFields, contained_bind, contained_ite, contained_decodeWire, contained_string,
    contained_digest, contained_reasonCode, contained_integer, contained_fail, contained_pure,
    implies_true, and_self]

theorem contained_bound {actual expected : Str} {field : String} :
    Contained some (bound actual expected field) ↔
      actual.all (·.val < 128) = true ∧ expected.all (·.val < 128) = true := by
  simp only [bound, contained_bind, contained_compareDigest, contained_ite, contained_fail,
    contained_pure, implies_true, and_self, and_true]

theorem contained_acceptedOutput (given hash : Value) (status : Str) :
    Contained some (acceptedOutput given hash status) := by
  unfold acceptedOutput
  rw [contained_ite]
  constructor
  · intro _
    refine contained_bind.mpr ⟨contained_oneText _ _, fun text _ => contained_bind.mpr
      ⟨contained_digest _ _, fun claimed read => contained_bind.mpr ⟨?_, fun _ _ => ?_⟩⟩⟩
    · exact contained_compareDigest.mpr ⟨ascii_of_isHexText (digest_eq_ok.mp read).2,
        ascii_of_isHexText (sha256 (canonicalBytes (payloadDict text))).property⟩
    · rw [contained_ite]
      exact ⟨fun _ => contained_fail _, fun _ => contained_pure _⟩
  · intro _
    rw [contained_ite]
    exact ⟨fun _ => contained_fail _, fun _ => contained_pure _⟩

theorem contained_inTime (producedAt : Int) : Contained some (inTime producedAt handoff now) := by
  simp only [inTime, contained_ite, contained_fail, contained_ok, implies_true, and_self]

theorem isHexText_of_signedFields {signed : SignedFields}
    (read : signedFields interpreter wire verifier = .ok signed) :
    isHexText 64 signed.handoffSha256 = true := by
  simp only [signedFields, bind_eq_ok, digest_eq_ok, guarded_eq_ok, pure_eq_ok] at read
  obtain ⟨_, _, _, _, _, _, _, _, _, _, _, _, _, _, text, ⟨_, hexadecimal⟩, _, _, _, _, _, _, _, rfl⟩ :=
    read
  exact hexadecimal

/-- The identifiers of a signed result can be compared with those of a handoff, as
far as the check comes to them. -/
def IdsComparable (interpreter : Interpreter) (wire : Option Bytes) (handoff : Handoff)
    (verifier : WorkerVerifier) : Prop :=
  ∀ signed, signedFields interpreter wire verifier = .ok signed →
    (signed.jobId.all (·.val < 128) = true ∧ handoff.jobId.all (·.val < 128) = true) ∧
      (signed.jobId = handoff.jobId → signed.workerAgentId.all (·.val < 128) = true ∧
        handoff.workerAgentId.all (·.val < 128) = true)

theorem contained_accept
    (hashed : handoff.payloadSha256 = (sha256 (canonicalBytes (payloadDict handoff.payload))).val) :
    Contained some (accept interpreter wire handoff verifier now) ↔
      IdsComparable interpreter wire handoff verifier := by
  have answered := handoffDigest_eq_ok.mpr ⟨hashed, rfl⟩
  unfold accept
  rw [contained_bind]
  simp only [contained_signedFields, true_and, answered, IdsComparable]
  refine forall_congr' fun signed => imp_congr_right fun read => ?_
  constructor
  · intro contained
    have rest := (contained_bind.mp contained).2 _ rfl
    have ids := contained_bound.mp (contained_bind.mp rest).1
    refine ⟨ids, fun same => ?_⟩
    have next := (contained_bind.mp rest).2 () (bound_eq_ok.mpr ⟨ids.1, ids.2, same⟩)
    exact contained_bound.mp (contained_bind.mp next).1
  · rintro ⟨ids, workers⟩
    refine contained_bind.mpr ⟨contained_ok _, fun digest _ => contained_bind.mpr
      ⟨contained_bound.mpr ids, fun _ matched => contained_bind.mpr
        ⟨contained_bound.mpr (workers (bound_eq_ok.mp matched).2.2), fun _ _ => contained_bind.mpr
          ⟨contained_bound.mpr ⟨?_, ascii_of_isHexText digest.property⟩, fun _ _ => contained_bind.mpr
            ⟨contained_acceptedOutput _ _ _, fun _ _ => contained_bind.mpr
              ⟨contained_inTime _, fun _ _ => contained_pure _⟩⟩⟩⟩⟩⟩
    exact ascii_of_isHexText (isHexText_of_signedFields read)

end Results

namespace ResultVerifier

variable {interpreter : Interpreter} {verifier : Verifier} {arguments : Arguments} {ledger : Ledger}

/-- The exception that `Rejected` is not. -/
def Refusal.cause : Refusal → Option Raised
  | rejected _ _ => none
  | raised exception => some exception

theorem contained_rejecting {α : Type} {code : Code} {outcome : Outcome α} :
    Contained Refusal.cause (rejecting code outcome) ↔ Contained some outcome := by
  cases outcome with
  | ok value => exact iff_of_true (contained_ok value) (contained_ok value)
  | error raised => cases raised <;> simp [rejecting, contained_error, Refusal.cause]

theorem contained_passing {α : Type} {outcome : Outcome α} :
    Contained Refusal.cause (passing outcome) ↔ Contained some outcome := by
  cases outcome with
  | ok value => exact iff_of_true (contained_ok value) (contained_ok value)
  | error raised => simp [passing, contained_error, Refusal.cause]

theorem contained_rejected {α : Type} (message : String) (code : Code) :
    Contained Refusal.cause (.error (.rejected message code) : Except Refusal α) := by
  simp [contained_error, Refusal.cause]

theorem contained_checkApproval (hash : Option Str) (required : Bool) :
    Contained Refusal.cause (checkApproval hash required) := by
  unfold checkApproval
  split <;> simp only [contained_ite, contained_rejected, contained_ok, implies_true, and_self]

theorem contained_settle (handoff : Handoff) (result : Results.Result) (digest : Digest) :
    Contained Refusal.cause (settle ledger arguments handoff result digest).1 := by
  unfold settle reserve
  split_ifs
  · exact contained_passing.mpr (contained_fail _)
  · exact contained_rejected _ _
  · exact contained_rejected _ _
  · exact contained_ok _

theorem contained_revalidate {wire : Option Bytes} {presented : Presented} {pending : Bool} :
    Contained some (revalidate interpreter verifier wire presented pending) ↔
      HashComparable interpreter wire presented := by
  cases pending with
  | false => exact contained_validate
  | true => exact contained_validatePending

/-- What reaches `accept` can be compared, as far as its checks come to it. -/
def Comparable (interpreter : Interpreter) (verifier : Verifier) (arguments : Arguments) : Prop :=
  (1 ≤ arguments.presented.now ∧ arguments.presented.now ≤ maxOccurredAt) →
    ∀ grant, arguments.presented.policy.grantFor arguments.presented.subject = .ok grant →
      checkApproval arguments.approvalRecordHash grant.requiresApproval = .ok () →
      HashComparable interpreter arguments.handoffWire arguments.presented ∧
        ∀ handoff, revalidate interpreter verifier arguments.handoffWire arguments.presented
            grant.requiresApproval = .ok handoff →
          Results.IdsComparable interpreter arguments.resultWire handoff verifier.workerVerifier

theorem contained_accept :
    Contained Refusal.cause (accept interpreter verifier ledger arguments).1 ↔
      Comparable interpreter verifier arguments := by
  have whole : (accept interpreter verifier ledger arguments).1 =
      checked interpreter verifier arguments >>= fun (handoff, result, digest) =>
        (settle ledger arguments handoff result digest).1 := by
    unfold accept
    cases checked interpreter verifier arguments <;> rfl
  have ends : ∀ passed, checked interpreter verifier arguments = .ok passed →
      Contained Refusal.cause
        (settle ledger arguments passed.1 passed.2.1 passed.2.2).1 :=
    fun _ _ => contained_settle _ _ _
  rw [whole, contained_bind, and_iff_left ends]
  unfold checked Comparable
  dsimp only
  by_cases timely : 1 ≤ arguments.presented.now ∧ arguments.presented.now ≤ maxOccurredAt
  · rw [if_neg (not_not.mpr timely), contained_bind, contained_rejecting]
    simp only [contained_grantFor, true_and, rejecting_eq_ok, timely, and_self, true_implies]
    refine forall_congr' fun grant => imp_congr_right fun _ => ?_
    rw [contained_bind, and_iff_right (contained_checkApproval _ _)]
    constructor
    · intro rest evidenced
      obtain ⟨comparable, rest⟩ := contained_bind.mp (rest () evidenced)
      refine ⟨contained_revalidate.mp (contained_rejecting.mp comparable), fun handoff validated => ?_⟩
      have next := (contained_bind.mp (rest handoff (rejecting_eq_ok.mpr validated))).1
      exact (Results.contained_accept (revalidate_validated validated).hashed).mp
        (contained_rejecting.mp next)
    · intro comparable _ evidenced
      obtain ⟨hash, ids⟩ := comparable evidenced
      refine contained_bind.mpr ⟨contained_rejecting.mpr (contained_revalidate.mpr hash),
        fun handoff validated => ?_⟩
      have known := rejecting_eq_ok.mp validated
      have hashed := (revalidate_validated known).hashed
      exact contained_bind.mpr
        ⟨contained_rejecting.mpr ((Results.contained_accept hashed).mpr (ids handoff known)),
          fun _ _ => contained_bind.mpr ⟨contained_passing.mpr (contained_handoffDigest hashed),
            fun _ _ => contained_pure _⟩⟩
  · rw [if_pos timely]
    exact iff_of_true (contained_passing.mpr (contained_fail _)) fun absurd => (timely absurd).elim

end ResultVerifier

/-- Each call that a wire reaches returns or refuses, exactly when the texts it
comes to compare are ASCII. -/
theorem contained_iff_comparable (interpreter : Interpreter) (wire token : Option Bytes)
    (presented : Presented) (verifier : HandoffVerifier) (gateway : Gateway) (transaction : Bool)
    (records : ApprovalStore.Records) (handoff : Handoff) (worker : Results.WorkerVerifier)
    (now : Int) (accepting : ResultVerifier.Verifier) (arguments : ResultVerifier.Arguments)
    (ledger : ResultVerifier.Ledger) :
    (Contained some (validate interpreter wire presented verifier) ↔
        HashComparable interpreter wire presented) ∧
      (Contained some (validatePending interpreter wire presented verifier) ↔
        HashComparable interpreter wire presented) ∧
      (Results.IsValidated interpreter handoff →
        (Contained some (Results.accept interpreter wire handoff worker now) ↔
          Results.IdsComparable interpreter wire handoff worker)) ∧
      (Contained GatewayRaised.cause
          (gateway.admission interpreter wire presented token transaction records).1 ↔
        ∀ grant, presented.policy.grantFor presented.subject = .ok grant →
          token.isSome = grant.requiresApproval → HashComparable interpreter wire presented) ∧
      (Contained ResultVerifier.Refusal.cause
          (ResultVerifier.accept interpreter accepting ledger arguments).1 ↔
        ResultVerifier.Comparable interpreter accepting arguments) := by
  refine ⟨contained_validate, contained_validatePending, fun validated => ?_, contained_admission,
    ResultVerifier.contained_accept⟩
  exact Results.contained_accept validated.hashed

/-- A handoff that anyone can write: its payload hash is not ASCII, and nobody
signed it. -/
def foreignHandoff : Handoff where
  version := handoffVersion
  jobId := str "job-demo"
  userId := str "user-demo"
  orchestratorId := str "orchestrator-demo"
  workerAgentId := str "worker-demo"
  tier := str "basic"
  tools := [str "summarize"]
  sandboxProfile := str "isolated"
  approvalState := notRequired
  policyVersion := str "policy-v1"
  issuedAt := 100
  expiresAt := 160
  payload := str "Example text"
  payloadSha256 := str "é"
  signature := str "unsigned"

theorem typeError_escapes : validate literalInterpreter (some foreignHandoff.toBytes)
    (demoPresented false 101) digestSigner.verifier = .error .typeError := by
  have encoded : canonical literalInterpreter (.dict foreignHandoff.fields) =
      .ok foreignHandoff.toBytes :=
    canonical_eq_ok.mpr ⟨(depth_fields _).trans_le (by decide), rfl, rfl⟩
  have short : foreignHandoff.toBytes.length ≤ maxWireBytes := by decide +kernel
  have decoded : decodeWire literalInterpreter (some foreignHandoff.toBytes) handoffKeys "handoff" =
      .ok ((sortKeys foreignHandoff.fields).map fun field => (field.1, field.2.decoded)) :=
    decodeWire_canonical (tidy_fields foreignHandoff) (floatless_fields foreignHandoff)
      ((depth_fields foreignHandoff).trans_le (by decide)) (hasKeys_fields foreignHandoff) encoded
      short
  unfold validate
  rw [decoded]
  rfl

end GeniusNew
