import GeniusNew.Approvals.Store
import GeniusNew.Audit.Event

/-! # The gateway

The gateway validates a wire again, consumes the approval a grant requires, and
mints the permit without which no worker runs.
-/

namespace GeniusNew

open Json

inductive Rejection where
  | subjectNotAuthorized
  | handoffNotValid
  | approvalRequired
  | approvalUnexpected
  | approvalNotValid
  deriving DecidableEq

/-- What `Gateway.admit` can raise: a refusal with its reason, or an exception
that passes through. -/
inductive GatewayRaised where
  | rejected (message : String) (reason : Rejection)
  | raised (exception : Raised)
  deriving DecidableEq

/-- `except ContractError as refusal: raise GatewayRejected(...)`. -/
def rejecting {α : Type} (reason : Rejection) : Outcome α → Except GatewayRaised α
  | .ok value => .ok value
  | .error (.contractError message) => .error (.rejected message reason)
  | .error exception => .error (.raised exception)

/-- An exception that no clause of `admit` catches. -/
def passing {α : Type} : Outcome α → Except GatewayRaised α
  | .ok value => .ok value
  | .error exception => .error (.raised exception)

/-- `_GATEWAY_ID`. -/
def isGatewayId : Str → Bool := isInstanceId

/-- `_PermitUse`, as far as the constructor of a permit reads it. -/
structure PermitUse where
  handoffSha256 : Str
  gatewayId : Str
  admittedAt : Int
  approvalRecordHash : Option Str
  deriving DecidableEq

structure DispatchPermit where
  handoff : Handoff
  handoffSha256 : Digest
  gatewayId : Str
  admittedAt : Int
  approvalRecordHash : Option Digest
  deriving DecidableEq

namespace DispatchPermit

/-- What `DispatchPermit(...)` is called with: the use state, if it is one, and
whether the origin is the gateway's own. -/
structure Arguments where
  handoff : Handoff
  handoffSha256 : Str
  gatewayId : Str
  admittedAt : Int
  approvalRecordHash : Option Str
  use : Option PermitUse
  minted : Bool

/-- The check of the approval hash, which may be absent. -/
def approvalHash : Option Str → Outcome (Option Digest)
  | none => .ok none
  | some text =>
      if hexadecimal : isHexText 64 text = true then .ok (some ⟨text, hexadecimal⟩)
      else fail "approval_record_hash must be a lowercase SHA-256 digest"

/-- `DispatchPermit(...)` with the checks of `__post_init__` in their order. -/
def ofArguments (given : Arguments) : Outcome DispatchPermit :=
  if given.minted = false then fail "dispatch permit must be minted by a Gateway"
  else
    match given.use with
    | none => fail "dispatch permit use state is invalid"
    | some use =>
        if hexadecimal : isHexText 64 given.handoffSha256 = true then do
          let digest ← handoffDigest given.handoff
          if digest.val ≠ given.handoffSha256 then
            fail "dispatch permit digest does not bind its handoff"
          else if isGatewayId given.gatewayId = false then
            fail "gateway_id must be a lowercase identifier of at most 63 characters"
          else if ¬ (given.handoff.issuedAt ≤ given.admittedAt ∧
              given.admittedAt < given.handoff.expiresAt) then
            fail "dispatch permit admission is outside the handoff lifetime"
          else do
            let approval ← approvalHash given.approvalRecordHash
            if use ≠ ⟨given.handoffSha256, given.gatewayId, given.admittedAt,
                given.approvalRecordHash⟩ then
              fail "dispatch permit fields do not match their gateway binding"
            else return ⟨given.handoff, ⟨given.handoffSha256, hexadecimal⟩, given.gatewayId,
              given.admittedAt, approval⟩
        else fail "dispatch permit digest must be a lowercase SHA-256 digest"

end DispatchPermit

structure Gateway where
  gatewayId : Str
  handoffVerifier : HandoffVerifier
  gatewayId_valid : isGatewayId gatewayId = true

namespace Gateway

/-- The permit for an admitted handoff. -/
def permit (gateway : Gateway) (handoff : Handoff) (now : Int) (approval : Option Digest) :
    Except GatewayRaised DispatchPermit := do
  let digest ← passing (handoffDigest handoff)
  passing (DispatchPermit.ofArguments {
    handoff
    handoffSha256 := digest.val
    gatewayId := gateway.gatewayId
    admittedAt := now
    approvalRecordHash := approval.map Subtype.val
    use := some ⟨digest.val, gateway.gatewayId, now, approval.map Subtype.val⟩
    minted := true })

/-- The validated handoff and the scope `Gateway.admit` consumes an approval for. -/
def pendingHandoff (interpreter : Interpreter) (gateway : Gateway) (wire : Option Bytes)
    (presented : Presented) : Except GatewayRaised (Handoff × ApprovalScope) := do
  let handoff ← rejecting .handoffNotValid
    (validatePending interpreter wire presented gateway.handoffVerifier)
  let scope ← rejecting .approvalNotValid
    (createScope interpreter wire presented gateway.handoffVerifier)
  return (handoff, scope)

/-- `Gateway.admit`: its result, and the records of its approval store afterwards. -/
def admission (interpreter : Interpreter) (gateway : Gateway) (wire : Option Bytes)
    (presented : Presented) (approvalToken : Option Bytes) (transaction : Bool)
    (records : List (Bytes × ApprovalRecord)) :
    Except GatewayRaised DispatchPermit × List (Bytes × ApprovalRecord) :=
  match rejecting .subjectNotAuthorized (presented.policy.grantFor presented.subject) with
  | .error refusal => (.error refusal, records)
  | .ok grant =>
      if grant.requiresApproval then
        match approvalToken with
        | none => (.error (.rejected "approval token is required" .approvalRequired), records)
        | some token =>
            match pendingHandoff interpreter gateway wire presented with
            | .error refusal => (.error refusal, records)
            | .ok (handoff, scope) =>
                match rejecting .approvalNotValid
                    (ApprovalStore.consume interpreter records token scope presented.now transaction) with
                | .error refusal => (.error refusal, records)
                | .ok (receipt, after) =>
                    (gateway.permit handoff presented.now (some receipt.recordHash), after)
      else
        match approvalToken with
        | some _ =>
            (.error (.rejected
              "approval token is not allowed when policy does not require approval"
              .approvalUnexpected), records)
        | none =>
            (do
              let handoff ← rejecting .handoffNotValid
                (validate interpreter wire presented gateway.handoffVerifier)
              gateway.permit handoff presented.now none, records)

end Gateway

end GeniusNew
