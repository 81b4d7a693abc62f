import GeniusNew.Contracts.Handoff

/-! # Who may approve

The approver roles of a server configuration. A subject with a grant of its own
can hold the role only under the identity its grant gives it.
-/

namespace GeniusNew

open Json

def maxApproverBytes : Nat := 160

/-- `owners.get(subject)`: the identity the policy gives a subject. -/
def Policy.ownerOf (policy : Policy) (subject : Str) : Option Str :=
  (policy.grants.find? fun grant => grant.subject = subject).map Grant.userId

/-- The approvers of a service, each with its identity. -/
structure ApproverPolicy (policy : Policy) where
  identities : List (Str × Str)
  owners_agree : ∀ subject userId, (subject, userId) ∈ identities →
    ∀ owner ∈ policy.ownerOf subject, owner = userId

namespace ApproverPolicy

variable {policy : Policy}

/-- `ApproverPolicy(...)`: its checks on one approver after the other. `known`
are the subjects that have a principal. -/
def ofMapping (policy : Policy) (known : List Str) :
    List (Str × Str) → Outcome (ApproverPolicy policy)
  | [] => .ok ⟨[], fun _ _ member => nomatch member⟩
  | (subject, userId) :: approvers => do
      let _ ← string (.str subject) "approver subject"
      let _ ← string (.str userId) "approver user_id"
      if max (encodedLength subject) (encodedLength userId) > maxApproverBytes then
        fail "approver identifiers must be at most 160 bytes"
      else if subject ∉ known then fail "approver subject must have a configured principal"
      else if agrees : ∀ owner ∈ policy.ownerOf subject, owner = userId then do
        let rest ← ofMapping policy known approvers
        return {
          identities := (subject, userId) :: rest.identities
          owners_agree := by
            intro other identity member
            obtain same | later := List.mem_cons.mp member
            · obtain ⟨rfl, rfl⟩ := Prod.mk.inj same
              exact agrees
            · exact rest.owners_agree other identity later }
      else fail "approver identity must match its policy grant"

/-- `user_id(subject)`. -/
def userId (approvers : ApproverPolicy policy) (subject : Option Str) : Outcome Str :=
  match subject.bind fun subject => approvers.identities.lookup subject with
  | some userId => .ok userId
  | none => fail "subject has no approver role"

end ApproverPolicy

end GeniusNew
