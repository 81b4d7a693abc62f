import GeniusNew.Approvals.Store

/-! # The life of an approval

A store starts empty and takes grants, consumptions and revocations in any order.
Each call is one step: what `_new_grant` and the checks of `_transition` do before
the lock reads nothing of the store. `ApprovalStore.Sound` says what every record
of a reachable store satisfies, and `ApprovalStore.Follows` what one step can do to
the record of a token.
-/

namespace GeniusNew

open Json

namespace ApprovalStore

inductive Call where
  | grant (scope : ApprovalScope) (created : Bool) (now ttlSeconds : Int) (token : Option Bytes)
      (transaction : Bool)
  | consume (token : Bytes) (scope : ApprovalScope) (now : Int) (transaction : Bool)
  | revoke (token : Bytes) (scope : ApprovalScope) (now : Int) (transaction : Bool)

inductive Answer where
  | granted (grant : ApprovalGrant)
  | changed (receipt : ApprovalReceipt)

/-- A call that returns: its answer and the records afterwards. -/
def perform (interpreter : Interpreter) (records : Records) : Call → Outcome (Answer × Records)
  | .grant scope created now ttlSeconds token transaction => do
      let (grant, after) ←
        grant interpreter records scope created now ttlSeconds token transaction
      return (.granted grant, after)
  | .consume token scope now transaction => do
      let (receipt, after) ← consume interpreter records token scope now transaction
      return (.changed receipt, after)
  | .revoke token scope now transaction => do
      let (receipt, after) ← revoke interpreter records token scope now transaction
      return (.changed receipt, after)

/-- A call: its answer or what it raised, and the records afterwards. A raise
comes before the one assignment to the store. -/
def call (interpreter : Interpreter) (records : Records) (call : Call) :
    Outcome Answer × Records :=
  match perform interpreter records call with
  | .ok (answer, after) => (.ok answer, after)
  | .error raised => (.error raised, records)

/-- The records after calls one after the other. -/
def calls (interpreter : Interpreter) (records : Records) (made : List Call) : Records :=
  made.foldl (fun records made => (call interpreter records made).2) records

/-- What every record of a store satisfies. -/
structure SoundRecord (digest : Bytes) (record : ApprovalRecord) : Prop where
  tokenDigest_eq : record.tokenDigest = digest
  expires_handoff : record.expiresAt ≤ record.scope.handoffExpiresAt
  expires_ttl : record.expiresAt ≤ record.issuedAt + maxApprovalTtlSeconds

def Sound (records : Records) : Prop :=
  ∀ digest record, records.lookup digest = some record → SoundRecord digest record

/-- What one step can do to the record of a token. -/
inductive Follows (digest : Bytes) : Option ApprovalRecord → Option ApprovalRecord → Prop
  | stays (record : Option ApprovalRecord) : Follows digest record record
  | granted {record : ApprovalRecord} (state : record.state = .granted)
      (sound : SoundRecord digest record) : Follows digest none (some record)
  | changed {record updated : ApprovalRecord} {state : ApprovalState} {now : Int}
      (before : record.state = .granted) (after : state ≠ .granted)
      (successor : updated.toApprovalEntry = { record.toApprovalEntry with
        state
        changedAt := now
        previousHash := some record.recordHash }) : Follows digest (some record) (some updated)

section Steps

variable {interpreter : Interpreter} {records after : Records} {scope : ApprovalScope}
  {token : Bytes} {now : Int}

theorem record_eq_ok {entry : ApprovalEntry} {record : ApprovalRecord}
    (made : entry.record interpreter = .ok record) : record.toApprovalEntry = entry := by
  obtain ⟨bytes, _, made⟩ := bind_eq_ok.mp made
  rw [← pure_eq_ok.mp made]

/-- The hash of a record is the hash of what it says. -/
def Sealed (interpreter : Interpreter) (record : ApprovalRecord) : Prop :=
  record.toApprovalEntry.record interpreter = .ok record

theorem sealed_of_record {entry : ApprovalEntry} {record : ApprovalRecord}
    (made : entry.record interpreter = .ok record) : Sealed interpreter record := by
  rw [Sealed, record_eq_ok made]
  exact made

theorem Sealed.printable {record : ApprovalRecord} (kept : Sealed interpreter record) :
    record.toDict.printable interpreter = true := by
  obtain ⟨bytes, written, _⟩ := bind_eq_ok.mp kept
  exact (canonical_eq_ok.mp written).2.1

/-- What a grant returns and stores. -/
theorem grant_stores {created transaction : Bool} {ttlSeconds : Int} {source : Option Bytes}
    {granted : ApprovalGrant}
    (accepted : grant interpreter records scope created now ttlSeconds source transaction =
      .ok (granted, after)) :
    created = true ∧ (0 < ttlSeconds ∧ ttlSeconds ≤ maxApprovalTtlSeconds) ∧
      now < scope.handoffExpiresAt ∧ source = some granted.token ∧
      ∃ record : ApprovalRecord, records.lookup (Sha256.digest granted.token) = none ∧
        after = records ++ [(Sha256.digest granted.token, record)] ∧
        granted = ⟨granted.token, scope, now, min (now + ttlSeconds) scope.handoffExpiresAt,
          record.recordHash⟩ ∧
        record.toApprovalEntry = ⟨Sha256.digest granted.token, scope, now,
          min (now + ttlSeconds) scope.handoffExpiresAt, .granted, now, none⟩ ∧
        Sealed interpreter record := by
  unfold grant newGrant at accepted
  obtain ⟨_, accepted⟩ := guarded_eq_ok.mp accepted
  obtain ⟨⟨minted, record⟩, fresh, accepted⟩ := bind_eq_ok.mp accepted
  obtain ⟨made, fresh⟩ := guarded_eq_ok.mp fresh
  obtain ⟨bounds, fresh⟩ := guarded_eq_ok.mp fresh
  obtain ⟨early, fresh⟩ := guarded_eq_ok.mp fresh
  split at fresh
  · exact (fail_ne_ok fresh).elim
  obtain ⟨_, fresh⟩ := guarded_eq_ok.mp fresh
  obtain ⟨written, recorded, fresh⟩ := bind_eq_ok.mp fresh
  obtain ⟨rfl, rfl⟩ := Prod.mk.inj (pure_eq_ok.mp fresh)
  obtain ⟨free, accepted⟩ := guarded_eq_ok.mp accepted
  obtain ⟨rfl, rfl⟩ := Prod.mk.inj (pure_eq_ok.mp accepted)
  have entry := record_eq_ok recorded
  have key := congrArg ApprovalEntry.tokenDigest entry
  rw [key] at free ⊢
  rw [not_or, not_le, not_lt] at bounds
  refine ⟨by simpa using made, bounds, not_le.mp early, rfl, written,
    Option.not_isSome_iff_eq_none.mp free, rfl, ?_, entry, sealed_of_record recorded⟩
  rw [entry]

/-- A record as a grant stores it is sound. -/
theorem grant_eq_ok {created transaction : Bool} {ttlSeconds : Int} {source : Option Bytes}
    {granted : ApprovalGrant}
    (accepted : grant interpreter records scope created now ttlSeconds source transaction =
      .ok (granted, after)) :
    ∃ record : ApprovalRecord, records.lookup record.tokenDigest = none ∧
      after = records ++ [(record.tokenDigest, record)] ∧ record.state = .granted ∧
      SoundRecord (Sha256.digest granted.token) record := by
  obtain ⟨_, bounds, _, _, record, free, added, _, entry, _⟩ := grant_stores accepted
  refine ⟨record, ?_, ?_, ?_, ?_, ?_, ?_⟩
  · rw [entry]
    exact free
  · rw [entry]
    exact added
  · rw [entry]
  · rw [entry]
  · rw [entry]
    exact min_le_right _ _
  · rw [entry]
    exact (min_le_left _ _).trans (Int.add_le_add_left bounds.2 now)

/-- What a transition asks of the record of its token, and what it stores. -/
theorem transition_eq_ok {state : ApprovalState} {requireUnexpired : Bool}
    {receipt : ApprovalReceipt}
    (accepted : transition interpreter records token scope now state requireUnexpired =
      .ok (receipt, after)) :
    ∃ record updated : ApprovalRecord,
      records.lookup (Sha256.digest token) = some record ∧
      record.tokenDigest = Sha256.digest token ∧ record.state = .granted ∧
      scopeMatches interpreter record.scope scope = .ok true ∧ record.issuedAt ≤ now ∧
      (requireUnexpired = true → now < record.expiresAt) ∧
      updated.toApprovalEntry = { record.toApprovalEntry with
        state
        changedAt := now
        previousHash := some record.recordHash } ∧
      Sealed interpreter updated ∧ receipt = ⟨updated.scope, state, now, updated.recordHash⟩ ∧
      after = Assoc.replace records (Sha256.digest token) updated := by
  unfold transition at accepted
  obtain ⟨_, accepted⟩ := guarded_eq_ok.mp accepted
  split at accepted
  · exact (fail_ne_ok accepted).elim
  next record found =>
    obtain ⟨key, accepted⟩ := guarded_eq_ok.mp accepted
    obtain ⟨same, compared, accepted⟩ := bind_eq_ok.mp accepted
    obtain ⟨equal, accepted⟩ := guarded_eq_ok.mp accepted
    obtain ⟨open_, accepted⟩ := guarded_eq_ok.mp accepted
    obtain ⟨started, accepted⟩ := guarded_eq_ok.mp accepted
    obtain ⟨running, accepted⟩ := guarded_eq_ok.mp accepted
    obtain ⟨updated, made, accepted⟩ := bind_eq_ok.mp accepted
    obtain ⟨rfl, rfl⟩ := Prod.mk.inj (pure_eq_ok.mp accepted)
    obtain rfl : same = true := by simpa using equal
    exact ⟨record, updated, found, not_not.mp key, not_not.mp open_, compared, not_lt.mp started,
      fun required => not_le.mp fun late => running ⟨required, late⟩, record_eq_ok made,
      sealed_of_record made, rfl, rfl⟩

theorem transition_follows {state : ApprovalState} {requireUnexpired : Bool}
    {receipt : ApprovalReceipt} (leaves : state ≠ .granted)
    (accepted : transition interpreter records token scope now state requireUnexpired =
      .ok (receipt, after)) (digest : Bytes) :
    Follows digest (records.lookup digest) (after.lookup digest) := by
  obtain ⟨record, updated, found, _, open_, _, _, _, entry, _, _, rfl⟩ := transition_eq_ok accepted
  rw [Assoc.lookup_replace, found]
  by_cases same : digest = Sha256.digest token
  · rw [if_pos same, same, found]
    exact .changed open_ leaves entry
  · rw [if_neg same]
    exact .stays _

theorem perform_follows {made : Call} {answer : Answer}
    (accepted : perform interpreter records made = .ok (answer, after)) (digest : Bytes) :
    Follows digest (records.lookup digest) (after.lookup digest) := by
  cases made with
  | grant scope created now ttlSeconds token transaction =>
      obtain ⟨⟨granted, written⟩, done, ends⟩ := bind_eq_ok.mp accepted
      obtain ⟨_, rfl⟩ := Prod.mk.inj (pure_eq_ok.mp ends)
      obtain ⟨record, free, rfl, state, sound⟩ := grant_eq_ok done
      rw [Assoc.lookup_concat free]
      by_cases same : digest = record.tokenDigest
      · rw [if_pos same, same, free]
        exact .granted state ⟨rfl, sound.expires_handoff, sound.expires_ttl⟩
      · rw [if_neg same]
        exact .stays _
  | consume token scope now transaction =>
      obtain ⟨⟨receipt, written⟩, done, ends⟩ := bind_eq_ok.mp accepted
      obtain ⟨_, rfl⟩ := Prod.mk.inj (pure_eq_ok.mp ends)
      have leaves : ApprovalState.consumed ≠ .granted := by decide
      exact transition_follows leaves (guarded_eq_ok.mp done).2 digest
  | revoke token scope now transaction =>
      obtain ⟨⟨receipt, written⟩, done, ends⟩ := bind_eq_ok.mp accepted
      obtain ⟨_, rfl⟩ := Prod.mk.inj (pure_eq_ok.mp ends)
      have leaves : ApprovalState.revoked ≠ .granted := by decide
      exact transition_follows leaves (guarded_eq_ok.mp done).2 digest

theorem call_follows (interpreter : Interpreter) (records : Records) (made : Call)
    (digest : Bytes) :
    Follows digest (records.lookup digest) ((call interpreter records made).2.lookup digest) := by
  unfold call
  split
  · next performed => exact perform_follows performed digest
  · exact .stays _

/-- A successor has the times and the scope of its grant. -/
theorem SoundRecord.follows {digest : Bytes} {before : Option ApprovalRecord}
    {after : ApprovalRecord} (follows : Follows digest before (some after))
    (sound : ∀ record, before = some record → SoundRecord digest record) :
    SoundRecord digest after := by
  cases follows with
  | stays => exact sound after rfl
  | granted _ fresh => exact fresh
  | @changed record updated state now _ _ successor =>
      have kept := sound record rfl
      constructor <;> rw [successor]
      · exact kept.tokenDigest_eq
      · exact kept.expires_handoff
      · exact kept.expires_ttl

theorem sound_calls (interpreter : Interpreter) {records : Records} (sound : Sound records)
    (made : List Call) : Sound (calls interpreter records made) := by
  induction made generalizing records with
  | nil => exact sound
  | cons first rest ih =>
      refine ih fun digest record found => ?_
      have follows := call_follows interpreter records first digest
      rw [found] at follows
      exact .follows follows (sound digest)

/-- A record that was consumed or revoked never changes again. -/
theorem calls_settled (interpreter : Interpreter) {records : Records} {digest : Bytes}
    {record : ApprovalRecord} (found : records.lookup digest = some record)
    (settled : record.state ≠ .granted) (made : List Call) :
    (calls interpreter records made).lookup digest = some record := by
  induction made generalizing records with
  | nil => exact found
  | cons first rest ih =>
      refine ih ?_
      have follows := call_follows interpreter records first digest
      rw [found] at follows
      generalize (call interpreter records first).2.lookup digest = next at follows
      cases follows with
      | stays => rfl
      | changed open_ => exact (settled open_).elim

theorem scopeMatches_eq_ok {left right : ApprovalScope}
    (matched : scopeMatches interpreter left right = .ok true) :
    ∃ bytes, canonical interpreter left.toDict = .ok bytes ∧
      canonical interpreter right.toDict = .ok bytes := by
  obtain ⟨first, one, matched⟩ := bind_eq_ok.mp matched
  obtain ⟨second, two, matched⟩ := bind_eq_ok.mp matched
  obtain rfl : first = second := of_decide_eq_true (pure_eq_ok.mp matched)
  exact ⟨first, one, two⟩

theorem perform_of_call {made : Call} {answer : Answer}
    (answered : (call interpreter records made).1 = .ok answer) :
    perform interpreter records made = .ok (answer, (call interpreter records made).2) := by
  unfold call at answered ⊢
  split at answered
  · next performed =>
      obtain rfl := Except.ok.inj answered
      exact performed
  · cases answered

theorem call_raised {made : Call} {raised : Raised}
    (answered : (call interpreter records made).1 = .error raised) :
    (call interpreter records made).2 = records := by
  unfold call at answered ⊢
  split at answered
  · cases answered
  · rfl

theorem record_of_printable {entry : ApprovalEntry}
    (printed : entry.toDict.printable interpreter = true) :
    entry.record interpreter =
      .ok { entry with recordHash := sha256 (canonicalBytes entry.toDict) } := by
  have depth : entry.toDict.depth ≤ 16 := by
    cases previous : entry.previousHash <;>
      simp [ApprovalEntry.toDict, previous, ApprovalScope.toDict, ApprovalScope.fields, Value.depth,
        Value.depthFields]
  exact bind_eq_ok.mpr ⟨_, canonical_eq_ok.mpr
    ⟨depth.trans interpreter.recursionLimit_sufficient, printed, rfl⟩, rfl⟩

/-- A grant of a fresh token is answered. -/
theorem grant_of_printable {ttlSeconds : Int} {entry : ApprovalEntry}
    (written : entry = ⟨Sha256.digest token, scope, now,
      min (now + ttlSeconds) scope.handoffExpiresAt, .granted, now, none⟩)
    (ttl : 0 < ttlSeconds ∧ ttlSeconds ≤ maxApprovalTtlSeconds)
    (early : now < scope.handoffExpiresAt) (long : tokenBytes ≤ token.length)
    (free : records.lookup (Sha256.digest token) = none)
    (printed : entry.toDict.printable interpreter = true) :
    ∃ granted record, grant interpreter records scope true now ttlSeconds (some token) false =
      .ok (granted, records ++ [(Sha256.digest token, record)]) ∧
      record.toApprovalEntry = entry := by
  have made := record_of_printable printed
  subst written
  have fresh : newGrant interpreter scope true now ttlSeconds (some token) = .ok (token, _) :=
    guarded_eq_ok.mpr ⟨by simp, guarded_eq_ok.mpr ⟨by omega, guarded_eq_ok.mpr
      ⟨by omega, guarded_eq_ok.mpr ⟨by omega, bind_eq_ok.mpr ⟨_, made, rfl⟩⟩⟩⟩⟩
  have unused : ¬ (records.lookup (Sha256.digest token)).isSome = true := by simp [free]
  exact ⟨_, _, guarded_eq_ok.mpr ⟨by simp, bind_eq_ok.mpr ⟨_, fresh, guarded_eq_ok.mpr
    ⟨unused, rfl⟩⟩⟩, record_eq_ok made⟩

/-- A consumption of a granted record inside its window is answered. -/
theorem consume_of_granted {record : ApprovalRecord} {entry : ApprovalEntry}
    (found : records.lookup (Sha256.digest token) = some record)
    (key : record.tokenDigest = Sha256.digest token) (granted : record.state = .granted)
    (window : record.issuedAt ≤ now ∧ now < record.expiresAt) (long : tokenBytes ≤ token.length)
    (written : entry = { record.toApprovalEntry with
      state := .consumed
      changedAt := now
      previousHash := some record.recordHash })
    (readable : record.scope.toDict.printable interpreter = true)
    (printed : entry.toDict.printable interpreter = true) :
    ∃ receipt after, consume interpreter records token record.scope now false =
      .ok (receipt, after) := by
  have made := record_of_printable printed
  have depth : record.scope.toDict.depth ≤ interpreter.recursionLimit :=
    Nat.le_trans (by decide : 1 ≤ 16) interpreter.recursionLimit_sufficient
  have matched : scopeMatches interpreter record.scope record.scope = .ok true := by
    have bytes := canonical_eq_ok.mpr ⟨depth, readable, rfl⟩
    refine bind_eq_ok.mpr ⟨_, bytes, bind_eq_ok.mpr ⟨_, bytes, ?_⟩⟩
    exact pure_eq_ok.mpr (decide_eq_true rfl)
  subst written
  have moved : ∃ answer, transition interpreter records token record.scope now .consumed true =
      .ok answer := by
    unfold transition
    rw [found]
    exact ⟨_, guarded_eq_ok.mpr ⟨by omega, guarded_eq_ok.mpr ⟨not_not.mpr key, bind_eq_ok.mpr
      ⟨_, matched, guarded_eq_ok.mpr ⟨by simp, guarded_eq_ok.mpr ⟨not_not.mpr granted,
        guarded_eq_ok.mpr ⟨by omega, guarded_eq_ok.mpr ⟨by omega, bind_eq_ok.mpr
          ⟨_, made, rfl⟩⟩⟩⟩⟩⟩⟩⟩⟩
  obtain ⟨⟨receipt, after⟩, moved⟩ := moved
  exact ⟨receipt, after, guarded_eq_ok.mpr ⟨by simp, moved⟩⟩

end Steps

theorem zeros_hex : isHexText 64 (List.replicate 64 48) = true := by decide

/-- A scope and a token with the fewest bytes. -/
def demoScope : ApprovalScope where
  handoffSha256 := ⟨List.replicate 64 48, zeros_hex⟩
  handoffExpiresAt := 160
  jobId := str "job-demo"
  userId := str "user-demo"
  workerAgentId := str "worker-demo"
  riskTier := str "basic"
  policyVersion := str "policy-v1"
  texts_nonempty := by decide
  expires_pos := by decide

def demoToken : Bytes := List.replicate 32 0

end ApprovalStore

open ApprovalStore in
/-- The store after any calls, one call more, and any calls after it. What a
record of the store can become in one step is `Follows`: nothing, a granted record
where there was none, or the consumed or revoked successor of a granted record.
A record that is no longer granted stays for ever; a consumption is answered only
for a granted record of its token, with the same canonical scope and inside its
window; a grant only adds a record; a call that raises changes nothing. -/
theorem approval_store_lifecycle (interpreter : Interpreter) (earlier later : List Call)
    (made : Call) :
    let before := calls interpreter [] earlier
    let answer := (call interpreter before made).1
    let after := (call interpreter before made).2
    (∀ digest, Follows digest (before.lookup digest) (after.lookup digest)) ∧
      (∀ digest record, after.lookup digest = some record → record.state ≠ .granted →
        (calls interpreter after later).lookup digest = some record) ∧
      (∀ token scope now transaction reply, made = .consume token scope now transaction →
        answer = .ok reply → ∃ record bytes,
          before.lookup (Sha256.digest token) = some record ∧
          record.tokenDigest = Sha256.digest token ∧ record.state = .granted ∧
          canonical interpreter record.scope.toDict = .ok bytes ∧
          canonical interpreter scope.toDict = .ok bytes ∧
          record.issuedAt ≤ now ∧ now < record.expiresAt ∧
          record.expiresAt ≤ record.scope.handoffExpiresAt ∧
          record.expiresAt ≤ record.issuedAt + 600) ∧
      (∀ scope created now ttlSeconds token transaction reply,
        made = .grant scope created now ttlSeconds token transaction → answer = .ok reply →
        ∃ record, before.lookup record.tokenDigest = none ∧
          after = before ++ [(record.tokenDigest, record)]) ∧
      ∀ raised, answer = .error raised → after = before := by
  intro before answer after
  have sound : Sound before := sound_calls interpreter (fun _ _ found => by cases found) earlier
  refine ⟨call_follows interpreter before made, fun digest record found settled => ?_, ?_, ?_,
    fun raised => call_raised⟩
  · exact calls_settled interpreter found settled later
  · intro token scope now transaction reply same answered
    have performed := perform_of_call answered
    rw [same] at performed
    obtain ⟨⟨receipt, written⟩, consumed, _⟩ := bind_eq_ok.mp performed
    obtain ⟨record, _, found, key, open_, matched, started, running, _⟩ :=
      transition_eq_ok (guarded_eq_ok.mp consumed).2
    obtain ⟨bytes, left, right⟩ := scopeMatches_eq_ok matched
    have bounds := sound _ _ found
    exact ⟨record, bytes, found, key, open_, left, right, started, running rfl,
      bounds.expires_handoff, bounds.expires_ttl⟩
  · intro scope created now ttlSeconds token transaction reply same answered
    have performed := perform_of_call answered
    rw [same] at performed
    obtain ⟨⟨granted, written⟩, done, ends⟩ := bind_eq_ok.mp performed
    obtain ⟨record, free, added, _⟩ := grant_eq_ok done
    obtain ⟨_, rewritten⟩ := Prod.mk.inj (pure_eq_ok.mp ends)
    refine ⟨record, free, ?_⟩
    rw [← added, rewritten, ← same]

open ApprovalStore in
/-- A token granted at 100 is consumed at 110, and only once. -/
theorem approval_store_lifecycle_consumed : ∃ before after reply record,
    before = calls literalInterpreter [] [.grant demoScope true 100 600 (some demoToken) false] ∧
      call literalInterpreter before (.consume demoToken demoScope 110 false) =
        (.ok reply, after) ∧
      after.lookup (Sha256.digest demoToken) = some record ∧ record.state = .consumed ∧
      (call literalInterpreter after (.consume demoToken demoScope 111 false)).2.lookup
        (Sha256.digest demoToken) = some record := by
  have granting : ∃ granted record,
      grant literalInterpreter [] demoScope true 100 600 (some demoToken) false =
        .ok (granted, [(Sha256.digest demoToken, record)]) ∧
      record.toApprovalEntry =
        ⟨Sha256.digest demoToken, demoScope, 100, 160, .granted, 100, none⟩ :=
    grant_of_printable rfl (by decide) (by decide) (by decide) rfl rfl
  obtain ⟨granted, record, issued, entry⟩ := granting
  have before : calls literalInterpreter [] [.grant demoScope true 100 600 (some demoToken) false] =
      [(Sha256.digest demoToken, record)] := by
    simp only [calls, List.foldl_cons, List.foldl_nil, call, perform, issued]
    rfl
  have found : [(Sha256.digest demoToken, record)].lookup (Sha256.digest demoToken) =
      some record := List.lookup_cons_self
  have scope : record.scope = demoScope := by rw [entry]
  have key : record.tokenDigest = Sha256.digest demoToken := by rw [entry]
  have open_ : record.state = .granted := by rw [entry]
  have window : record.issuedAt ≤ 110 ∧ 110 < record.expiresAt := by rw [entry]; decide
  have printed : (ApprovalEntry.toDict { record.toApprovalEntry with
      state := .consumed
      changedAt := 110
      previousHash := some record.recordHash }).printable literalInterpreter = true := by
    rw [entry]
    rfl
  obtain ⟨receipt, after, consumed⟩ := consume_of_granted found key open_ window (by decide) rfl
    (by rw [scope]; rfl) printed
  rw [scope] at consumed
  obtain ⟨_, updated, _, _, _, _, _, _, successor, _, _, rfl⟩ :=
    transition_eq_ok (guarded_eq_ok.mp consumed).2
  have called : call literalInterpreter [(Sha256.digest demoToken, record)]
      (.consume demoToken demoScope 110 false) =
        (.ok (.changed receipt), Assoc.replace [(Sha256.digest demoToken, record)]
          (Sha256.digest demoToken) updated) := by
    rw [call, perform, consumed]
    rfl
  have settled : updated.state = .consumed := by rw [successor]
  have later : (Assoc.replace [(Sha256.digest demoToken, record)] (Sha256.digest demoToken)
      updated).lookup (Sha256.digest demoToken) = some updated := by
    rw [Assoc.lookup_replace, if_pos rfl, found]
    rfl
  have kept := (approval_store_lifecycle literalInterpreter
    [.grant demoScope true 100 600 (some demoToken) false]
    [.consume demoToken demoScope 111 false] (.consume demoToken demoScope 110 false)).2.1
  simp only [before, called] at kept
  refine ⟨_, _, _, updated, before.symm, called, later, settled, ?_⟩
  exact kept _ updated later (by rw [settled]; decide)

end GeniusNew
