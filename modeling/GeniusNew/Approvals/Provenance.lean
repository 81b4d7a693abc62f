import GeniusNew.Approvals.Admission
import GeniusNew.Approvals.Lifecycle

/-! # Scopes and the wires they come from

The store takes a scope only from `create_scope`, and a scope made from a wire holds
texts that JSON decoding returned, so two scopes with the same canonical text are
equal. What an admission does to a store is all it does or nothing: no check of the
permit refuses once the approval is consumed.
-/

namespace GeniusNew

open Json

/-- Values with the same canonical bytes are read back as one value. -/
theorem reread_of_canonical {interpreter : Interpreter} {left right : Value} {bytes : Bytes}
    (one : canonical interpreter left = .ok bytes) (two : canonical interpreter right = .ok bytes) :
    left.reread = right.reread := by
  obtain ⟨shallow, printed, same⟩ := canonical_eq_ok.mp one
  obtain ⟨shallower, prints, equal⟩ := canonical_eq_ok.mp two
  have texts : dumps left = dumps right := by
    apply Option.some.inj
    rw [← decodeAscii_canonicalBytes, ← decodeAscii_canonicalBytes, ← same, equal]
  have read := readText_dumps interpreter shallow printed
  rw [texts, readText_dumps interpreter shallower prints] at read
  exact (Except.ok.inj read).symm

section Validated

variable {interpreter : Interpreter} {presented : Presented} {verifier : HandoffVerifier}
  {wire : Option Bytes} {handoff : Handoff} {pending : Bool}

/-- A validated handoff has the texts that decoding returns. -/
theorem Validated.joined (validated : Validated interpreter wire presented verifier pending handoff) :
    ∀ field ∈ handoff.fields, field.2.decoded = field.2 := by
  obtain ⟨read, decoded, shaped⟩ := validated.read
  obtain ⟨data, rfl, short, unique, _⟩ := decodeWire_eq_ok decoded
  have agrees := ((handoffOf_eq_ok unique).mp shaped).2
  have encoded := canonical_handoff decoded shaped
  have again : decodeWire interpreter (some data) handoffKeys "handoff" = .ok _ :=
    decodeWire_canonical (tidy_fields handoff) (floatless_fields handoff)
      ((depth_fields handoff).trans_le (by decide)) (hasKeys_fields handoff) encoded short
  have same := Except.ok.inj (decoded.symm.trans again)
  rw [same] at agrees
  intro field member
  have stands := agrees field member
  have decodes := agrees_decoded (nodup_keys_fields handoff) (field.1, field.2.decoded)
    (List.mem_map.mpr ⟨field, member, rfl⟩)
  exact decodes.symm.trans stands

end Validated

namespace ApprovalScope

/-- Scopes with the same fields are equal. -/
theorem eq_of_toDict {left right : ApprovalScope} (same : left.toDict = right.toDict) :
    left = right := by
  have equal := Value.dict.inj same
  cases left
  cases right
  simp only [fields, List.cons.injEq, Prod.mk.injEq, Value.int.injEq, Value.str.injEq, true_and,
    and_true] at equal
  obtain ⟨expires, hash, job, version, tier, user, worker⟩ := equal
  obtain rfl := Subtype.ext hash
  subst expires job version tier user worker
  rfl

/-- A scope whose texts decoding returns. -/
def Joined (scope : ApprovalScope) : Prop :=
  ∀ text ∈ [scope.jobId, scope.userId, scope.workerAgentId, scope.riskTier, scope.policyVersion],
    joinSurrogates text = text

def sortedKeys : List Str :=
  [str "action", str "handoff_expires_at", str "handoff_sha256", str "job_id",
    str "policy_version", str "risk_tier", str "user_id", str "worker_agent_id"]

theorem keys_fields (scope : ApprovalScope) : keys scope.fields = sortedKeys := rfl

theorem sortKeys_fields (scope : ApprovalScope) : sortKeys scope.fields = scope.fields := by
  have sorted : sortedKeys.Pairwise fun a b => keyLe a b = true := by decide
  rw [← keys_fields scope] at sorted
  exact sortKeys_of_sorted (List.pairwise_map.mp sorted)

theorem tidy_toDict (scope : ApprovalScope) : scope.toDict.tidy = true := by
  have distinct : sortedKeys.Nodup := by decide
  have plain : ∀ key ∈ sortedKeys, joinSurrogates key = key := by decide
  refine Value.tidy_dict.mpr ⟨distinct, plain, ?_⟩
  simp only [fields, List.forall_mem_cons, List.not_mem_nil, false_implies, implies_true, and_true]
  exact ⟨rfl, rfl, rfl, rfl, rfl, rfl, rfl, rfl⟩

/-- Such a scope is read back as it is. -/
theorem Joined.reread {scope : ApprovalScope} (plain : scope.Joined) :
    scope.toDict.reread = scope.toDict := by
  obtain ⟨distinct, named, _⟩ := Value.tidy_dict.mp scope.tidy_toDict
  have action : joinSurrogates executeHandoff = executeHandoff := by decide
  have hash := joinSurrogates_of_isHexText scope.handoffSha256.property
  simp only [Joined, List.forall_mem_cons, List.not_mem_nil, false_implies, implies_true,
    and_true] at plain
  obtain ⟨job, user, worker, tier, version⟩ := plain
  have same : scope.fields.map (fun field => (field.1, field.2.decoded)) = scope.fields := by
    simp only [fields, List.map_cons, List.map_nil, Value.decoded_str, Value.decoded_int, action,
      hash, job, user, worker, tier, version]
  rw [reread_of_tidy scope.tidy_toDict, toDict, Value.decoded_dict_of_keys distinct named,
    sortKeys_fields, same]

/-- Scopes of such texts match exactly when they are equal. -/
theorem eq_of_scopeMatches {interpreter : Interpreter} {left right : ApprovalScope}
    (one : left.Joined) (two : right.Joined)
    (matched : scopeMatches interpreter left right = .ok true) : left = right := by
  obtain ⟨bytes, first, second⟩ := ApprovalStore.scopeMatches_eq_ok matched
  have same := reread_of_canonical first second
  rw [one.reread, two.reread] at same
  exact eq_of_toDict same

end ApprovalScope

section Scoped

variable {interpreter : Interpreter} {presented : Presented} {verifier : HandoffVerifier}
  {wire : Option Bytes} {handoff : Handoff} {scope : ApprovalScope}

theorem string_str_eq_ok {text read : Str} {field : String} :
    string (.str text) field = .ok read ↔ text = read ∧ read ≠ [] := by
  rw [string_eq_ok, Value.str.injEq]

theorem dependent_guard_eq_ok {α : Type} {condition : Prop} [Decidable condition]
    {raised : Raised} {next : condition → Outcome α} {result : α} :
    (if holds : condition then next holds else .error raised) = .ok result ↔
      ∃ holds, next holds = .ok result := by
  by_cases holds : condition
  · simp [holds]
  · simp [holds]

/-- The scope of a handoff says what the handoff says. -/
theorem scope_eq_ok (made : handoff.scope = .ok scope) :
    scope.handoffSha256 = sha256 handoff.toBytes ∧ scope.handoffExpiresAt = handoff.expiresAt ∧
      scope.jobId = handoff.jobId ∧ scope.userId = handoff.userId ∧
      scope.workerAgentId = handoff.workerAgentId ∧ scope.riskTier = handoff.tier ∧
      scope.policyVersion = handoff.policyVersion := by
  unfold Handoff.scope ApprovalScope.ofArguments at made
  simp only [bind_eq_ok, string_str_eq_ok, fail, dependent_guard_eq_ok] at made
  obtain ⟨hash, ⟨rfl, _⟩, job, ⟨rfl, _⟩, user, ⟨rfl, _⟩, worker, ⟨rfl, _⟩, tier, ⟨rfl, _⟩, version,
    ⟨rfl, _⟩, action, _, expires, whole, _, _, made⟩ := made
  obtain rfl := Value.int.inj (integer_eq_ok.mp whole)
  obtain ⟨_, made⟩ := guarded_eq_ok.mp made
  obtain ⟨_, made⟩ := dependent_guard_eq_ok.mp made
  obtain rfl := pure_eq_ok.mp made
  exact ⟨rfl, rfl, rfl, rfl, rfl, rfl, rfl⟩

theorem createScope_eq_ok : createScope interpreter wire presented verifier = .ok scope ↔
    ∃ handoff, validatePending interpreter wire presented verifier = .ok handoff ∧
      handoff.scope = .ok scope := bind_eq_ok

theorem createScope_joined (made : createScope interpreter wire presented verifier = .ok scope) :
    scope.Joined := by
  obtain ⟨handoff, validated, describes⟩ := createScope_eq_ok.mp made
  have plain := (validatePending_validated validated).joined
  obtain ⟨_, _, job, user, worker, tier, version⟩ := scope_eq_ok describes
  simp only [Handoff.fields, Handoff.bodyFields, List.cons_append, List.nil_append,
    List.forall_mem_cons, Value.decoded_str, Value.str.injEq] at plain
  obtain ⟨_, jobs, users, _, workers, tiers, _, _, _, versions, _⟩ := plain
  rw [ApprovalScope.Joined, job, user, worker, tier, version]
  simp only [List.forall_mem_cons, List.not_mem_nil, false_implies, implies_true, and_true]
  exact ⟨jobs, users, workers, tiers, versions⟩

end Scoped

namespace ApprovalStore

section Reached

variable {interpreter : Interpreter} {records after : Records}

/-- What only `create_scope` makes. -/
def Created (interpreter : Interpreter) (scope : ApprovalScope) : Prop :=
  ∃ wire presented verifier, createScope interpreter wire presented verifier = .ok scope

theorem Created.joined {scope : ApprovalScope} (created : Created interpreter scope) :
    scope.Joined := by
  obtain ⟨_, _, _, made⟩ := created
  exact createScope_joined made

/-- A scope with the origin of `create_scope` was made by it. -/
def Call.Honest (interpreter : Interpreter) : Call → Prop
  | .grant scope created _ _ _ _ => created = true → Created interpreter scope
  | _ => True

/-- The states of a process-local store. -/
def Reached (interpreter : Interpreter) (records : Records) : Prop :=
  ∃ made : List Call, (∀ call ∈ made, call.Honest interpreter) ∧ calls interpreter [] made = records

/-- What every record of such a state is: of a scope that `create_scope` made, under
the digest of its token, and with the hash of what it says. -/
def Genuine (interpreter : Interpreter) (records : Records) : Prop :=
  ∀ digest record, records.lookup digest = some record → Created interpreter record.scope ∧
    record.tokenDigest = digest ∧ Sealed interpreter record

theorem transition_genuine {token : Bytes} {scope : ApprovalScope} {now : Int}
    {state : ApprovalState} {requireUnexpired : Bool} {receipt : ApprovalReceipt}
    (genuine : Genuine interpreter records)
    (accepted : transition interpreter records token scope now state requireUnexpired =
      .ok (receipt, after)) : Genuine interpreter after := by
  obtain ⟨record, updated, found, _, _, _, _, _, entry, kept, _, rfl⟩ := transition_eq_ok accepted
  intro digest current present
  rw [Assoc.lookup_replace] at present
  by_cases same : digest = Sha256.digest token
  · rw [if_pos same, found] at present
    obtain rfl := Option.some.inj present
    obtain ⟨created, key, _⟩ := genuine _ _ found
    refine ⟨?_, ?_, kept⟩
    · rw [entry]
      exact created
    · rw [entry, same]
      exact key
  · rw [if_neg same] at present
    exact genuine _ _ present

theorem perform_genuine {made : Call} {answer : Answer} (genuine : Genuine interpreter records)
    (honest : made.Honest interpreter)
    (accepted : perform interpreter records made = .ok (answer, after)) :
    Genuine interpreter after := by
  cases made with
  | grant scope created now ttlSeconds source transaction =>
      obtain ⟨⟨granted, written⟩, done, ends⟩ := bind_eq_ok.mp accepted
      obtain ⟨_, rfl⟩ := Prod.mk.inj (pure_eq_ok.mp ends)
      obtain ⟨own, _, _, _, record, free, rfl, _, entry, kept⟩ := grant_stores done
      intro digest current present
      rw [Assoc.lookup_concat free] at present
      by_cases same : digest = Sha256.digest granted.token
      · rw [if_pos same] at present
        obtain rfl := Option.some.inj present
        refine ⟨?_, ?_, kept⟩
        · rw [entry]
          exact honest own
        · rw [entry, same]
      · rw [if_neg same] at present
        exact genuine _ _ present
  | consume token scope now transaction =>
      obtain ⟨⟨receipt, written⟩, done, ends⟩ := bind_eq_ok.mp accepted
      obtain ⟨_, rfl⟩ := Prod.mk.inj (pure_eq_ok.mp ends)
      exact transition_genuine genuine (guarded_eq_ok.mp done).2
  | revoke token scope now transaction =>
      obtain ⟨⟨receipt, written⟩, done, ends⟩ := bind_eq_ok.mp accepted
      obtain ⟨_, rfl⟩ := Prod.mk.inj (pure_eq_ok.mp ends)
      exact transition_genuine genuine (guarded_eq_ok.mp done).2

theorem call_genuine {made : Call} (genuine : Genuine interpreter records)
    (honest : made.Honest interpreter) : Genuine interpreter (call interpreter records made).2 := by
  unfold call
  split
  · next performed => exact perform_genuine genuine honest performed
  · exact genuine

theorem Reached.genuine (reached : Reached interpreter records) : Genuine interpreter records := by
  obtain ⟨made, honest, rfl⟩ := reached
  have run : ∀ (made : List Call) (records : Records), Genuine interpreter records →
      (∀ call ∈ made, call.Honest interpreter) → Genuine interpreter (calls interpreter records made) := by
    intro made
    induction made with
    | nil => exact fun records genuine _ => genuine
    | cons first rest ih =>
        intro records genuine honest
        exact ih _ (call_genuine genuine (honest first List.mem_cons_self))
          fun call member => honest call (List.mem_cons_of_mem _ member)
  exact run made [] (fun _ _ found => nomatch found) honest

/-- Exactly the record of a token moved from granted to consumed, with its scope. -/
structure Spends (records after : Records) (token : Bytes) (scope : ApprovalScope) (now : Int)
    (updated : ApprovalRecord) : Prop where
  granted : ∃ record : ApprovalRecord, records.lookup (Sha256.digest token) = some record ∧
    record.state = .granted ∧ record.scope = scope ∧
    updated.toApprovalEntry = { record.toApprovalEntry with
      state := .consumed
      changedAt := now
      previousHash := some record.recordHash }
  consumed : after.lookup (Sha256.digest token) = some updated
  others : ∀ digest, digest ≠ Sha256.digest token → after.lookup digest = records.lookup digest

theorem consume_spends {token : Bytes} {scope : ApprovalScope} {now : Int} {transaction : Bool}
    {receipt : ApprovalReceipt} (genuine : Genuine interpreter records) (plain : scope.Joined)
    (accepted : consume interpreter records token scope now transaction = .ok (receipt, after)) :
    ∃ updated, Spends records after token scope now updated ∧
      receipt.recordHash = updated.recordHash := by
  obtain ⟨record, updated, found, _, open_, matched, _, _, entry, _, rfl, rfl⟩ :=
    transition_eq_ok (guarded_eq_ok.mp accepted).2
  have same := ApprovalScope.eq_of_scopeMatches (genuine _ _ found).1.joined plain matched
  refine ⟨updated, ⟨⟨record, found, open_, same, entry⟩, ?_, fun digest other => ?_⟩, rfl⟩
  · rw [Assoc.lookup_replace, if_pos rfl, found]
    rfl
  · rw [Assoc.lookup_replace, if_neg other]

theorem scope_printable {scope : ApprovalScope}
    (expires : (Value.int scope.handoffExpiresAt).printable interpreter = true) :
    scope.toDict.printable interpreter = true := by
  rw [ApprovalScope.toDict, Value.printable, Value.printableFields_iff]
  simp only [ApprovalScope.fields, List.forall_mem_cons, List.not_mem_nil, false_implies,
    implies_true, and_true]
  exact ⟨rfl, expires, rfl, rfl, rfl, rfl, rfl, rfl⟩

/-- An entry is printed exactly when its times are. -/
theorem entry_printable {entry : ApprovalEntry} : entry.toDict.printable interpreter = true ↔
    ∀ time ∈ [entry.changedAt, entry.expiresAt, entry.issuedAt, entry.scope.handoffExpiresAt],
      (Value.int time).printable interpreter = true := by
  have previous : ((entry.previousHash.map fun hash => Value.str hash.val).getD .null).printable
      interpreter = true := by
    cases entry.previousHash with
    | none => rfl
    | some hash => rfl
  rw [ApprovalEntry.toDict, Value.printable, Value.printableFields_iff]
  simp only [List.forall_mem_cons, List.not_mem_nil, false_implies, implies_true, and_true]
  constructor
  · rintro ⟨changed, expires, issued, _, scope, _, _⟩
    rw [ApprovalScope.toDict, Value.printable, Value.printableFields_iff] at scope
    simp only [ApprovalScope.fields, List.forall_mem_cons] at scope
    exact ⟨changed, expires, issued, scope.2.1⟩
  · rintro ⟨changed, expires, issued, scope⟩
    exact ⟨changed, expires, issued, previous, scope_printable scope, rfl, rfl⟩

/-- What a consumption takes: a granted record of the token, for the same scope and
inside its window. -/
theorem consume_answers_iff {token : Bytes} {scope : ApprovalScope} {now : Int}
    (genuine : Genuine interpreter records) (plain : scope.Joined)
    (printed : (Value.int now).printable interpreter = true) :
    (∃ receipt after, consume interpreter records token scope now false = .ok (receipt, after)) ↔
      ∃ record, tokenBytes ≤ token.length ∧
        records.lookup (Sha256.digest token) = some record ∧ record.state = .granted ∧
        record.scope = scope ∧ record.issuedAt ≤ now ∧ now < record.expiresAt := by
  constructor
  · rintro ⟨receipt, after, consumed⟩
    have moved := (guarded_eq_ok.mp consumed).2
    have long : tokenBytes ≤ token.length := by
      unfold transition at moved
      exact not_lt.mp (guarded_eq_ok.mp moved).1
    obtain ⟨record, _, found, _, open_, matched, started, running, _⟩ := transition_eq_ok moved
    have same := ApprovalScope.eq_of_scopeMatches (genuine _ _ found).1.joined plain matched
    exact ⟨record, long, found, open_, same, started, running rfl⟩
  · rintro ⟨record, long, found, open_, rfl, window⟩
    obtain ⟨_, key, kept⟩ := genuine _ _ found
    have times := entry_printable.mp kept.printable
    simp only [List.forall_mem_cons] at times
    obtain ⟨_, expires, issued, scope, _⟩ := times
    refine consume_of_granted found key open_ window long rfl (scope_printable scope)
      (entry_printable.mpr ?_)
    simp only [List.forall_mem_cons, List.not_mem_nil, false_implies, implies_true, and_true]
    exact ⟨printed, expires, issued, scope⟩

/-- A consumption changes the store. -/
theorem consume_ne {token : Bytes} {scope : ApprovalScope} {now : Int} {transaction : Bool}
    {receipt : ApprovalReceipt}
    (accepted : consume interpreter records token scope now transaction = .ok (receipt, after)) :
    after ≠ records := by
  obtain ⟨record, updated, found, _, open_, _, _, _, entry, _, _, rfl⟩ :=
    transition_eq_ok (guarded_eq_ok.mp accepted).2
  intro same
  have moved := Assoc.lookup_replace records (Sha256.digest token) (Sha256.digest token) updated
  rw [same, if_pos rfl, found] at moved
  obtain rfl := Option.some.inj moved
  rw [entry] at open_
  cases open_

end Reached

end ApprovalStore

section Admission

variable {interpreter : Interpreter} {presented : Presented} {gateway : Gateway}
  {wire token : Option Bytes} {handoff : Handoff} {records after : ApprovalStore.Records}
  {transaction : Bool}

/-- The permit of a validated handoff is never refused. -/
theorem permit_of_validated {pending : Bool} (approval : Option Digest)
    (validated : Validated interpreter wire presented gateway.handoffVerifier pending handoff) :
    ∃ permit, gateway.permit handoff presented.now approval = .ok permit :=
  ⟨_, permit_eq_ok.mpr ⟨_, handoffDigest_eq_ok.mpr ⟨validated.hashed, rfl⟩, validated.current, rfl⟩⟩

/-- Where the approval of the wire is consumed, a permit is returned. -/
theorem admission_of_consume {given : Bytes} {scope : ApprovalScope} {receipt : ApprovalReceipt}
    (validated : validatePending interpreter wire presented gateway.handoffVerifier = .ok handoff)
    (made : createScope interpreter wire presented gateway.handoffVerifier = .ok scope)
    (consumed : ApprovalStore.consume interpreter records given scope presented.now transaction =
      .ok (receipt, after)) :
    ∃ permit, permit.handoff = handoff ∧
      gateway.admission interpreter wire presented (some given) transaction records =
        (.ok permit, after) := by
  have sound := validatePending_validated validated
  obtain ⟨grant, found, _, required⟩ := sound.granted
  obtain ⟨permit, minted⟩ := permit_of_validated (some receipt.recordHash) sound
  have pending : gateway.pendingHandoff interpreter wire presented = .ok (handoff, scope) :=
    bind_eq_ok.mpr ⟨_, rejecting_eq_ok.mpr validated, bind_eq_ok.mpr
      ⟨_, rejecting_eq_ok.mpr made, rfl⟩⟩
  obtain ⟨_, _, _, same⟩ := permit_eq_ok.mp minted
  refine ⟨permit, by rw [same], ?_⟩
  unfold Gateway.admission
  rw [rejecting_eq_ok.mpr found]
  dsimp only
  rw [if_pos required, pending]
  dsimp only
  rw [rejecting_eq_ok.mpr consumed]
  exact Prod.ext minted rfl

/-- An admission that raises leaves the store as it was. -/
theorem admission_raised {refusal : GatewayRaised}
    (answer : gateway.admission interpreter wire presented token transaction records =
      (.error refusal, after)) : after = records := by
  unfold Gateway.admission at answer
  split at answer
  · exact (Prod.mk.inj answer).2.symm
  split_ifs at answer
  · split at answer
    · exact (Prod.mk.inj answer).2.symm
    split at answer
    · exact (Prod.mk.inj answer).2.symm
    next given _ handoff scope pending =>
      split at answer
      · exact (Prod.mk.inj answer).2.symm
      next receipt left consumed =>
        obtain ⟨read, validated, rest⟩ := bind_eq_ok.mp pending
        obtain ⟨_, _, same⟩ := bind_eq_ok.mp rest
        obtain ⟨rfl, _⟩ := Prod.mk.inj (Except.ok.inj same)
        have current := validatePending_validated (rejecting_eq_ok.mp validated)
        obtain ⟨permit, minted⟩ := permit_of_validated (some receipt.recordHash) current
        rw [minted] at answer
        cases (Prod.mk.inj answer).1
  · split at answer
    · exact (Prod.mk.inj answer).2.symm
    · exact (Prod.mk.inj answer).2.symm

/-- What a granted admission did: the permit carries the hash of the record it
consumed, or no hash where the grant requires no approval. -/
structure Admits (interpreter : Interpreter) (gateway : Gateway) (wire : Option Bytes)
    (presented : Presented) (token : Option Bytes) (records : ApprovalStore.Records)
    (permit : DispatchPermit) (after : ApprovalStore.Records) : Prop where
  encoded : ∃ data, wire = some data ∧ canonical interpreter permit.handoff.toDict = .ok data
  current : permit.handoff.issuedAt ≤ presented.now ∧ presented.now < permit.handoff.expiresAt
  spent : ∀ grant, presented.policy.grantFor presented.subject = .ok grant →
    grant.requiresApproval = true → ∃ given scope updated, token = some given ∧
      createScope interpreter wire presented gateway.handoffVerifier = .ok scope ∧
      ApprovalStore.Spends records after given scope presented.now updated ∧
      permit.approvalRecordHash = some updated.recordHash
  free : ∀ grant, presented.policy.grantFor presented.subject = .ok grant →
    grant.requiresApproval = false → after = records ∧ permit.approvalRecordHash = none

theorem Admitted.admits {permit : DispatchPermit}
    (genuine : ApprovalStore.Genuine interpreter records)
    (admitted : Admitted interpreter gateway wire presented transaction records token permit after) :
    Admits interpreter gateway wire presented token records permit after := by
  cases admitted with
  | free validated =>
      obtain ⟨grant, found, _, free⟩ := validated.granted
      refine ⟨validated.encoded, validated.current, fun other again required => ?_,
        fun _ _ _ => ⟨rfl, rfl⟩⟩
      obtain rfl := Except.ok.inj (found.symm.trans again)
      rw [free] at required
      cases required
  | approved validated scopes consumed =>
      obtain ⟨grant, found, _, required⟩ := validated.granted
      obtain ⟨updated, spends, hash⟩ :=
        ApprovalStore.consume_spends genuine (createScope_joined scopes) consumed
      refine ⟨validated.encoded, validated.current,
        fun _ _ _ => ⟨_, _, updated, rfl, scopes, spends, congrArg some hash⟩,
        fun other again free => ?_⟩
      obtain rfl := Except.ok.inj (found.symm.trans again)
      rw [required] at free
      cases free

/-- Admission is all or nothing, in every state of the approval store. -/
theorem admission_all_or_nothing (interpreter : Interpreter) (gateway : Gateway)
    (wire : Option Bytes) (presented : Presented) (token : Option Bytes) (transaction : Bool)
    (records after : ApprovalStore.Records) (answer : Except GatewayRaised DispatchPermit)
    (reached : ApprovalStore.Reached interpreter records)
    (admission : gateway.admission interpreter wire presented token transaction records =
      (answer, after)) :
    match answer with
    | .error _ => after = records
    | .ok permit => Admits interpreter gateway wire presented token records permit after := by
  cases answer with
  | error refusal => exact admission_raised admission
  | ok permit => exact (admission_admitted admission).admits reached.genuine

end Admission

section Instance

open ApprovalStore

variable {interpreter : Interpreter}

/-- A handoff with texts has a scope. -/
theorem scope_of_texts {handoff : Handoff} (expires : 0 < handoff.expiresAt)
    (texts : handoff.jobId ≠ [] ∧ handoff.userId ≠ [] ∧ handoff.workerAgentId ≠ [] ∧
      handoff.tier ≠ [] ∧ handoff.policyVersion ≠ []) : ∃ scope, handoff.scope = .ok scope := by
  have read {text : Str} (nonempty : text ≠ []) (field : String) :
      string (.str text) field = .ok text := string_str_eq_ok.mpr ⟨rfl, nonempty⟩
  obtain ⟨job, user, worker, tier, version⟩ := texts
  have hexadecimal := (sha256 handoff.toBytes).property
  have nonempty : (sha256 handoff.toBytes).val ≠ [] := by
    intro empty
    rw [empty] at hexadecimal
    exact absurd hexadecimal (by decide)
  have whole : integer (.int handoff.expiresAt) "handoff_expires_at" = .ok handoff.expiresAt := rfl
  unfold Handoff.scope ApprovalScope.ofArguments
  simp only [read nonempty, read job, read user, read worker, read tier, read version,
    read (by decide : executeHandoff ≠ []), whole, bind, Except.bind, pure, Except.pure, expires,
    hexadecimal, dite_true, ne_eq, not_true_eq_false, if_false]
  exact ⟨_, dif_pos ⟨job, user, worker, tier, version⟩⟩

/-- A time at which the demo job is issued. -/
structure DemoTime (time : Int) : Prop where
  issued : issue literalInterpreter (payloadDict (str "Example text"))
    (demoPresented true time) digestSigner = .ok (demoIssued true time).toBytes
  positive : 0 < time + 60
  printed : ∀ later ∈ [time, time + 10, time + 30, time + 60],
    (Value.int later).printable literalInterpreter = true

theorem demoTime_early : DemoTime 100 := ⟨issue_demo true, by decide, by decide⟩

theorem demoTime_late : DemoTime lateTime := ⟨issue_late, by decide, by decide⟩

variable {time : Int} {scope : ApprovalScope}

/-- The scope of the waiting handoff. -/
theorem DemoTime.createScope (demo : DemoTime time) : ∃ scope : ApprovalScope,
    scope.handoffExpiresAt = time + 60 ∧ ∀ now : Int, time ≤ now → now < time + 60 →
      createScope literalInterpreter (some (demoIssued true time).toBytes) (demoPresented true now)
        digestSigner.verifier = .ok scope := by
  have texts : (demoIssued true time).jobId ≠ [] ∧ (demoIssued true time).userId ≠ [] ∧
      (demoIssued true time).workerAgentId ≠ [] ∧ (demoIssued true time).tier ≠ [] ∧
      (demoIssued true time).policyVersion ≠ [] :=
    ⟨List.cons_ne_nil _ _, List.cons_ne_nil _ _, List.cons_ne_nil _ _, List.cons_ne_nil _ _,
      List.cons_ne_nil _ _⟩
  have expires : 0 < (demoIssued true time).expiresAt := demo.positive
  obtain ⟨scope, made⟩ := scope_of_texts expires texts
  exact ⟨scope, (scope_eq_ok made).2.1, fun now started running =>
    createScope_eq_ok.mpr ⟨_, validatePending_issued started running demo.issued, made⟩⟩

/-- It is granted at once for thirty seconds. -/
theorem DemoTime.grant (demo : DemoTime time) (expires : scope.handoffExpiresAt = time + 60) :
    ∃ granted record, grant literalInterpreter [] scope true time 30 (some demoToken) false =
        .ok (granted, [(Sha256.digest demoToken, record)]) ∧
      record.toApprovalEntry =
        ⟨Sha256.digest demoToken, scope, time, time + 30, .granted, time, none⟩ := by
  have clipped : time + 30 = min (time + 30) scope.handoffExpiresAt := by omega
  have early : time < scope.handoffExpiresAt := by omega
  have printed := demo.printed
  simp only [List.forall_mem_cons, List.not_mem_nil, false_implies, implies_true,
    and_true] at printed
  obtain ⟨now, _, half, whole⟩ := printed
  refine grant_of_printable ?_ (by decide) early (by decide) rfl (entry_printable.mpr ?_)
  · rw [← clipped]
  · simp only [List.forall_mem_cons, List.not_mem_nil, false_implies, implies_true, and_true]
    rw [expires]
    exact ⟨now, half, now, whole⟩

/-- And consumed ten seconds later. -/
theorem DemoTime.consume (demo : DemoTime time) {record : ApprovalRecord}
    (expires : scope.handoffExpiresAt = time + 60)
    (entry : record.toApprovalEntry =
      ⟨Sha256.digest demoToken, scope, time, time + 30, .granted, time, none⟩) :
    ∃ receipt after, consume literalInterpreter [(Sha256.digest demoToken, record)] demoToken scope
      (time + 10) false = .ok (receipt, after) := by
  have printed := demo.printed
  simp only [List.forall_mem_cons, List.not_mem_nil, false_implies, implies_true,
    and_true] at printed
  obtain ⟨now, later, half, whole⟩ := printed
  have found : [(Sha256.digest demoToken, record)].lookup (Sha256.digest demoToken) =
      some record := List.lookup_cons_self
  have same : record.scope = scope := by rw [entry]
  have key : record.tokenDigest = Sha256.digest demoToken := by rw [entry]
  have open_ : record.state = .granted := by rw [entry]
  have starts : record.issuedAt = time := by rw [entry]
  have ends : record.expiresAt = time + 30 := by rw [entry]
  have window : record.issuedAt ≤ time + 10 ∧ time + 10 < record.expiresAt := by omega
  have readable : record.scope.toDict.printable literalInterpreter = true := by
    apply scope_printable
    rw [same, expires]
    exact whole
  rw [← same]
  refine consume_of_granted found key open_ window (by decide) rfl readable (entry_printable.mpr ?_)
  simp only [List.forall_mem_cons, List.not_mem_nil, false_implies, implies_true, and_true]
  rw [same, expires, starts, ends]
  exact ⟨later, half, now, whole⟩

theorem reached_demo {granted : ApprovalGrant} {record : ApprovalRecord}
    (created : Created literalInterpreter scope)
    (issued : ApprovalStore.grant literalInterpreter [] scope true time 30 (some demoToken) false =
      .ok (granted, [(Sha256.digest demoToken, record)])) :
    Reached literalInterpreter [(Sha256.digest demoToken, record)] := by
  refine ⟨[.grant scope true time 30 (some demoToken) false], ?_, ?_⟩
  · rw [List.forall_mem_singleton]
    exact fun _ => created
  · simp only [calls, List.foldl_cons, List.foldl_nil, call, perform, issued]
    rfl

theorem DemoTime.admission (demo : DemoTime time) {records after : Records}
    {receipt : ApprovalReceipt}
    (created : GeniusNew.createScope literalInterpreter (some (demoIssued true time).toBytes)
      (demoPresented true (time + 10)) digestSigner.verifier = .ok scope)
    (consumed : ApprovalStore.consume literalInterpreter records demoToken scope (time + 10) false =
      .ok (receipt, after)) :
    ∃ permit, permit.handoff = demoIssued true time ∧
      demoGateway.admission literalInterpreter (some (demoIssued true time).toBytes)
        (demoPresented true (time + 10)) (some demoToken) false records = (.ok permit, after) := by
  have validated : validatePending literalInterpreter (some (demoIssued true time).toBytes)
      (demoPresented true (time + 10)) digestSigner.verifier = .ok (demoIssued true time) :=
    validatePending_issued (by omega) (by omega) demo.issued
  exact admission_of_consume validated created consumed

/-- The approval granted at 100 is spent by an admission at 110. -/
theorem admission_all_or_nothing_demo : ∃ records permit after,
    demoGateway.admission literalInterpreter (some (demoHandoff true).toBytes)
      (demoPresented true 110) (some demoToken) false records = (.ok permit, after) ∧
    Admits literalInterpreter demoGateway (some (demoHandoff true).toBytes)
      (demoPresented true 110) (some demoToken) records permit after := by
  obtain ⟨scope, expires, created⟩ := demoTime_early.createScope
  have made := created 110 (by decide) (by decide)
  obtain ⟨granted, record, issued, entry⟩ := demoTime_early.grant expires
  obtain ⟨receipt, after, consumed⟩ := demoTime_early.consume expires entry
  obtain ⟨permit, _, answer⟩ := demoTime_early.admission made consumed
  have origin : Created literalInterpreter scope := ⟨_, _, _, made⟩
  have reached := reached_demo origin issued
  exact ⟨_, permit, after, answer, admission_all_or_nothing _ _ _ _ _ _ _ _ _ reached answer⟩

end Instance

end GeniusNew
