import GeniusNew.Approvals.Provenance
import GeniusNew.Database.Stores

/-! # Stored approval records

A scope comes back from its canonical bytes with the surrogate pairs of its texts
joined, and scopes with the same canonical bytes come back as one. A row of
`approval_records` that reads as a record keeps reading as one when a successor takes
its columns over.
-/

namespace GeniusNew

open Json

/-- A text that UTF-8 can carry holds no surrogate, so none is joined. -/
theorem joinSurrogates_of_encodable {text : Str} (carried : (encodeUtf8 text).isSome = true) :
    joinSurrogates text = text := by
  induction text with
  | nil => rfl
  | cons c text ih =>
      rw [encodeUtf8] at carried
      cases rest : encodeUtf8 text with
      | none => simp [rest] at carried
      | some bytes =>
          have plain : isHighSurrogate c = false := by
            by_contra high
            simp only [isHighSurrogate, Bool.not_eq_false, Bool.and_eq_true,
              decide_eq_true_eq] at high
            have units : ¬ c.val < 0x80 ∧ ¬ c.val < 0x800 ∧ 0xd800 ≤ c.val ∧ c.val ≤ 0xdfff := by
              omega
            simp [rest, units] at carried
          rw [joinSurrogates_cons_of_not_high plain, ih (by rw [rest]; rfl)]

namespace ApprovalScope

/-- The scope as its canonical bytes are read back. -/
def joined (scope : ApprovalScope) : ApprovalScope where
  handoffSha256 := scope.handoffSha256
  handoffExpiresAt := scope.handoffExpiresAt
  jobId := joinSurrogates scope.jobId
  userId := joinSurrogates scope.userId
  workerAgentId := joinSurrogates scope.workerAgentId
  riskTier := joinSurrogates scope.riskTier
  policyVersion := joinSurrogates scope.policyVersion
  texts_nonempty := by
    obtain ⟨job, user, worker, tier, version⟩ := scope.texts_nonempty
    exact ⟨joinSurrogates_ne_nil job, joinSurrogates_ne_nil user, joinSurrogates_ne_nil worker,
      joinSurrogates_ne_nil tier, joinSurrogates_ne_nil version⟩
  expires_pos := scope.expires_pos

theorem joined_joined (scope : ApprovalScope) : scope.joined.joined = scope.joined := by
  simp only [joined, joinSurrogates_joinSurrogates]

theorem decoded_fields (scope : ApprovalScope) :
    scope.fields.map (fun field => (field.1, field.2.decoded)) = scope.joined.fields := by
  have action : joinSurrogates executeHandoff = executeHandoff := by decide
  have hash := joinSurrogates_of_isHexText scope.handoffSha256.property
  simp only [fields, joined, List.map_cons, List.map_nil, Value.decoded_str, Value.decoded_int,
    action, hash]

theorem decoded_toDict (scope : ApprovalScope) : scope.toDict.decoded = scope.joined.toDict := by
  obtain ⟨distinct, named, _⟩ := Value.tidy_dict.mp scope.tidy_toDict
  rw [toDict, Value.decoded_dict_of_keys distinct named, sortKeys_fields, decoded_fields, toDict]

theorem reread_toDict (scope : ApprovalScope) : scope.toDict.reread = scope.joined.toDict := by
  rw [reread_of_tidy scope.tidy_toDict, decoded_toDict]

variable {interpreter : Interpreter} {scope other : ApprovalScope} {raw : Bytes}

theorem canonical_joined (encoded : canonical interpreter scope.toDict = .ok raw) :
    canonical interpreter scope.joined.toDict = .ok raw := by
  obtain ⟨deep, printed, rfl⟩ := canonical_eq_ok.mp encoded
  rw [← decoded_toDict]
  refine canonical_eq_ok.mpr ⟨(Value.depth_decoded_le _).trans deep,
    Value.printable_decoded printed, ?_⟩
  rw [canonicalBytes, canonicalBytes, Value.dumps_decoded scope.tidy_toDict]

theorem joined_of_canonical (one : canonical interpreter scope.toDict = .ok raw)
    (two : canonical interpreter other.toDict = .ok raw) : scope.joined = other.joined := by
  have same := reread_of_canonical one two
  rw [reread_toDict, reread_toDict] at same
  exact eq_of_toDict same

/-- Scopes match exactly when they are read back as one. -/
theorem joined_of_scopeMatches (matched : scopeMatches interpreter scope other = .ok true) :
    scope.joined = other.joined := by
  obtain ⟨bytes, one, two⟩ := ApprovalStore.scopeMatches_eq_ok matched
  exact joined_of_canonical one two

end ApprovalScope

namespace Database

section Scopes

variable {interpreter : Interpreter} {scope : ApprovalScope} {raw : Bytes}

theorem ofArguments_fields (scope : ApprovalScope) :
    ApprovalScope.ofArguments (.str scope.handoffSha256.val) (.int scope.handoffExpiresAt)
      (.str scope.jobId) (.str scope.userId) (.str scope.workerAgentId) (.str scope.riskTier)
      (.str scope.policyVersion) (.str executeHandoff) = .ok scope := by
  obtain ⟨job, user, worker, tier, version⟩ := scope.texts_nonempty
  have read {text : Str} (nonempty : text ≠ []) (field : String) :
      string (.str text) field = .ok text := string_str_eq_ok.mpr ⟨rfl, nonempty⟩
  have hexadecimal := scope.handoffSha256.property
  have nonempty : scope.handoffSha256.val ≠ [] := by
    intro empty
    rw [empty] at hexadecimal
    exact absurd hexadecimal (by decide)
  have whole : integer (.int scope.handoffExpiresAt) "handoff_expires_at" =
      .ok scope.handoffExpiresAt := rfl
  unfold ApprovalScope.ofArguments
  simp only [read nonempty, read job, read user, read worker, read tier, read version,
    read (by decide : executeHandoff ≠ []), whole, bind, Except.bind, pure, Except.pure,
    scope.expires_pos, hexadecimal, dite_true, ne_eq, not_true_eq_false, if_false]
  exact dif_pos ⟨job, user, worker, tier, version⟩

/-- The fields that the canonical bytes of a scope decode to. -/
theorem decodeWire_scope (encoded : canonical interpreter scope.toDict = .ok raw)
    (short : raw.length ≤ maxWireBytes) :
    decodeWire interpreter (some raw) scopeKeys "approval scope" = .ok scope.joined.fields := by
  have exact_ : floatless scope.toDict = true := rfl
  have depth : scope.toDict.depth = 1 := by
    simp only [ApprovalScope.toDict, ApprovalScope.fields, Value.depth, Value.depthFields]
    rfl
  have named : hasKeys scope.fields scopeKeys = true := rfl
  have decoded : decodeWire interpreter (some raw) scopeKeys "approval scope" = .ok _ :=
    decodeWire_canonical scope.tidy_toDict exact_ (depth.trans_le (by decide)) named encoded short
  rwa [ApprovalScope.sortKeys_fields, ApprovalScope.decoded_fields] at decoded

/-- What `_insert` stores of a scope is read back. -/
theorem storedScope_canonical (encoded : canonical interpreter scope.toDict = .ok raw)
    (short : raw.length ≤ maxWireBytes) :
    storedScope interpreter (some raw) = .ok scope.joined := by
  unfold storedScope
  rw [decodeWire_scope encoded short]
  exact ofArguments_fields scope.joined

end Scopes

section Rows

variable {interpreter : Interpreter} {recordHash : Str} {row : ApprovalRow}
  {record : ApprovalRecord}

/-- What `_approval_record` checks of the times and the digest of an entry. -/
structure Lawful (entry : ApprovalEntry) : Prop where
  digest : isHexText 64 (hex entry.tokenDigest) = true
  issued : 1 ≤ entry.issuedAt
  lives : entry.issuedAt < entry.expiresAt
  within : entry.expiresAt ≤ entry.scope.handoffExpiresAt
  finite : entry.scope.handoffExpiresAt ≤ maxTime
  changed : entry.issuedAt ≤ entry.changedAt
  ends : entry.changedAt ≤ maxTime
  timely : entry.state = .consumed → entry.changedAt < entry.expiresAt

/-- A row holds a record. -/
structure Holds (interpreter : Interpreter) (recordHash : Str) (row : ApprovalRow)
    (record : ApprovalRecord) : Prop where
  columns : row = approvalRow record row.scope
  encoded : canonical interpreter record.scope.toDict = .ok row.scope
  short : row.scope.length ≤ maxWireBytes
  joined : record.scope.joined = record.scope
  seals : ApprovalStore.Sealed interpreter record
  named : record.recordHash.val = recordHash
  lawful : Lawful record.toApprovalEntry

theorem previousDigest_map (previous : Option Digest) :
    previousDigest (previous.map Subtype.val) = some previous := by
  cases previous with
  | none => rfl
  | some digest => exact dif_pos digest.property

theorem eq_of_previousDigest {column : Option Str} {previous : Option Digest}
    (read : previousDigest column = some previous) : column = previous.map Subtype.val := by
  cases column with
  | none =>
      obtain rfl := Option.some.inj read
      rfl
  | some text =>
      unfold previousDigest at read
      dsimp only at read
      split at read
      · obtain rfl := Option.some.inj read
        rfl
      · cases read

/-- What `_new_grant` mints. -/
theorem newGrant_eq_ok {scope : ApprovalScope} {created : Bool} {now ttlSeconds : Int}
    {drawn : Option Bytes} {token : Bytes}
    (minted : ApprovalStore.newGrant interpreter scope created now ttlSeconds drawn =
      .ok (token, record)) :
    created = true ∧ (0 < ttlSeconds ∧ ttlSeconds ≤ maxApprovalTtlSeconds) ∧
      now < scope.handoffExpiresAt ∧ drawn = some token ∧ tokenBytes ≤ token.length ∧
      record.toApprovalEntry = ⟨Sha256.digest token, scope, now,
        min (now + ttlSeconds) scope.handoffExpiresAt, .granted, now, none⟩ ∧
      ApprovalStore.Sealed interpreter record := by
  unfold ApprovalStore.newGrant at minted
  obtain ⟨own, minted⟩ := guarded_eq_ok.mp minted
  obtain ⟨bounds, minted⟩ := guarded_eq_ok.mp minted
  obtain ⟨early, minted⟩ := guarded_eq_ok.mp minted
  split at minted
  · exact (fail_ne_ok minted).elim
  obtain ⟨long, minted⟩ := guarded_eq_ok.mp minted
  obtain ⟨made, written, minted⟩ := bind_eq_ok.mp minted
  obtain ⟨rfl, rfl⟩ := Prod.mk.inj (pure_eq_ok.mp minted)
  rw [not_or, not_le, not_lt] at bounds
  exact ⟨by simpa using own, bounds, not_le.mp early, rfl, not_lt.mp long,
    ApprovalStore.record_eq_ok written, ApprovalStore.sealed_of_record written⟩

/-- What a row reads as is what it holds. -/
theorem holds_of_approvalRecord {scope : ApprovalScope}
    (encoded : canonical interpreter scope.toDict = .ok row.scope)
    (short : row.scope.length ≤ maxWireBytes)
    (read : approvalRecord interpreter recordHash row (some row.scope) = .ok record) :
    Holds interpreter recordHash row record ∧ record.scope = scope.joined := by
  unfold approvalRecord at read
  dsimp only at read
  obtain ⟨stored, decoded, read⟩ := bind_eq_ok.mp read
  obtain rfl := Except.ok.inj (decoded.symm.trans (storedScope_canonical encoded short))
  split at read
  · exact (fail_ne_ok read).elim
  next previous link =>
    obtain ⟨made, recorded, read⟩ := bind_eq_ok.mp read
    obtain ⟨passed, read⟩ := guarded_eq_ok.mp read
    obtain rfl := pure_eq_ok.mp read
    have entry := ApprovalStore.record_eq_ok recorded
    obtain ⟨digest, issued, lives, within, finite, changed, ends, timely, named⟩ :=
      not_not.mp passed
    have token := hex_fromHex (show isHexText (2 * 32) row.tokenDigest = true from digest)
    have columns : row = approvalRow made row.scope := by
      rw [approvalRow, entry]
      dsimp only
      rw [token, ← eq_of_previousDigest link]
    have taken : made.scope = scope.joined := by rw [entry]
    refine ⟨⟨columns, ?_, short, ?_, ApprovalStore.sealed_of_record recorded, named, ?_⟩, taken⟩
    · rw [taken]
      exact ApprovalScope.canonical_joined encoded
    · rw [taken, ApprovalScope.joined_joined]
    · rw [entry]
      exact ⟨by rw [token]; exact digest, issued, lives, within, finite, changed, ends, timely⟩

theorem approvalRecord_named {selected : Option Bytes}
    (read : approvalRecord interpreter recordHash row selected = .ok record) :
    record.recordHash.val = recordHash := by
  unfold approvalRecord at read
  split at read
  · exact (fail_ne_ok read).elim
  obtain ⟨stored, _, read⟩ := bind_eq_ok.mp read
  split at read
  · exact (fail_ne_ok read).elim
  obtain ⟨made, _, read⟩ := bind_eq_ok.mp read
  obtain ⟨passed, read⟩ := guarded_eq_ok.mp read
  obtain rfl := pure_eq_ok.mp read
  obtain ⟨_, _, _, _, _, _, _, _, named⟩ := not_not.mp passed
  exact named

theorem bounded_of_short {column : Bytes} (short : column.length ≤ maxWireBytes) :
    bounded column = some column := if_pos short

/-- And what a row holds is what it reads as. -/
theorem Holds.read (holds : Holds interpreter recordHash row record) :
    approvalRecord interpreter recordHash row (bounded row.scope) = .ok record := by
  have stored := storedScope_canonical holds.encoded holds.short
  rw [holds.joined] at stored
  have lawful := holds.lawful
  have seals := holds.seals
  rw [bounded_of_short holds.short, approvalRecord, stored]
  rw [holds.columns]
  simp only [approvalRow, bind, Except.bind, previousDigest_map, fromHex_hex]
  rw [ApprovalStore.Sealed] at seals
  rw [seals]
  exact if_neg (not_not.mpr ⟨lawful.digest, lawful.issued, lawful.lives, lawful.within,
    lawful.finite, lawful.changed, lawful.ends, lawful.timely, holds.named⟩)

theorem Holds.unique {other : ApprovalRecord} (one : Holds interpreter recordHash row record)
    (two : Holds interpreter recordHash row other) : record = other :=
  Except.ok.inj (one.read.symm.trans two.read)

/-- The successor of a granted record takes its columns over. -/
theorem Holds.succeeds {updated : ApprovalRecord} {state : ApprovalState} {now : Int} {raw : Bytes}
    (holds : Holds interpreter recordHash row record)
    (recorded : ApprovalEntry.record interpreter { record.toApprovalEntry with
      state
      changedAt := now
      previousHash := some record.recordHash } = .ok updated)
    (encoded : canonical interpreter updated.scope.toDict = .ok raw)
    (timed : record.issuedAt ≤ now ∧ now ≤ maxTime)
    (timely : state = .consumed → now < record.expiresAt) :
    approvalRow updated raw =
        { row with state, changedAt := now, previousHash := some recordHash } ∧
      Holds interpreter updated.recordHash.val (approvalRow updated raw) updated := by
  have entry := ApprovalStore.record_eq_ok recorded
  have taken : updated.scope = record.scope := by rw [entry]
  have lawful := holds.lawful
  rw [taken] at encoded
  obtain rfl : row.scope = raw := Except.ok.inj (holds.encoded.symm.trans encoded)
  have columns := holds.columns
  have same : approvalRow updated row.scope =
      { row with state, changedAt := now, previousHash := some recordHash } := by
    rw [approvalRow, entry]
    dsimp only
    rw [Option.map_some, holds.named]
    conv_rhs => rw [columns]
    rfl
  refine ⟨same, ⟨rfl, ?_, holds.short, ?_, ApprovalStore.sealed_of_record recorded, rfl, ?_⟩⟩
  · rw [taken]
    exact holds.encoded
  · rw [taken, holds.joined]
  · rw [entry]
    exact ⟨lawful.digest, lawful.issued, lawful.lives, lawful.within, lawful.finite, timed.1,
      timed.2, timely⟩

end Rows

end Database

end GeniusNew
