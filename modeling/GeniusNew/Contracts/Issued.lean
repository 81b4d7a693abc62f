import GeniusNew.Contracts.Decoded
import GeniusNew.Contracts.Handoff

/-! # What is issued is what validates

The checks of `_from_object` leave no freedom beyond the text of the payload and
the time of issue: with a signature scheme that accepts exactly the signer's own
signature, a wire validates exactly when the signer issues it for the same subject,
job and policy at a time whose lifetime has not ended.
-/

namespace GeniusNew

open Json

section Fields

variable {value : Value} {field : String}

theorem string_eq_ok {text : Str} : string value field = .ok text ↔ value = .str text ∧ text ≠ [] := by
  unfold string
  split
  · next c rest =>
      rw [Except.ok.injEq, Value.str.injEq]
      constructor
      · rintro rfl
        exact ⟨rfl, List.cons_ne_nil _ _⟩
      · exact And.left
  · next other =>
      refine ⟨fun refused => (fail_ne_ok refused).elim, ?_⟩
      rintro ⟨rfl, nonempty⟩
      obtain ⟨c, rest, rfl⟩ := List.exists_cons_of_ne_nil nonempty
      exact (other c rest rfl).elim

theorem integer_eq_ok {number : Int} : integer value field = .ok number ↔ value = .int number := by
  unfold integer
  split
  · rw [Except.ok.injEq, Value.int.injEq]
  · next other =>
      refine ⟨fun refused => (fail_ne_ok refused).elim, ?_⟩
      rintro rfl
      exact (other number rfl).elim

theorem mapM_string {items : List Value} {texts : List Str} :
    items.mapM (fun item => string item field) = .ok texts ↔
      items = texts.map Value.str ∧ ∀ text ∈ texts, text ≠ [] := by
  induction items generalizing texts with
  | nil =>
      rw [List.mapM_nil, pure_eq_ok]
      constructor
      · rintro rfl
        exact ⟨rfl, List.forall_mem_nil _⟩
      · rintro ⟨empty, _⟩
        exact (List.map_eq_nil_iff.mp empty.symm).symm
  | cons item items ih =>
      simp only [List.mapM_cons, bind_eq_ok, pure_eq_ok, string_eq_ok, ih]
      constructor
      · rintro ⟨text, ⟨rfl, first⟩, rest, ⟨rfl, others⟩, rfl⟩
        exact ⟨rfl, List.forall_mem_cons.mpr ⟨first, others⟩⟩
      · rintro ⟨same, nonempty⟩
        obtain _ | ⟨text, texts⟩ := texts
        · cases same
        · obtain ⟨rfl, rfl⟩ := List.cons.inj same
          obtain ⟨first, others⟩ := List.forall_mem_cons.mp nonempty
          exact ⟨text, ⟨rfl, first⟩, texts, ⟨rfl, others⟩, rfl⟩

theorem stringTuple_eq_ok {texts : List Str} :
    stringTuple value field = .ok texts ↔
      value = .list (texts.map Value.str) ∧ isStringTuple texts = true := by
  unfold stringTuple
  split
  · refine ⟨fun refused => (fail_ne_ok refused).elim, ?_⟩
    rintro ⟨same, valid⟩
    obtain rfl := List.map_eq_nil_iff.mp (Value.list.inj same).symm
    cases valid
  · next items nonempty =>
      simp only [bind_eq_ok, mapM_string, guarded_eq_ok, pure_eq_ok, not_not, isStringTuple,
        Bool.and_eq_true, decide_eq_true_eq, List.all_eq_true, Bool.not_eq_true',
        List.isEmpty_eq_false_iff]
      constructor
      · rintro ⟨texts, ⟨rfl, each⟩, distinct, rfl⟩
        refine ⟨rfl, ⟨?_, each⟩, distinct⟩
        rintro rfl
        exact nonempty rfl
      · rintro ⟨same, ⟨_, each⟩, distinct⟩
        exact ⟨texts, ⟨Value.list.inj same, each⟩, distinct, rfl⟩
  · next other =>
      refine ⟨fun refused => (fail_ne_ok refused).elim, ?_⟩
      rintro ⟨rfl, _⟩
      exact (other _ rfl).elim

/-- The fields of a dictionary with one known key. -/
theorem eq_singleton_of_hasKeys {fields : List (Str × Value)} {key : Str}
    (distinct : (keys fields).Nodup) (named : hasKeys fields [key] = true) :
    ∃ value, fields = [(key, value)] := by
  simp only [hasKeys, Bool.and_eq_true, List.all_eq_true, decide_eq_true_eq, List.mem_singleton,
    forall_eq] at named
  obtain ⟨only, present⟩ := named
  rcases fields with _ | ⟨⟨first, value⟩, rest⟩
  · cases present
  have one : first = key := only first List.mem_cons_self
  rcases rest with _ | ⟨⟨second, other⟩, rest⟩
  · exact ⟨value, by rw [one]⟩
  · have two : second = key := only second (List.mem_cons_of_mem _ List.mem_cons_self)
    rw [one, two] at distinct
    simp [keys] at distinct

theorem ne_nil_of_oneText {noun : String} {text : Str} (read : oneText noun value = .ok text) :
    text ≠ [] := by
  unfold oneText at read
  split at read
  · split_ifs at read
    · split at read
      · obtain rfl := Except.ok.inj read
        exact List.cons_ne_nil _ _
      · exact (fail_ne_ok read).elim
    · exact (fail_ne_ok read).elim
  · exact (fail_ne_ok read).elim

theorem oneText_eq_ok {noun : String} {text : Str} (unique : repeatsKey value = false) :
    oneText noun value = .ok text ↔ value = payloadDict text ∧ text ≠ [] := by
  constructor
  · intro accepted
    refine ⟨?_, ne_nil_of_oneText accepted⟩
    unfold oneText at accepted
    split at accepted
    · next fields =>
        split_ifs at accepted with named
        · obtain ⟨inner, rfl⟩ := eq_singleton_of_hasKeys (nodup_of_repeatsKey unique).1 named
          rw [List.lookup_cons_self, Option.getD_some] at accepted
          split at accepted
          · obtain rfl := Except.ok.inj accepted
            rfl
          · exact (fail_ne_ok accepted).elim
        · exact (fail_ne_ok accepted).elim
    · exact (fail_ne_ok accepted).elim
  · rintro ⟨rfl, nonempty⟩
    obtain ⟨c, rest, rfl⟩ := List.exists_cons_of_ne_nil nonempty
    rfl

end Fields

section Handoffs

variable {read : List (Str × Value)} {handoff : Handoff}

/-- The fields of a handoff's wire. -/
def Handoff.fields (handoff : Handoff) : List (Str × Value) :=
  handoff.bodyFields ++ [(str "signature", .str handoff.signature)]

theorem keys_fields (handoff : Handoff) : keys handoff.fields = handoffKeys := rfl

/-- The checks of a handoff's fields alone. -/
structure Handoff.Shaped (handoff : Handoff) : Prop where
  version : handoff.version ≠ []
  jobId : handoff.jobId ≠ []
  userId : handoff.userId ≠ []
  orchestratorId : handoff.orchestratorId ≠ []
  workerAgentId : handoff.workerAgentId ≠ []
  tier : handoff.tier ≠ []
  sandboxProfile : handoff.sandboxProfile ≠ []
  approvalState : handoff.approvalState ≠ []
  policyVersion : handoff.policyVersion ≠ []
  payloadSha256 : handoff.payloadSha256 ≠ []
  signature : handoff.signature ≠ []
  tools : isStringTuple handoff.tools = true
  payload : handoff.payload ≠ []

theorem repeatsKey_lookup (unique : repeatsKey (.dict read) = false) (key : Str) :
    repeatsKey ((read.lookup key).getD .null) = false := by
  cases found : read.lookup key with
  | none => rfl
  | some value => exact (nodup_of_repeatsKey unique).2 _ (Assoc.mem_of_lookup found)

/-- A handoff is read from the fields that its own fields agree with. -/
theorem handoffOf_eq_ok (unique : repeatsKey (.dict read) = false) :
    handoffOf read = .ok handoff ↔
      handoff.Shaped ∧ Agrees read handoff.fields := by
  simp only [handoffOf, payload, Agrees, bind_eq_ok, string_eq_ok, integer_eq_ok, stringTuple_eq_ok, pure_eq_ok,
    oneText_eq_ok (repeatsKey_lookup unique _), Handoff.fields, Handoff.bodyFields,
    List.cons_append, List.nil_append, List.forall_mem_cons, List.not_mem_nil, false_implies,
    implies_true, and_true]
  constructor
  · rintro ⟨version, ⟨v, v'⟩, jobId, ⟨j, j'⟩, userId, ⟨u, u'⟩, orchestratorId, ⟨o, o'⟩,
      workerAgentId, ⟨w, w'⟩, tier, ⟨t, t'⟩, sandboxProfile, ⟨b, b'⟩, approvalState, ⟨a, a'⟩,
      policyVersion, ⟨p, p'⟩, payloadSha256, ⟨h, h'⟩, signature, ⟨s, s'⟩, tools, ⟨l, l'⟩,
      issuedAt, i, expiresAt, e, payload, ⟨x, x'⟩, rfl⟩
    exact ⟨⟨v', j', u', o', w', t', b', a', p', h', s', l', x'⟩,
      v, j, u, o, w, t, l, b, a, p, i, e, x, h, s⟩
  · rintro ⟨shaped, v, j, u, o, w, t, l, b, a, p, i, e, x, h, s⟩
    exact ⟨_, ⟨v, shaped.version⟩, _, ⟨j, shaped.jobId⟩, _, ⟨u, shaped.userId⟩, _,
      ⟨o, shaped.orchestratorId⟩, _, ⟨w, shaped.workerAgentId⟩, _, ⟨t, shaped.tier⟩, _,
      ⟨b, shaped.sandboxProfile⟩, _, ⟨a, shaped.approvalState⟩, _, ⟨p, shaped.policyVersion⟩, _,
      ⟨h, shaped.payloadSha256⟩, _, ⟨s, shaped.signature⟩, _, ⟨l, shaped.tools⟩, _, i, _, e, _,
      ⟨x, shaped.payload⟩, rfl⟩

theorem nodup_keys_fields (handoff : Handoff) : (keys handoff.fields).Nodup := by
  rw [keys_fields]
  decide

theorem hasKeys_fields (handoff : Handoff) : hasKeys handoff.fields handoffKeys = true := by
  rw [hasKeys, keys_fields]
  decide

/-- What is signed of read fields that agree with a handoff. -/
theorem canonicalBytes_signed (unique : repeatsKey (.dict read) = false)
    (named : hasKeys read handoffKeys = true) (agrees : Agrees read handoff.fields) :
    canonicalBytes (.dict (read.filter fun field => field.1 ≠ str "signature")) =
      canonicalBytes (.dict handoff.bodyFields) := by
  have same := dumps_filter_of_agrees (fun key => key ≠ str "signature")
    (nodup_of_repeatsKey unique).1 (nodup_keys_fields handoff) named agrees
  rw [canonicalBytes, canonicalBytes, same]
  rfl

end Handoffs

section Checks

variable {read : List (Str × Value)} {handoff : Handoff} {presented : Presented} {grant : Grant}
  {verifier : HandoffVerifier} {allowPending : Bool}

theorem compareDigest_eq_ok {left right : Str} {answer : Bool} :
    compareDigest left right = .ok answer ↔ left.all (·.val < 128) = true ∧
      right.all (·.val < 128) = true ∧ answer = decide (left = right) := by
  unfold compareDigest
  cases left.all (·.val < 128) with
  | false => simp
  | true =>
      cases right.all (·.val < 128) with
      | false => simp
      | true => simp [eq_comm]

theorem ascii_of_isHexText {count : Nat} {text : Str} (accepted : isHexText count text = true) :
    text.all (·.val < 128) = true := by
  simp only [isHexText, Bool.and_eq_true, List.all_eq_true] at accepted
  refine List.all_eq_true.mpr fun c member => ?_
  have digit := accepted.2 c member
  simp only [isLowerHex, isDigit, Bool.or_eq_true, Bool.and_eq_true, decide_eq_true_eq] at digit ⊢
  omega

theorem compareDigest_hash {text : Str} {hash : Digest} :
    compareDigest text hash.val = .ok true ↔ text = hash.val := by
  rw [compareDigest_eq_ok]
  constructor
  · rintro ⟨_, _, same⟩
    exact of_decide_eq_true same.symm
  · rintro rfl
    exact ⟨ascii_of_isHexText hash.property, ascii_of_isHexText hash.property,
      (decide_eq_true rfl).symm⟩

theorem handoffDigest_eq_ok {digest : Digest} : handoffDigest handoff = .ok digest ↔
    handoff.payloadSha256 = (sha256 (canonicalBytes (payloadDict handoff.payload))).val ∧
      sha256 handoff.toBytes = digest := by
  unfold handoffDigest
  simp only [bind_eq_ok, guarded_eq_ok, pure_eq_ok, Bool.not_eq_true', Bool.not_eq_false]
  constructor
  · rintro ⟨hashed, compared, rfl, same⟩
    obtain ⟨_, _, equal⟩ := compareDigest_eq_ok.mp compared
    exact ⟨(of_decide_eq_true equal.symm).symm, same⟩
  · rintro ⟨equal, same⟩
    refine ⟨true, ?_, rfl, same⟩
    rw [equal]
    exact compareDigest_hash.mpr rfl

/-- What a handoff has to say to agree with the policy. -/
structure Handoff.Granted (handoff : Handoff) (presented : Presented) (grant : Grant) : Prop where
  version : handoff.version = handoffVersion
  jobId : handoff.jobId = presented.jobId
  userId : handoff.userId = grant.userId
  orchestratorId : handoff.orchestratorId = presented.policy.orchestratorId
  workerAgentId : handoff.workerAgentId = grant.workerAgentId
  tier : handoff.tier = grant.tier
  tools : handoff.tools = grant.tools
  sandboxProfile : handoff.sandboxProfile = grant.sandboxProfile
  approvalState : handoff.approvalState = grant.approvalState
  policyVersion : handoff.policyVersion = presented.policy.version
  expiresAt : handoff.expiresAt = handoff.issuedAt + presented.policy.handoffTtlSeconds

theorem differs_eq_none {condition : Prop} [Decidable condition] {name : String}
    {next : Option String} :
    (if condition then some name else next) = none ↔ ¬condition ∧ next = none := by
  by_cases holds : condition
  · simp [holds]
  · simp [holds]

theorem handoffMismatch_eq_none :
    handoffMismatch handoff presented grant = none ↔ handoff.Granted presented grant := by
  rw [handoffMismatch]
  simp only [differs_eq_none, not_not, and_true]
  constructor
  · rintro ⟨v, j, u, o, w, t, l, s, a, p, e⟩
    exact ⟨v, j, u, o, w, t, l, s, a, p, e⟩
  · rintro ⟨v, j, u, o, w, t, l, s, a, p, e⟩
    exact ⟨v, j, u, o, w, t, l, s, a, p, e⟩

/-- Everything `_from_object` asks of the fields of a wire. -/
theorem fromObject_eq_ok :
    fromObject read presented verifier allowPending = .ok handoff ↔
      presented.jobId ≠ [] ∧ ∃ grant, presented.policy.grantFor presented.subject = .ok grant ∧
        handoffOf read = .ok handoff ∧
        handoff.payloadSha256 = (sha256 (canonicalBytes (payloadDict handoff.payload))).val ∧
        isHexText 128 handoff.signature = true ∧
        verifier.verifies (canonicalBytes (.dict (read.filter fun field =>
          field.1 ≠ str "signature"))) (fromHex handoff.signature) = true ∧
        handoff.Granted presented grant ∧ handoff.issuedAt ≤ presented.now ∧
        presented.now < handoff.expiresAt ∧
        (handoff.approvalState = pendingApproval → allowPending = true) := by
  constructor
  · intro accepted
    unfold fromObject at accepted
    obtain ⟨_, named, accepted⟩ := bind_eq_ok.mp accepted
    obtain ⟨grant, granted, accepted⟩ := bind_eq_ok.mp accepted
    obtain ⟨found, shaped, accepted⟩ := bind_eq_ok.mp accepted
    obtain ⟨hashed, compared, accepted⟩ := bind_eq_ok.mp accepted
    obtain ⟨equal, accepted⟩ := guarded_eq_ok.mp accepted
    obtain ⟨signed, accepted⟩ := guarded_eq_ok.mp accepted
    split at accepted
    · exact (fail_ne_ok accepted).elim
    next matched =>
      obtain ⟨current, accepted⟩ := guarded_eq_ok.mp accepted
      obtain ⟨pending, accepted⟩ := guarded_eq_ok.mp accepted
      obtain rfl := pure_eq_ok.mp accepted
      obtain rfl : hashed = true := by simpa using equal
      simp only [Bool.not_eq_true', Bool.not_eq_false, Bool.and_eq_true] at signed
      rw [not_or, not_lt, not_le] at current
      refine ⟨?_, grant, granted, shaped, compareDigest_hash.mp compared, signed.1, signed.2,
        handoffMismatch_eq_none.mp matched, current.1, current.2, fun waits => ?_⟩
      · obtain ⟨same, nonempty⟩ := string_eq_ok.mp named
        rw [Value.str.inj same]
        exact nonempty
      · by_contra refused
        exact pending ⟨waits, by simpa using refused⟩
  · rintro ⟨named, grant, granted, shaped, hashed, hexadecimal, signed, matched, started, running,
      pending⟩
    unfold fromObject
    refine bind_eq_ok.mpr ⟨presented.jobId, string_eq_ok.mpr ⟨rfl, named⟩, bind_eq_ok.mpr
      ⟨grant, granted, bind_eq_ok.mpr ⟨handoff, shaped, bind_eq_ok.mpr
        ⟨true, compareDigest_hash.mpr hashed, guarded_eq_ok.mpr ⟨by simp, guarded_eq_ok.mpr
          ⟨?_, ?_⟩⟩⟩⟩⟩⟩
    · simp only [hexadecimal, signed]
      decide
    · rw [handoffMismatch_eq_none.mpr matched]
      refine guarded_eq_ok.mpr ⟨by omega, guarded_eq_ok.mpr ⟨?_, rfl⟩⟩
      rintro ⟨waits, refused⟩
      rw [pending waits] at refused
      cases refused

end Checks

/-- Texts as JSON decoding yields them. -/
def Grant.joined (grant : Grant) : Bool :=
  (grant.userId :: grant.workerAgentId :: grant.tier :: grant.sandboxProfile :: grant.tools).all
    Json.joined

def Presented.joined (presented : Presented) : Bool :=
  [presented.jobId, presented.policy.version, presented.policy.orchestratorId].all Json.joined &&
    presented.policy.grants.all Grant.joined

section Exchange

variable {interpreter : Interpreter} {presented : Presented} {grant : Grant}
  {signer : HandoffSigner} {handoff : Handoff} {wire : Bytes} {text : Str}

theorem mem_grants (found : presented.policy.grantFor presented.subject = .ok grant) :
    grant ∈ presented.policy.grants := by
  unfold Policy.grantFor at found
  obtain ⟨bytes, _, found⟩ := bind_eq_ok.mp found
  split at found
  · next looked =>
      obtain rfl := pure_eq_ok.mp found
      exact List.mem_of_find?_eq_some looked
  · exact (fail_ne_ok found).elim

/-- A handoff that agrees with its grant and carries the hash and signature of
its own fields is the one issued for its text at its time. -/
theorem eq_issuedHandoff (granted : handoff.Granted presented grant)
    (hashed : handoff.payloadSha256 = (sha256 (canonicalBytes (payloadDict handoff.payload))).val)
    (signed : handoff.signature = hex (signer.sign (canonicalBytes (.dict handoff.bodyFields)))) :
    handoff = issuedHandoff handoff.payload { presented with now := handoff.issuedAt } grant signer := by
  obtain ⟨version, jobId, userId, orchestratorId, workerAgentId, tier, tools, sandboxProfile,
    approvalState, policyVersion, issuedAt, expiresAt, text, payloadSha256, signature⟩ := handoff
  obtain ⟨v, j, u, o, w, t, l, s, a, p, e⟩ := granted
  dsimp only at v j u o w t l s a p e hashed signed ⊢
  subst v j u o w t l s a p e hashed
  rw [signed]
  rfl

theorem shaped_issuedHandoff (named : presented.jobId ≠ []) (nonempty : text ≠ []) :
    (issuedHandoff text presented grant signer).Shaped where
  version := by
    change handoffVersion ≠ []
    decide
  jobId := named
  userId := grant.texts_nonempty.1
  orchestratorId := presented.policy.texts_nonempty.2
  workerAgentId := grant.texts_nonempty.2.1
  tier := grant.texts_nonempty.2.2.1
  sandboxProfile := grant.texts_nonempty.2.2.2
  approvalState := by
    change grant.approvalState ≠ []
    unfold Grant.approvalState
    cases grant.requiresApproval <;> decide
  policyVersion := presented.policy.texts_nonempty.1
  payloadSha256 := by
    apply List.ne_nil_of_length_pos
    have sized := (sha256 (canonicalBytes (payloadDict text))).property
    simp only [isHexText, Bool.and_eq_true, decide_eq_true_eq] at sized
    change 0 < (sha256 (canonicalBytes (payloadDict text))).val.length
    omega
  signature := by
    apply List.ne_nil_of_length_pos
    change 0 < (hex (signer.sign _)).length
    rw [length_hex, signer.length_sign]
    decide
  tools := grant.tools_valid
  payload := nonempty

theorem signature_issuedHandoff (text : Str) (presented : Presented) (grant : Grant)
    (signer : HandoffSigner) :
    isHexText 128 (issuedHandoff text presented grant signer).signature = true ∧
      signer.verifier.verifies
        (canonicalBytes (.dict (issuedHandoff text presented grant signer).bodyFields))
        (fromHex (issuedHandoff text presented grant signer).signature) = true := by
  let message := canonicalBytes (.dict (issuedHandoff text presented grant signer).bodyFields)
  have signed : (issuedHandoff text presented grant signer).signature = hex (signer.sign message) := rfl
  rw [signed]
  constructor
  · have sized := isHexText_hex (signer.sign message)
    rwa [signer.length_sign] at sized
  · rw [fromHex_hex]
    exact signer.sign_verifies message

theorem granted_issuedHandoff (text : Str) (presented : Presented) (grant : Grant)
    (signer : HandoffSigner) (now : Int) :
    (issuedHandoff text presented grant signer).Granted { presented with now } grant :=
  ⟨rfl, rfl, rfl, rfl, rfl, rfl, rfl, rfl, rfl, rfl, rfl⟩

theorem tidy_texts (texts : List Str) : (Value.list (texts.map Value.str)).tidy = true := by
  rw [Value.tidy, Value.tidyItems_iff]
  intro item member
  obtain ⟨text, _, rfl⟩ := List.mem_map.mp member
  rfl

theorem floatless_texts (texts : List Str) : floatless (.list (texts.map Value.str)) = true := by
  rw [floatless, floatlessItems_iff]
  intro item member
  obtain ⟨text, _, rfl⟩ := List.mem_map.mp member
  rfl

theorem depthItems_texts (texts : List Str) : Value.depthItems (texts.map Value.str) = 0 := by
  induction texts with
  | nil => rfl
  | cons text texts ih =>
      have flat : (Value.str text).depth = 0 := by simp only [Value.depth]
      rw [List.map_cons, Value.depthItems, flat, ih, max_self]

theorem tidy_fields (handoff : Handoff) : (Value.dict handoff.fields).tidy = true := by
  refine Value.tidy_dict.mpr ⟨nodup_keys_fields handoff, ?_, ?_⟩
  · rw [keys_fields]
    decide
  · simp only [Handoff.fields, Handoff.bodyFields, List.cons_append, List.nil_append,
      List.forall_mem_cons, List.not_mem_nil, false_implies, implies_true, and_true]
    exact ⟨rfl, rfl, rfl, rfl, rfl, rfl, tidy_texts _, rfl, rfl, rfl, rfl, rfl, rfl, rfl, rfl⟩

theorem floatless_fields (handoff : Handoff) : floatless (.dict handoff.fields) = true := by
  rw [floatless, floatlessFields_iff]
  simp only [Handoff.fields, Handoff.bodyFields, List.cons_append, List.nil_append,
    List.forall_mem_cons, List.not_mem_nil, false_implies, implies_true, and_true]
  exact ⟨rfl, rfl, rfl, rfl, rfl, rfl, floatless_texts _, rfl, rfl, rfl, rfl, rfl, rfl, rfl, rfl⟩

theorem depth_fields (handoff : Handoff) : (Value.dict handoff.fields).depth = 2 := by
  simp only [Handoff.fields, Handoff.bodyFields, List.cons_append, List.nil_append, Value.depth,
    Value.depthFields, depthItems_texts, payloadDict]
  rfl

theorem canonicalBytes_payloadDict_joinSurrogates (text : Str) :
    canonicalBytes (payloadDict (joinSurrogates text)) = canonicalBytes (payloadDict text) := by
  have neat : (payloadDict text).tidy = true := rfl
  rw [canonicalBytes, canonicalBytes, ← Value.dumps_decoded neat]
  rfl

/-- What is signed of a handoff, as it comes back from its wire: only the text of
the payload can change. -/
theorem decoded_bodyFields
    (plain : ∀ text ∈ [handoff.version, handoff.jobId, handoff.userId, handoff.orchestratorId,
      handoff.workerAgentId, handoff.tier, handoff.sandboxProfile, handoff.approvalState,
      handoff.policyVersion, handoff.payloadSha256], joinSurrogates text = text)
    (tools : ∀ tool ∈ handoff.tools, joinSurrogates tool = tool) :
    (handoff.bodyFields.map fun field => (field.1, field.2.decoded)) =
      { handoff with payload := joinSurrogates handoff.payload }.bodyFields := by
  simp only [List.forall_mem_cons, List.not_mem_nil, false_implies, implies_true, and_true] at plain
  obtain ⟨v, j, u, o, w, t, s, a, p, h⟩ := plain
  have list : (Value.list (handoff.tools.map Value.str)).decoded =
      .list (handoff.tools.map Value.str) := by
    rw [Value.decoded_list, List.map_map]
    refine congrArg Value.list (List.map_congr_left fun tool member => ?_)
    rw [Function.comp_apply, Value.decoded_str, tools tool member]
  have text : (payloadDict handoff.payload).decoded = payloadDict (joinSurrogates handoff.payload) :=
    rfl
  simp only [Handoff.bodyFields, List.map_cons, List.map_nil, Value.decoded_str, Value.decoded_int,
    list, text, v, j, u, o, w, t, s, a, p, h]

theorem decoded_issued (plain : presented.joined = true)
    (found : presented.policy.grantFor presented.subject = .ok grant) :
    ((issuedHandoff text presented grant signer).bodyFields.map fun field =>
        (field.1, field.2.decoded)) =
      { issuedHandoff text presented grant signer with payload := joinSurrogates text }.bodyFields := by
  simp only [Presented.joined, Grant.joined, joined, Bool.and_eq_true, List.all_eq_true,
    List.forall_mem_cons, decide_eq_true_eq] at plain
  obtain ⟨⟨j, v, o, _⟩, grants⟩ := plain
  obtain ⟨u, w, t, s, l⟩ := grants grant (mem_grants found)
  have states : joinSurrogates grant.approvalState = grant.approvalState := by
    unfold Grant.approvalState
    cases grant.requiresApproval <;> decide
  have named : joinSurrogates handoffVersion = handoffVersion := by decide
  have hashed := joinSurrogates_of_isHexText (sha256 (canonicalBytes (payloadDict text))).property
  refine decoded_bodyFields ?_ l
  simp only [List.forall_mem_cons, List.not_mem_nil, false_implies, implies_true, and_true]
  exact ⟨named, j, u, o, w, t, s, states, v, hashed⟩

/-- The issued handoff as it comes back from its wire is the one issued for the
decoded text. -/
theorem issuedHandoff_joinSurrogates (plain : presented.joined = true)
    (found : presented.policy.grantFor presented.subject = .ok grant) :
    issuedHandoff (joinSurrogates text) presented grant signer =
      { issuedHandoff text presented grant signer with payload := joinSurrogates text } := by
  have neat := (Value.tidy_dict.mp (tidy_fields (issuedHandoff text presented grant signer))).2.2
  have body : dumps (.dict ((issuedHandoff text presented grant signer).bodyFields.map fun field =>
      (field.1, field.2.decoded))) =
        dumps (.dict (issuedHandoff text presented grant signer).bodyFields) :=
    Value.dumps_dict_congr fun field member =>
      Value.dumps_decoded (neat field (List.mem_append_left _ member))
  rw [decoded_issued plain found] at body
  have granted : { issuedHandoff text presented grant signer with
      payload := joinSurrogates text }.Granted presented grant :=
    ⟨rfl, rfl, rfl, rfl, rfl, rfl, rfl, rfl, rfl, rfl, rfl⟩
  refine (eq_issuedHandoff granted ?_ ?_).symm
  · rw [canonicalBytes_payloadDict_joinSurrogates]
    rfl
  · rw [canonicalBytes, body]
    rfl

theorem fields_joinSurrogates (plain : presented.joined = true)
    (found : presented.policy.grantFor presented.subject = .ok grant) :
    (issuedHandoff (joinSurrogates text) presented grant signer).fields =
      (issuedHandoff text presented grant signer).fields.map fun field =>
        (field.1, field.2.decoded) := by
  have written : joinSurrogates (issuedHandoff text presented grant signer).signature =
      (issuedHandoff text presented grant signer).signature :=
    joinSurrogates_of_isHexText (isHexText_hex _)
  rw [issuedHandoff_joinSurrogates plain found, Handoff.fields, Handoff.fields, List.map_append,
    decoded_issued plain found, List.map_singleton, Value.decoded_str, written]

theorem canonical_handoff {read : List (Str × Value)}
    (decoded : decodeWire interpreter (some wire) handoffKeys "handoff" = .ok read)
    (shaped : handoffOf read = .ok handoff) : canonical interpreter handoff.toDict = .ok wire := by
  obtain ⟨data, same, _, unique, named, encoded⟩ := decodeWire_eq_ok decoded
  have agrees := ((handoffOf_eq_ok unique).mp shaped).2
  rw [Option.some.inj same]
  exact canonical_of_agrees (nodup_of_repeatsKey unique).1 (nodup_keys_fields handoff) named agrees
    ((depth_fields handoff).trans_le (by decide)) encoded

/-- The text of a handoff that arrived holds no surrogate pair. -/
theorem joinSurrogates_payload {read : List (Str × Value)}
    (decoded : decodeWire interpreter (some wire) handoffKeys "handoff" = .ok read)
    (shaped : handoffOf read = .ok handoff) : joinSurrogates handoff.payload = handoff.payload := by
  obtain ⟨_, _, _, unique, _, _⟩ := decodeWire_eq_ok decoded
  have agrees := ((handoffOf_eq_ok unique).mp shaped).2
  have found := agrees (str "payload", payloadDict handoff.payload)
    (by simp [Handoff.fields, Handoff.bodyFields])
  have present : (str "payload", payloadDict handoff.payload) ∈ read := by
    cases known : read.lookup (str "payload") with
    | none =>
        rw [known] at found
        cases found
    | some value =>
        rw [known] at found
        obtain rfl : value = payloadDict handoff.payload := found
        exact Assoc.mem_of_lookup known
  obtain ⟨origin, reads⟩ := Value.of_mem_reread (reread_of_decodeWire decoded) present
  obtain ⟨text, texts⟩ := Value.of_mem_reread reads (List.mem_singleton_self _)
  obtain ⟨found, _, whole⟩ := Value.reread_eq_str.mp texts
  rw [← whole, joinSurrogates_joinSurrogates]

theorem approvalState_eq_pending : grant.approvalState = pendingApproval ↔
    grant.requiresApproval = true := by
  have differ : notRequired ≠ pendingApproval := by decide
  unfold Grant.approvalState
  cases grant.requiresApproval with
  | true => simp
  | false => simpa using differ

theorem issue_eq_ok : issue interpreter (payloadDict text) presented signer = .ok wire ↔
    text ≠ [] ∧ presented.jobId ≠ [] ∧
      ∃ grant, presented.policy.grantFor presented.subject = .ok grant ∧
        canonical interpreter (issuedHandoff text presented grant signer).toDict = .ok wire ∧
        wire.length ≤ maxWireBytes := by
  have whole : oneText "payload" (payloadDict text) = .ok text ↔ text ≠ [] := by
    rw [oneText_eq_ok rfl, eq_self, true_and]
  simp only [issue, payload, bind_eq_ok, string_eq_ok, guarded_eq_ok, pure_eq_ok, not_lt, Value.str.injEq]
  constructor
  · rintro ⟨read, accepted, grant, found, _, ⟨rfl, named⟩, data, encoded, short, rfl⟩
    obtain ⟨same, nonempty⟩ := (oneText_eq_ok rfl).mp accepted
    have equal : text = read := Value.str.inj (Prod.mk.inj (List.cons.inj (Value.dict.inj same)).1).2
    subst equal
    exact ⟨nonempty, named, grant, found, encoded, short⟩
  · rintro ⟨nonempty, named, grant, found, encoded, short⟩
    exact ⟨text, whole.mpr nonempty, grant, found, _, ⟨rfl, named⟩, wire, encoded, short, rfl⟩

/-- What validates is what the signer issues for the text and time it carries. -/
theorem issue_of_fromObject {read : List (Str × Value)} {allowPending : Bool}
    (exact_ : ∀ message signature,
      signer.verifier.verifies message signature = true ↔ signature = signer.sign message)
    (decoded : decodeWire interpreter (some wire) handoffKeys "handoff" = .ok read)
    (accepted : fromObject read presented signer.verifier allowPending = .ok handoff) :
    issue interpreter (payloadDict handoff.payload) { presented with now := handoff.issuedAt } signer =
      .ok wire := by
  obtain ⟨named, grant, found, shaped, hashed, hexadecimal, verified, granted, _⟩ :=
    fromObject_eq_ok.mp accepted
  obtain ⟨data, same, short, unique, exactKeys, _⟩ := decodeWire_eq_ok decoded
  obtain ⟨shape, agrees⟩ := (handoffOf_eq_ok unique).mp shaped
  rw [canonicalBytes_signed unique exactKeys agrees, exact_] at verified
  have signed : handoff.signature = hex (signer.sign (canonicalBytes (.dict handoff.bodyFields))) := by
    have sized : isHexText (2 * 64) handoff.signature = true := hexadecimal
    rw [← verified, hex_fromHex sized]
  have issued := eq_issuedHandoff granted hashed signed
  have encoded := canonical_handoff decoded shaped
  rw [issued] at encoded
  refine issue_eq_ok.mpr ⟨shape.payload, named, grant, found, encoded, ?_⟩
  rwa [Option.some.inj same]

/-- What the signer issues is read back as issued for the decoded text. -/
theorem fromObject_of_issue {time : Int} {allowPending : Bool} (plain : presented.joined = true)
    (started : time ≤ presented.now) (running : presented.now < time + presented.policy.handoffTtlSeconds)
    (found : presented.policy.grantFor presented.subject = .ok grant)
    (permitted : grant.requiresApproval = true → allowPending = true)
    (issued : issue interpreter (payloadDict text) { presented with now := time } signer = .ok wire) :
    ∃ read, decodeWire interpreter (some wire) handoffKeys "handoff" = .ok read ∧
      fromObject read presented signer.verifier allowPending =
        .ok (issuedHandoff (joinSurrogates text) { presented with now := time } grant signer) := by
  obtain ⟨nonempty, named, other, again, encoded, short⟩ := issue_eq_ok.mp issued
  obtain rfl : grant = other := Except.ok.inj (found.symm.trans again)
  let handed := issuedHandoff text { presented with now := time } grant signer
  let returned := issuedHandoff (joinSurrogates text) { presented with now := time } grant signer
  let read := (sortKeys handed.fields).map fun field => (field.1, field.2.decoded)
  have decoded : decodeWire interpreter (some wire) handoffKeys "handoff" = .ok read :=
    decodeWire_canonical (tidy_fields handed) (floatless_fields handed)
      ((depth_fields handed).trans_le (by decide)) (hasKeys_fields handed) encoded short
  obtain ⟨_, _, _, unique, exactKeys, _⟩ := decodeWire_eq_ok decoded
  have agrees : Agrees read returned.fields := by
    have back := agrees_decoded (nodup_keys_fields handed)
    have same : returned.fields = handed.fields.map fun field => (field.1, field.2.decoded) :=
      fields_joinSurrogates plain found
    rwa [← same] at back
  have shaped : handoffOf read = .ok returned :=
    (handoffOf_eq_ok unique).mpr
      ⟨shaped_issuedHandoff named (joinSurrogates_ne_nil nonempty), agrees⟩
  refine ⟨read, decoded, fromObject_eq_ok.mpr ⟨named, grant, found, shaped, rfl,
    (signature_issuedHandoff _ _ _ _).1, ?_, granted_issuedHandoff _ _ _ _ _, started, running,
    fun waits => permitted (approvalState_eq_pending.mp waits)⟩⟩
  rw [canonicalBytes_signed unique exactKeys agrees]
  exact (signature_issuedHandoff _ _ _ _).2

/-- The signer issues the wire for the same subject, job and policy at a time whose
lifetime holds the present, under a grant that does or does not require approval. -/
def Presented.Issued (presented : Presented) (interpreter : Interpreter) (signer : HandoffSigner)
    (pending : Bool) (wire : Bytes) : Prop :=
  ∃ text time grant, time ≤ presented.now ∧
    presented.now < time + presented.policy.handoffTtlSeconds ∧
    presented.policy.grantFor presented.subject = .ok grant ∧ grant.requiresApproval = pending ∧
    issue interpreter (payloadDict text) { presented with now := time } signer = .ok wire

theorem issued_of_fromObject {read : List (Str × Value)} {allowPending pending : Bool}
    (exact_ : ∀ message signature,
      signer.verifier.verifies message signature = true ↔ signature = signer.sign message)
    (decoded : decodeWire interpreter (some wire) handoffKeys "handoff" = .ok read)
    (accepted : fromObject read presented signer.verifier allowPending = .ok handoff)
    (state : handoff.approvalState = pendingApproval ↔ pending = true) :
    presented.Issued interpreter signer pending wire := by
  have issued := issue_of_fromObject exact_ decoded accepted
  obtain ⟨_, grant, found, _, _, _, _, granted, started, running, _⟩ := fromObject_eq_ok.mp accepted
  rw [granted.expiresAt] at running
  refine ⟨handoff.payload, handoff.issuedAt, grant, started, running, found, ?_, issued⟩
  rw [Bool.eq_iff_iff, ← approvalState_eq_pending, ← granted.approvalState]
  exact state

/-- A wire validates exactly when it is issued, and then the handoff says what the
grant and the policy say. -/
theorem validate_iff_issued
    (exact_ : ∀ message signature,
      signer.verifier.verifies message signature = true ↔ signature = signer.sign message)
    (plain : presented.joined = true) (wire : Bytes) :
    ((∃ handoff, validate interpreter (some wire) presented signer.verifier = .ok handoff) ↔
        presented.Issued interpreter signer false wire) ∧
      ((∃ handoff, validatePending interpreter (some wire) presented signer.verifier = .ok handoff) ↔
        presented.Issued interpreter signer true wire) ∧
      ∀ handoff, validate interpreter (some wire) presented signer.verifier = .ok handoff ∨
          validatePending interpreter (some wire) presented signer.verifier = .ok handoff →
        canonical interpreter handoff.toDict = .ok wire ∧
          ∃ grant, presented.policy.grantFor presented.subject = .ok grant ∧
            handoff.Granted presented grant := by
  have carried {read : List (Str × Value)} {handoff : Handoff} {allowPending : Bool}
      (decoded : decodeWire interpreter (some wire) handoffKeys "handoff" = .ok read)
      (accepted : fromObject read presented signer.verifier allowPending = .ok handoff) :
      canonical interpreter handoff.toDict = .ok wire ∧
        ∃ grant, presented.policy.grantFor presented.subject = .ok grant ∧
          handoff.Granted presented grant := by
    obtain ⟨_, grant, found, shaped, _, _, _, granted, _⟩ := fromObject_eq_ok.mp accepted
    exact ⟨canonical_handoff decoded shaped, grant, found, granted⟩
  simp only [validate, validatePending, bind_eq_ok, guarded_eq_ok, pure_eq_ok, not_not]
  refine ⟨⟨?_, ?_⟩, ⟨?_, ?_⟩, ?_⟩
  · rintro ⟨handoff, read, decoded, accepted⟩
    obtain ⟨_, _, _, _, _, _, _, _, _, _, refused⟩ := fromObject_eq_ok.mp accepted
    exact issued_of_fromObject exact_ decoded accepted ⟨refused, fun absurd => nomatch absurd⟩
  · rintro ⟨text, time, grant, started, running, found, free, issued⟩
    have permitted : grant.requiresApproval = true → false = true := fun waits => free ▸ waits
    obtain ⟨read, decoded, accepted⟩ :=
      fromObject_of_issue plain started running found permitted issued
    exact ⟨_, read, decoded, accepted⟩
  · rintro ⟨handoff, read, decoded, _, accepted, waits, rfl⟩
    exact issued_of_fromObject exact_ decoded accepted ⟨fun _ => rfl, fun _ => waits⟩
  · rintro ⟨text, time, grant, started, running, found, waits, issued⟩
    have permitted : grant.requiresApproval = true → true = true := fun _ => rfl
    obtain ⟨read, decoded, accepted⟩ :=
      fromObject_of_issue plain started running found permitted issued
    exact ⟨_, read, decoded, _, accepted, approvalState_eq_pending.mpr waits, rfl⟩
  · rintro handoff (⟨read, decoded, accepted⟩ | ⟨read, decoded, _, accepted, _, rfl⟩)
    · exact carried decoded accepted
    · exact carried decoded accepted

end Exchange

/-- A signer whose one signature of a message is made of its digest. -/
def digestSigner : HandoffSigner where
  sign := fun message => Sha256.digest message ++ Sha256.digest message
  verifier := ⟨fun message signature =>
    signature = Sha256.digest message ++ Sha256.digest message⟩
  sign_verifies := fun _ => decide_eq_true rfl
  length_sign := fun _ => by rw [List.length_append, Sha256.length_digest]

def demoGrant (requiresApproval : Bool) : Grant where
  subject := str "subject-demo"
  userId := str "user-demo"
  workerAgentId := str "worker-demo"
  tier := str "basic"
  tools := [str "summarize"]
  sandboxProfile := str "isolated"
  requiresApproval := requiresApproval
  subject_valid := by decide
  texts_nonempty := by decide
  tools_valid := by decide

def demoPolicy (requiresApproval : Bool) : Policy where
  version := str "policy-v1"
  orchestratorId := str "orchestrator-demo"
  handoffTtlSeconds := 60
  allowedTools := [str "summarize"]
  allowedSandboxProfiles := [str "isolated"]
  grants := [demoGrant requiresApproval]
  texts_nonempty := by decide
  ttl_bounds := by decide
  lists_valid := by decide
  grants_valid := by
    refine ⟨List.cons_ne_nil _ _, ?_⟩
    rw [List.map_singleton]
    exact List.nodup_singleton _
  grants_allowed := by
    intro grant member
    rw [List.mem_singleton.mp member]
    exact ⟨List.Subset.refl _, List.mem_singleton_self _⟩

def demoPresented (requiresApproval : Bool) (now : Int) : Presented where
  subject := str "subject-demo"
  jobId := str "job-demo"
  policy := demoPolicy requiresApproval
  now := now

/-- The demo job, issued at a time. -/
def demoIssued (requiresApproval : Bool) (time : Int) : Handoff :=
  issuedHandoff (str "Example text") (demoPresented requiresApproval time)
    (demoGrant requiresApproval) digestSigner

def demoHandoff (requiresApproval : Bool) : Handoff :=
  issuedHandoff (str "Example text") (demoPresented requiresApproval 100)
    (demoGrant requiresApproval) digestSigner

theorem length_issuedHandoff {text : Str} {presented : Presented} {grant : Grant}
    {signer : HandoffSigner}
    (known : (((issuedHandoff text presented grant signer).bodyFields.take 13).map
      fieldLength).sum ≤ 16000) :
    (issuedHandoff text presented grant signer).toBytes.length ≤ maxWireBytes := by
  have hashed := length_dumps_hex (sha256 (canonicalBytes (payloadDict text))).property
  have signed := length_dumps_hex (signature_issuedHandoff text presented grant signer).1
  change (dumps (.str (issuedHandoff text presented grant signer).payloadSha256)).length = _ at hashed
  generalize issuedHandoff text presented grant signer = handoff at known hashed signed
  have split : handoff.fields = handoff.bodyFields.take 13 ++
      [(str "payload_sha256", .str handoff.payloadSha256),
        (str "signature", .str handoff.signature)] := rfl
  have keyLengths : (quote (str "payload_sha256")).length = 16 ∧
      (quote (str "signature")).length = 11 := by decide
  have shape : handoff.toDict = .dict handoff.fields := rfl
  have nonempty : handoff.fields ≠ [] := List.cons_ne_nil _ _
  rw [Handoff.toBytes, length_canonicalBytes, shape, length_dumps_dict nonempty, split,
    List.map_append, List.sum_append]
  simp only [List.map_cons, List.map_nil, List.sum_cons, List.sum_nil, fieldLength, hashed, signed,
    keyLengths, maxWireBytes]
  omega

/-- A handoff that leaves room for its digests is issued. -/
theorem issue_of_short {text : Str} {presented : Presented} {grant : Grant} {signer : HandoffSigner}
    (nonempty : text ≠ []) (named : presented.jobId ≠ [])
    (found : presented.policy.grantFor presented.subject = .ok grant)
    (known : (((issuedHandoff text presented grant signer).bodyFields.take 13).map
      fieldLength).sum ≤ 16000)
    (printed : (issuedHandoff text presented grant signer).toDict.printable literalInterpreter = true) :
    issue literalInterpreter (payloadDict text) presented signer =
      .ok (issuedHandoff text presented grant signer).toBytes := by
  refine issue_eq_ok.mpr ⟨nonempty, named, grant, found, ?_, length_issuedHandoff known⟩
  exact canonical_eq_ok.mpr ⟨(depth_fields _).trans_le (by decide), printed, rfl⟩

theorem issue_demoIssued {requiresApproval : Bool} {time : Int}
    (known : (((demoIssued requiresApproval time).bodyFields.take 13).map fieldLength).sum ≤ 16000)
    (printed : (demoIssued requiresApproval time).toDict.printable literalInterpreter = true) :
    issue literalInterpreter (payloadDict (str "Example text"))
      (demoPresented requiresApproval time) digestSigner =
        .ok (demoIssued requiresApproval time).toBytes := by
  refine issue_of_short (by decide) (List.cons_ne_nil _ _) ?_ known printed
  cases requiresApproval <;> rfl

theorem issue_demo (requiresApproval : Bool) :
    issue literalInterpreter (payloadDict (str "Example text"))
      (demoPresented requiresApproval 100) digestSigner = .ok (demoHandoff requiresApproval).toBytes := by
  apply issue_demoIssued
  · cases requiresApproval <;> decide +kernel
  · rfl

/-- The latest time at which the orchestrator issues, less ten seconds. -/
def lateTime : Int := 4102444790

theorem issue_late : issue literalInterpreter (payloadDict (str "Example text"))
    (demoPresented true lateTime) digestSigner = .ok (demoIssued true lateTime).toBytes := by
  apply issue_demoIssued
  · decide +kernel
  · rfl

theorem validate_iff_issued_demo :
    ∃ handoff, validate literalInterpreter (some (demoHandoff false).toBytes)
        (demoPresented false 101) digestSigner.verifier = .ok handoff ∧
      canonical literalInterpreter handoff.toDict = .ok (demoHandoff false).toBytes ∧
      handoff.userId = str "user-demo" ∧ handoff.tools = [str "summarize"] := by
  have scheme : ∀ message signature, digestSigner.verifier.verifies message signature = true ↔
      signature = digestSigner.sign message := fun message signature => by
    exact decide_eq_true_iff
  have plain : (demoPresented false 101).joined = true := by decide
  have issued : (demoPresented false 101).Issued literalInterpreter digestSigner false
      (demoHandoff false).toBytes :=
    ⟨str "Example text", 100, demoGrant false, by decide, by decide, rfl, rfl, issue_demo false⟩
  obtain ⟨accepts, _, carries⟩ := validate_iff_issued scheme plain (demoHandoff false).toBytes
  obtain ⟨handoff, accepted⟩ := accepts.mpr issued
  obtain ⟨encoded, grant, found, granted⟩ := carries handoff (.inl accepted)
  obtain rfl : demoGrant false = grant := Except.ok.inj found
  exact ⟨handoff, accepted, encoded, granted.userId, granted.tools⟩

end GeniusNew
