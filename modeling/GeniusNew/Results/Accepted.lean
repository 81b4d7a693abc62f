import GeniusNew.Approvals.Admission
import GeniusNew.Results.Contract

/-! # What is produced is what is accepted

The signing and the accepting side of a result are two lists of checks. With a
signature scheme that accepts exactly the authority's own signature they agree: a
wire is accepted for a handoff exactly when the authority produces it for that
handoff at a time that is not in the future, while the handoff is valid.
-/

namespace GeniusNew

open Json

namespace Results

section Fields

variable {value : Value} {field : String} {text : Str}

theorem digest_eq_ok : digest value field = .ok text ↔
    value = .str text ∧ isHexText 64 text = true := by
  unfold digest
  split
  · next found =>
      rw [Value.str.injEq]
      by_cases hexadecimal : isHexText 64 found = true
      · rw [if_pos hexadecimal, Except.ok.injEq]
        constructor
        · rintro rfl
          exact ⟨rfl, hexadecimal⟩
        · exact And.left
      · rw [if_neg hexadecimal]
        refine ⟨fun refused => (fail_ne_ok refused).elim, ?_⟩
        rintro ⟨rfl, accepted⟩
        exact (hexadecimal accepted).elim
  · next other =>
      refine ⟨fun refused => (fail_ne_ok refused).elim, ?_⟩
      rintro ⟨rfl, _⟩
      exact (other text rfl).elim

theorem reasonCode_eq_ok {code read : Str} :
    reasonCode code = .ok read ↔ code ∈ reasonCodes ∧ code = read := by
  unfold reasonCode
  rw [guard_eq_ok, Except.ok.injEq]

theorem isNone_eq_true : isNone value = true ↔ value = .null := by
  cases value <;> simp [isNone]

theorem bound_eq_ok {actual expected : Str} : bound actual expected field = .ok () ↔
    actual.all (·.val < 128) = true ∧ expected.all (·.val < 128) = true ∧ actual = expected := by
  simp only [bound, bind_eq_ok, compareDigest_eq_ok, guarded_eq_ok, Bool.not_eq_true',
    Bool.not_eq_false, pure_eq_ok, and_true]
  constructor
  · rintro ⟨_, ⟨left, right, rfl⟩, same⟩
    exact ⟨left, right, of_decide_eq_true same⟩
  · rintro ⟨left, right, rfl⟩
    exact ⟨true, ⟨left, right, (decide_eq_true rfl).symm⟩, rfl⟩

end Fields

section Wires

/-- The fields of a result's wire. -/
def Result.fields (result : Result) : List (Str × Value) :=
  result.bodyFields ++ [(str "signature", .str result.signature)]

variable {result other : Result} {read : List (Str × Value)}

theorem keys_resultFields (result : Result) : keys result.fields = resultKeys := rfl

theorem nodup_keys_resultFields (result : Result) : (keys result.fields).Nodup := by
  rw [keys_resultFields]
  decide

theorem hasKeys_resultFields (result : Result) : hasKeys result.fields resultKeys = true := by
  rw [hasKeys, keys_resultFields]
  decide

theorem tidy_resultFields (result : Result) : (Value.dict result.fields).tidy = true := by
  refine Value.tidy_dict.mpr ⟨nodup_keys_resultFields result, ?_, ?_⟩
  · rw [keys_resultFields]
    decide
  · have out : (outputValue result.output).tidy = true := by cases result.output <;> rfl
    have hash : (optionalText result.outputSha256).tidy = true := by
      cases result.outputSha256 <;> rfl
    simp only [Result.fields, Result.bodyFields, List.cons_append, List.nil_append,
      List.forall_mem_cons, List.not_mem_nil, false_implies, implies_true, and_true]
    exact ⟨rfl, rfl, rfl, rfl, rfl, rfl, out, hash, rfl, rfl⟩

theorem floatless_resultFields (result : Result) : floatless (.dict result.fields) = true := by
  have out : floatless (outputValue result.output) = true := by cases result.output <;> rfl
  have hash : floatless (optionalText result.outputSha256) = true := by
    cases result.outputSha256 <;> rfl
  rw [floatless, floatlessFields_iff]
  simp only [Result.fields, Result.bodyFields, List.cons_append, List.nil_append,
    List.forall_mem_cons, List.not_mem_nil, false_implies, implies_true, and_true]
  exact ⟨rfl, rfl, rfl, rfl, rfl, rfl, out, hash, rfl, rfl⟩

theorem depth_resultFields_le (result : Result) :
    (Value.dict result.fields).depth ≤ maxWireDepth := by
  have out : (outputValue result.output).depth ≤ 1 := by
    cases result.output with
    | none => exact Nat.zero_le _
    | some text => exact le_rfl
  have hash : (optionalText result.outputSha256).depth = 0 := by
    cases result.outputSha256 <;> rfl
  simp only [Result.fields, Result.bodyFields, List.cons_append, List.nil_append, Value.depth,
    Value.depthFields, hash, maxWireDepth]
  omega

/-- What is signed of read fields that agree with a result. -/
theorem canonicalBytes_signedResult (unique : repeatsKey (.dict read) = false)
    (named : hasKeys read resultKeys = true) (agrees : Agrees read result.fields) :
    canonicalBytes (.dict (read.filter fun field => field.1 ≠ str "signature")) =
      canonicalBytes (.dict result.bodyFields) := by
  have same := dumps_filter_of_agrees (fun key => key ≠ str "signature")
    (nodup_of_repeatsKey unique).1 (nodup_keys_resultFields result) named agrees
  rw [canonicalBytes, canonicalBytes, same]
  rfl

theorem outputValue_injective : Function.Injective outputValue := by
  intro left right same
  cases left with
  | none => cases right <;> trivial
  | some left =>
      cases right with
      | none => cases same
      | some right => simpa [outputValue, payloadDict] using same

theorem optionalText_injective : Function.Injective optionalText := by
  intro left right same
  cases left with
  | none => cases right <;> trivial
  | some left =>
      cases right with
      | none => cases same
      | some right => simpa [optionalText] using same

/-- The fields of a wire say which result it is. -/
theorem result_eq_of_agrees (one : Agrees read result.fields) (two : Agrees read other.fields) :
    result = other := by
  simp only [Agrees, Result.fields, Result.bodyFields, List.cons_append, List.nil_append,
    List.forall_mem_cons, List.not_mem_nil, false_implies, implies_true, and_true] at one two
  obtain ⟨v, j, w, h, s, r, o, d, p, g⟩ := one
  obtain ⟨v', j', w', h', s', r', o', d', p', g'⟩ := two
  obtain ⟨version, jobId, workerAgentId, handoffSha256, status, code, out, hash, time, signature⟩ :=
    result
  rw [v] at v'
  rw [j] at j'
  rw [w] at w'
  rw [h] at h'
  rw [s] at s'
  rw [r] at r'
  rw [o] at o'
  rw [d] at d'
  rw [p] at p'
  rw [g] at g'
  simp only [Value.str.injEq, Value.int.injEq] at v' j' w' h' s' r' p' g'
  obtain rfl := outputValue_injective o'
  obtain rfl := optionalText_injective d'
  subst v' j' w' h' s' r' p' g'
  rfl

end Wires

section Accepting

variable {interpreter : Interpreter} {wire : Bytes} {handoff : Handoff} {result : Result}
  {verifier : WorkerVerifier} {authority : WorkerAuthority} {now : Int}

/-- Only a success carries an output, under its digest. -/
def Result.Carried (result : Result) : Prop :=
  (result.status = succeeded ∧ ∃ text, text ≠ [] ∧ result.output = some text ∧
    result.outputSha256 = some (sha256 (canonicalBytes (payloadDict text))).val) ∨
  (result.status ≠ succeeded ∧ result.output = none ∧ result.outputSha256 = none)

/-- What a result has to say to answer a handoff in time. -/
structure Result.Answers (result : Result) (handoff : Handoff) (now : Int) : Prop where
  version : result.version = resultVersion
  jobId : result.jobId = handoff.jobId
  workerAgentId : result.workerAgentId = handoff.workerAgentId
  handoffSha256 : ∃ answered, handoffDigest handoff = .ok answered ∧
    result.handoffSha256 = answered.val
  status : result.status ∈ statuses
  reasonCode : result.reasonCode ∈ reasonCodes
  carried : result.Carried
  producedAt : 0 < result.producedAt ∧ result.producedAt ≤ maxProducedAt
  started : handoff.issuedAt ≤ result.producedAt
  past : result.producedAt ≤ now
  running : now < handoff.expiresAt

theorem acceptedOutput_eq_ok {given hash : Value} {status : Str} {out found : Option Str}
    (unique : repeatsKey given = false) :
    acceptedOutput given hash status = .ok (out, found) ↔
      given = outputValue out ∧ hash = optionalText found ∧
        ((status = succeeded ∧ ∃ text, text ≠ [] ∧ out = some text ∧
          found = some (sha256 (canonicalBytes (payloadDict text))).val) ∨
        (status ≠ succeeded ∧ out = none ∧ found = none)) := by
  unfold acceptedOutput
  by_cases success : status = succeeded
  · simp only [success, if_true, ne_eq, not_true_eq_false, false_and, or_false, true_and, output,
      bind_eq_ok, oneText_eq_ok unique, digest_eq_ok, guarded_eq_ok, Bool.not_eq_true',
      Bool.not_eq_false, pure_eq_ok, Prod.mk.injEq]
    constructor
    · rintro ⟨text, ⟨rfl, nonempty⟩, hash, ⟨rfl, _⟩, same, compared, rfl, rfl, rfl⟩
      obtain rfl := compareDigest_hash.mp compared
      exact ⟨rfl, rfl, text, nonempty, rfl, rfl⟩
    · rintro ⟨rfl, rfl, text, nonempty, rfl, rfl⟩
      exact ⟨text, ⟨rfl, nonempty⟩, _, ⟨rfl, (sha256 _).property⟩, true, compareDigest_hash.mpr rfl,
        rfl, rfl, rfl⟩
  · simp only [success, if_false, ne_eq, not_false_eq_true, false_and, false_or, true_and,
      guarded_eq_ok, Bool.not_eq_true', Bool.not_eq_false, Bool.and_eq_true, isNone_eq_true,
      pure_eq_ok, Prod.mk.injEq]
    constructor
    · rintro ⟨⟨rfl, rfl⟩, rfl, rfl⟩
      exact ⟨rfl, rfl, rfl, rfl⟩
    · rintro ⟨rfl, rfl, rfl, rfl⟩
      exact ⟨⟨rfl, rfl⟩, rfl, rfl⟩

theorem inTime_eq_ok {producedAt : Int} : inTime producedAt handoff now = .ok () ↔
    (0 < producedAt ∧ producedAt ≤ maxProducedAt) ∧ handoff.issuedAt ≤ producedAt ∧
      producedAt ≤ now ∧ now < handoff.expiresAt := by
  simp only [inTime, guarded_eq_ok, not_not, not_lt, not_le, and_true]
  omega

/-- Everything `accept` asks of a wire, for a handoff with identifiers it can
compare. -/
theorem accept_eq_ok (jobId : handoff.jobId ≠ []) (workerAgentId : handoff.workerAgentId ≠ [])
    (asciiJob : handoff.jobId.all (·.val < 128) = true)
    (asciiWorker : handoff.workerAgentId.all (·.val < 128) = true) :
    accept interpreter (some wire) handoff verifier now = .ok result ↔
      ∃ read, decodeWire interpreter (some wire) resultKeys "result" = .ok read ∧
        Agrees read result.fields ∧ isHexText 128 result.signature = true ∧
        verifier.verifies (canonicalBytes (.dict result.bodyFields)) (fromHex result.signature) =
          true ∧ result.Answers handoff now := by
  constructor
  · intro accepted
    unfold accept at accepted
    obtain ⟨signed, readable, accepted⟩ := bind_eq_ok.mp accepted
    unfold signedFields at readable
    obtain ⟨read, decoded, readable⟩ := bind_eq_ok.mp readable
    obtain ⟨_, _, _, unique, named, _⟩ := decodeWire_eq_ok decoded
    simp only [bind_eq_ok, string_eq_ok, digest_eq_ok, reasonCode_eq_ok, integer_eq_ok,
      guarded_eq_ok, pure_eq_ok] at readable
    obtain ⟨version, ⟨v, _⟩, jobId, ⟨j, _⟩, workerAgentId, ⟨w, _⟩, status, ⟨s, _⟩, code, ⟨r, _⟩,
      signature, ⟨g, _⟩, handoffSha256, ⟨h, _⟩, _, ⟨known, rfl⟩, producedAt, p, verified, recognised,
      allowed, rfl⟩ := readable
    simp only [bind_eq_ok, pure_eq_ok, Prod.exists,
      acceptedOutput_eq_ok (repeatsKey_lookup unique _)] at accepted
    obtain ⟨answered, digested, _, jobBound, _, workerBound, _, digestBound, out, hash,
      ⟨o, d, carried⟩, _, timed, rfl⟩ := accepted
    obtain ⟨_, _, sameJob⟩ := bound_eq_ok.mp jobBound
    obtain ⟨_, _, sameWorker⟩ := bound_eq_ok.mp workerBound
    obtain ⟨_, _, sameDigest⟩ := bound_eq_ok.mp digestBound
    obtain ⟨bounds, started, past, running⟩ := inTime_eq_ok.mp timed
    simp only [Bool.not_eq_true', Bool.not_eq_false, Bool.and_eq_true] at verified
    have agrees : Agrees read (Result.fields ⟨version, jobId, workerAgentId, handoffSha256, status,
        code, out, hash, producedAt, signature⟩) := by
      simp only [Agrees, Result.fields, Result.bodyFields, List.cons_append, List.nil_append,
        List.forall_mem_cons, List.not_mem_nil, false_implies, implies_true, and_true]
      exact ⟨v, j, w, h, s, r, o, d, p, g⟩
    rw [canonicalBytes_signedResult unique named agrees] at verified
    exact ⟨read, decoded, agrees, verified.1, verified.2, not_not.mp recognised, sameJob, sameWorker,
      ⟨answered, digested, sameDigest⟩, not_not.mp allowed, known, carried, bounds, started, past,
      running⟩
  · rintro ⟨read, decoded, agrees, hexadecimal, verified, answers⟩
    obtain ⟨_, _, _, unique, named, _⟩ := decodeWire_eq_ok decoded
    rw [← canonicalBytes_signedResult unique named agrees] at verified
    simp only [Agrees, Result.fields, Result.bodyFields, List.cons_append, List.nil_append,
      List.forall_mem_cons, List.not_mem_nil, false_implies, implies_true, and_true] at agrees
    obtain ⟨v, j, w, h, s, r, o, d, p, g⟩ := agrees
    obtain ⟨answered, digested, sameDigest⟩ := answers.handoffSha256
    have versioned : result.version ≠ [] := by
      rw [answers.version]
      decide
    have states : ∀ status ∈ statuses, status ≠ [] := by decide
    have codes : ∀ code ∈ reasonCodes, code ≠ [] := by decide
    have signed : result.signature ≠ [] := by
      rintro empty
      rw [empty] at hexadecimal
      cases hexadecimal
    have hashed : isHexText 64 result.handoffSha256 = true := by
      rw [sameDigest]
      exact answered.property
    have readable : signedFields interpreter (some wire) verifier = .ok
        ⟨result.version, result.jobId, result.workerAgentId, result.handoffSha256, result.status,
          result.reasonCode, outputValue result.output, optionalText result.outputSha256,
          result.producedAt, result.signature⟩ := by
      unfold signedFields
      refine bind_eq_ok.mpr ⟨read, decoded, ?_⟩
      simp only [bind_eq_ok, string_eq_ok, digest_eq_ok, reasonCode_eq_ok, integer_eq_ok,
        guarded_eq_ok, pure_eq_ok, o, d]
      refine ⟨_, ⟨v, versioned⟩, _, ⟨j, answers.jobId ▸ jobId⟩, _,
        ⟨w, answers.workerAgentId ▸ workerAgentId⟩, _, ⟨s, states _ answers.status⟩, _,
        ⟨r, codes _ answers.reasonCode⟩, _, ⟨g, signed⟩, _, ⟨h, hashed⟩, _,
        ⟨answers.reasonCode, rfl⟩, _, p, ?_, not_not.mpr answers.version,
        not_not.mpr answers.status, rfl⟩
      simp only [hexadecimal, verified]
      decide
    have whole : repeatsKey (outputValue result.output) = false := by cases result.output <;> rfl
    unfold accept
    refine bind_eq_ok.mpr ⟨_, readable, ?_⟩
    simp only [bind_eq_ok, pure_eq_ok, Prod.exists, acceptedOutput_eq_ok whole]
    exact ⟨answered, digested, (),
      bound_eq_ok.mpr ⟨answers.jobId ▸ asciiJob, asciiJob, answers.jobId⟩, (),
      bound_eq_ok.mpr ⟨answers.workerAgentId ▸ asciiWorker, asciiWorker, answers.workerAgentId⟩, (),
      bound_eq_ok.mpr ⟨ascii_of_isHexText hashed, ascii_of_isHexText answered.property, sameDigest⟩,
      _, _, ⟨rfl, rfl, answers.carried⟩, (),
      inTime_eq_ok.mpr ⟨answers.producedAt, answers.started, answers.past, answers.running⟩, rfl⟩

end Accepting

section Producing

variable {interpreter : Interpreter} {wire : Bytes} {handoff : Handoff} {result : Result}
  {authority : WorkerAuthority} {answered : Digest} {status code : Str} {given : Value}
  {text : Option Str} {now time : Int}

theorem producedOutput_eq_ok : producedOutput given status = .ok text ↔
    (status = succeeded ∧ ∃ found, output given = .ok found ∧ some found = text) ∨
      (status ≠ succeeded ∧ given = .null ∧ none = text) := by
  unfold producedOutput
  by_cases success : status = succeeded
  · simp only [success, if_true, bind_eq_ok, pure_eq_ok, true_and, ne_eq, not_true_eq_false,
      false_and, or_false]
  · simp only [success, if_false, guarded_eq_ok, Bool.not_eq_true', Bool.not_eq_false,
      isNone_eq_true, pure_eq_ok, false_and, ne_eq, not_false_eq_true, true_and, false_or]

/-- Everything `produce` asks before it returns a wire. -/
theorem produce_eq_ok : produce interpreter given handoff status code authority now = .ok wire ↔
    (0 < now ∧ now ≤ maxProducedAt) ∧ handoff.issuedAt ≤ now ∧ now < handoff.expiresAt ∧
      status ∈ statuses ∧ ∃ answered, handoffDigest handoff = .ok answered ∧ code ∈ reasonCodes ∧
      ∃ text, producedOutput given status = .ok text ∧
        canonical interpreter
          (producedResult text handoff answered status code authority now).toDict = .ok wire ∧
        ∃ read, decodeWire interpreter (some wire) resultKeys "result" = .ok read := by
  simp only [produce, guarded_eq_ok, not_not, not_lt, not_le, bind_eq_ok, reasonCode_eq_ok,
    pure_eq_ok]
  constructor
  · rintro ⟨bounds, started, running, allowed, answered, digested, _, ⟨known, rfl⟩, text, carried,
      data, encoded, read, decoded, rfl⟩
    exact ⟨bounds, started, running, allowed, answered, digested, known, text, carried, encoded,
      read, decoded⟩
  · rintro ⟨bounds, started, running, allowed, answered, digested, known, text, carried, encoded,
      read, decoded⟩
    exact ⟨bounds, started, running, allowed, answered, digested, code, ⟨known, rfl⟩, text, carried,
      wire, encoded, read, decoded, rfl⟩

/-- A result with the fields, digest and signature of a produced one is produced. -/
theorem eq_producedResult (version : result.version = resultVersion)
    (jobId : result.jobId = handoff.jobId) (workerAgentId : result.workerAgentId = handoff.workerAgentId)
    (handoffSha256 : result.handoffSha256 = answered.val)
    (hashed : result.outputSha256 =
      result.output.map fun text => (sha256 (canonicalBytes (payloadDict text))).val)
    (signed : result.signature = hex (authority.sign (canonicalBytes (.dict result.bodyFields)))) :
    result = producedResult result.output handoff answered result.status result.reasonCode authority
      result.producedAt := by
  obtain ⟨_, _, _, _, status, code, out, _, producedAt, signature⟩ := result
  dsimp only at version jobId workerAgentId handoffSha256 hashed signed ⊢
  subst version jobId workerAgentId handoffSha256 hashed
  rw [signed]
  rfl

/-- What is signed of a result, as it comes back from its wire: only the text of
the output can change. -/
theorem decoded_resultBody
    (plain : ∀ text ∈ [result.version, result.jobId, result.workerAgentId, result.handoffSha256,
      result.status, result.reasonCode], joinSurrogates text = text)
    (hash : ∀ text ∈ result.outputSha256, joinSurrogates text = text) :
    (result.bodyFields.map fun field => (field.1, field.2.decoded)) =
      { result with output := result.output.map joinSurrogates }.bodyFields := by
  simp only [List.forall_mem_cons, List.not_mem_nil, false_implies, implies_true, and_true] at plain
  obtain ⟨v, j, w, h, s, r⟩ := plain
  have out : (outputValue result.output).decoded = outputValue (result.output.map joinSurrogates) := by
    cases result.output <;> rfl
  have digested : (optionalText result.outputSha256).decoded = optionalText result.outputSha256 := by
    cases found : result.outputSha256 with
    | none => rfl
    | some text => rw [optionalText, Value.decoded_str, hash text found]
  simp only [Result.bodyFields, List.map_cons, List.map_nil, Value.decoded_str, Value.decoded_int,
    out, digested, v, j, w, h, s, r]

/-- A produced result as it comes back from its wire is the one produced for the
decoded text. -/
theorem producedResult_joinSurrogates
    (plain : ∀ text ∈ [handoff.jobId, handoff.workerAgentId, status, code],
      joinSurrogates text = text) :
    ((producedResult text handoff answered status code authority now).fields.map fun field =>
        (field.1, field.2.decoded)) =
      (producedResult (text.map joinSurrogates) handoff answered status code authority now).fields := by
  simp only [List.forall_mem_cons, List.not_mem_nil, false_implies, implies_true, and_true] at plain
  obtain ⟨j, w, s, r⟩ := plain
  let made := producedResult text handoff answered status code authority now
  let returned : Result := { made with output := text.map joinSurrogates }
  have body : (made.bodyFields.map fun field => (field.1, field.2.decoded)) = returned.bodyFields := by
    have named : joinSurrogates resultVersion = resultVersion := by decide
    refine decoded_resultBody ?_ fun hash found => ?_
    · simp only [List.forall_mem_cons, List.not_mem_nil, false_implies, implies_true, and_true]
      exact ⟨named, j, w, joinSurrogates_of_isHexText answered.property, s, r⟩
    · obtain ⟨inner, _, rfl⟩ := Option.mem_map.mp found
      exact joinSurrogates_of_isHexText (sha256 _).property
  have neat := (Value.tidy_dict.mp (tidy_resultFields made)).2.2
  have texts : dumps (.dict returned.bodyFields) = dumps (.dict made.bodyFields) := by
    rw [← body]
    exact Value.dumps_dict_congr fun field member =>
      Value.dumps_decoded (neat field (List.mem_append_left _ member))
  have same : returned =
      producedResult (text.map joinSurrogates) handoff answered status code authority now := by
    refine eq_producedResult rfl rfl rfl rfl ?_ ?_
    · change (text.map fun text => (sha256 (canonicalBytes (payloadDict text))).val) =
        (text.map joinSurrogates).map fun text => (sha256 (canonicalBytes (payloadDict text))).val
      rw [Option.map_map]
      refine Option.map_congr fun inner _ => ?_
      rw [Function.comp_apply, canonicalBytes_payloadDict_joinSurrogates]
    · rw [canonicalBytes, texts]
      rfl
  have written : joinSurrogates made.signature = made.signature :=
    joinSurrogates_of_isHexText (isHexText_hex _)
  rw [← same, Result.fields, Result.fields, List.map_append, body, List.map_singleton,
    Value.decoded_str, written]

/-- The wire of a signed result reads back as the result for the decoded text. -/
theorem agrees_of_canonical
    (jobId : handoff.jobId.all (·.val < 128) = true)
    (workerAgentId : handoff.workerAgentId.all (·.val < 128) = true)
    (allowed : status ∈ statuses) (known : code ∈ reasonCodes) {read : List (Str × Value)}
    (encoded : canonical interpreter
      (producedResult text handoff answered status code authority time).toDict = .ok wire)
    (decoded : decodeWire interpreter (some wire) resultKeys "result" = .ok read) :
    Agrees read (producedResult (text.map joinSurrogates) handoff answered status code authority
      time).fields := by
  obtain ⟨_, same, short, _⟩ := decodeWire_eq_ok decoded
  obtain rfl := Option.some.inj same
  let made := producedResult text handoff answered status code authority time
  have back : decodeWire interpreter (some wire) resultKeys "result" =
      .ok ((sortKeys made.fields).map fun field => (field.1, field.2.decoded)) :=
    decodeWire_canonical (tidy_resultFields made) (floatless_resultFields made)
      (depth_resultFields_le made) (hasKeys_resultFields made) encoded short
  obtain rfl := Except.ok.inj (back.symm.trans decoded)
  have states : ∀ status ∈ statuses, joinSurrogates status = status := by decide
  have codes : ∀ code ∈ reasonCodes, joinSurrogates code = code := by decide
  have ascii {text : Str} (all : text.all (·.val < 128) = true) : joinSurrogates text = text := by
    refine joinSurrogates_of_ascii fun c member => ?_
    have low := of_decide_eq_true (List.all_eq_true.mp all c member)
    omega
  rw [← producedResult_joinSurrogates (by
    simp only [List.forall_mem_cons, List.not_mem_nil, false_implies, implies_true, and_true]
    exact ⟨ascii jobId, ascii workerAgentId, states _ allowed, codes _ known⟩)]
  exact agrees_decoded (nodup_keys_resultFields made)

/-- The wire of a produced result reads back as the result for the decoded text. -/
theorem agrees_of_produce
    (jobId : handoff.jobId.all (·.val < 128) = true)
    (workerAgentId : handoff.workerAgentId.all (·.val < 128) = true)
    (produced : produce interpreter given handoff status code authority time = .ok wire) :
    ∃ answered text read, handoffDigest handoff = .ok answered ∧
      producedOutput given status = .ok text ∧
      decodeWire interpreter (some wire) resultKeys "result" = .ok read ∧
      Agrees read (producedResult (text.map joinSurrogates) handoff answered status code authority
        time).fields := by
  obtain ⟨_, _, _, allowed, answered, digested, known, text, carried, encoded, read, decoded⟩ :=
    produce_eq_ok.mp produced
  exact ⟨answered, text, read, digested, carried, decoded,
    agrees_of_canonical jobId workerAgentId allowed known encoded decoded⟩

theorem signature_producedResult (text : Option Str) (handoff : Handoff) (answered : Digest)
    (status code : Str) (authority : WorkerAuthority) (now : Int) :
    isHexText 128 (producedResult text handoff answered status code authority now).signature = true ∧
      authority.verifier.verifies
        (canonicalBytes (.dict
          (producedResult text handoff answered status code authority now).bodyFields))
        (fromHex (producedResult text handoff answered status code authority now).signature) =
          true := by
  let made := producedResult text handoff answered status code authority now
  have signed : made.signature = hex (authority.sign (canonicalBytes (.dict made.bodyFields))) := rfl
  change isHexText 128 made.signature = true ∧ authority.verifier.verifies
    (canonicalBytes (.dict made.bodyFields)) (fromHex made.signature) = true
  rw [signed]
  constructor
  · have sized := isHexText_hex (authority.sign (canonicalBytes (.dict made.bodyFields)))
    rwa [authority.length_sign] at sized
  · rw [fromHex_hex]
    exact authority.sign_verifies _

/-- Digests and signature have fixed lengths, so the length of a wire depends on
its other fields only. -/
theorem length_toBytes_produced (text : Str) (handoff : Handoff) (answered : Digest)
    (status code : Str) (authority : WorkerAuthority) (now : Int) :
    (producedResult (some text) handoff answered status code authority now).toBytes.length =
      (dumps (.str handoff.jobId)).length + (dumps (.str handoff.workerAgentId)).length +
        (dumps (.str status)).length + (dumps (.str code)).length +
        (dumps (payloadDict text)).length + (dumps (.int now)).length + 422 := by
  let made := producedResult (some text) handoff answered status code authority now
  have signed : isHexText 128 made.signature = true := (signature_producedResult _ _ _ _ _ _ _).1
  have shape : made.toDict = .dict [(str "version", .str resultVersion),
      (str "job_id", .str handoff.jobId), (str "worker_agent_id", .str handoff.workerAgentId),
      (str "handoff_sha256", .str answered.val), (str "status", .str status),
      (str "reason_code", .str code), (str "output", payloadDict text),
      (str "output_sha256", .str (sha256 (canonicalBytes (payloadDict text))).val),
      (str "produced_at", .int now), (str "signature", .str made.signature)] := rfl
  have keyLengths : (quote (str "version")).length = 9 ∧ (quote (str "job_id")).length = 8 ∧
      (quote (str "worker_agent_id")).length = 17 ∧ (quote (str "handoff_sha256")).length = 16 ∧
      (quote (str "status")).length = 8 ∧ (quote (str "reason_code")).length = 13 ∧
      (quote (str "output")).length = 8 ∧ (quote (str "output_sha256")).length = 15 ∧
      (quote (str "produced_at")).length = 13 ∧ (quote (str "signature")).length = 11 ∧
      (dumps (.str resultVersion)).length = 21 := by
    decide
  change made.toBytes.length = _
  rw [Result.toBytes, length_canonicalBytes, shape, length_dumps_dict (List.cons_ne_nil _ _)]
  simp only [List.map_cons, List.map_nil, List.sum_cons, List.sum_nil, fieldLength, keyLengths,
    length_dumps_hex signed, length_dumps_hex answered.property,
    length_dumps_hex (sha256 (canonicalBytes (payloadDict text))).property]
  omega

theorem carried_producedResult (carried : producedOutput given status = .ok text) :
    (producedResult (text.map joinSurrogates) handoff answered status code authority time).Carried := by
  rcases producedOutput_eq_ok.mp carried with ⟨success, found, read, rfl⟩ | ⟨failure, _, rfl⟩
  · exact .inl ⟨success, joinSurrogates found, joinSurrogates_ne_nil (ne_nil_of_oneText read), rfl, rfl⟩
  · exact .inr ⟨failure, rfl, rfl⟩

end Producing

section Agreement

variable {interpreter : Interpreter} {handoff : Handoff} {authority : WorkerAuthority}

/-- A handoff as `validate` or `validate_pending` returns it. -/
def IsValidated (interpreter : Interpreter) (handoff : Handoff) : Prop :=
  ∃ wire presented verifier, validate interpreter wire presented verifier = .ok handoff ∨
    validatePending interpreter wire presented verifier = .ok handoff

theorem IsValidated.exists_validated (validated : IsValidated interpreter handoff) :
    ∃ wire presented verifier pending,
      Validated interpreter wire presented verifier pending handoff := by
  obtain ⟨wire, presented, verifier, direct | waiting⟩ := validated
  · exact ⟨wire, presented, verifier, false, validate_validated direct⟩
  · exact ⟨wire, presented, verifier, true, validatePending_validated waiting⟩

theorem IsValidated.hashed (validated : IsValidated interpreter handoff) :
    handoff.payloadSha256 = (sha256 (canonicalBytes (payloadDict handoff.payload))).val := by
  obtain ⟨_, _, _, _, known⟩ := validated.exists_validated
  exact known.hashed

theorem IsValidated.named (validated : IsValidated interpreter handoff) :
    handoff.jobId ≠ [] ∧ handoff.workerAgentId ≠ [] := by
  obtain ⟨_, presented, _, _, known⟩ := validated.exists_validated
  obtain ⟨grant, _, granted, _⟩ := known.granted
  rw [granted.jobId, granted.workerAgentId]
  exact ⟨known.named, grant.texts_nonempty.2.1⟩

variable (validated : IsValidated interpreter handoff)
  (jobId : handoff.jobId.all (·.val < 128) = true)
  (workerAgentId : handoff.workerAgentId.all (·.val < 128) = true)

include validated jobId workerAgentId

theorem accept_of_produce {given : Value} {status code : Str} {time now : Int} {wire : Bytes}
    (past : time ≤ now) (running : now < handoff.expiresAt)
    (produced : produce interpreter given handoff status code authority time = .ok wire) :
    ∃ result, accept interpreter (some wire) handoff authority.verifier now = .ok result := by
  obtain ⟨bounds, started, _, allowed, _, _, known, _⟩ := produce_eq_ok.mp produced
  obtain ⟨answered, text, read, digested, carried, decoded, agrees⟩ :=
    agrees_of_produce jobId workerAgentId produced
  obtain ⟨hexadecimal, verified⟩ := signature_producedResult (text.map joinSurrogates) handoff
    answered status code authority time
  have answers : (producedResult (text.map joinSurrogates) handoff answered status code authority
      time).Answers handoff now :=
    ⟨rfl, rfl, rfl, ⟨answered, digested, rfl⟩, allowed, known, carried_producedResult carried, bounds,
      started, past, running⟩
  exact ⟨_, (accept_eq_ok validated.named.1 validated.named.2 jobId workerAgentId).mpr
    ⟨read, decoded, agrees, hexadecimal, verified, answers⟩⟩

theorem produce_of_accept {result : Result} {now : Int} {wire : Bytes}
    (exact_ : ∀ message signature,
      authority.verifier.verifies message signature = true ↔ signature = authority.sign message)
    (accepted : accept interpreter (some wire) handoff authority.verifier now = .ok result) :
    canonical interpreter result.toDict = .ok wire ∧
      produce interpreter (outputValue result.output) handoff result.status result.reasonCode
        authority result.producedAt = .ok wire := by
  obtain ⟨read, decoded, agrees, hexadecimal, verified, answers⟩ :=
    (accept_eq_ok validated.named.1 validated.named.2 jobId workerAgentId).mp accepted
  obtain ⟨_, same, _, unique, named, encoded⟩ := decodeWire_eq_ok decoded
  obtain rfl := Option.some.inj same
  obtain ⟨answered, digested, sameDigest⟩ := answers.handoffSha256
  have written : canonical interpreter result.toDict = .ok wire :=
    canonical_of_agrees (nodup_of_repeatsKey unique).1 (nodup_keys_resultFields result) named agrees
      (depth_resultFields_le result) encoded
  have signed : result.signature = hex (authority.sign (canonicalBytes (.dict result.bodyFields))) := by
    have sized : isHexText (2 * 64) result.signature = true := hexadecimal
    rw [← (exact_ _ _).mp verified, hex_fromHex sized]
  have hashed : result.outputSha256 =
      result.output.map fun text => (sha256 (canonicalBytes (payloadDict text))).val := by
    rcases answers.carried with ⟨_, text, _, out, hash⟩ | ⟨_, out, hash⟩
    · rw [out, hash, Option.map_some]
    · rw [out, hash, Option.map_none]
  have produced := eq_producedResult answers.version answers.jobId answers.workerAgentId sameDigest
    hashed signed
  have carried : producedOutput (outputValue result.output) result.status = .ok result.output := by
    refine producedOutput_eq_ok.mpr ?_
    rcases answers.carried with ⟨success, text, nonempty, out, _⟩ | ⟨failure, out, _⟩
    · rw [out]
      exact .inl ⟨success, text, (oneText_eq_ok rfl).mpr ⟨rfl, nonempty⟩, rfl⟩
    · rw [out]
      exact .inr ⟨failure, rfl, rfl⟩
  refine ⟨written, produce_eq_ok.mpr ⟨answers.producedAt, answers.started, ?_, answers.status,
    answered, digested, answers.reasonCode, result.output, carried, ?_, read, decoded⟩⟩
  · have past := answers.past
    have running := answers.running
    omega
  · rwa [← produced]

/-- Whatever a wire was produced from, an accepted result says it. -/
theorem fields_of_produce {result : Result} {given : Value} {status code : Str} {time now : Int}
    {wire : Bytes} (unique : repeatsKey given = false)
    (accepted : accept interpreter (some wire) handoff authority.verifier now = .ok result)
    (produced : produce interpreter given handoff status code authority time = .ok wire) :
    result.status = status ∧ result.reasonCode = code ∧ result.producedAt = time ∧
      outputValue result.output = given.decoded := by
  obtain ⟨read, decoded, agrees, _⟩ :=
    (accept_eq_ok validated.named.1 validated.named.2 jobId workerAgentId).mp accepted
  obtain ⟨answered, text, again, _, carried, decodedAgain, agreesAgain⟩ :=
    agrees_of_produce jobId workerAgentId produced
  obtain rfl := Except.ok.inj (decoded.symm.trans decodedAgain)
  obtain rfl := result_eq_of_agrees agrees agreesAgain
  refine ⟨rfl, rfl, rfl, ?_⟩
  rcases producedOutput_eq_ok.mp carried with ⟨_, found, output, rfl⟩ | ⟨_, rfl, rfl⟩
  · obtain ⟨rfl, _⟩ := (oneText_eq_ok unique).mp output
    rfl
  · rfl

omit validated jobId workerAgentId

/-- A wire is accepted exactly when it is produced in time, and then the result
says what was produced. -/
theorem accept_iff_produced
    (exact_ : ∀ message signature,
      authority.verifier.verifies message signature = true ↔ signature = authority.sign message)
    (validated : IsValidated interpreter handoff)
    (jobId : handoff.jobId.all (·.val < 128) = true)
    (workerAgentId : handoff.workerAgentId.all (·.val < 128) = true) (wire : Bytes) (now : Int) :
    ((∃ result, accept interpreter (some wire) handoff authority.verifier now = .ok result) ↔
      ∃ given status code time, time ≤ now ∧ now < handoff.expiresAt ∧
        produce interpreter given handoff status code authority time = .ok wire) ∧
    ∀ result, accept interpreter (some wire) handoff authority.verifier now = .ok result →
      canonical interpreter result.toDict = .ok wire ∧
      (result.output = none ↔ result.status = failed) ∧
      result.jobId = handoff.jobId ∧ result.workerAgentId = handoff.workerAgentId ∧
      produce interpreter (outputValue result.output) handoff result.status result.reasonCode
        authority result.producedAt = .ok wire ∧
      ∀ given status code time, repeatsKey given = false →
        produce interpreter given handoff status code authority time = .ok wire →
        result.status = status ∧ result.reasonCode = code ∧ result.producedAt = time ∧
          outputValue result.output = given.decoded := by
  refine ⟨⟨?_, ?_⟩, fun result accepted => ?_⟩
  · rintro ⟨result, accepted⟩
    obtain ⟨_, _, _, _, _, answers⟩ :=
      (accept_eq_ok validated.named.1 validated.named.2 jobId workerAgentId).mp accepted
    exact ⟨_, _, _, _, answers.past, answers.running,
      (produce_of_accept validated jobId workerAgentId exact_ accepted).2⟩
  · rintro ⟨given, status, code, time, past, running, produced⟩
    exact accept_of_produce validated jobId workerAgentId past running produced
  · obtain ⟨written, produced⟩ :=
      produce_of_accept validated jobId workerAgentId exact_ accepted
    obtain ⟨_, _, _, _, _, answers⟩ :=
      (accept_eq_ok validated.named.1 validated.named.2 jobId workerAgentId).mp accepted
    have apart : succeeded ≠ failed := by decide
    refine ⟨written, ?_, answers.jobId, answers.workerAgentId, produced,
      fun given status code time unique => fields_of_produce validated jobId workerAgentId unique accepted⟩
    rcases answers.carried with ⟨success, text, _, out, _⟩ | ⟨failure, out, _⟩
    · rw [out, success]
      exact ⟨fun absurd => (nomatch absurd), fun same => (apart same).elim⟩
    · have state : result.status = succeeded ∨ result.status = failed :=
        List.mem_pair.mp answers.status
      exact ⟨fun _ => state.resolve_left failure, fun _ => out⟩

end Agreement

/-- A worker authority whose one signature of a message is made of its digest. -/
def digestWorker : WorkerAuthority where
  sign := digestSigner.sign
  verifier := ⟨digestSigner.verifier.verifies⟩
  sign_verifies := digestSigner.sign_verifies
  length_sign := digestSigner.length_sign

def demoResult : Result :=
  producedResult (some (str "Summary")) (demoHandoff false) (sha256 (demoHandoff false).toBytes)
    succeeded (str "WORK_COMPLETED") digestWorker 110

theorem length_demoResult : demoResult.toBytes.length ≤ maxWireBytes := by
  have length := length_toBytes_produced (str "Summary") (demoHandoff false)
    (sha256 (demoHandoff false).toBytes) succeeded (str "WORK_COMPLETED") digestWorker 110
  have known : (dumps (.str (demoHandoff false).jobId)).length +
      (dumps (.str (demoHandoff false).workerAgentId)).length + (dumps (.str succeeded)).length +
      (dumps (.str (str "WORK_COMPLETED"))).length + (dumps (payloadDict (str "Summary"))).length +
      (dumps (.int 110)).length ≤ 100 := by
    decide +kernel
  unfold demoResult
  rw [length]
  exact (Nat.add_le_add_right known 422).trans (by decide)

theorem produce_demo : produce literalInterpreter (payloadDict (str "Summary")) (demoHandoff false)
    succeeded (str "WORK_COMPLETED") digestWorker 110 = .ok demoResult.toBytes := by
  have encoded : canonical literalInterpreter demoResult.toDict = .ok demoResult.toBytes := by
    refine canonical_eq_ok.mpr ⟨?_, rfl, rfl⟩
    exact (depth_resultFields_le demoResult).trans (by decide)
  have carried : producedOutput (payloadDict (str "Summary")) succeeded = .ok (some (str "Summary")) :=
    rfl
  have decoded : decodeWire literalInterpreter (some demoResult.toBytes) resultKeys "result" =
      .ok ((sortKeys demoResult.fields).map fun field => (field.1, field.2.decoded)) :=
    decodeWire_canonical (tidy_resultFields demoResult) (floatless_resultFields demoResult)
      (depth_resultFields_le demoResult) (hasKeys_resultFields demoResult) encoded length_demoResult
  exact produce_eq_ok.mpr ⟨by decide, by decide, by decide, by decide, _,
    handoffDigest_eq_ok.mpr ⟨rfl, rfl⟩, by decide, _, carried, encoded, _, decoded⟩

theorem validated_demo : IsValidated literalInterpreter (demoHandoff false) :=
  ⟨_, _, _, .inl (validate_demo le_rfl (by decide))⟩

theorem accept_iff_produced_demo : ∃ result,
    accept literalInterpreter (some demoResult.toBytes) (demoHandoff false) digestWorker.verifier 120 =
      .ok result ∧
    canonical literalInterpreter result.toDict = .ok demoResult.toBytes ∧
    result.status = succeeded ∧ outputValue result.output = payloadDict (str "Summary") := by
  have scheme : ∀ message signature, digestWorker.verifier.verifies message signature = true ↔
      signature = digestWorker.sign message := fun message signature => decide_eq_true_iff
  obtain ⟨accepts, carries⟩ := accept_iff_produced scheme validated_demo (by decide) (by decide)
    demoResult.toBytes 120
  obtain ⟨result, accepted⟩ := accepts.mpr ⟨_, _, _, 110, by decide, by decide, produce_demo⟩
  obtain ⟨written, _, _, _, _, given⟩ := carries result accepted
  obtain ⟨status, _, _, out⟩ := given _ _ _ _ rfl produce_demo
  exact ⟨result, accepted, written, status, out⟩

end Results

end GeniusNew
