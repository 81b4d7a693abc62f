import Mathlib.Algebra.Order.BigOperators.Group.List
import GeniusNew.Approvals.Admission
import GeniusNew.WorkerService.Lease

/-! # The worker's side of an exchange

The worker reads the request from its descriptor, checks it against its ceiling and
encodes it again to name it in its result. For the payload of a handoff both sides
have the same request: the same text, and the same bytes under the digest.
-/

namespace GeniusNew

open Json Raising

namespace WorkerService

/-- What one wait for the Core's bytes ends with. -/
inductive Arrival where
  | late
  | blocked
  | failed
  | arrived (size : Nat)

/-- The worker's descriptor: what the Core has sent, and how it comes in. -/
structure Descriptor where
  incoming : Bytes
  arrivals : List Arrival

abbrev Plain (α : Type) := Raising Descriptor Raised α

/-- The loop of `_plain_exact` over what the waits end with. -/
def plainReceive : Nat → List Arrival → Bytes → Outcome Bytes × Descriptor
  | 0, arrivals, incoming => (.ok [], ⟨incoming, arrivals⟩)
  | _ + 1, [], incoming => (fail "worker service input deadline exceeded", ⟨incoming, []⟩)
  | _ + 1, .late :: arrivals, incoming =>
      (fail "worker service input deadline exceeded", ⟨incoming, arrivals⟩)
  | length + 1, .blocked :: arrivals, incoming => plainReceive (length + 1) arrivals incoming
  | _ + 1, .failed :: arrivals, incoming =>
      (fail "worker service input cannot be read", ⟨incoming, arrivals⟩)
  | _ + 1, .arrived _ :: arrivals, [] =>
      (fail "worker service input was truncated", ⟨[], arrivals⟩)
  | length + 1, .arrived size :: arrivals, b :: incoming =>
      let data := incoming.take (min length size)
      let rest := plainReceive (length - data.length) arrivals (incoming.drop data.length)
      (rest.1.map (b :: data ++ ·), rest.2)

/-- `_plain_exact`. -/
def plainExact (length : Nat) : Plain Bytes :=
  .ofStep fun descriptor => plainReceive length descriptor.arrivals descriptor.incoming

/-- `_plain_frame`. -/
def plainFrame (interpreter : Interpreter) (limit : Nat) : Plain (List (Str × Value)) := do
  let header ← plainExact 4
  if unpackHeader header = 0 ∨ unpackHeader header > limit then
    throw (.contractError "worker service input length is invalid")
  else do
    let data ← plainExact (unpackHeader header)
    .ofExcept (decodeFrame interpreter "worker service input" data)

/-- `_plain_expect_eof`. -/
def plainExpectEof : Plain Unit := .ofStep fun descriptor =>
  match descriptor.arrivals with
  | [] => (fail "worker service request end deadline exceeded", descriptor)
  | .late :: arrivals =>
      (fail "worker service request end deadline exceeded", { descriptor with arrivals })
  | .blocked :: arrivals => (fail "worker service request end is ambiguous", { descriptor with arrivals })
  | .failed :: arrivals => (fail "worker service request end cannot be read", { descriptor with arrivals })
  | .arrived _ :: arrivals =>
      match descriptor.incoming with
      | [] => (.ok (), { descriptor with arrivals })
      | _ :: incoming => (fail "worker service received bytes after its request", ⟨incoming, arrivals⟩)

/-- A request the worker has accepted: the text it runs on, the digest its result
will name, and the limits it runs under. -/
structure Accepted where
  text : Str
  requestDigest : Digest
  limits : IsolationLimits

/-- `request["payload"]["text"]`. -/
def payloadText (fields : List (Str × Value)) : Str :=
  match ((fields.lookup (str "payload")).getD .null).get? (str "text") with
  | some (.str text) => text
  | _ => []

/-- `_run_service_connection` between its READY and the run of the worker. -/
def acceptRequest (interpreter : Interpreter) (nonce : Str) (ceiling : IsolationLimits) :
    Plain Accepted := do
  let request ← plainFrame interpreter payloadLimit
  let requested ← .ofExcept (validateRequest request nonce ceiling)
  plainExpectEof
  let requestWire ← .ofExcept (canonical interpreter (.dict request))
  return ⟨payloadText request, sha256 requestWire, requested⟩

section Arriving

/-- In however many pieces they arrive, the bytes asked for are the next ones. -/
theorem plainReceive_arrived (data rest : Bytes) (sizes : List Nat)
    (enough : data.length ≤ sizes.length) :
    ∃ left : List Nat, sizes.length ≤ left.length + data.length ∧
      plainReceive data.length (sizes.map .arrived) (data ++ rest) =
        (.ok data, ⟨rest, left.map .arrived⟩) := by
  induction sizes generalizing data with
  | nil =>
      obtain rfl := List.length_eq_zero_iff.mp (Nat.le_zero.mp enough)
      exact ⟨[], le_rfl, rfl⟩
  | cons size sizes ih =>
      cases data with
      | nil => exact ⟨size :: sizes, le_rfl, rfl⟩
      | cons b data =>
          rw [List.length_cons, List.length_cons, Nat.succ_le_succ_iff] at enough
          have short : min data.length size ≤ data.length := Nat.min_le_left _ _
          have taken : (data ++ rest).take (min data.length size) =
              data.take (min data.length size) := List.take_append_of_le_length short
          have size_taken : (data.take (min data.length size)).length = min data.length size := by
            rw [List.length_take, Nat.min_eq_left short]
          have dropped : (data ++ rest).drop (min data.length size) =
              data.drop (min data.length size) ++ rest := List.drop_append_of_le_length short
          have remains : (data.drop (min data.length size)).length =
              data.length - min data.length size := List.length_drop
          obtain ⟨left, count, received⟩ := ih (data.drop (min data.length size)) (by omega)
          refine ⟨left, ?_, ?_⟩
          · rw [List.length_cons, List.length_cons]
            omega
          · rw [List.length_cons, List.map_cons, List.cons_append, plainReceive]
            rw [taken, size_taken, dropped, ← remains, received]
            change (Except.ok (b :: data.take (min data.length size) ++
              data.drop (min data.length size)), _) = _
            rw [List.cons_append, List.take_append_drop]

end Arriving

section Codec

variable {interpreter : Interpreter} {noun : String} {fields : List (Str × Value)} {data : Bytes}

/-- A frame of tidy fields decodes to these fields. -/
theorem decodeFrame_canonical (neat : (Value.dict fields).tidy = true)
    (encoded : canonical interpreter (.dict fields) = .ok data) :
    decodeFrame interpreter noun data =
      .ok ((sortKeys fields).map fun field => (field.1, field.2.decoded)) := by
  obtain ⟨distinct, plain, _⟩ := Value.tidy_dict.mp neat
  obtain ⟨deep, printed, rfl⟩ := canonical_eq_ok.mp encoded
  have shape := Value.decoded_dict_of_keys distinct plain
  refine decodeFrame_eq_ok.mpr ⟨_, decodeAscii_canonicalBytes _, ?_, ?_⟩
  · rw [loads_dumps interpreter deep printed, ← shape]
    rfl
  · rw [← shape]
    refine canonical_eq_ok.mpr ⟨(Value.depth_decoded_le _).trans deep,
      Value.printable_decoded printed, ?_⟩
    rw [canonicalBytes, canonicalBytes, Value.dumps_decoded neat]

end Codec

section Request

variable {interpreter : Interpreter} {text nonce : Str}

theorem nodup_limitFields (limits : IsolationLimits) : (keys limits.fields).Nodup := by
  change IsolationLimits.keys.Nodup
  decide

theorem tidy_limits (limits : IsolationLimits) : limits.toDict.tidy = true := by
  refine Value.tidy_dict.mpr ⟨nodup_limitFields limits, ?_, ?_⟩
  · change ∀ key ∈ IsolationLimits.keys, joinSurrogates key = key
    decide
  · simp only [IsolationLimits.fields, List.forall_mem_cons, List.not_mem_nil, false_implies,
      implies_true, and_true]
    refine ⟨?_, rfl, rfl, rfl, rfl⟩
    cases limits.wallSeconds <;> rfl

theorem tidy_requestFields : (Value.dict (requestFields text nonce)).tidy = true := by
  refine Value.tidy_dict.mpr ⟨?_, ?_, ?_⟩
  · change requestKeys.Nodup
    decide
  · change ∀ key ∈ requestKeys, joinSurrogates key = key
    decide
  · simp only [requestFields, List.forall_mem_cons, List.not_mem_nil, false_implies, implies_true,
      and_true]
    exact ⟨rfl, rfl, rfl, rfl, rfl, tidy_limits _⟩

theorem printable_request (prints : interpreter.floatRepr IsolationLimits.twoSeconds =
    some IsolationLimits.twoSeconds) :
    (requestMessage text nonce).printable interpreter = true := by
  have ints : ∀ n : Nat, n < 10 ^ 10 → (Nat.digits 10 n).length ≤ maxIntDigits := fun n small =>
    (length_digits_of_lt 10 small).trans (by decide)
  simp only [requestMessage, requestFields, IsolationLimits.toDict, IsolationLimits.fields,
    IsolationLimits.default, Number.toValue, Value.printable, Value.printableFields, prints,
    decide_true, Bool.and_true, Bool.true_and, Bool.and_eq_true, decide_eq_true_eq]
  refine ⟨ints _ ?_, ints _ ?_, ints _ ?_, ints _ ?_, ints _ ?_⟩ <;> decide

theorem wall_toValue {seconds : Number} (inside : 1 / 20 ≤ seconds.value ∧ seconds.value ≤ 30) :
    IsolationLimits.wall seconds.toValue.decoded = .ok ⟨seconds, inside⟩ := by
  cases seconds with
  | float literal => exact dif_pos inside
  | int n =>
      have low : (0 : ℚ) < n := lt_of_lt_of_le (by norm_num) inside.1
      have high : (n : ℚ) ≤ 30 := inside.2
      have small : ¬ n.natAbs > maxFloat := by
        have positive : 0 < n := by exact_mod_cast low
        have bounded : n ≤ 30 := by exact_mod_cast high
        have large : 30 ≤ maxFloat := by decide +kernel
        omega
      change IsolationLimits.wall (.int n) = _
      rw [IsolationLimits.wall, if_neg small]
      exact dif_pos inside

theorem between_int {low high n : Int} (message : String) (inside : low ≤ n ∧ n ≤ high) :
    IsolationLimits.between low high message (.int n) = .ok ⟨n, inside⟩ := dif_pos inside

/-- Limits are what their dictionary, written and read, makes. -/
theorem ofFields_fields (limits : IsolationLimits) :
    IsolationLimits.ofFields ((sortKeys limits.fields).map fun field =>
      (field.1, field.2.decoded)) = .ok limits := by
  have found := lookup_map_sortKeys Value.decoded (nodup_limitFields limits)
  have seconds : limits.fields.lookup (str "wall_seconds") = some limits.wallSeconds.toValue := rfl
  have cpu : limits.fields.lookup (str "cpu_seconds") = some (.int limits.cpuSeconds) := rfl
  have memory : limits.fields.lookup (str "memory_bytes") = some (.int limits.memoryBytes) := rfl
  have file : limits.fields.lookup (str "max_file_bytes") = some (.int limits.maxFileBytes) := rfl
  have open_ : limits.fields.lookup (str "max_open_files") = some (.int limits.maxOpenFiles) := rfl
  unfold IsolationLimits.ofFields
  simp only [found, seconds, cpu, memory, file, open_, Option.map_some, Option.getD_some,
    Value.decoded_int, wall_toValue limits.wall_bounds, between_int _ limits.cpu_bounds,
    between_int _ limits.memory_bounds, between_int _ limits.file_bounds,
    between_int _ limits.open_bounds, bind, Except.bind]
  rfl

/-- The worker accepts the request of the Core and has its text, for a text without
surrogate pairs. -/
theorem validateRequest_received (whole : joinSurrogates text = text)
    (hexadecimal : isHexText 64 nonce = true) :
    let received := (sortKeys (requestFields text nonce)).map fun field => (field.1, field.2.decoded)
    validateRequest received nonce IsolationLimits.default = .ok IsolationLimits.default ∧
      payloadText received = text := by
  have distinct := (Value.tidy_dict.mp (@tidy_requestFields text nonce)).1
  have found := lookup_map_sortKeys Value.decoded distinct
  have named := hasKeys_map_sortKeys Value.decoded (requestFields text nonce) requestKeys
  have kind : (requestFields text nonce).lookup (str "kind") = some (.str (str "REQUEST")) := rfl
  have version_ : (requestFields text nonce).lookup (str "version") = some (.int version) := rfl
  have nonce_ : (requestFields text nonce).lookup (str "nonce") = some (.str nonce) := rfl
  have worker : (requestFields text nonce).lookup (str "worker") =
      some (.str (str "summarize")) := rfl
  have payload : (requestFields text nonce).lookup (str "payload") =
      some (.dict [(str "text", .str text)]) := rfl
  have limits : (requestFields text nonce).lookup (str "limits") =
      some IsolationLimits.default.toDict := rfl
  have exact_ : hasKeys (requestFields text nonce) requestKeys = true := by
    change hasKeys (requestFields [] []) requestKeys = true
    decide
  have body : Value.decoded (.dict [(str "text", .str text)]) = .dict [(str "text", .str text)] := by
    change Value.dict [(str "text", .str (joinSurrogates text))] = _
    rw [whole]
  have ceiling : IsolationLimits.default.toDict.decoded = .dict
      ((sortKeys IsolationLimits.default.fields).map fun field => (field.1, field.2.decoded)) :=
    Value.decoded_dict_of_keys (nodup_limitFields _) (Value.tidy_dict.mp (tidy_limits _)).2.1
  have complete : hasKeys ((sortKeys IsolationLimits.default.fields).map fun field =>
      (field.1, field.2.decoded)) IsolationLimits.keys = true := by
    rw [hasKeys_map_sortKeys]
    decide
  have within_ : IsolationLimits.default.exceeds IsolationLimits.default = false := by
    simp only [IsolationLimits.exceeds, lt_irrefl, decide_false, Bool.or_false]
  have joined : joinSurrogates nonce = nonce := joinSurrogates_of_isHexText hexadecimal
  dsimp only
  constructor
  · have shape : (hasKeys ((sortKeys (requestFields text nonce)).map fun field =>
          (field.1, field.2.decoded)) requestKeys &&
        hasText ((sortKeys (requestFields text nonce)).map fun field =>
          (field.1, field.2.decoded)) "kind" (str "REQUEST") &&
        hasVersion ((sortKeys (requestFields text nonce)).map fun field =>
          (field.1, field.2.decoded)) &&
        hasText ((sortKeys (requestFields text nonce)).map fun field =>
          (field.1, field.2.decoded)) "nonce" nonce &&
        hasText ((sortKeys (requestFields text nonce)).map fun field =>
          (field.1, field.2.decoded)) "worker" (str "summarize")) = true := by
      simp only [hasText, hasVersion, found, named, kind, version_, nonce_, worker, exact_,
        Option.map_some, Value.decoded_str, joined]
      decide
    have singleton : hasKeys [(str "text", Value.str text)] [str "text"] = true := by
      change hasKeys [(str "text", Value.null)] [str "text"] = true
      decide
    have only : List.lookup (str "text") [(str "text", Value.str text)] = some (.str text) := rfl
    unfold validateRequest
    rw [shape]
    simp only [found, payload, limits, Option.map_some, body, ceiling, singleton, only, complete,
      ofFields_fields, bind, Except.bind, within_, Bool.not_true, Bool.false_eq_true, ↓reduceIte]
    rfl
  · unfold payloadText
    rw [found, payload, Option.map_some, body]
    rfl

theorem length_quote_payload {handoff : Handoff} {wire : Bytes}
    (encoded : canonical interpreter handoff.toDict = .ok wire) (short : wire.length ≤ maxWireBytes) :
    (dumps (.str handoff.payload)).length ≤ maxWireBytes := by
  obtain ⟨_, _, rfl⟩ := canonical_eq_ok.mp encoded
  have whole : handoff.toDict = .dict handoff.fields := rfl
  have carried : (str "payload", payloadDict handoff.payload) ∈ handoff.fields := by
    simp [Handoff.fields, Handoff.bodyFields]
  have counted : fieldLength (str "payload", payloadDict handoff.payload) ≤
      (handoff.fields.map fieldLength).sum :=
    List.le_sum_of_mem (List.mem_map_of_mem carried)
  have inner : (dumps (payloadDict handoff.payload)).length =
      fieldLength (str "text", .str handoff.payload) + 1 :=
    (length_dumps_dict (List.cons_ne_nil _ _)).trans (by simp)
  have nonempty : handoff.fields ≠ [] := List.cons_ne_nil _ _
  rw [length_canonicalBytes, whole, length_dumps_dict nonempty] at short
  simp only [fieldLength, inner] at counted
  omega

/-- The request for the text of a handoff fits its frame. -/
theorem length_request (hexadecimal : isHexText 64 nonce = true)
    (short : (dumps (.str text)).length ≤ maxWireBytes) :
    (canonicalBytes (requestMessage text nonce)).length ≤ payloadLimit := by
  have written := length_dumps_hex hexadecimal
  have inner : (dumps (.dict [(str "text", .str text)])).length =
      fieldLength (str "text", .str text) + 1 :=
    (length_dumps_dict (List.cons_ne_nil _ _)).trans (by simp)
  have fixed : fieldLength (str "kind", .str (str "REQUEST")) +
      fieldLength (str "version", .int version) + fieldLength (str "worker", .str (str "summarize")) +
      fieldLength (str "limits", IsolationLimits.default.toDict) + (quote (str "nonce")).length +
      (quote (str "payload")).length + (quote (str "text")).length ≤ 1000 := by decide +kernel
  rw [length_canonicalBytes, requestMessage, requestFields, length_dumps_dict (List.cons_ne_nil _ _)]
  simp only [List.map_cons, List.map_nil, List.sum_cons, List.sum_nil]
  have nonceLength : fieldLength (str "nonce", .str nonce) = (quote (str "nonce")).length + 66 + 2 := by
    rw [fieldLength, written]
  have payloadLength : fieldLength (str "payload", .dict [(str "text", .str text)]) =
      (quote (str "payload")).length +
        ((quote (str "text")).length + (dumps (.str text)).length + 2 + 1) + 2 := by
    rw [fieldLength, inner, fieldLength]
  simp only [maxWireBytes, payloadLimit] at short ⊢
  omega

end Request

section Receiving

variable {interpreter : Interpreter} {sent : Bytes} {sizes : List Nat}

/-- A whole frame that arrives is decoded, and leaves the descriptor at its end. -/
theorem plainFrame_arrived {fields : List (Str × Value)} (nonempty : sent ≠ [])
    (short : sent.length ≤ payloadLimit) (enough : (frameBytes sent).length < sizes.length)
    (decoded : decodeFrame interpreter "worker service input" sent = .ok fields) :
    ∃ size left, perform (plainFrame interpreter payloadLimit)
      ⟨frameBytes sent, sizes.map .arrived⟩ = (.ok fields, ⟨[], .arrived size :: left⟩) := by
  have small : sent.length < 2 ^ 32 := Nat.lt_of_le_of_lt short (by decide)
  have named : unpackHeader (packHeader sent.length) = sent.length := unpackHeader_packHeader small
  have whole : (frameBytes sent).length = 4 + sent.length := by
    rw [frameBytes, List.length_append, length_packHeader]
  obtain ⟨later, count, header⟩ := plainReceive_arrived (packHeader sent.length) sent sizes
    (by rw [length_packHeader]; omega)
  rw [length_packHeader] at count header
  obtain ⟨left, remains, body⟩ := plainReceive_arrived sent [] later (by omega)
  rw [List.append_nil] at body
  cases left with
  | nil =>
      rw [List.length_nil] at remains
      omega
  | cons size left =>
      refine ⟨size, left.map .arrived, ?_⟩
      have first : perform (plainExact 4) ⟨frameBytes sent, sizes.map .arrived⟩ =
          (.ok (packHeader sent.length), ⟨sent, later.map .arrived⟩) := header
      have second : perform (plainExact sent.length) ⟨sent, later.map .arrived⟩ =
          (.ok sent, ⟨[], .arrived size :: left.map .arrived⟩) := body
      have positive : 0 < sent.length := List.length_pos_iff.mpr nonempty
      rw [plainFrame, perform_bind_ok first, named, if_neg (by omega), perform_bind_ok second,
        decoded]
      rfl

/-- A frame whose pieces all go out has been written. -/
theorem transmit_sent (frame : Bytes) (sizes : List Nat) (enough : frame.length ≤ sizes.length)
    (exchange : CoreExchange) :
    (transmit frame (sizes.map fun size => .sent (size + 1)) exchange).1 = .ok () := by
  induction sizes generalizing frame exchange with
  | nil =>
      obtain rfl := List.length_eq_zero_iff.mp (Nat.le_zero.mp enough)
      rfl
  | cons size sizes ih =>
      cases frame with
      | nil => rfl
      | cons b frame =>
          rw [List.length_cons, List.length_cons] at enough
          rw [List.map_cons, transmit, if_neg (Nat.succ_ne_zero size)]
          apply ih
          rw [List.length_drop, List.length_cons]
          omega

end Receiving

section Agreement

variable {interpreter : Interpreter} {nonce : Str} {raw : Bytes}

/-- The bytes of a READY for a nonce. -/
def IsReady (interpreter : Interpreter) (nonce : Str) (raw : Bytes) : Prop :=
  raw.length ≤ helloLimit ∧ ∃ fields, canonical interpreter (.dict fields) = .ok raw ∧
    hasKeys fields greetingKeys = true ∧ hasText fields "kind" (str "READY") = true ∧
    hasVersion fields = true ∧ hasText fields "nonce" nonce = true

/-- The bytes of a RESULT for a nonce and a request, with what it answers. -/
def IsResult (interpreter : Interpreter) (nonce : Str) (requestDigest : Digest) (raw : Bytes)
    (answer : Answer) : Prop :=
  raw.length ≤ payloadLimit ∧ ∃ fields, canonical interpreter (.dict fields) = .ok raw ∧
    hasText fields "kind" (str "RESULT") = true ∧ hasVersion fields = true ∧
    hasText fields "nonce" nonce = true ∧ hasText fields "request_digest" requestDigest.val = true ∧
    ((∃ text output, hasKeys fields (resultKeys ++ [str "output"]) = true ∧
        fields.lookup (str "output") = some (.dict output) ∧ hasKeys output [str "text"] = true ∧
        output.lookup (str "text") = some (.str text) ∧ answer = .output text) ∨
      ∃ code, hasKeys fields (resultKeys ++ [str "error"]) = true ∧
        fields.lookup (str "error") = some (.str code.text) ∧ answer = .error code)

theorem isReady_of_validateReady {fields : List (Str × Value)} (short : raw.length ≤ helloLimit)
    (decoded : decodeFrame interpreter "worker frame" raw = .ok fields)
    (valid : validateReady fields nonce = .ok ()) : IsReady interpreter nonce raw := by
  obtain ⟨_, _, _, printed⟩ := decodeFrame_eq_ok.mp decoded
  obtain ⟨accepted, _⟩ := guard_eq_ok.mp valid
  simp only [Bool.and_eq_true] at accepted
  obtain ⟨⟨⟨exact_, kind⟩, version⟩, named⟩ := accepted
  exact ⟨short, fields, printed, exact_, kind, version, named⟩

theorem isResult_of_validateResult {fields : List (Str × Value)} {requestDigest : Digest}
    {answer : Answer} (short : raw.length ≤ payloadLimit)
    (decoded : decodeFrame interpreter "worker frame" raw = .ok fields)
    (valid : validateResult fields nonce requestDigest = .ok answer) :
    IsResult interpreter nonce requestDigest raw answer := by
  obtain ⟨_, _, _, printed⟩ := decodeFrame_eq_ok.mp decoded
  unfold validateResult at valid
  obtain ⟨accepted, valid⟩ := guarded_eq_ok.mp valid
  simp only [Bool.not_eq_true', Bool.not_eq_false, Bool.and_eq_true] at accepted
  obtain ⟨⟨⟨kind, version⟩, named⟩, digest⟩ := accepted
  refine ⟨short, fields, printed, kind, version, named, digest, ?_⟩
  split_ifs at valid with output error
  · split at valid
    · next found known =>
      obtain ⟨only, valid⟩ := guard_eq_ok.mp valid
      split at valid
      · next text inner =>
        exact .inl ⟨text, found, output, known, only, inner, (Except.ok.inj valid).symm⟩
      · exact (fail_ne_ok valid).elim
    · exact (fail_ne_ok valid).elim
  · split at valid
    · next text known =>
      split at valid
      · next code one =>
        refine .inr ⟨code, error, ?_, (Except.ok.inj valid).symm⟩
        rw [known, ErrorCode.ofText_eq_some.mp one]
      · exact (fail_ne_ok valid).elim
    · exact (fail_ne_ok valid).elim
  · exact (fail_ne_ok valid).elim

/-- What the worker makes of a request whose frame arrives. -/
theorem acceptRequest_arrived {text : Str} {sent : Bytes} {sizes : List Nat}
    (hexadecimal : isHexText 64 nonce = true) (whole : joinSurrogates text = text)
    (encoded : canonical interpreter (requestMessage text nonce) = .ok sent)
    (nonempty : sent ≠ []) (short : sent.length ≤ payloadLimit)
    (enough : (frameBytes sent).length < sizes.length) :
    (perform (acceptRequest interpreter nonce .default)
      ⟨frameBytes sent, sizes.map .arrived⟩).1 = .ok ⟨text, sha256 sent, .default⟩ := by
  have decoded := @decodeFrame_canonical interpreter "worker service input" _ _
    tidy_requestFields encoded
  obtain ⟨size, left, frame⟩ := plainFrame_arrived nonempty short enough decoded
  obtain ⟨_, _, _, again⟩ := decodeFrame_eq_ok.mp decoded
  obtain ⟨valid, read⟩ := validateRequest_received whole hexadecimal
  rw [acceptRequest, perform_bind_ok frame, valid, again]
  change Except.ok (Accepted.mk (payloadText _) (sha256 sent) .default) = _
  rw [read]

theorem request_payload (text nonce : Str) :
    request [(str "text", .str text)] nonce = .ok (requestMessage text nonce) :=
  request_eq_ok.mpr ⟨by change hasKeys [(str "text", Value.null)] [str "text"] = true; decide,
    text, rfl, rfl⟩

/-- The handoff that validates was decoded from its wire, which is no longer than
the bound on wires. -/
theorem payload_of_validated {presented : Presented} {verifier : HandoffVerifier} {wire : Bytes}
    {handoff : Handoff} (validated : validate interpreter (some wire) presented verifier = .ok handoff ∨
      validatePending interpreter (some wire) presented verifier = .ok handoff) :
    joinSurrogates handoff.payload = handoff.payload ∧
      (dumps (.str handoff.payload)).length ≤ maxWireBytes := by
  have carried {read : List (Str × Value)} {allowPending : Bool}
      (decoded : decodeWire interpreter (some wire) handoffKeys "handoff" = .ok read)
      (accepted : fromObject read presented verifier allowPending = .ok handoff) :
      joinSurrogates handoff.payload = handoff.payload ∧
        (dumps (.str handoff.payload)).length ≤ maxWireBytes := by
    obtain ⟨_, _, _, shaped, _⟩ := fromObject_eq_ok.mp accepted
    obtain ⟨_, same, short, _⟩ := decodeWire_eq_ok decoded
    obtain rfl := Option.some.inj same
    exact ⟨joinSurrogates_payload decoded shaped,
      length_quote_payload (canonical_handoff decoded shaped) short⟩
  rcases validated with direct | pending
  · obtain ⟨read, decoded, accepted⟩ := bind_eq_ok.mp direct
    exact carried decoded accepted
  · obtain ⟨read, decoded, rest⟩ := bind_eq_ok.mp pending
    obtain ⟨other, accepted, kept⟩ := bind_eq_ok.mp rest
    obtain ⟨_, returned⟩ := guarded_eq_ok.mp kept
    obtain rfl := pure_eq_ok.mp returned
    exact carried decoded accepted

/-- Core and worker agree on one request. The request for a validated handoff fits
its frame, and the worker runs on the handoff's text and names the digest of the
bytes the Core sent; what an exchange returns is the answer of one RESULT for the
request, after one READY and before the end of the stream. The version of both is
a value equal to 1. -/
theorem request_agreed {presented : Presented} {verifier : HandoffVerifier} {wire : Bytes}
    {handoff : Handoff}
    (prints : interpreter.floatRepr IsolationLimits.twoSeconds = some IsolationLimits.twoSeconds)
    (validated : validate interpreter (some wire) presented verifier = .ok handoff ∨
      validatePending interpreter (some wire) presented verifier = .ok handoff)
    (hexadecimal : isHexText 64 nonce = true) :
    (∃ message sent, request [(str "text", .str handoff.payload)] nonce = .ok message ∧
      canonical interpreter message = .ok sent ∧ sent.length ≤ payloadLimit ∧
      (∀ (start : CoreExchange) (sizes : List Nat), (frameBytes sent).length ≤ sizes.length →
        (perform (writeFrame interpreter message payloadLimit)
          { start with sendings := sizes.map fun size => .sent (size + 1) }).1 = .ok sent) ∧
      (∀ start finish raw,
        perform (writeFrame interpreter message payloadLimit) start = (.ok raw, finish) →
          raw = sent ∧ finish.sent = start.sent ++ frameBytes sent) ∧
      ∀ sizes : List Nat, (frameBytes sent).length < sizes.length →
        (perform (acceptRequest interpreter nonce .default)
          ⟨frameBytes sent, sizes.map .arrived⟩).1 =
            .ok ⟨handoff.payload, sha256 sent, .default⟩) ∧
    ∀ encounter uid gid incoming deliveries sendings answer,
      (perform (CoreExchange.run interpreter encounter)
        (CoreExchange.start uid gid incoming deliveries sendings)).1 = .ok answer →
      ∃ ready message sent result, request encounter.payload encounter.nonce = .ok message ∧
        canonical interpreter message = .ok sent ∧ incoming = frameBytes ready ++ frameBytes result ∧
        IsReady interpreter encounter.nonce ready ∧
        IsResult interpreter encounter.nonce (sha256 sent) result answer := by
  obtain ⟨whole, short⟩ := payload_of_validated validated
  have encoded : canonical interpreter (requestMessage handoff.payload nonce) =
      .ok (canonicalBytes (requestMessage handoff.payload nonce)) :=
    canonical_eq_ok.mpr ⟨depth_requestMessage _ _, printable_request prints, rfl⟩
  have fits := length_request hexadecimal short
  have nonempty : canonicalBytes (requestMessage handoff.payload nonce) ≠ [] := by
    apply List.length_pos_iff.mp
    rw [length_canonicalBytes, requestMessage, requestFields,
      length_dumps_dict (List.cons_ne_nil _ _)]
    exact Nat.succ_pos _
  constructor
  · refine ⟨_, _, request_payload _ _, encoded, fits, fun start sizes enough => ?_,
      fun start finish raw written => ?_, fun sizes enough => ?_⟩
    · have sized : ¬((canonicalBytes (requestMessage handoff.payload nonce)).length = 0 ∨
          (canonicalBytes (requestMessage handoff.payload nonce)).length > payloadLimit) := by
        have positive := List.length_pos_iff.mpr nonempty
        omega
      let ready : CoreExchange :=
        { start with sendings := sizes.map fun size => .sent (size + 1) }
      have sends : perform (ofStep fun exchange => transmit
          (frameBytes (canonicalBytes (requestMessage handoff.payload nonce))) exchange.sendings
            exchange) ready = (.ok (), _) :=
        Prod.ext (transmit_sent _ sizes enough ready) rfl
      rw [frameBytes] at sends
      rw [writeFrame, encoded, perform_bind_ok (perform_ofExcept _ _), if_neg sized,
        perform_bind_ok sends]
      rfl
    · have post := (writeFrame_ensures start (depth_requestMessage _ _) payloadLimit).returns rfl
        written
      obtain rfl := Except.ok.inj (encoded.symm.trans post.2.2.1)
      exact ⟨rfl, post.2.2.2.2⟩
    · exact acceptRequest_arrived hexadecimal whole encoded nonempty fits enough
  · intro encounter uid gid incoming deliveries sendings answer returned
    have post := (@run_ensures interpreter encounter
      (CoreExchange.start uid gid incoming deliveries sendings) rfl rfl).returns rfl
        (Prod.ext returned rfl)
    obtain ⟨_, _, middle, ⟨ready, fields, small, front, greeting, valid⟩, result, answered, message,
      sent, bounded, back, decoded, made, printed, accepted⟩ := post
    refine ⟨ready, message, sent, result, made, printed, ?_,
      isReady_of_validateReady small greeting valid,
      isResult_of_validateResult bounded decoded accepted⟩
    rw [← back]
    exact front

end Agreement

section Demo

/-- The worker has the request of the demo handoff, however it arrives. -/
theorem request_agreed_demo :
    ∃ message sent, request [(str "text", .str (str "Example text"))] demoNonce = .ok message ∧
      canonical literalInterpreter message = .ok sent ∧
      (perform (acceptRequest literalInterpreter demoNonce .default)
        ⟨frameBytes sent, (List.replicate ((frameBytes sent).length + 1) 7).map .arrived⟩).1 =
          .ok ⟨str "Example text", sha256 sent, .default⟩ := by
  have agreed := @request_agreed literalInterpreter _ _ _ _ _ rfl
    (.inl (validate_demo (show (100 : Int) ≤ 101 by decide) (by decide)))
    (show isHexText 64 demoNonce = true by decide)
  obtain ⟨⟨message, sent, made, encoded, _, _, _, arrives⟩, _⟩ := agreed
  refine ⟨message, sent, made, encoded, arrives _ ?_⟩
  rw [List.length_replicate]
  exact Nat.lt_succ_self _

/-- A result whose version is `true`, for the request of the demo text. -/
def versionTrue : List (Str × Value) :=
  [(str "kind", .str (str "RESULT")), (str "version", .bool true), (str "nonce", .str demoNonce),
    (str "request_digest",
      .str (sha256 (canonicalBytes (requestMessage (str "Report") demoNonce))).val),
    (str "output", .dict [(str "text", .str (str "Done"))])]

def demoEncounter : Encounter :=
  ⟨[(str "text", .str (str "Report"))], demoNonce, .ok demoInvocation, .ok false, false⟩

/-- A result in which the version is not the number 1 is returned. -/
theorem version_true_returned :
    (perform (CoreExchange.run literalInterpreter demoEncounter)
      (CoreExchange.start 1000 1000
        (frameBytes (canonicalBytes (ready demoNonce)) ++
          frameBytes (canonicalBytes (.dict versionTrue)))
        [demoDelivery 3 9, demoDelivery 255 10, demoDelivery 3 11, demoDelivery 32767 12,
          .arrived 0 [] 0 ⟨.ok 7, .ok false⟩]
        [.sent 512, .sent 512])).1.toOption = some (.output (str "Done")) ∧
      ∃ fields, decodeFrame literalInterpreter "worker frame"
          (canonicalBytes (.dict versionTrue)) = .ok fields ∧
        fields.lookup (str "version") = some (.bool true) := by
  have neat : (Value.dict versionTrue).tidy = true := by decide +kernel
  have encoded : canonical literalInterpreter (.dict versionTrue) =
      .ok (canonicalBytes (.dict versionTrue)) :=
    canonical_eq_ok.mpr ⟨by decide +kernel, by decide +kernel, rfl⟩
  refine ⟨by decide +kernel, _, decodeFrame_canonical neat encoded, ?_⟩
  rw [lookup_map_sortKeys Value.decoded (Value.tidy_dict.mp neat).1]
  rfl

end Demo

end WorkerService

end GeniusNew
