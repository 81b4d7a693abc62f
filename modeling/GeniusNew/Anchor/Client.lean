import GeniusNew.Anchor.Service
import GeniusNew.Contracts.Hexadecimal

/-! # Asking a served anchor

A request goes out in an envelope with a nonce, and the reply comes back signed over that
nonce (`serveFrame`). The caller reads whatever bytes arrive and believes only a reply
whose signature is over its own nonce (`conclude`).
-/

namespace GeniusNew

open Json

namespace AnchorProcess

/-- The anchor's identity. Its Ed25519 signatures have 64 bytes and pass the check of its
own public half. -/
structure ReplyKey where
  sign : Bytes → Bytes
  verifies : Bytes → Bytes → Bool
  sign_verifies : ∀ message, verifies message (sign message) = true
  length_sign : ∀ message, (sign message).length = 64

def requestKeys : List Str := [str "nonce", str "request"]

def replyEnvelopeKeys : List Str := [str "nonce", str "reply", str "signature"]

def replyLabel : Bytes := asciiBytes (str "geniusnew/anchor-reply/ed25519/v1\n")

/-- What is signed of a reply, with its nonce. -/
def boundReply (nonce : Str) (reply : Value) : List (Str × Value) :=
  [(str "nonce", .str nonce), (str "reply", reply)]

/-- `_reply_message`. -/
def replyMessage (interpreter : Interpreter) (nonce : Str) (reply : Value) : Outcome Bytes := do
  let data ← canonical interpreter (.dict (boundReply nonce reply))
  return replyLabel ++ data

/-- `_nonce`. -/
def readNonce (value : Value) : Outcome Str :=
  match value with
  | .str text =>
      if isHexText (2 * nonceBytes) text then .ok text
      else fail "anchor nonce must be 32 bytes of lowercase hex"
  | _ => fail "anchor nonce must be 32 bytes of lowercase hex"

/-- What a served connection makes of a frame before it answers the request in it. -/
def openEnvelope (interpreter : Interpreter) (data : Bytes) :
    Outcome (Str × List (Str × Value)) := do
  let envelope ← decode interpreter data "anchor request"
  if !hasKeys envelope requestKeys then fail "anchor request envelope is malformed"
  else do
    let nonce ← readNonce ((envelope.lookup (str "nonce")).getD .null)
    match envelope.lookup (str "request") with
    | some (.dict request) => return (nonce, request)
    | _ => fail "anchor request envelope is malformed"

/-- A reply signed and framed. -/
def sealReply (interpreter : Interpreter) (key : ReplyKey) (nonce : Str) (reply : Value) :
    Outcome Bytes := do
  let message ← replyMessage interpreter nonce reply
  frame interpreter (replyEnvelope nonce reply (hex (key.sign message))) maxReplyBytes

/-- What a frame makes a served anchor do: hang up on the client, end, or answer. -/
inductive Serving where
  | hangsUp
  | ends
  | answers (nonce : Str) (request : List (Str × Value)) (reply : Value) (sent : Bytes)

/-- One turn of the loop of `_serve_connection`. Whatever is raised outside its `try`
ends the anchor. -/
def serveFrame (host : Host) (verifier : AuditVerifier) (key : ReplyKey) (data : Bytes)
    (write : Append) (state : Committed) (file : Option Bytes) :
    Serving × Committed × Option Bytes :=
  match openEnvelope host.interpreter data with
  | .error (.contractError _) => (.hangsUp, state, file)
  | .error _ => (.ends, state, file)
  | .ok (nonce, request) =>
      match respond host verifier request (some write) state file with
      | (.ok (some reply), after, left) =>
          match sealReply host.interpreter key nonce reply with
          | .ok sent => (.answers nonce request reply sent, after, left)
          | .error _ => (.ends, after, left)
      | (_, after, left) => (.ends, after, left)

/-- `_ask` after the request was sent: the reply in the bytes that arrive. -/
def readReply : Bytes → Option Bytes
  | first :: second :: third :: fourth :: rest =>
      let size := first.toNat * 2 ^ 24 + second.toNat * 2 ^ 16 + third.toNat * 2 ^ 8 + fourth.toNat
      if size > maxReplyBytes then none
      else if rest.length < size then none
      else some (rest.take size)
  | _ => none

/-- The text of an exception. A lone surrogate, which is no character, is not kept. -/
def spoken (text : Str) : String := String.ofList (text.map fun c => Char.ofNat c.val)

/-- `_state`. -/
def stateOf (reply : List (Str × Value)) : Outcome Committed :=
  match reply.lookup (str "message") with
  | some (.str text) =>
      if isKind reply "refused" && hasKeys reply [str "kind", str "message"] then fail (spoken text)
      else read
  | _ => read
where
  /-- The count and the hash of a reply that is no refusal. -/
  read : Outcome Committed :=
    if !isKind reply "ok" || !hasKeys reply replyKeys then
      fail "anchor process sent an invalid reply"
    else do
      let claimed ← count ((reply.lookup (str "count")).getD .null) "anchor count"
      let headHash ← digest ((reply.lookup (str "head_hash")).getD .null) "anchor head_hash"
      return ⟨claimed.val, headHash, counted_le claimed⟩

/-- `_signed`, of a reply that is a dictionary. -/
def signed (interpreter : Interpreter) (key : ReplyKey) (nonce : Str)
    (reply : List (Str × Value)) (signature : Value) : Outcome Bool :=
  match signature with
  | .str text =>
      match bytesFromhex text with
      | none => .ok false
      | some proof =>
          match replyMessage interpreter nonce (.dict reply) with
          | .ok message => .ok (key.verifies message proof)
          | .error (.contractError _) => .ok false
          | .error raised => .error raised
  | _ => .ok false

/-- `value == text`. -/
def isText (value : Value) (text : Str) : Bool :=
  match value with
  | .str other => other = text
  | _ => false

/-- `_exchange` after the request was sent. Without bytes the anchor was not reached. -/
def conclude (interpreter : Interpreter) (key : ReplyKey) (nonce : Str) (stream : Option Bytes) :
    Outcome Committed :=
  match stream.bind readReply with
  | none => fail "anchor service is unreachable"
  | some data => do
      let envelope ← decode interpreter data "anchor reply"
      if !hasKeys envelope replyEnvelopeKeys then fail "anchor reply envelope is malformed"
      else if !isText ((envelope.lookup (str "nonce")).getD .null) nonce then
        fail "anchor reply answers another request"
      else
        match envelope.lookup (str "reply") with
        | some (.dict reply) => do
            let genuine ← signed interpreter key nonce reply
              ((envelope.lookup (str "signature")).getD .null)
            if !genuine then fail "anchor reply is not signed by the anchor" else stateOf reply
        | _ => fail "anchor reply is not signed by the anchor"

/-- The signature that a reply carries. -/
def signatureIn (interpreter : Interpreter) (stream : Bytes) : Option Bytes := do
  let data ← readReply stream
  let envelope ← (decode interpreter data "anchor reply").toOption
  match envelope.lookup (str "signature") with
  | some (.str text) => bytesFromhex text
  | _ => none

section Messages

variable {interpreter : Interpreter} {nonce other : Str} {reply answer : Value} {message : Bytes}

theorem replyMessage_eq_ok : replyMessage interpreter nonce reply = .ok message ↔
    ∃ data, canonical interpreter (.dict (boundReply nonce reply)) = .ok data ∧
      replyLabel ++ data = message := by
  rw [replyMessage, bind_eq_ok]
  simp only [pure_eq_ok]

theorem label_of_replyMessage (made : replyMessage interpreter nonce reply = .ok message) :
    replyLabel <+: message := by
  obtain ⟨data, _, rfl⟩ := replyMessage_eq_ok.mp made
  exact List.prefix_append _ _

theorem plain_boundKeys : PlainKeys [str "nonce", str "reply"] := ⟨by decide, by decide⟩

theorem received_boundReply (nonce : Str) (reply : Value) :
    (receivedFields (boundReply nonce reply)).lookup (str "nonce") =
        some (.str (joinSurrogates nonce)) ∧
      (receivedFields (boundReply nonce reply)).lookup (str "reply") = some reply.decoded := by
  have distinct : (keys (boundReply nonce reply)).Nodup := plain_boundKeys.nodup
  rw [lookup_receivedFields distinct, lookup_receivedFields distinct]
  exact ⟨rfl, rfl⟩

/-- A message is signed for one nonce and, as far as a text tells, for one reply. -/
theorem replyMessage_inj (named : isHexText (2 * nonceBytes) nonce = true)
    (otherNamed : isHexText (2 * nonceBytes) other = true)
    (made : replyMessage interpreter nonce reply = .ok message)
    (again : replyMessage interpreter other answer = .ok message) :
    nonce = other ∧ reply.decoded = answer.decoded := by
  obtain ⟨data, encoded, rfl⟩ := replyMessage_eq_ok.mp made
  obtain ⟨same, otherEncoded, joined⟩ := replyMessage_eq_ok.mp again
  obtain rfl := List.append_cancel_left joined
  obtain ⟨shallow, printed, rfl⟩ := canonical_eq_ok.mp encoded
  obtain ⟨otherShallow, otherPrinted, bytes⟩ := canonical_eq_ok.mp otherEncoded
  have texts := decodeAscii_canonicalBytes (.dict (boundReply nonce reply))
  rw [bytes, decodeAscii_canonicalBytes] at texts
  have read := loads_dumps interpreter shallow printed
  rw [← Option.some.inj texts, loads_dumps interpreter otherShallow otherPrinted] at read
  have decoded : Value.decoded (.dict (boundReply other answer)) =
      Value.decoded (.dict (boundReply nonce reply)) := Except.ok.inj read
  have shape (nonce : Str) (reply : Value) : Value.decoded (.dict (boundReply nonce reply)) =
      .dict (receivedFields (boundReply nonce reply)) :=
    Value.decoded_dict_of_keys plain_boundKeys.nodup plain_boundKeys.plain
  rw [shape, shape] at decoded
  have fields := Value.dict.inj decoded
  obtain ⟨mine, replied⟩ := received_boundReply nonce reply
  obtain ⟨theirs, answered⟩ := received_boundReply other answer
  rw [← fields, theirs, joinSurrogates_of_isHexText named,
    joinSurrogates_of_isHexText otherNamed] at mine
  rw [← fields, answered] at replied
  exact ⟨(Value.str.inj (Option.some.inj mine)).symm, (Option.some.inj replied).symm⟩

end Messages

section Replies

variable {reply : List (Str × Value)} {state : Committed}

theorem stateOf_of_ok (kind : reply.lookup (str "kind") = some (.str (str "ok")))
    (named : hasKeys reply replyKeys = true)
    (counted : reply.lookup (str "count") = some (.int state.count))
    (hashed : reply.lookup (str "head_hash") = some (.str state.headHash.val)) :
    stateOf reply = .ok state := by
  have accepted : isKind reply "ok" = true := isKind_of_lookup kind _
  have other : isKind reply "refused" = false := isKind_of_lookup kind _
  have number : count (.int state.count) "anchor count" = .ok ⟨state.count, state.count_le⟩ :=
    count_eq_ok.mpr rfl
  have hash : digest (.str state.headHash.val) "anchor head_hash" = .ok state.headHash :=
    digest_eq_ok.mpr rfl
  have read : stateOf.read reply = .ok state := by
    simp only [stateOf.read, accepted, named, counted, hashed, number, hash, Option.getD_some,
      Bool.not_true, Bool.or_self, Bool.false_eq_true, ↓reduceIte, bind, Except.bind]
    rfl
  unfold stateOf
  split
  · rw [other, Bool.false_and, if_neg Bool.false_ne_true, read]
  · exact read

theorem stateOf_of_refused {text : Str}
    (kind : reply.lookup (str "kind") = some (.str (str "refused")))
    (named : hasKeys reply [str "kind", str "message"] = true)
    (message : reply.lookup (str "message") = some (.str text)) :
    stateOf reply = fail (spoken text) := by
  have refused : isKind reply "refused" = true := isKind_of_lookup kind _
  rw [stateOf, message]
  dsimp only
  rw [refused, named, Bool.and_self, if_pos rfl]

def committedFields (state : Committed) : List (Str × Value) :=
  [(str "count", .int state.count), (str "head_hash", .str state.headHash.val),
    (str "kind", .str (str "ok"))]

def refusalFields (message : String) : List (Str × Value) :=
  [(str "kind", .str (str "refused")), (str "message", .str ((str message).take 512))]

theorem plain_replyKeys : PlainKeys replyKeys := ⟨by decide, by decide⟩

theorem plain_refusalKeys : PlainKeys [str "kind", str "message"] := ⟨by decide, by decide⟩

theorem decoded_committed (state : Committed) : (committed state).decoded = committed state := by
  have inOrder : (keys (committedFields state)).Pairwise fun a b => keyLe a b = true :=
    (by decide : replyKeys.Pairwise fun a b => keyLe a b = true)
  have sorted := sortKeys_of_sorted (List.pairwise_map.mp inOrder)
  have hash : joinSurrogates state.headHash.val = state.headHash.val :=
    joinSurrogates_of_isHexText state.headHash.property
  have shape := @Value.decoded_dict_of_keys (committedFields state) plain_replyKeys.nodup
    plain_replyKeys.plain
  rw [sorted] at shape
  change _ = Value.dict [(str "count", .int state.count),
    (str "head_hash", .str (joinSurrogates state.headHash.val)), (str "kind", .str (str "ok"))] at shape
  rw [hash] at shape
  exact shape

theorem decoded_refusal (message : String) :
    (refusal message).decoded = .dict (receivedFields (refusalFields message)) :=
  @Value.decoded_dict_of_keys (refusalFields message) plain_refusalKeys.nodup plain_refusalKeys.plain

theorem stateOf_committed (state : Committed) : stateOf (committedFields state) = .ok state :=
  stateOf_of_ok rfl rfl rfl rfl

theorem stateOf_refused (message : String) :
    ∃ text, stateOf (receivedFields (refusalFields message)) = fail text := by
  have looked (key : Str) :=
    @lookup_receivedFields (refusalFields message) plain_refusalKeys.nodup key
  refine ⟨_, @stateOf_of_refused _ (joinSurrogates ((str message).take 512)) ?_ ?_ ?_⟩
  · rw [looked]
    rfl
  · rw [hasKeys_receivedFields]
    rfl
  · rw [looked]
    rfl

/-- An anchor answers with a refusal or with a state. -/
theorem reply_of_respond {host : Host} {verifier : AuditVerifier} {message : List (Str × Value)}
    {path : Option Append} {file : Option Bytes} {said : Value}
    (answered : (respond host verifier message path state file).1 = .ok (some said)) :
    (∃ text, said = refusal text) ∨ ∃ next, said = committed next := by
  have replied {outcome : Outcome Value} {after : Committed}
      (handled : handle host.inner verifier message state = (outcome, after))
      (said' : outcome = .ok said) : ∃ next, said = committed next := by
    subst said'
    rcases handle_cases host.inner verifier message state with
      ⟨raised, other⟩ | other | ⟨next, _, _, _, _, other⟩
    · rw [other] at handled
      cases handled
    · rw [other] at handled
      exact ⟨state, (Except.ok.inj (congrArg Prod.fst handled)).symm⟩
    · rw [other] at handled
      exact ⟨next, (Except.ok.inj (congrArg Prod.fst handled)).symm⟩
  unfold respond at answered
  split at answered
  · exact .inl ⟨_, (Option.some.inj (Except.ok.inj answered)).symm⟩
  · cases answered
  · next reply after handled =>
      right
      have kept : reply = said → ∃ next, said = committed next := by
        rintro rfl
        exact replied handled rfl
      cases path with
      | none => exact kept (Option.some.inj (Except.ok.inj answered))
      | some write =>
          dsimp only at answered
          split_ifs at answered
          · exact kept (Option.some.inj (Except.ok.inj answered))
          · split at answered
            · cases answered
            · split at answered
              · exact kept (Option.some.inj (Except.ok.inj answered))
              · cases answered

/-- What a writer reads out of a reply that arrived is the state the anchor sent. -/
theorem committed_of_stateOf {said : Value}
    (sent : (∃ text, said = refusal text) ∨ ∃ next, said = committed next)
    (same : Value.decoded said = .dict reply) (read : stateOf reply = .ok state) :
    said = committed state := by
  rcases sent with ⟨text, rfl⟩ | ⟨next, rfl⟩
  · rw [decoded_refusal] at same
    obtain ⟨message, refused⟩ := stateOf_refused text
    rw [← Value.dict.inj same, refused] at read
    exact (fail_ne_ok read).elim
  · rw [decoded_committed] at same
    have fields : committedFields next = reply := Value.dict.inj same
    rw [← fields, stateOf_committed] at read
    exact congrArg committed (Except.ok.inj read)

end Replies

section Conclusion

variable {interpreter : Interpreter} {key : ReplyKey} {nonce : Str} {state : Committed}

/-- What was decoded has been decoded. -/
theorem received_of_decode {data : Bytes} {noun : String} {fields : List (Str × Value)}
    {wanted : List Str} (decoded : decode interpreter data noun = .ok fields)
    (plain : PlainKeys wanted) (named : hasKeys fields wanted = true) :
    receivedFields fields = fields := by
  obtain ⟨distinct, encoded⟩ := decode_eq_ok decoded
  have listed : ∀ key ∈ keys fields, joinSurrogates key = key := by
    intro key member
    simp only [hasKeys, Bool.and_eq_true, List.all_eq_true, decide_eq_true_eq] at named
    exact plain.plain key (named.1 key member)
  rw [decode_canonical distinct listed encoded] at decoded
  exact Except.ok.inj (guarded_eq_ok.mp decoded).2

theorem plain_replyEnvelopeKeys : PlainKeys replyEnvelopeKeys := ⟨by decide, by decide⟩

theorem signed_eq_true {reply : List (Str × Value)} {signature : Value}
    (genuine : signed interpreter key nonce reply signature = .ok true) :
    ∃ text proof message, signature = .str text ∧ bytesFromhex text = some proof ∧
      replyMessage interpreter nonce (.dict reply) = .ok message ∧
      key.verifies message proof = true := by
  unfold signed at genuine
  split at genuine
  · next text =>
      split at genuine
      · cases genuine
      · next proof read =>
          split at genuine
          · next message made => exact ⟨text, proof, message, rfl, read, made, Except.ok.inj genuine⟩
          · cases genuine
          · cases genuine
  · cases genuine

/-- A reply that is believed names the caller's nonce. -/
theorem nonce_of_conclude {stream : Bytes}
    (returned : conclude interpreter key nonce (some stream) = .ok state) :
    ∃ data envelope, readReply stream = some data ∧
      decode interpreter data "anchor reply" = .ok envelope ∧
      envelope.lookup (str "nonce") = some (.str nonce) := by
  unfold conclude at returned
  split at returned
  · exact (fail_ne_ok returned).elim
  · next data given =>
      obtain ⟨envelope, decoded, returned⟩ := bind_eq_ok.mp returned
      obtain ⟨_, returned⟩ := guarded_eq_ok.mp returned
      obtain ⟨mine, _⟩ := guarded_eq_ok.mp returned
      refine ⟨data, envelope, given, decoded, ?_⟩
      cases held : envelope.lookup (str "nonce") with
      | none => simp [held, isText] at mine
      | some value =>
          cases value with
          | str text => simpa [held, isText] using mine
          | _ => simp [held, isText] at mine

/-- What it takes for a reply to be believed. -/
theorem conclude_eq_ok {stream : Option Bytes}
    (returned : conclude interpreter key nonce stream = .ok state) :
    ∃ arrived proof reply message, stream = some arrived ∧
      signatureIn interpreter arrived = some proof ∧
      replyMessage interpreter nonce (.dict reply) = .ok message ∧
      key.verifies message proof = true ∧ Value.decoded (.dict reply) = .dict reply ∧
      stateOf reply = .ok state := by
  unfold conclude at returned
  split at returned
  · exact (fail_ne_ok returned).elim
  · next data given =>
      obtain ⟨arrived, rfl, read⟩ := Option.bind_eq_some_iff.mp given
      obtain ⟨envelope, decoded, returned⟩ := bind_eq_ok.mp returned
      obtain ⟨named, returned⟩ := guarded_eq_ok.mp returned
      obtain ⟨_, returned⟩ := guarded_eq_ok.mp returned
      have whole : hasKeys envelope replyEnvelopeKeys = true := by simpa using named
      have received := received_of_decode decoded plain_replyEnvelopeKeys whole
      split at returned
      · next reply found =>
          obtain ⟨genuine, checked, returned⟩ := bind_eq_ok.mp returned
          obtain ⟨believed, stated⟩ := guarded_eq_ok.mp returned
          have genuine : genuine = true := by simpa using believed
          subst genuine
          obtain ⟨text, proof, message, carried, proved, made, verified⟩ := signed_eq_true checked
          have held : envelope.lookup (str "signature") = some (.str text) := by
            cases looked : envelope.lookup (str "signature") with
            | none =>
                rw [looked] at carried
                cases carried
            | some value =>
                rw [looked] at carried
                exact congrArg some carried
          refine ⟨arrived, proof, reply, message, rfl, ?_, made, verified, ?_, stated⟩
          · rw [signatureIn, read]
            simp only [Option.bind_eq_bind, Option.bind_some, decoded, Except.toOption, held, proved]
          · have again := lookup_receivedFields (decode_eq_ok decoded).1 (str "reply")
            rw [received, found] at again
            exact (Option.some.inj again).symm
      · exact (fail_ne_ok returned).elim

end Conclusion

section Honest

variable {interpreter : Interpreter} {key : ReplyKey} {nonce : Str} {state : Committed}

theorem readReply_frameHeader {data : Bytes} (bounded : data.length ≤ maxReplyBytes) :
    readReply (frameHeader data.length ++ data) = some data := by
  have size := size_of_header (Nat.lt_of_le_of_lt bounded (by decide : maxReplyBytes < 2 ^ 32))
  simp only [frameHeader, List.cons_append, List.nil_append, readReply, size]
  rw [if_neg (not_lt.mpr bounded), if_neg (lt_irrefl _), List.take_length]

theorem plain_requestKeys : PlainKeys requestKeys := ⟨by decide, by decide⟩

/-- A request that was sent in an envelope is the one that is taken out of it. -/
theorem openEnvelope_of_canonical {request : List (Str × Value)} {data : Bytes}
    (neat : (Value.dict request).tidy = true) (named : isHexText (2 * nonceBytes) nonce = true)
    (encoded : canonical interpreter (envelope nonce (.dict request)) = .ok data) :
    openEnvelope interpreter data = .ok (nonce, receivedFields request) := by
  let fields : List (Str × Value) := [(str "nonce", .str nonce), (str "request", .dict request)]
  have plain := plain_requestKeys
  have whole : (Value.dict fields).tidy = true := by
    refine tidy_of_fields plain rfl fun field inside => ?_
    rcases List.mem_pair.mp inside with rfl | rfl
    · rfl
    · exact neat
  have decoded := @decode_of_tidy interpreter fields data "anchor request" whole encoded
  have held (name : Str) := @lookup_receivedFields fields plain.nodup name
  obtain ⟨distinct, joined, _⟩ := Value.tidy_dict.mp neat
  have inner : (Value.dict request).decoded = .dict (receivedFields request) :=
    Value.decoded_dict_of_keys distinct joined
  have first : (receivedFields fields).lookup (str "nonce") = some (.str nonce) := by
    rw [held]
    change some (Value.str (joinSurrogates nonce)) = _
    rw [joinSurrogates_of_isHexText named]
  have second : (receivedFields fields).lookup (str "request") =
      some (.dict (receivedFields request)) := by
    rw [held, ← inner]
    rfl
  have keyed : hasKeys (receivedFields fields) requestKeys = true := by
    rw [hasKeys_receivedFields]
    rfl
  simp only [openEnvelope, decoded, keyed, first, second, readNonce, named, Option.getD_some,
    Bool.not_true, Bool.false_eq_true, ↓reduceIte, bind, Except.bind]
  rfl

theorem sealReply_eq_ok {reply : Value} {sent : Bytes} : sealReply interpreter key nonce reply = .ok sent ↔
    ∃ message data, replyMessage interpreter nonce reply = .ok message ∧
      canonical interpreter (replyEnvelope nonce reply (hex (key.sign message))) = .ok data ∧
      data.length ≤ maxReplyBytes ∧ frameHeader data.length ++ data = sent := by
  rw [sealReply, bind_eq_ok]
  simp only [frame_eq_ok, exists_and_left]

def replyFields (nonce : Str) (reply : Value) (signature : Str) : List (Str × Value) :=
  [(str "nonce", .str nonce), (str "reply", reply), (str "signature", .str signature)]

theorem tidy_committed (state : Committed) : (committed state).tidy = true := by
  refine tidy_of_fields plain_replyKeys rfl fun field inside => ?_
  simp only [List.mem_cons, List.not_mem_nil, or_false] at inside
  rcases inside with rfl | rfl | rfl <;> rfl

theorem tidy_replyFields {reply : Value} (neat : reply.tidy = true) (nonce signature : Str) :
    (Value.dict (replyFields nonce reply signature)).tidy = true := by
  refine tidy_of_fields plain_replyEnvelopeKeys rfl fun field inside => ?_
  simp only [replyFields, List.mem_cons, List.not_mem_nil, or_false] at inside
  rcases inside with rfl | rfl | rfl
  · rfl
  · exact neat
  · rfl

theorem received_replyFields {signature : Str} {count : Nat}
    (named : isHexText (2 * nonceBytes) nonce = true) (signed : isHexText count signature = true)
    (reply : Value) :
    hasKeys (receivedFields (replyFields nonce reply signature)) replyEnvelopeKeys = true ∧
      (receivedFields (replyFields nonce reply signature)).lookup (str "nonce") =
        some (.str nonce) ∧
      (receivedFields (replyFields nonce reply signature)).lookup (str "reply") =
        some reply.decoded ∧
      (receivedFields (replyFields nonce reply signature)).lookup (str "signature") =
        some (.str signature) := by
  have distinct : (keys (replyFields nonce reply signature)).Nodup := plain_replyEnvelopeKeys.nodup
  rw [lookup_receivedFields distinct, lookup_receivedFields distinct, lookup_receivedFields distinct,
    hasKeys_receivedFields]
  refine ⟨rfl, ?_, rfl, ?_⟩
  · change some (Value.str (joinSurrogates nonce)) = _
    rw [joinSurrogates_of_isHexText named]
  · change some (Value.str (joinSurrogates signature)) = _
    rw [joinSurrogates_of_isHexText signed]

theorem signed_of_replyMessage {reply : List (Str × Value)} {message : Bytes}
    (made : replyMessage interpreter nonce (.dict reply) = .ok message) :
    signed interpreter key nonce reply (.str (hex (key.sign message))) = .ok true := by
  rw [signed, bytesFromhex_hex]
  dsimp only
  rw [made]
  exact congrArg _ (key.sign_verifies message)

/-- A state can always be sealed. -/
theorem exists_sealReply (key : ReplyKey) (named : isHexText (2 * nonceBytes) nonce = true)
    (state : Committed) : ∃ message sent,
      replyMessage interpreter nonce (committed state) = .ok message ∧
        sealReply interpreter key nonce (committed state) = .ok sent := by
  have shallow : 2 ≤ interpreter.recursionLimit :=
    le_trans (by decide) interpreter.recursionLimit_sufficient
  have printed : (committed state).printable interpreter = true := by
    simp [committed, Value.printable, Value.printableFields, length_digits_le state.count_le]
  have whole : (Value.dict (boundReply nonce (committed state))).printable interpreter = true := by
    simp [boundReply, Value.printable, Value.printableFields, printed]
  have encoded : canonical interpreter (.dict (boundReply nonce (committed state))) =
      .ok (canonicalBytes (.dict (boundReply nonce (committed state)))) :=
    canonical_eq_ok.mpr ⟨shallow, whole, rfl⟩
  have bound := replyMessage_eq_ok.mpr ⟨_, encoded, rfl⟩
  refine ⟨_, _, bound, sealReply_eq_ok.mpr ⟨_, _, bound, canonical_eq_ok.mpr ⟨shallow, ?_, rfl⟩,
    ?_, rfl⟩⟩
  · simp [replyEnvelope, Value.printable, Value.printableFields, printed]
  · refine length_replyEnvelope named ?_ (length_committed state)
    have signed := isHexText_hex (key.sign
      (replyLabel ++ canonicalBytes (.dict (boundReply nonce (committed state)))))
    rwa [key.length_sign] at signed

/-- A state that the anchor sealed for a nonce is what the caller with that nonce gets. -/
theorem conclude_of_sealReply {sent : Bytes} (named : isHexText (2 * nonceBytes) nonce = true)
    (made : sealReply interpreter key nonce (committed state) = .ok sent) :
    conclude interpreter key nonce (some sent) = .ok state := by
  obtain ⟨message, data, bound, encoded, bounded, rfl⟩ := sealReply_eq_ok.mp made
  have neat := tidy_replyFields (tidy_committed state) nonce (hex (key.sign message))
  have decoded := @decode_of_tidy interpreter _ data "anchor reply" neat encoded
  obtain ⟨keyed, mine, said, proved⟩ :=
    received_replyFields named (isHexText_hex (key.sign message)) (committed state)
  rw [decoded_committed] at said
  have genuine := @signed_of_replyMessage _ key _ (committedFields state) _ bound
  rw [conclude, Option.bind_some, readReply_frameHeader bounded]
  simp only [decoded, keyed, mine, said, proved, isText, Option.getD_some, Bool.not_true,
    Bool.false_eq_true, ↓reduceIte, decide_true, bind, Except.bind]
  change (signed interpreter key nonce (committedFields state) _).bind _ = _
  rw [genuine]
  exact stateOf_committed state

/-- A sealed reply carries the signature of its message. -/
theorem signatureIn_of_sealReply {message sent : Bytes}
    (named : isHexText (2 * nonceBytes) nonce = true)
    (bound : replyMessage interpreter nonce (committed state) = .ok message)
    (made : sealReply interpreter key nonce (committed state) = .ok sent) :
    signatureIn interpreter sent = some (key.sign message) := by
  obtain ⟨other, data, again, encoded, bounded, rfl⟩ := sealReply_eq_ok.mp made
  obtain rfl := Except.ok.inj (again.symm.trans bound)
  have neat := tidy_replyFields (tidy_committed state) nonce (hex (key.sign other))
  have decoded := @decode_of_tidy interpreter _ data "anchor reply" neat encoded
  obtain ⟨_, _, _, proved⟩ :=
    received_replyFields named (isHexText_hex (key.sign other)) (committed state)
  rw [signatureIn, readReply_frameHeader bounded]
  simp only [Option.bind_eq_bind, Option.bind_some, decoded, Except.toOption, proved,
    bytesFromhex_hex]

end Honest

end AnchorProcess

end GeniusNew
