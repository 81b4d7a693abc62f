import GeniusNew.Anchor.State
import GeniusNew.Assoc.Lookup
import GeniusNew.Audit.TamperEvidence

/-! # Answering one request

What `_answer` makes of a message: a reply, nothing after a failed write, or an
exception. An interpreter may count the calls it is in against the limit that it
counts nesting against, and then a request can be nested too deeply for `_handle`
to encode again although `_decode`, one call less deep, could.
-/

namespace GeniusNew

open Json

/-- An interpreter with what one call takes of its recursion limit: one up to
Python 3.11 and nothing since. -/
structure Host where
  interpreter : Interpreter
  frame : Nat
  room : 16 + frame ≤ interpreter.recursionLimit

/-- The interpreter as it is one call deeper. -/
def Host.inner (host : Host) : Interpreter :=
  { host.interpreter with
    recursionLimit := host.interpreter.recursionLimit - host.frame
    recursionLimit_sufficient := Nat.le_sub_of_add_le host.room }

namespace AnchorProcess

def maxReplyBytes : Nat := 4096

/-- `_answer`, with the state and the file it leaves. Without a state path there
is no write; `_handle` is one call deeper than `_decode` was. -/
def respond (host : Host) (verifier : AuditVerifier) (message : List (Str × Value))
    (path : Option Append) (state : Committed) (file : Option Bytes) :
    Outcome (Option Value) × Committed × Option Bytes :=
  match handle host.inner verifier message state with
  | (.error (.contractError text), after) => (.ok (some (refusal text)), after, file)
  | (.error raised, after) => (.error raised, after, file)
  | (.ok reply, after) =>
      match path with
      | none => (.ok (some reply), after, file)
      | some write =>
          if after = state then (.ok (some reply), after, file)
          else
            match head ((message.lookup (str "head")).getD .null) >>= headLine host.inner with
            | .error raised => (.error raised, after, file)
            | .ok line =>
                match write with
                | .completes => (.ok (some reply), after, append file line .completes)
                | write => (.ok none, after, append file line write)

/-- The reply of a served anchor, bound to the nonce of its request. -/
def replyEnvelope (nonce : Str) (reply : Value) (signature : Str) : Value :=
  .dict [(str "nonce", .str nonce), (str "reply", reply), (str "signature", .str signature)]

section Refusals

variable {interpreter : Interpreter} {message : List (Str × Value)} {state : Committed}

theorem refuses_head (value : Value) : RefusesWith Plain (head value) := by
  cases value with
  | dict fields => exact .ite (.ok _) (.fail (by decide))
  | _ => exact .fail (by decide)

theorem refuses_record (value : Value) : RefusesWith Plain (record value) := by
  cases value with
  | dict fields =>
      exact .ite (.bind (refuses_rehydrateEvent _) fun _ => .pure _) (.fail (by decide))
  | _ => exact .fail (by decide)

theorem refuses_records (value : Value) : RefusesWith Plain (records value) := by
  cases value with
  | list values => exact .bind (.mapM refuses_record values) fun _ => .pure _
  | _ => exact .fail (by decide)

/-- The message is one that `_handle` encodes to measure it. -/
def measured (message : List (Str × Value)) : Bool :=
  isKind message "commit2" && hasKeys message commit2Keys

/-- What `_handle` has to encode is not nested deeper than it can. -/
def Encodable (interpreter : Interpreter) (message : List (Str × Value)) : Prop :=
  measured message = true → (Value.dict message).depth ≤ interpreter.recursionLimit

theorem refuses_canonical {value : Value} (shallow : value.depth ≤ interpreter.recursionLimit) :
    RefusesWith Plain (canonical interpreter value) := by
  rw [canonical, if_pos shallow]
  exact .ite (.ok _) (.fail (by decide))

theorem refuses_readRequest (encodable : Encodable interpreter message) :
    RefusesWith Plain (readRequest interpreter message state) := by
  unfold readRequest
  dsimp only
  split_ifs with asks measures other
  · exact .ok _
  · refine .bind (refuses_canonical (encodable measures)) fun _ => ?_
    refine .ite (.fail (by decide)) (.bind (refuses_head _) fun _ => ?_)
    refine .bind (refuses_count _ (by decide)) fun _ => .bind (refuses_records _) fun _ => ?_
    exact .ite (.fail (by decide)) (.pure _)
  · exact .fail (by decide)
  · exact .bind (refuses_head _) fun _ => .bind (refuses_records _) fun _ => .pure _

theorem refuses_handle (verifier : AuditVerifier) (encodable : Encodable interpreter message) :
    RefusesWith Plain (handle interpreter verifier message state).1 := by
  have reads := @refuses_readRequest _ _ state encodable
  unfold handle
  cases read : readRequest interpreter message state with
  | error raised =>
      rw [read] at reads
      exact fun other same => reads other (congrArg _ (Except.error.inj same))
  | ok request =>
      cases request with
      | committed => exact .ok _
      | commit2 sent items => exact .map (refuses_commitDelta _ _ _ _)
      | commit sent items => exact .map (refuses_commit _ _ _ _)

/-- A message that cannot be encoded again is not answered. -/
theorem handle_of_not_encodable (verifier : AuditVerifier)
    (deep : ¬Encodable interpreter message) :
    handle interpreter verifier message state = (.error .recursionError, state) := by
  obtain ⟨measures, deeper⟩ := Classical.not_imp.mp deep
  have other : (isKind message "committed" && hasKeys message [str "kind"]) = false := by
    simp only [measured, isKind, Bool.and_eq_true] at measures ⊢
    split at measures
    · next text found =>
      have kind : text = str "commit2" := of_decide_eq_true measures.1
      rw [kind]
      rfl
    · cases measures.1
  have raised : readRequest interpreter message state = .error .recursionError := by
    unfold readRequest
    dsimp only
    rw [other, if_neg Bool.false_ne_true, ← measured, if_pos measures, canonical, if_neg deeper]
    rfl
  rw [handle, raised]

end Refusals

section Answers

variable {host : Host} {verifier : AuditVerifier} {message : List (Str × Value)} {state : Committed}
  {path : Option Append} {file : Option Bytes}

/-- Everything `_answer` can do with a message it can encode: refuse it, answer
with the state as it is, or move the anchor to the head of the message, which is
acknowledged once it is in the state file, if there is one. -/
theorem respond_cases (encodable : Encodable host.inner message) :
    (∃ text, Plain text ∧ respond host verifier message path state file =
      (.ok (some (refusal text)), state, file)) ∨
    respond host verifier message path state file = (.ok (some (committed state)), state, file) ∨
    ∃ next sent, state.count < next.count ∧ verifyHead verifier (some sent) = .ok next ∧
      head ((message.lookup (str "head")).getD .null) = .ok sent ∧
      respond host verifier message path state file =
        (.ok (if path.all (· matches .completes) then some (committed next) else none), next,
          match path with
          | none => file
          | some write => append file (lineOf sent) write) := by
  have refuses := @refuses_handle _ _ state verifier encodable
  rcases handle_cases host.inner verifier message state with
    ⟨raised, handled⟩ | handled | ⟨next, sent, less, found, verified, handled⟩
  · rw [handled] at refuses
    obtain ⟨text, rfl, plain⟩ := refuses raised rfl
    exact .inl ⟨text, plain, by rw [respond, handled]⟩
  · refine .inr (.inl ?_)
    cases path with
    | none => rw [respond, handled]
    | some write => simp only [respond, handled, ↓reduceIte]
  · refine .inr (.inr ⟨next, sent, less, verified, found, ?_⟩)
    have moved : next ≠ state := fun same => absurd (congrArg Committed.count same) (by omega)
    have line : head ((message.lookup (str "head")).getD .null) >>= headLine host.inner =
        .ok (lineOf sent) := by
      rw [found]
      exact headLine_eq verified
    cases path with
    | none => rw [respond, handled]; rfl
    | some write =>
        simp only [respond, handled, moved, ↓reduceIte, line]
        cases write <;> rfl

/-- An anchor whose calls take nothing of the limit answers as `answer` says. -/
theorem answer_eq_respond (level : host.inner = host.interpreter) (write : Append) :
    answer host.interpreter verifier message write state file =
      let left := respond host verifier message (some write) state file
      ⟨left.1.toOption.join, left.2.1, left.2.2⟩ := by
  unfold answer respond
  rw [level]
  rcases handle host.interpreter verifier message state with ⟨outcome, after⟩
  cases outcome with
  | error raised => cases raised <;> rfl
  | ok reply =>
      dsimp only
      split_ifs
      · rfl
      · cases head ((message.lookup (str "head")).getD .null) >>= headLine host.interpreter with
        | error raised => rfl
        | ok line => cases write <;> rfl

end Answers

section Sizes

theorem length_refusal {text : String} (plain : Plain text) :
    (dumps (refusal text)).length ≤ 600 := by
  have quoted : ((str text).take 512).all unescaped = true := by
    rw [List.all_eq_true]
    exact fun c member => List.all_eq_true.mp plain c (List.mem_of_mem_take member)
  have sized : (dumps (.str ((str text).take 512))).length ≤ 514 := by
    rw [dumps, length_quote quoted, List.length_take]
    omega
  have fixed : fieldLength (str "kind", .str (str "refused")) + (quote (str "message")).length = 26 := by
    decide +kernel
  rw [refusal, length_dumps_dict (List.cons_ne_nil _ _)]
  simp only [List.map_cons, List.map_nil, List.sum_cons, List.sum_nil]
  rw [show fieldLength (str "message", .str ((str text).take 512)) =
    (quote (str "message")).length + (dumps (.str ((str text).take 512))).length + 2 from rfl]
  omega

theorem length_committed (state : Committed) : (dumps (committed state)).length ≤ 600 := by
  have hash := length_dumps_hex state.headHash.property
  have counted : (dumps (.int state.count)).length ≤ 7 := by
    rw [length_dumps_nat]
    exact digitCount_le (Nat.lt_of_le_of_lt state.count_le (by decide))
  have fixed : fieldLength (str "kind", .str (str "ok")) + (quote (str "count")).length +
      (quote (str "head_hash")).length ≤ 40 := by decide +kernel
  rw [committed, length_dumps_dict (List.cons_ne_nil _ _)]
  simp only [List.map_cons, List.map_nil, List.sum_cons, List.sum_nil]
  rw [show fieldLength (str "count", .int state.count) =
      (quote (str "count")).length + (dumps (.int state.count)).length + 2 from rfl,
    show fieldLength (str "head_hash", .str state.headHash.val) =
      (quote (str "head_hash")).length + (dumps (.str state.headHash.val)).length + 2 from rfl]
  omega

/-- A short reply fits its frame with its nonce and its signature around it. -/
theorem length_replyEnvelope {nonce signature : Str} {reply : Value}
    (named : isHexText 64 nonce = true) (signed : isHexText 128 signature = true)
    (short : (dumps reply).length ≤ 600) :
    (canonicalBytes (replyEnvelope nonce reply signature)).length ≤ maxReplyBytes := by
  have first := length_dumps_hex named
  have last := length_dumps_hex signed
  have fixed : (quote (str "nonce")).length + (quote (str "reply")).length +
      (quote (str "signature")).length ≤ 40 := by decide +kernel
  rw [length_canonicalBytes, replyEnvelope, length_dumps_dict (List.cons_ne_nil _ _)]
  simp only [List.map_cons, List.map_nil, List.sum_cons, List.sum_nil, fieldLength, maxReplyBytes]
  omega

end Sizes

section Survival

variable {host : Host} {verifier : AuditVerifier} {message : List (Str × Value)} {state : Committed}
  {path : Option Append} {file : Option Bytes}

/-- What an anchor may do with a message: it answers, or it ends after a failed
write. A refusal has changed nothing, with a state file an answer that is not a
refusal has the anchor where it was or the message's head in the file, and every
answer fits its frame. -/
structure Survives (verifier : AuditVerifier) (message : List (Str × Value))
    (path : Option Append) (state : Committed) (file : Option Bytes)
    (left : Outcome (Option Value) × Committed × Option Bytes) : Prop where
  returns : ∃ reply, left.1 = .ok reply
  answers : ∀ reply, left.1 = .ok (some reply) →
    (∃ text, reply = refusal text) ∨ reply = committed left.2.1
  fails : left.1 = .ok none → ∃ write, path = some write ∧ write ≠ .completes
  refuses : ∀ text, left.1 = .ok (some (refusal text)) → left.2 = (state, file)
  acknowledges : ∀ write, path = some write → left.1 = .ok (some (committed left.2.1)) →
    left.2 = (state, file) ∨ ∃ sent, head ((message.lookup (str "head")).getD .null) = .ok sent ∧
      verifyHead verifier (some sent) = .ok left.2.1 ∧
      left.2.2 = some (file.getD [] ++ lineOf sent)
  fits : ∀ reply nonce signature, left.1 = .ok (some reply) → isHexText 64 nonce = true →
    isHexText 128 signature = true →
      (canonicalBytes (replyEnvelope nonce reply signature)).length ≤ maxReplyBytes

theorem refusal_ne_committed (text : String) (state : Committed) :
    refusal text ≠ committed state := by
  intro same
  have fields := List.cons.inj (Value.dict.inj same)
  exact absurd (show str "kind" = str "count" from congrArg Prod.fst fields.1) (by decide)

theorem survives_of_encodable (encodable : Encodable host.inner message) :
    Survives verifier message path state file
      (respond host verifier message path state file) := by
  have fit {said reply : Value} {nonce signature : Str} (short : (dumps said).length ≤ 600)
      (same : (.ok (some said) : Outcome (Option Value)) = .ok (some reply))
      (named : isHexText 64 nonce = true) (signed : isHexText 128 signature = true) :
      (canonicalBytes (replyEnvelope nonce reply signature)).length ≤ maxReplyBytes := by
    obtain rfl := Option.some.inj (Except.ok.inj same)
    exact length_replyEnvelope named signed short
  rcases @respond_cases host verifier message state path file encodable with
    ⟨text, plain, answered⟩ | answered | ⟨next, sent, less, verified, found, answered⟩
  · rw [answered]
    constructor
    · exact ⟨_, rfl⟩
    · exact fun reply same => .inl ⟨text, (Option.some.inj (Except.ok.inj same)).symm⟩
    · exact fun absurd => nomatch absurd
    · exact fun _ _ => rfl
    · exact fun _ _ _ => .inl rfl
    · exact fun reply nonce signature same => fit (length_refusal plain) same
  · rw [answered]
    constructor
    · exact ⟨_, rfl⟩
    · exact fun reply same => .inr (Option.some.inj (Except.ok.inj same)).symm
    · exact fun absurd => nomatch absurd
    · exact fun _ _ => rfl
    · exact fun _ _ _ => .inl rfl
    · exact fun reply nonce signature same => fit (length_committed state) same
  · rw [answered]
    constructor
    · exact ⟨_, rfl⟩
    · intro reply same
      split_ifs at same
      · exact .inr (Option.some.inj (Except.ok.inj same)).symm
      · cases same
    · intro same
      cases path with
      | none => cases same
      | some write => cases write <;> [cases same; exact ⟨_, rfl, nofun⟩; exact ⟨_, rfl, nofun⟩]
    · intro text same
      split_ifs at same
      · exact (refusal_ne_committed _ _ (Option.some.inj (Except.ok.inj same)).symm).elim
      · cases same
    · rintro write rfl same
      cases write with
      | completes => exact .inr ⟨sent, found, verified, rfl⟩
      | _ => cases same
    · intro reply nonce signature same
      split_ifs at same
      · exact fit (length_committed next) same
      · cases same

/-- The anchor survives a message exactly when it can encode what it has to. -/
theorem anchor_survives_iff (host : Host) (verifier : AuditVerifier) (message : List (Str × Value))
    (path : Option Append) (state : Committed) (file : Option Bytes) :
    Survives verifier message path state file (respond host verifier message path state file) ↔
      (isKind message "commit2" = true → hasKeys message commit2Keys = true →
        (Value.dict message).depth + host.frame ≤ host.interpreter.recursionLimit) := by
  have room := host.room
  have limit : host.inner.recursionLimit = host.interpreter.recursionLimit - host.frame := rfl
  have condition : Encodable host.inner message ↔ (isKind message "commit2" = true →
      hasKeys message commit2Keys = true →
        (Value.dict message).depth + host.frame ≤ host.interpreter.recursionLimit) := by
    rw [Encodable, measured, Bool.and_eq_true, and_imp, limit]
    refine imp_congr_right fun _ => imp_congr_right fun _ => ?_
    omega
  rw [← condition]
  constructor
  · intro survives
    by_contra deep
    obtain ⟨reply, returned⟩ := survives.returns
    rw [respond, handle_of_not_encodable verifier deep] at returned
    cases returned
  · exact survives_of_encodable

/-- The request of an envelope is less deep than the envelope, so a served anchor
survives every request where a call takes no more than one level. -/
theorem survives_of_envelope {data : Bytes} {noun : String} {envelope : List (Str × Value)}
    (decoded : decode host.interpreter data noun = .ok envelope)
    (wrapped : envelope.lookup (str "request") = some (.dict message)) (single : host.frame ≤ 1) :
    Survives verifier message path state file
      (respond host verifier message path state file) := by
  refine (anchor_survives_iff host verifier message path state file).mpr fun _ _ => ?_
  obtain ⟨_, encoded⟩ := decode_eq_ok decoded
  have shallow := (canonical_eq_ok.mp encoded).1
  have inside : (Value.dict message).depth ≤ Value.depthFields envelope :=
    Value.depthFields_le.mp le_rfl _ (Assoc.mem_of_lookup wrapped)
  rw [Value.depth] at shallow
  omega

end Survival

section Nesting

/-- A list in a list, and so on. -/
def nested : Nat → Value
  | 0 => .list []
  | n + 1 => .list [nested n]

theorem depth_nested (n : Nat) : (nested n).depth = n + 1 := by
  induction n with
  | zero => rfl
  | succ n ih => rw [nested, Value.depth, Value.depthItems, Value.depthItems, ih, Nat.max_zero]

theorem tidy_nested (n : Nat) : (nested n).tidy = true := by
  induction n with
  | zero => rfl
  | succ n ih => rw [nested, Value.tidy, Value.tidyItems, Value.tidyItems, ih, Bool.true_and]

theorem printable_nested (interpreter : Interpreter) (n : Nat) :
    (nested n).printable interpreter = true := by
  induction n with
  | zero => rfl
  | succ n ih =>
      rw [nested, Value.printable, Value.printableItems, Value.printableItems, ih, Bool.true_and]

theorem decoded_nested (n : Nat) : (nested n).decoded = nested n := by
  induction n with
  | zero => rfl
  | succ n ih => rw [nested, Value.decoded_list, List.map_singleton, ih]

/-- An interpreter of the kind that counts calls, as it starts. -/
def countingHost : Host := ⟨literalInterpreter, 1, by decide⟩

/-- A delta request as deep as can be decoded. -/
def deepFields : List (Str × Value) :=
  [(str "from_count", .int 0), (str "head", .null), (str "kind", .str (str "commit2")),
    (str "records", nested 998)]

/-- A request that was decoded raises a `RecursionError`. -/
theorem deep_request_raises :
    ∃ data message, decode countingHost.interpreter data "anchor request" = .ok message ∧
      respond countingHost digestAuthority.verifier message none .initial none =
        (.error .recursionError, .initial, none) := by
  have named : keys deepFields = commit2Keys := rfl
  have distinct : (keys deepFields).Nodup := named ▸ plain_commit2Keys.nodup
  have plain : ∀ key ∈ keys deepFields, joinSurrogates key = key := named ▸ plain_commit2Keys.plain
  have neat : (Value.dict deepFields).tidy = true := by
    refine Value.tidy_dict.mpr ⟨distinct, plain, ?_⟩
    simp only [deepFields, List.forall_mem_cons, List.not_mem_nil, false_implies, implies_true,
      and_true]
    exact ⟨rfl, rfl, rfl, tidy_nested _⟩
  have encoded : canonical literalInterpreter (.dict deepFields) =
      .ok (canonicalBytes (.dict deepFields)) := by
    refine canonical_eq_ok.mpr ⟨?_, ?_, rfl⟩
    · simp only [deepFields, Value.depth, Value.depthFields, depth_nested, literalInterpreter]
      decide
    · rw [deepFields, Value.printable]
      simp only [Value.printableFields, Value.printable, printable_nested, Bool.and_true]
      decide
  have decoded : decode countingHost.interpreter (canonicalBytes (.dict deepFields))
      "anchor request" = .ok (receivedFields deepFields) := decode_of_tidy neat encoded
  have deep : ¬Encodable countingHost.inner (receivedFields deepFields) := by
    intro encodable
    have kind : (receivedFields deepFields).lookup (str "kind") = some (.str (str "commit2")) := by
      rw [lookup_receivedFields distinct]
      rfl
    have records : (receivedFields deepFields).lookup (str "records") = some (nested 998) := by
      rw [lookup_receivedFields distinct]
      exact congrArg some (decoded_nested 998)
    have measures : measured (receivedFields deepFields) = true := by
      rw [measured, hasKeys_receivedFields, isKind, kind]
      decide
    have shallow := encodable measures
    have inside := Value.depthFields_le.mp le_rfl _ (Assoc.mem_of_lookup records)
    have limit : countingHost.inner.recursionLimit = 999 := rfl
    rw [Value.depth, limit] at shallow
    rw [depth_nested] at inside
    omega
  exact ⟨_, _, decoded, by rw [respond, handle_of_not_encodable _ deep]⟩

end Nesting

end AnchorProcess

end GeniusNew
