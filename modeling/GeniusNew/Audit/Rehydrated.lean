import GeniusNew.Audit.Event

/-! # Events read back as data

An event written as a dictionary and rebuilt from it is the same event. Through
JSON text the same holds up to surrogate pairs: an identifier that carries a
pair as two code points comes back with the one code point the pair encodes
(`AuditEvent.joined`), and the two events have one canonical text.
-/

namespace GeniusNew

open Json

section Checks

theorem identifier_val (id : Identifier) (field : String) :
    identifier (.str id.val) field = .ok id := by
  obtain ⟨text, accepted⟩ := id
  have parts := accepted
  simp only [isIdentifier, Bool.and_eq_true, Bool.not_eq_true'] at parts
  simp [identifier, parts.1.1, parts.1.2, accepted]

theorem digest_val (hash : Digest) (field : String) : digest (.str hash.val) field = .ok hash := by
  simp [digest, hash.property]

theorem digest?_digestValue? (hash : Option Digest) (field : String) :
    digest? (AuditEvent.digestValue? hash) field = .ok hash := by
  cases hash with
  | none => rfl
  | some hash =>
      rw [AuditEvent.digestValue?, digest?, digest_val]
      · rfl
      · exact nofun

theorem Action.ofText?_text (action : Action) : Action.ofText? action.text = some action := by
  cases action <;> decide

theorem Decision.ofText?_text (decision : Decision) :
    Decision.ofText? decision.text = some decision := by
  cases decision <;> decide

theorem Component.ofText?_text (component : Component) :
    Component.ofText? component.text = some component := by
  cases component <;> decide

theorem reasonCode_val (code : ReasonCode) : reasonCode (.str code.val) = .ok code := by
  simp [reasonCode, code.property]

theorem occurredAt_val (time : OccurredAt) : occurredAt (.int time.val) = .ok time := by
  simp [occurredAt, time.property]

theorem not_colon_component (component : Component) : (58 : CodePoint) ∉ component.text := by
  cases component <;> decide

theorem not_colon_instanceId (id : InstanceId) : (58 : CodePoint) ∉ id.val := by
  obtain ⟨text, accepted⟩ := id
  obtain _ | ⟨first, rest⟩ := text
  · exact List.not_mem_nil
  simp only [isInstanceId, Bool.and_eq_true, List.all_eq_true] at accepted
  intro member
  rcases List.mem_cons.mp member with rfl | inside
  · exact absurd accepted.1.1 (by decide)
  · exact absurd (accepted.1.2 _ inside) (by decide)

/-- An actor's identifier splits at its one colon. -/
theorem actor_split (actor : ComponentActor) :
    actor.identifier.count 58 = 1 ∧
      actor.identifier.takeWhile (· ≠ 58) = actor.component.text ∧
      (actor.identifier.dropWhile (· ≠ 58)).drop 1 = actor.instanceId.val := by
  have before : ∀ c ∈ actor.component.text, (decide (c ≠ 58)) = true := by
    intro c member
    rw [decide_eq_true_eq]
    rintro rfl
    exact not_colon_component _ member
  refine ⟨?_, ?_, ?_⟩
  · rw [ComponentActor.identifier, List.count_append, List.count_cons_self,
      List.count_eq_zero_of_not_mem (not_colon_component _),
      List.count_eq_zero_of_not_mem (not_colon_instanceId _)]
  · rw [ComponentActor.identifier, List.takeWhile_append_of_pos before]
    simp
  · rw [ComponentActor.identifier, List.dropWhile_append_of_pos before]
    simp

theorem componentActor_identifier (actor : ComponentActor) :
    componentActor actor.component.text actor.instanceId.val = .ok actor := by
  simp [componentActor, oneOf, Component.ofText?_text, bind, Except.bind, actor.instanceId.property]

/-- The values the constructor is given for an event's bindings. -/
def Bindings.version : Bindings → Value
  | .legacy => .int 1
  | .bound _ _ => .int 2

def Bindings.apiSubject : Bindings → Value
  | .legacy => .null
  | .bound subject _ => .str subject.val

def Bindings.result : Bindings → Value
  | .legacy => .null
  | .bound _ result => AuditEvent.digestValue? result

theorem bindings_of_agree {action : Action} {bound : Bindings} (agree : bound.agree action = true) :
    bindings action bound.version bound.apiSubject bound.result = .ok ⟨bound, agree⟩ := by
  cases bound with
  | legacy => rfl
  | bound subject result =>
      simp only [Bindings.agree, decide_eq_true_eq] at agree
      by_cases accepted : action = .resultAccepted
      · obtain ⟨hash, rfl⟩ : ∃ hash, result = some hash :=
          Option.isSome_iff_exists.mp (by simpa [accepted] using agree)
        simp [bindings, Bindings.version, Bindings.apiSubject, Bindings.result,
          AuditEvent.digestValue?, digest_val, bind, Except.bind, accepted]
        rfl
      · obtain rfl : result = none := by simpa [accepted] using agree
        simp [bindings, Bindings.version, Bindings.apiSubject, Bindings.result,
          AuditEvent.digestValue?, digest_val, bind, Except.bind, accepted]
        rfl

end Checks

namespace AuditEvent

/-- What an event was built from. -/
def arguments (event : AuditEvent) : EventArguments where
  traceId := .str event.traceId.val
  jobId := .str event.jobId.val
  actor := event.actor
  subject := .str event.subject.val
  action := .str event.action.text
  decision := .str event.decision.text
  reasonCode := .str event.reasonCode.val
  policyVersion := .str event.policyVersion.val
  constitutionVersion := .str event.constitutionVersion.val
  handoffSha256 := .str event.handoffSha256.val
  payloadSha256 := .str event.payloadSha256.val
  occurredAt := .int event.occurredAt.val
  approvalRecordHash := digestValue? event.approvalRecordHash
  eventVersion := event.bindings.version
  apiSubjectSha256 := event.bindings.apiSubject
  resultSha256 := event.bindings.result

theorem ofArguments_arguments (event : AuditEvent) : ofArguments event.arguments = .ok event := by
  simp only [ofArguments, arguments, identifier_val, digest_val, digest?_digestValue?, oneOf,
    Action.ofText?_text, Decision.ofText?_text, bindings_of_agree event.bindings_agree,
    reasonCode_val, occurredAt_val, bind, Except.bind]
  rfl

theorem keys_fields (event : AuditEvent) :
    keys event.fields = eventKeys ∨ keys event.fields = eventV2Keys := by
  rcases event with ⟨_, _, _, _, _, _, _, _, _, _, _, _, _, _ | ⟨_, _⟩, _⟩
  · exact Or.inl rfl
  · exact Or.inr rfl

theorem eventKeys_nodup : eventKeys.Nodup ∧ eventV2Keys.Nodup := by decide

theorem eventKeys_plain : (∀ key ∈ eventKeys, joinSurrogates key = key) ∧
    ∀ key ∈ eventV2Keys, joinSurrogates key = key := by decide

theorem keys_fields_nodup (event : AuditEvent) : (keys event.fields).Nodup := by
  rcases event.keys_fields with same | same <;> rw [same]
  · exact eventKeys_nodup.1
  · exact eventKeys_nodup.2

theorem keys_fields_plain (event : AuditEvent) :
    ∀ key ∈ keys event.fields, joinSurrogates key = key := by
  rcases event.keys_fields with same | same <;> rw [same]
  · exact eventKeys_plain.1
  · exact eventKeys_plain.2

end AuditEvent

theorem hasKeys_self {α : Type*} (fields : List (Str × α)) : hasKeys fields (keys fields) = true := by
  simp [hasKeys, List.all_eq_true]

/-- Rebuilding an event from its own dictionary gives it back. -/
theorem rehydrateEvent_toDict (event : AuditEvent) : rehydrateEvent event.toDict = .ok event := by
  have known : (hasKeys event.fields eventKeys || hasKeys event.fields eventV2Keys) = true := by
    rcases event.keys_fields with same | same
    · rw [← same, hasKeys_self, Bool.true_or]
    · rw [← same, hasKeys_self, Bool.or_true]
  obtain ⟨one, front, back⟩ := actor_split event.actor
  have actor : (event.fields.lookup (str "actor")).getD .null = .str event.actor.identifier := rfl
  simp only [AuditEvent.toDict, rehydrateEvent, known, ↓reduceIte, actor, one, front, back,
    componentActor_identifier, bind, Except.bind]
  refine Eq.trans (congrArg AuditEvent.ofArguments ?_) event.ofArguments_arguments
  rcases event with ⟨_, _, _, _, _, _, _, _, _, _, _, _, _, _ | ⟨_, _⟩, _⟩ <;> rfl

theorem hasKeys_of_perm {α : Type*} {fields other : List (Str × α)} (same : fields.Perm other)
    (wanted : List Str) : hasKeys fields wanted = hasKeys other wanted := by
  have members : ∀ key, key ∈ keys fields ↔ key ∈ keys other :=
    fun key => (same.map Prod.fst).mem_iff
  rw [Bool.eq_iff_iff]
  simp only [hasKeys, Bool.and_eq_true, List.all_eq_true, decide_eq_true_eq, members]

/-- Rebuilding does not depend on the order of the fields. -/
theorem rehydrateEvent_of_perm {fields other : List (Str × Value)} (same : fields.Perm other)
    (distinct : (keys fields).Nodup) :
    rehydrateEvent (.dict fields) = rehydrateEvent (.dict other) := by
  simp only [rehydrateEvent, hasKeys_of_perm same, lookup_of_perm same distinct]

section Joined

theorem mem_joinSurrogates {text : Str} {c : CodePoint} (member : c ∈ joinSurrogates text) :
    c ∈ text ∨ 0x10000 ≤ c.val := by
  induction text using joinSurrogates.induct with
  | case1 => cases member
  | case2 d => exact Or.inl member
  | case3 high low rest pair ih =>
      rw [joinSurrogates, if_pos pair] at member
      rcases List.mem_cons.mp member with rfl | inside
      · right
        simp only [isHighSurrogate, isLowSurrogate, Bool.and_eq_true, decide_eq_true_eq] at pair
        rw [Fin.val_ofNat]
        omega
      · rcases ih inside with here | plane
        · exact Or.inl (List.mem_cons_of_mem _ (List.mem_cons_of_mem _ here))
        · exact Or.inr plane
  | case4 high low rest pair ih =>
      rw [joinSurrogates, if_neg pair] at member
      rcases List.mem_cons.mp member with rfl | inside
      · exact Or.inl List.mem_cons_self
      · rcases ih inside with here | plane
        · exact Or.inl (List.mem_cons_of_mem _ here)
        · exact Or.inr plane

/-- Joining the surrogate pairs of an identifier leaves an identifier. -/
theorem isIdentifier_joinSurrogates {text : Str} (accepted : isIdentifier text = true) :
    isIdentifier (joinSurrogates text) = true := by
  simp only [isIdentifier, Bool.and_eq_true, Bool.not_eq_true', List.isEmpty_eq_false_iff,
    List.any_eq_false] at accepted ⊢
  obtain ⟨⟨nonempty, solid⟩, bounded⟩ := accepted
  refine ⟨⟨joinSurrogates_ne_nil nonempty, fun c member => ?_⟩, ?_⟩
  · rcases mem_joinSurrogates member with inside | plane
    · exact solid c inside
    · simp only [isWhitespace, Bool.or_eq_true, Bool.and_eq_true, decide_eq_true_eq]
      omega
  · rwa [dumps, quote_joinSurrogates, ← dumps]

def Identifier.joined (id : Identifier) : Identifier :=
  ⟨joinSurrogates id.val, isIdentifier_joinSurrogates id.property⟩

/-- An event as it comes back from JSON text. -/
def AuditEvent.joined (event : AuditEvent) : AuditEvent :=
  { event with
    traceId := Identifier.joined event.traceId
    jobId := Identifier.joined event.jobId
    subject := Identifier.joined event.subject
    policyVersion := Identifier.joined event.policyVersion
    constitutionVersion := Identifier.joined event.constitutionVersion }

theorem joinSurrogates_reasonCode (code : ReasonCode) : joinSurrogates code.val = code.val := by
  obtain ⟨text, accepted⟩ := code
  refine joinSurrogates_of_ascii fun c member => ?_
  obtain _ | ⟨first, rest⟩ := text
  · cases member
  simp only [isReasonCode, Bool.and_eq_true, List.all_eq_true, isUpper, isDigit, Bool.or_eq_true,
    decide_eq_true_eq] at accepted
  rcases List.mem_cons.mp member with rfl | inside
  · omega
  · rcases accepted.1.2 c inside with (upper | digit) | rfl
    · omega
    · omega
    · decide

theorem ascii_component (component : Component) : ∀ c ∈ component.text, c.val < 0xd800 := by
  have plain : component.text.all (fun c => c.val < 0xd800) = true := by
    cases component <;> decide
  intro c member
  exact of_decide_eq_true (List.all_eq_true.mp plain c member)

theorem joinSurrogates_identifier (actor : ComponentActor) :
    joinSurrogates actor.identifier = actor.identifier := by
  obtain ⟨component, ⟨text, accepted⟩⟩ := actor
  refine joinSurrogates_of_ascii fun c member => ?_
  rw [ComponentActor.identifier, List.mem_append, List.mem_cons] at member
  rcases member with inside | rfl | inside
  · exact ascii_component component c inside
  · decide
  · obtain _ | ⟨first, rest⟩ := text
    · cases inside
    simp only [isInstanceId, isLowerAlnum, isDigit, Bool.and_eq_true, List.all_eq_true,
      Bool.or_eq_true, decide_eq_true_eq] at accepted
    rcases List.mem_cons.mp inside with rfl | later
    · omega
    · rcases accepted.1.2 c later with (digit | letter) | rfl
      · omega
      · omega
      · decide

theorem decoded_digestValue? (hash : Option Digest) :
    (AuditEvent.digestValue? hash).decoded = AuditEvent.digestValue? hash := by
  cases hash with
  | none => rfl
  | some hash =>
      rw [AuditEvent.digestValue?, Value.decoded_str, joinSurrogates_of_isHexText hash.property]

theorem joinSurrogates_action (action : Action) : joinSurrogates action.text = action.text := by
  cases action <;> decide

theorem joinSurrogates_decision (decision : Decision) :
    joinSurrogates decision.text = decision.text := by
  cases decision <;> decide

/-- The fields of the event that comes back are the decoded fields. -/
theorem fields_joined (event : AuditEvent) :
    event.joined.fields = event.fields.map fun field => (field.1, field.2.decoded) := by
  have digests : ∀ hash : Digest, joinSurrogates hash.val = hash.val :=
    fun hash => joinSurrogates_of_isHexText hash.property
  have common : event.joined.commonFields =
      event.commonFields.map fun field => (field.1, field.2.decoded) := by
    simp only [AuditEvent.commonFields, List.map_cons, List.map_nil, Value.decoded_str,
      Value.decoded_int, decoded_digestValue?, digests, joinSurrogates_action,
      joinSurrogates_decision, joinSurrogates_identifier, joinSurrogates_reasonCode]
    rfl
  have bound : AuditEvent.boundFields event.joined.bindings =
      (AuditEvent.boundFields event.bindings).map fun field => (field.1, field.2.decoded) := by
    rw [AuditEvent.joined]
    cases event.bindings with
    | legacy => rfl
    | bound subject result =>
        simp only [AuditEvent.boundFields, List.map_cons, List.map_nil, Value.decoded_str,
          Value.decoded_int, decoded_digestValue?, digests]
  rw [AuditEvent.fields, common, bound, AuditEvent.fields, List.map_append]

theorem fields_scalar (event : AuditEvent) :
    ∀ field ∈ event.fields, (∃ text, field.2 = .str text) ∨ (∃ number, field.2 = .int number) ∨
      field.2 = .null := by
  have digests : ∀ hash : Option Digest, (∃ text, AuditEvent.digestValue? hash = .str text) ∨
      (∃ number, AuditEvent.digestValue? hash = .int number) ∨
        AuditEvent.digestValue? hash = .null := by
    intro hash
    cases hash with
    | none => exact Or.inr (Or.inr rfl)
    | some hash => exact Or.inl ⟨_, rfl⟩
  intro field member
  rcases List.mem_append.mp member with inside | inside
  · simp only [AuditEvent.commonFields, List.mem_cons, List.not_mem_nil, or_false] at inside
    rcases inside with rfl | rfl | rfl | rfl | rfl | rfl | rfl | rfl | rfl | rfl | rfl | rfl | rfl
    all_goals first
      | exact Or.inl ⟨_, rfl⟩
      | exact Or.inr (Or.inl ⟨_, rfl⟩)
      | exact digests _
  · cases shape : event.bindings with
    | legacy =>
        rw [shape] at inside
        cases inside
    | bound subject result =>
        rw [shape] at inside
        simp only [AuditEvent.boundFields, List.mem_cons, List.not_mem_nil, or_false] at inside
        rcases inside with rfl | rfl | rfl
        · exact Or.inr (Or.inl ⟨_, rfl⟩)
        · exact Or.inl ⟨_, rfl⟩
        · exact digests _

/-- An event and the event that comes back have one text. -/
theorem dumps_toDict_joined (event : AuditEvent) :
    dumps event.joined.toDict = dumps event.toDict := by
  rw [AuditEvent.toDict, fields_joined, AuditEvent.toDict]
  refine Value.dumps_dict_congr fun field member => ?_
  rcases fields_scalar event field member with ⟨text, same⟩ | ⟨number, same⟩ | same
  · rw [same, Value.decoded_str, dumps, dumps, quote_joinSurrogates]
  · rw [same, Value.decoded_int]
  · rw [same, Value.decoded_null]

/-- An event read back from its JSON text is the event with its pairs joined. -/
theorem rehydrateEvent_decoded (event : AuditEvent) :
    rehydrateEvent event.toDict.decoded = .ok event.joined := by
  have shape : event.toDict.decoded = .dict (sortKeys event.joined.fields) := by
    rw [AuditEvent.toDict, Value.decoded_dict_of_keys event.keys_fields_nodup
      event.keys_fields_plain, fields_joined, sortKeys_map]
  have distinct : (keys (sortKeys event.joined.fields)).Nodup :=
    ((keys_sortKeys_perm _).nodup_iff).mpr event.joined.keys_fields_nodup
  rw [shape, rehydrateEvent_of_perm (sortKeys_perm _) distinct]
  exact rehydrateEvent_toDict event.joined

end Joined

end GeniusNew
