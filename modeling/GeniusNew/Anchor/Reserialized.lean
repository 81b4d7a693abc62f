import GeniusNew.Anchor.Process
import GeniusNew.Assoc.Lookup
import GeniusNew.Audit.TamperEvidence
import GeniusNew.Json.Ordered

/-! # What is rebuilt is what was read

An event that `rehydrate_event` returns holds the values of the dictionary it was given.
So it is written as that dictionary again, unless the dictionary names version one: then
it carries the version and two nulls that the event leaves out.
-/

namespace GeniusNew

open Json

section Inversion

variable {value : Value} {field : String}

theorem value_of_identifier {id : Identifier} (read : identifier value field = .ok id) :
    value = .str id.val := by
  unfold identifier at read
  split at read
  · obtain ⟨_, read⟩ := guarded_eq_ok.mp read
    obtain ⟨_, read⟩ := guarded_eq_ok.mp read
    split_ifs at read
    · rw [← Except.ok.inj read]
    · exact (fail_ne_ok read).elim
  · exact (fail_ne_ok read).elim

theorem value_of_digest? {hash : Option Digest} (read : digest? value field = .ok hash) :
    value = AuditEvent.digestValue? hash := by
  unfold digest? at read
  split at read
  · obtain rfl := Except.ok.inj read
    rfl
  · cases known : digest value field with
    | error raised =>
        rw [known] at read
        cases read
    | ok digest =>
        rw [known] at read
        obtain rfl := Except.ok.inj read
        exact digest_eq_ok.mp known

theorem value_of_oneOf {α : Type} {ofText? : Str → Option α} {message : String} {member : α}
    (read : oneOf ofText? value message = .ok member) :
    ∃ text, value = .str text ∧ ofText? text = some member := by
  unfold oneOf at read
  split at read
  · next text =>
      split at read
      · next found =>
          obtain rfl := Except.ok.inj read
          exact ⟨text, rfl, found⟩
      · exact (fail_ne_ok read).elim
  · exact (fail_ne_ok read).elim

theorem text_of_find? {α : Type} {text : α → Str} {all : List α} {given : Str}
    {member : α} (found : (all.find? fun member => text member = given) = some member) :
    text member = given := by
  have accepted := List.find?_some found
  exact of_decide_eq_true accepted

theorem value_of_reasonCode {code : ReasonCode} (read : reasonCode value = .ok code) :
    value = .str code.val := by
  unfold reasonCode at read
  split at read
  · split_ifs at read
    · rw [← Except.ok.inj read]
    · exact (fail_ne_ok read).elim
  · exact (fail_ne_ok read).elim

theorem value_of_occurredAt {time : OccurredAt} (read : occurredAt value = .ok time) :
    value = .int time.val := by
  unfold occurredAt at read
  split at read
  · split_ifs at read
    · rw [← Except.ok.inj read]
    · exact (fail_ne_ok read).elim
  · exact (fail_ne_ok read).elim

theorem values_of_bindings {action : Action} {version apiSubject result : Value}
    {bound : { bindings : Bindings // bindings.agree action = true }}
    (read : bindings action version apiSubject result = .ok bound) :
    version = bound.val.version ∧ apiSubject = bound.val.apiSubject ∧ result = bound.val.result := by
  unfold bindings at read
  split at read
  · split at read
    · obtain rfl := Except.ok.inj read
      exact ⟨rfl, rfl, rfl⟩
    · exact (fail_ne_ok read).elim
  · obtain ⟨subject, held, read⟩ := bind_eq_ok.mp read
    have subject := digest_eq_ok.mp held
    split_ifs at read with accepted
    · obtain ⟨hash, known, read⟩ := bind_eq_ok.mp read
      obtain rfl := pure_eq_ok.mp read
      exact ⟨rfl, subject, digest_eq_ok.mp known⟩
    · split at read
      · obtain rfl := pure_eq_ok.mp read
        exact ⟨rfl, subject, rfl⟩
      · exact (fail_ne_ok read).elim
  · exact (fail_ne_ok read).elim

theorem identifier_of_componentActor {component instanceId : Str} {actor : ComponentActor}
    (minted : componentActor component instanceId = .ok actor) :
    actor.component.text = component ∧ actor.instanceId.val = instanceId := by
  obtain ⟨role, named, minted⟩ := bind_eq_ok.mp minted
  obtain ⟨text, same, found⟩ := value_of_oneOf named
  obtain rfl := Value.str.inj same
  split_ifs at minted with accepted
  · obtain rfl := Except.ok.inj minted
    exact ⟨text_of_find? found, rfl⟩
  · exact (fail_ne_ok minted).elim

/-- An event holds the values it was built from. -/
theorem AuditEvent.arguments_of_ofArguments {arguments : EventArguments} {event : AuditEvent}
    (built : ofArguments arguments = .ok event) : event.arguments = arguments := by
  simp only [ofArguments, bind_eq_ok] at built
  obtain ⟨_, trace, _, job, _, subject, _, policy, _, constitution, _, handoff, _, payload, _,
    approval, _, action, _, decision, bound, bindings, _, reason, _, time, same⟩ := built
  obtain rfl := pure_eq_ok.mp same
  obtain ⟨_, actionText, actionFound⟩ := value_of_oneOf action
  obtain ⟨_, decisionText, decisionFound⟩ := value_of_oneOf decision
  obtain ⟨version, apiSubject, result⟩ := values_of_bindings bindings
  obtain ⟨⟩ := arguments
  simp only [AuditEvent.arguments, EventArguments.mk.injEq]
  refine ⟨(value_of_identifier trace).symm, (value_of_identifier job).symm, trivial,
    (value_of_identifier subject).symm, ?_, ?_, (value_of_reasonCode reason).symm,
    (value_of_identifier policy).symm, (value_of_identifier constitution).symm,
    (digest_eq_ok.mp handoff).symm, (digest_eq_ok.mp payload).symm,
    (value_of_occurredAt time).symm, (value_of_digest? approval).symm, version.symm,
    apiSubject.symm, result.symm⟩
  · rw [text_of_find? actionFound]
    exact actionText.symm
  · rw [text_of_find? decisionFound]
    exact decisionText.symm

end Inversion

/-- The dictionary that names the version and its bindings, whatever they are. -/
def AuditEvent.fullFields (event : AuditEvent) : List (Str × Value) :=
  event.commonFields ++ [(str "event_version", event.bindings.version),
    (str "api_subject_sha256", event.bindings.apiSubject),
    (str "result_sha256", event.bindings.result)]

/-- An event is also rebuilt from the dictionary that names everything. -/
theorem rehydrateEvent_fullFields (event : AuditEvent) :
    rehydrateEvent (.dict event.fullFields) = .ok event := by
  have named : hasKeys event.fullFields eventV2Keys = true := hasKeys_self event.fullFields
  obtain ⟨one, front, back⟩ := actor_split event.actor
  have actor : (event.fullFields.lookup (str "actor")).getD .null =
      .str event.actor.identifier := rfl
  simp only [rehydrateEvent, named, Bool.or_true, ↓reduceIte, actor, one, front, back,
    componentActor_identifier, bind, Except.bind]
  exact event.ofArguments_arguments

section Rebuilt

variable {fields other : List (Str × Value)} {event : AuditEvent}

/-- Fields that are named and valued as expected are the expected ones. -/
theorem perm_of_agree {expected : List (Str × Value)} (distinct : (keys fields).Nodup)
    (expectedDistinct : (keys expected).Nodup) (named : hasKeys fields (keys expected) = true)
    (values : ∀ item ∈ expected, ∃ default, (fields.lookup item.1).getD default = item.2) :
    fields.Perm expected := by
  simp only [hasKeys, Bool.and_eq_true, List.all_eq_true, decide_eq_true_eq] at named
  have subset : expected ⊆ fields := by
    intro item member
    obtain ⟨default, held⟩ := values item member
    obtain ⟨found, inside, same⟩ :=
      List.mem_map.mp (named.2 item.1 (List.mem_map_of_mem member))
    rw [← same, lookup_of_mem distinct inside] at held
    have equal : found = item := Prod.ext same held
    rwa [← equal]
  have sized : fields.length ≤ expected.length := by
    have bounded := (distinct.subperm named.1).length_le
    simpa [keys] using bounded
  have once : expected.Nodup := List.Nodup.of_map Prod.fst expectedDistinct
  exact ((once.subperm subset).perm_of_length_le sized).symm

theorem rejoined_actor {actor : Str} {built : ComponentActor} (one : actor.count 58 = 1)
    (minted : componentActor (actor.takeWhile (· ≠ 58)) ((actor.dropWhile (· ≠ 58)).drop 1) =
      .ok built) : built.identifier = actor := by
  obtain ⟨component, instanceId⟩ := identifier_of_componentActor minted
  have present : (58 : CodePoint) ∈ actor := by
    rw [← List.count_pos_iff, one]
    exact Nat.one_pos
  rw [ComponentActor.identifier, component, instanceId]
  cases rest : actor.dropWhile (· ≠ 58) with
  | nil =>
      have absent := List.dropWhile_eq_nil_iff.mp rest 58 present
      simp at absent
  | cons c tail =>
      have head := List.head?_dropWhile_not (fun c : CodePoint => decide (c ≠ 58)) actor
      rw [rest] at head
      obtain rfl : c = 58 := by simpa using head
      rw [List.drop_one, List.tail_cons, ← rest]
      exact List.takeWhile_append_dropWhile

/-- The values of an event are those of the dictionary it was rebuilt from. -/
theorem values_of_rehydrateEvent (accepted : rehydrateEvent (.dict fields) = .ok event) :
    (hasKeys fields eventKeys = true ∨ hasKeys fields eventV2Keys = true) ∧
      (∀ item ∈ event.fullFields, ∃ default, (fields.lookup item.1).getD default = item.2) ∧
      (fields.lookup (str "event_version")).getD (.int 1) = event.bindings.version := by
  unfold rehydrateEvent at accepted
  dsimp only at accepted
  split_ifs at accepted with named
  · rw [Bool.or_eq_true] at named
    split at accepted
    · next actor given =>
        split_ifs at accepted with one
        · obtain ⟨minted, built, made⟩ := bind_eq_ok.mp accepted
          have rejoined := rejoined_actor one built
          have values := AuditEvent.arguments_of_ofArguments made
          simp only [AuditEvent.arguments, EventArguments.mk.injEq] at values
          obtain ⟨trace, job, same, subject, action, decision, reason, policy, constitution,
            handoff, payload, time, approval, version, apiSubject, result⟩ := values
          refine ⟨named, ?_, version.symm⟩
          have actorValue : (fields.lookup (str "actor")).getD .null =
              .str event.actor.identifier := by rw [given, same, rejoined]
          simp only [AuditEvent.fullFields, AuditEvent.commonFields, List.cons_append,
            List.nil_append, List.forall_mem_cons, List.not_mem_nil, false_implies, implies_true,
            and_true]
          exact ⟨⟨_, action.symm⟩, ⟨_, actorValue⟩, ⟨_, approval.symm⟩, ⟨_, constitution.symm⟩,
            ⟨_, decision.symm⟩, ⟨_, handoff.symm⟩, ⟨_, job.symm⟩, ⟨_, time.symm⟩,
            ⟨_, payload.symm⟩, ⟨_, policy.symm⟩, ⟨_, reason.symm⟩, ⟨_, subject.symm⟩,
            ⟨_, trace.symm⟩, ⟨_, version.symm⟩, ⟨_, apiSubject.symm⟩, ⟨_, result.symm⟩⟩
        · exact (fail_ne_ok accepted).elim
    · exact (fail_ne_ok accepted).elim
  · exact (fail_ne_ok accepted).elim

/-- Named fields name no other key. -/
theorem lookup_of_not_named {wanted : List Str} {key : Str} (named : hasKeys fields wanted = true)
    (strange : key ∉ wanted) : fields.lookup key = none := by
  rw [← Option.not_isSome_iff_eq_none, Assoc.lookup_isSome_iff]
  intro present
  simp only [hasKeys, Bool.and_eq_true, List.all_eq_true, decide_eq_true_eq] at named
  exact strange (named.1 key present)

/-- The two forms of an event that are accepted: without the version, if the event is of
version one, and with everything named. -/
theorem perm_of_rehydrateEvent (distinct : (keys fields).Nodup)
    (accepted : rehydrateEvent (.dict fields) = .ok event) :
    (event.bindings = .legacy ∧ fields.Perm event.commonFields) ∨ fields.Perm event.fullFields := by
  obtain ⟨named, values, version⟩ := values_of_rehydrateEvent accepted
  rcases named with short | full
  · left
    rw [lookup_of_not_named short (by decide)] at version
    constructor
    · cases bound : event.bindings with
      | legacy => rfl
      | bound subject result =>
          rw [bound] at version
          cases version
    · refine @perm_of_agree fields event.commonFields distinct AuditEvent.eventKeys_nodup.1 short ?_
      intro item member
      exact values item (List.mem_append_left _ member)
  · right
    exact @perm_of_agree fields event.fullFields distinct AuditEvent.eventKeys_nodup.2 full values

/-- The dictionary does not name version one. -/
def SilentOnOne (fields : List (Str × Value)) : Prop :=
  fields.lookup (str "event_version") ≠ some (.int 1)

/-- A dictionary that is silent on version one has the fields of its event, and any other
has three more. -/
theorem form_of_rehydrateEvent (distinct : (keys fields).Nodup)
    (accepted : rehydrateEvent (.dict fields) = .ok event) :
    (SilentOnOne fields ∧ fields.Perm event.fields) ∨
      (¬ SilentOnOne fields ∧ fields.Perm event.fullFields ∧ event.fields.length = 13) := by
  unfold SilentOnOne
  rcases perm_of_rehydrateEvent distinct accepted with ⟨legacy, perm⟩ | perm
  · left
    rw [lookup_of_perm perm distinct, AuditEvent.fields, legacy, AuditEvent.boundFields,
      List.append_nil]
    refine ⟨?_, perm⟩
    intro absent
    cases absent
  · have named : fields.lookup (str "event_version") = some event.bindings.version :=
      lookup_of_perm perm distinct _
    rw [named, AuditEvent.fields]
    rw [AuditEvent.fullFields] at perm ⊢
    cases bound : event.bindings with
    | legacy =>
        rw [bound] at perm
        exact .inr ⟨not_not.mpr rfl, perm, rfl⟩
    | bound subject result =>
        rw [bound] at perm
        refine .inl ⟨?_, perm⟩
        intro other
        cases other

theorem same_toDict_iff (distinct : (keys fields).Nodup)
    (accepted : rehydrateEvent (.dict fields) = .ok event) :
    Value.Same (.dict fields) event.toDict ↔ SilentOnOne fields := by
  rcases form_of_rehydrateEvent distinct accepted with ⟨silent, perm⟩ | ⟨loud, perm, short⟩
  · exact iff_of_true (Value.same_dict_of_perm distinct perm) silent
  · refine iff_of_false ?_ loud
    intro same
    have sized : fields.length = event.fields.length := Value.length_of_same_dict same
    rw [perm.length_eq, short] at sized
    cases sized

theorem same_iff_silent (distinct : (keys fields).Nodup) (otherDistinct : (keys other).Nodup)
    (accepted : rehydrateEvent (.dict fields) = .ok event)
    (otherAccepted : rehydrateEvent (.dict other) = .ok event) :
    Value.Same (.dict other) (.dict fields) ↔ (SilentOnOne other ↔ SilentOnOne fields) := by
  have mine := same_toDict_iff distinct accepted
  have theirs := same_toDict_iff otherDistinct otherAccepted
  constructor
  · intro same
    rw [← mine, ← theirs, Value.Same, Value.Same, same]
  · intro agree
    by_cases silent : SilentOnOne fields
    · exact (theirs.mpr (agree.mpr silent)).trans (mine.mpr silent).symm
    · have full : ∀ {fields : List (Str × Value)}, (keys fields).Nodup →
          rehydrateEvent (.dict fields) = .ok event → ¬ SilentOnOne fields →
            fields.Perm event.fullFields := by
        intro fields distinct accepted loud
        rcases form_of_rehydrateEvent distinct accepted with ⟨silent, _⟩ | ⟨_, perm, _⟩
        · exact (loud silent).elim
        · exact perm
      exact Value.same_dict_of_perm otherDistinct
        ((full otherDistinct otherAccepted (mt agree.mp silent)).trans
          (full distinct accepted silent).symm)

theorem sortKeys_of_keys_sorted {α : Type*} {fields : List (Str × α)} {wanted : List Str}
    (named : keys fields = wanted) (inOrder : wanted.Pairwise fun a b => keyLe a b = true) :
    sortKeys fields = fields := by
  subst named
  exact sortKeys_of_sorted (List.pairwise_map.mp inOrder)

/-- A record is written as it was sent, up to how its event is. -/
theorem same_record_iff {record : AuditRecord} {recordFields : List (Str × Value)}
    (distinct : (keys recordFields).Nodup)
    (carried : recordFields.lookup (str "event") = some (.dict fields))
    (accepted : AnchorProcess.record (.dict recordFields) = .ok record) :
    ∃ event data, rehydrateEvent (.dict fields) = .ok event ∧ record.toDict = some data ∧
      (Value.Same (.dict recordFields) data ↔ Value.Same (.dict fields) event.toDict) := by
  unfold AnchorProcess.record at accepted
  dsimp only at accepted
  split_ifs at accepted with named
  · rw [carried, Option.getD_some] at accepted
    obtain ⟨event, rebuilt, made⟩ := bind_eq_ok.mp accepted
    obtain rfl := pure_eq_ok.mp made
    refine ⟨event, _, rebuilt, rfl, ?_⟩
    have inOrder : AnchorProcess.recordKeys.Pairwise fun a b => keyLe a b = true := by decide
    have sorted := sortKeys_of_hasKeys distinct (by decide) inOrder named .null
    rw [Value.Same, Value.ordered_dict, Value.ordered_dict, sorted,
      @sortKeys_of_keys_sorted _ _ _ ?_ inOrder]
    · simp [AnchorProcess.recordKeys, carried, Value.Same]
    · rfl
  · exact (fail_ne_ok accepted).elim

end Rebuilt

/-- An event is written as the dictionary it was rebuilt from exactly when that does not
name version one; so is a record. Dictionaries of one event are equal exactly when both
name version one or neither does. -/
theorem rehydrated_verbatim_iff {fields : List (Str × Value)} {event : AuditEvent}
    (distinct : (keys fields).Nodup) (accepted : rehydrateEvent (.dict fields) = .ok event) :
    (Value.Same (.dict fields) event.toDict ↔ SilentOnOne fields) ∧
    (∀ other, (keys other).Nodup → rehydrateEvent (.dict other) = .ok event →
      (Value.Same (.dict other) (.dict fields) ↔ (SilentOnOne other ↔ SilentOnOne fields))) ∧
    ∀ recordFields record, (keys recordFields).Nodup →
      recordFields.lookup (str "event") = some (.dict fields) →
      AnchorProcess.record (.dict recordFields) = .ok record →
        ∃ data, record.toDict = some data ∧
          (Value.Same (.dict recordFields) data ↔ SilentOnOne fields) := by
  refine ⟨same_toDict_iff distinct accepted, ?_, ?_⟩
  · intro other otherDistinct otherAccepted
    exact same_iff_silent distinct otherDistinct accepted otherAccepted
  · intro recordFields record recordDistinct carried sent
    obtain ⟨found, data, rebuilt, written, same⟩ := same_record_iff recordDistinct carried sent
    obtain rfl : found = event := Except.ok.inj (rebuilt.symm.trans accepted)
    exact ⟨data, written, same.trans (same_toDict_iff distinct accepted)⟩

/-- A version one event that names its version. -/
def firstVersioned : List (Str × Value) := (issuedAt ⟨1, first_second_occurs⟩).fullFields

theorem firstVersioned_nodup : (keys firstVersioned).Nodup := AuditEvent.eventKeys_nodup.2

theorem firstVersioned_loud : ¬ SilentOnOne firstVersioned := not_not.mpr rfl

/-- A record of that event as it is sent. -/
def versionedRecord : List (Str × Value) :=
  [(str "event", .dict firstVersioned), (str "index", .int 0), (str "previous_hash", .null),
    (str "record_hash", .null)]

theorem rehydrated_verbatim_demo :
    ∃ record data, AnchorProcess.record (.dict versionedRecord) = .ok record ∧
      record.toDict = some data ∧ ¬ Value.Same (.dict versionedRecord) data := by
  have accepted := rehydrateEvent_fullFields (issuedAt ⟨1, by decide⟩)
  have named : hasKeys versionedRecord AnchorProcess.recordKeys = true := hasKeys_self _
  have carried : versionedRecord.lookup (str "event") = some (.dict firstVersioned) := rfl
  have sent : ∃ record, AnchorProcess.record (.dict versionedRecord) = .ok record := by
    rw [AnchorProcess.record, if_pos named, carried, Option.getD_some, firstVersioned, accepted]
    exact ⟨_, rfl⟩
  obtain ⟨record, sent⟩ := sent
  obtain ⟨data, written, same⟩ := (rehydrated_verbatim_iff firstVersioned_nodup accepted).2.2
    versionedRecord record (by decide) carried sent
  exact ⟨record, data, sent, written, mt same.mp firstVersioned_loud⟩

/-- The event is rebuilt from two dictionaries and written as one of them. -/
theorem versioned_rewritten : ¬ ∀ fields event, (keys fields).Nodup →
    rehydrateEvent (.dict fields) = .ok event → Value.Same (.dict fields) event.toDict := by
  intro verbatim
  have same := verbatim firstVersioned _ firstVersioned_nodup
    (rehydrateEvent_fullFields (issuedAt ⟨1, by decide⟩))
  have sized : (16 : Nat) = 13 := Value.length_of_same_dict same
  cases sized

end GeniusNew
