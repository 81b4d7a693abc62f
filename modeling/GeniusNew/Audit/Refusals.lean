import GeniusNew.Audit.Chain

/-! # What the audit checks refuse with

The checks of heads, records and events fail with a `ContractError` and with
nothing else, on whatever values they are given, and their sentences are plain
text: no character of them is escaped when a reply quotes them.
-/

namespace GeniusNew

open Json

/-- What fails, fails with a `ContractError` whose sentence has the property. -/
def RefusesWith {α : Type} (property : String → Prop) (outcome : Outcome α) : Prop :=
  ∀ raised, outcome = .error raised → ∃ message, raised = .contractError message ∧ property message

namespace RefusesWith

variable {α β : Type} {property : String → Prop}

theorem ok (value : α) : RefusesWith property (.ok value) := fun _ same => nomatch same

theorem pure (value : α) : RefusesWith property (Pure.pure value) := ok value

theorem fail {message : String} (holds : property message) :
    RefusesWith property (GeniusNew.fail message : Outcome α) :=
  fun _ same => ⟨message, (Except.error.inj same).symm, holds⟩

theorem bind {outcome : Outcome α} {next : α → Outcome β} (first : RefusesWith property outcome)
    (second : ∀ value, RefusesWith property (next value)) :
    RefusesWith property (outcome >>= next) := by
  intro raised same
  cases outcome with
  | error other => exact first raised (congrArg _ (Except.error.inj same))
  | ok value => exact second value raised same

theorem ite {condition : Prop} [Decidable condition] {first second : Outcome α}
    (holds : RefusesWith property first) (fails : RefusesWith property second) :
    RefusesWith property (if condition then first else second) := by
  split_ifs
  · exact holds
  · exact fails

theorem dite {condition : Prop} [Decidable condition] {first : condition → Outcome α}
    {second : ¬condition → Outcome α} (holds : ∀ held, RefusesWith property (first held))
    (fails : ∀ other, RefusesWith property (second other)) :
    RefusesWith property (if held : condition then first held else second held) := by
  split_ifs with held
  · exact holds held
  · exact fails held

theorem map {outcome : Outcome α} {f : α → β} (first : RefusesWith property outcome) :
    RefusesWith property (outcome.map f) := by
  intro raised same
  cases outcome with
  | error other => exact first raised (congrArg _ (Except.error.inj same))
  | ok value => cases same

theorem mapM {f : α → Outcome β} (each : ∀ value, RefusesWith property (f value)) (values : List α) :
    RefusesWith property (values.mapM f) := by
  induction values with
  | nil => exact pure []
  | cons value values ih =>
      rw [List.mapM_cons]
      exact bind (each value) fun _ => bind ih fun _ => pure _

end RefusesWith

section Sentences

/-- A sentence that is quoted as it stands. -/
def Plain (message : String) : Prop := (str message).all unescaped = true

instance (message : String) : Decidable (Plain message) :=
  inferInstanceAs (Decidable (_ = true))

variable {first second : String}

theorem Plain.append (left : Plain first) (right : Plain second) : Plain (first ++ second) := by
  rw [Plain, str, String.toList_append, List.map_append, List.all_append, Bool.and_eq_true]
  exact ⟨left, right⟩

theorem isDigit_ofNat {c : Char} (digit : c.isDigit = true) :
    isDigit (Fin.ofNat _ c.toNat) = true := by
  simp only [Char.isDigit, Bool.and_eq_true, decide_eq_true_eq] at digit
  have low : 48 ≤ c.toNat := digit.1
  have high : c.toNat ≤ 57 := digit.2
  have whole : (Fin.ofNat 0x110000 c.toNat).val = c.toNat := by
    rw [Fin.val_ofNat]
    omega
  simp only [isDigit, Bool.and_eq_true, decide_eq_true_eq, whole]
  exact ⟨low, high⟩

theorem plain_nat (n : Nat) : Plain (toString n) := by
  have digits : (toString n).toList = Nat.toDigits 10 n := Nat.toList_repr
  rw [Plain, str, digits, List.all_map, List.all_eq_true]
  intro c member
  apply unescaped_of_isDigit
  exact isDigit_ofNat (Nat.isDigit_of_mem_toDigits (by decide) (by decide) member)

theorem plain_int (n : Int) : Plain (toString n) := by
  cases n with
  | ofNat n => exact plain_nat n
  | negSucc n => exact Plain.append (by decide) (plain_nat _)

end Sentences

section Events

theorem refuses_identifier (value : Value) {field : String} (named : Plain field) :
    RefusesWith Plain (identifier value field) := by
  cases value with
  | str text =>
      exact .ite (.fail (named.append (by decide))) (.ite (.fail (named.append (by decide)))
        (.dite (fun _ => .ok _) fun _ => .fail (named.append (by decide))))
  | _ => exact .fail (named.append (by decide))

theorem refuses_digest (value : Value) {field : String} (named : Plain field) :
    RefusesWith Plain (digest value field) := by
  cases value with
  | str text => exact .dite (fun _ => .ok _) fun _ => .fail (named.append (by decide))
  | _ => exact .fail (named.append (by decide))

theorem refuses_digest? (value : Value) {field : String} (named : Plain field) :
    RefusesWith Plain (digest? value field) := by
  unfold digest?
  split
  · exact .ok _
  · exact .map (refuses_digest _ named)

theorem refuses_oneOf {α : Type} (ofText? : Str → Option α) (value : Value) {message : String}
    (plain : Plain message) : RefusesWith Plain (oneOf ofText? value message) := by
  cases value with
  | str text =>
      rw [oneOf]
      cases ofText? text with
      | none => exact .fail plain
      | some member => exact .ok _
  | _ => exact .fail plain

theorem refuses_reasonCode (value : Value) : RefusesWith Plain (reasonCode value) := by
  cases value with
  | str text => exact .dite (fun _ => .ok _) fun _ => .fail (by decide)
  | _ => exact .fail (by decide)

theorem refuses_occurredAt (value : Value) : RefusesWith Plain (occurredAt value) := by
  cases value with
  | int time => exact .dite (fun _ => .ok _) fun _ => .fail (by decide)
  | _ => exact .fail (by decide)

theorem refuses_componentActor (component instanceId : Str) :
    RefusesWith Plain (componentActor component instanceId) :=
  .bind (refuses_oneOf _ _ (by decide)) fun _ => .dite (fun _ => .ok _) fun _ => .fail (by decide)

theorem refuses_bindings (action : Action) (version apiSubject result : Value) :
    RefusesWith Plain (bindings action version apiSubject result) := by
  unfold bindings
  split
  · split
    · exact .ok _
    · exact .fail (by decide)
  · refine .bind (refuses_digest _ (by decide)) fun _ => .dite (fun _ => ?_) fun _ => ?_
    · exact .bind (refuses_digest _ (by decide)) fun _ => .pure _
    · split
      · exact .pure _
      · exact .fail (by decide)
  · exact .fail (by decide)

theorem refuses_ofArguments (arguments : EventArguments) :
    RefusesWith Plain (AuditEvent.ofArguments arguments) := by
  refine .bind (refuses_identifier _ (by decide)) fun _ => ?_
  refine .bind (refuses_identifier _ (by decide)) fun _ => ?_
  refine .bind (refuses_identifier _ (by decide)) fun _ => ?_
  refine .bind (refuses_identifier _ (by decide)) fun _ => ?_
  refine .bind (refuses_identifier _ (by decide)) fun _ => ?_
  refine .bind (refuses_digest _ (by decide)) fun _ => ?_
  refine .bind (refuses_digest _ (by decide)) fun _ => ?_
  refine .bind (refuses_digest? _ (by decide)) fun _ => ?_
  refine .bind (refuses_oneOf _ _ (by decide)) fun _ => ?_
  refine .bind (refuses_oneOf _ _ (by decide)) fun _ => ?_
  refine .bind (refuses_bindings _ _ _ _) fun _ => ?_
  refine .bind (refuses_reasonCode _) fun _ => ?_
  exact .bind (refuses_occurredAt _) fun _ => .pure _

/-- Whatever a record carries for its event, it is an event or refused. -/
theorem refuses_rehydrateEvent (value : Value) : RefusesWith Plain (rehydrateEvent value) := by
  cases value with
  | dict fields =>
      rw [rehydrateEvent]
      refine .ite ?_ (.fail (by decide))
      dsimp only
      split
      · exact .ite (.bind (refuses_componentActor _ _) fun _ => refuses_ofArguments _)
          (.fail (by decide))
      · exact .fail (by decide)
  | _ => exact .fail (by decide)

end Events

section Chains

theorem refuses_count (value : Value) {field : String} (named : Plain field) :
    RefusesWith Plain (count value field) := by
  cases value with
  | int number =>
      exact .ite (.fail (named.append (by decide)))
        (.dite (fun _ => .ok _) fun _ => .fail (named.append (by decide)))
  | _ => exact .fail (named.append (by decide))

theorem refuses_verifyHead (verifier : AuditVerifier) (head : Option AuditHead) :
    RefusesWith Plain (verifyHead verifier head) := by
  obtain _ | ⟨version, counted, hash, signature⟩ := head
  · exact .fail (by decide)
  cases version with
  | str version =>
      refine .ite (.bind (refuses_count _ (by decide)) fun _ =>
        .bind (refuses_digest _ (by decide)) fun _ => ?_) (.fail (by decide))
      cases signature with
      | str signature => exact .ite (.pure _) (.fail (by decide))
      | _ => exact .fail (by decide)
  | _ => exact .fail (by decide)

/-- The sentences that name a position. -/
theorem plain_position {before after : String} (opens : Plain before) (closes : Plain after)
    (position : Nat) : Plain (before ++ toString position ++ after) :=
  (opens.append (plain_nat position)).append closes

theorem refuses_checkedRecord (item : Item) (position : Nat) :
    RefusesWith Plain (checkedRecord item position) := by
  obtain ⟨index, event, previous, hash⟩ | _ := item
  · cases index with
    | int index =>
        cases event with
        | some event =>
            refine .bind (refuses_digest _ ?_) fun _ => .bind (refuses_digest _ ?_) fun _ => .pure _
            · exact plain_position (by decide) (by decide) position
            · exact plain_position (by decide) (by decide) position
        | none => exact .fail (plain_position (by decide) (by decide) position)
    | _ => exact .fail (plain_position (by decide) (by decide) position)
  · exact .fail (plain_position (by decide) (by decide) position)

theorem refuses_verifyRecords (items : List Item) (position : Nat) (previous : Digest) :
    RefusesWith Plain (verifyRecords items position previous) := by
  induction items generalizing position previous with
  | nil => exact .ok _
  | cons item items ih =>
      refine .bind (refuses_checkedRecord _ _) fun record => ?_
      refine .ite (.fail ?_) (.ite (.fail (plain_position (by decide) (by decide) position))
        (.ite (.fail (plain_position (by decide) (by decide) position)) ?_))
      · exact (plain_position (by decide) (by decide) position).append (plain_int _)
      · exact .bind (ih _ _) fun _ => .pure _

theorem refuses_verifyChain (verifier : AuditVerifier) (items : List Item)
    (head : Option AuditHead) : RefusesWith Plain (verifyChain verifier items head) := by
  refine .bind (refuses_verifyHead _ _) fun claimed => ?_
  refine .ite (.fail (plain_position (by decide) (by decide) _)) (.ite (.fail ?_) ?_)
  · exact (plain_position (by decide) (by decide) _).append (plain_nat _)
  · exact .bind (refuses_verifyRecords _ _ _) fun records => .ite (.fail (by decide)) (.pure _)

theorem refuses_extend (verifier : AuditVerifier) (head : Option AuditHead) (items : List Item)
    (base : Committed) : RefusesWith Plain (AuditAnchor.extend verifier head items base) := by
  refine .bind (refuses_verifyHead _ _) fun claimed => ?_
  refine .bind (refuses_count _ (by decide)) fun fromCount => ?_
  refine .bind (refuses_digest _ (by decide)) fun fromHash => ?_
  refine .ite (.fail ?_) (.ite (.fail (plain_position (by decide) (by decide) _))
    (.ite (.fail ?_) (.ite (.fail ?_) ?_)))
  · exact (plain_position (by decide) (by decide) _).append
      (Plain.append (by decide) (plain_nat _))
  · exact (plain_position (by decide) (by decide) _).append (by decide)
  · exact (plain_position (by decide) (by decide) _).append
      ((plain_nat _).append (by decide))
  · exact .bind (refuses_verifyRecords _ _ _) fun records => .ite (.fail (by decide)) (.pure _)

theorem refuses_settle {property : String → Prop} {state : Committed} {outcome : Outcome Committed}
    (refuses : RefusesWith property outcome) :
    RefusesWith property (AuditAnchor.settle state outcome).1 := by
  cases outcome with
  | ok next => exact .ok _
  | error raised => exact refuses

theorem refuses_commit (verifier : AuditVerifier) (head : Option AuditHead) (items : List Item)
    (state : Committed) : RefusesWith Plain (AuditAnchor.commit verifier head items state).1 := by
  refine refuses_settle (.bind (.bind (refuses_verifyHead _ _) fun claimed =>
    refuses_verifyChain _ _ _) fun prepared => ?_)
  refine .ite (.fail ?_) (.ite (.fail (plain_position (by decide) (by decide) _))
    (.ite (.fail ?_) (.ok _)))
  · exact (plain_position (by decide) (by decide) _).append (plain_nat _)
  · exact (plain_position (by decide) (by decide) _).append
      (plain_position (by decide) (by decide) _)

theorem refuses_commitDelta (verifier : AuditVerifier) (head : Option AuditHead)
    (items : List Item) (state : Committed) :
    RefusesWith Plain (AuditAnchor.commitDelta verifier head items state).1 := by
  refine refuses_settle (.bind (refuses_extend _ _ _ _) fun extended => ?_)
  refine .ite (.ok _) (.ite (.ok _) (.fail ?_))
  exact (plain_position (by decide) (by decide) _).append
    (plain_position (by decide) (by decide) _)

end Chains

end GeniusNew
