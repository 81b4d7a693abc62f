import GeniusNew.Audit.Rehydrated
import GeniusNew.Audit.Store
import GeniusNew.Json.Length
import Mathlib.Algebra.Group.Action.Defs
import Mathlib.Algebra.Order.BigOperators.Group.List

/-! # How long an event is

A field of an event has a bounded text, whatever its value. So the text of every event
fits the column that the chain keeps it in, and no event is refused for its length.
-/

namespace GeniusNew

open Json

theorem unescaped_of_isUpper {c : CodePoint} (upper : isUpper c = true) : unescaped c = true := by
  have backslash : c ≠ 92 := by
    rintro rfl
    exact absurd upper (by decide)
  have quotation : c ≠ 34 := by
    rintro rfl
    exact absurd upper (by decide)
  simp only [isUpper, Bool.and_eq_true, decide_eq_true_eq] at upper
  simp only [unescaped, Bool.and_eq_true, decide_eq_true_eq]
  exact ⟨⟨⟨by omega, by omega⟩, quotation⟩, backslash⟩

theorem unescaped_of_isLowerAlnum {c : CodePoint} (lower : isLowerAlnum c = true) :
    unescaped c = true := by
  rw [isLowerAlnum, Bool.or_eq_true] at lower
  obtain digit | lower := lower
  · exact unescaped_of_isDigit digit
  have backslash : c ≠ 92 := by
    rintro rfl
    exact absurd lower (by decide)
  have quotation : c ≠ 34 := by
    rintro rfl
    exact absurd lower (by decide)
  simp only [Bool.and_eq_true, decide_eq_true_eq] at lower
  simp only [unescaped, Bool.and_eq_true, decide_eq_true_eq]
  exact ⟨⟨⟨by omega, by omega⟩, quotation⟩, backslash⟩

theorem length_reasonCode_le (code : ReasonCode) : (dumps (.str code.val)).length ≤ 66 := by
  obtain ⟨_ | ⟨first, rest⟩, accepted⟩ := code
  · exact absurd accepted (by decide)
  simp only [isReasonCode, Bool.and_eq_true, decide_eq_true_eq, List.all_eq_true,
    Bool.or_eq_true] at accepted
  obtain ⟨⟨upper, every⟩, short⟩ := accepted
  have plain : (first :: rest).all unescaped = true := by
    refine List.all_eq_true.mpr fun c member => ?_
    obtain rfl | later := List.mem_cons.mp member
    · exact unescaped_of_isUpper upper
    · obtain (upper | digit) | rfl := every c later
      · exact unescaped_of_isUpper upper
      · exact unescaped_of_isDigit digit
      · decide
  rw [dumps, length_quote plain, List.length_cons]
  omega

theorem length_actor_le (actor : ComponentActor) : (dumps (.str actor.identifier)).length ≤ 78 := by
  obtain ⟨component, _ | ⟨first, rest⟩, accepted⟩ := actor
  · exact absurd accepted (by decide)
  simp only [isInstanceId, Bool.and_eq_true, decide_eq_true_eq, List.all_eq_true,
    Bool.or_eq_true] at accepted
  obtain ⟨⟨lower, every⟩, short⟩ := accepted
  have named : component.text.all unescaped = true ∧ component.text.length ≤ 12 := by
    cases component <;> decide
  have plain : (component.text ++ 58 :: first :: rest).all unescaped = true := by
    refine List.all_append.trans (Bool.and_eq_true_iff.mpr ⟨named.1, ?_⟩)
    refine List.all_eq_true.mpr fun c member => ?_
    obtain rfl | later := List.mem_cons.mp member
    · decide
    obtain rfl | later := List.mem_cons.mp later
    · exact unescaped_of_isLowerAlnum lower
    · obtain lower | rfl := every c later
      · exact unescaped_of_isLowerAlnum lower
      · decide
  rw [dumps, ComponentActor.identifier, length_quote plain, List.length_append, List.length_cons,
    List.length_cons]
  omega

theorem length_identifier_le (text : Identifier) : (dumps (.str text.val)).length ≤ 160 := by
  have accepted := text.property
  simp only [isIdentifier, Bool.and_eq_true, decide_eq_true_eq] at accepted
  exact accepted.2

theorem length_digestValue_le (hash : Option Digest) :
    (dumps (AuditEvent.digestValue? hash)).length ≤ 66 := by
  cases hash with
  | none => decide
  | some hash => exact (length_dumps_hex hash.property).le

theorem length_occurredAt_le (time : OccurredAt) : (dumps (.int time.val)).length ≤ 10 := by
  obtain ⟨time, positive, small⟩ := time
  obtain ⟨number, rfl⟩ := Int.eq_ofNat_of_zero_le positive.le
  have bound : maxOccurredAt = 4102444800 := rfl
  exact (length_dumps_nat number).trans_le (digitCount_le (by omega))

theorem AuditEvent.length_key_le (event : AuditEvent) :
    ∀ field ∈ event.fields, (quote field.1).length ≤ 28 := by
  intro field member
  have present : field.1 ∈ keys event.fields := List.mem_map_of_mem member
  obtain same | same := event.keys_fields
  · rw [same] at present
    exact (by decide : ∀ key ∈ eventKeys, (quote key).length ≤ 28) _ present
  · rw [same] at present
    exact (by decide : ∀ key ∈ eventV2Keys, (quote key).length ≤ 28) _ present

theorem AuditEvent.length_value_le (event : AuditEvent) :
    ∀ field ∈ event.fields, (dumps field.2).length ≤ 160 := by
  have action : (dumps (.str event.action.text)).length ≤ 160 := by
    cases event.action <;> decide
  have decision : (dumps (.str event.decision.text)).length ≤ 160 := by
    cases event.decision <;> decide
  have digest (digest : Digest) : (dumps (.str digest.val)).length ≤ 160 :=
    (length_dumps_hex digest.property).trans_le (by decide)
  have approval := (length_digestValue_le event.approvalRecordHash).trans (by decide : 66 ≤ 160)
  have actor := (length_actor_le event.actor).trans (by decide : 78 ≤ 160)
  have reason := (length_reasonCode_le event.reasonCode).trans (by decide : 66 ≤ 160)
  have occurred := (length_occurredAt_le event.occurredAt).trans (by decide : 10 ≤ 160)
  refine List.forall_mem_append.mpr ⟨?_, ?_⟩
  · unfold commonFields
    simp only [List.forall_mem_cons]
    exact ⟨action, actor, approval, length_identifier_le _, decision, digest _,
      length_identifier_le _, occurred, digest _, length_identifier_le _, reason,
      length_identifier_le _, length_identifier_le _, List.forall_mem_nil _⟩
  · cases event.bindings with
    | legacy => exact List.forall_mem_nil _
    | bound subject result =>
        have version : (dumps (.int 2)).length ≤ 160 := by decide
        have bound := (length_digestValue_le result).trans (by decide : 66 ≤ 160)
        unfold boundFields
        simp only [List.forall_mem_cons]
        exact ⟨version, digest _, bound, List.forall_mem_nil _⟩

/-- Every event fits its column. -/
theorem AuditEvent.length_toBytes_le (event : AuditEvent) :
    event.toBytes.length ≤ AuditStore.maxEventBytes := by
  have limit : AuditStore.maxEventBytes = 8192 := rfl
  have each : ∀ length ∈ event.fields.map fieldLength, length ≤ 190 := by
    intro length member
    obtain ⟨field, inside, rfl⟩ := List.mem_map.mp member
    have key := event.length_key_le field inside
    have value := event.length_value_le field inside
    rw [fieldLength]
    omega
  have sum := List.sum_le_card_nsmul _ 190 each
  have few : event.fields.length ≤ 16 := by
    have counted : event.fields.length = (keys event.fields).length :=
      (List.length_map Prod.fst).symm
    obtain same | same := event.keys_fields
    · rw [counted, same]
      decide
    · rw [counted, same]
      decide
  have nonempty : event.fields ≠ [] := List.cons_ne_nil _ _
  rw [List.length_map, smul_eq_mul] at sum
  rw [toBytes, length_canonicalBytes, toDict, length_dumps_dict nonempty]
  omega

end GeniusNew
