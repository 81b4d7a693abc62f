import GeniusNew.Audit.Stored
import Mathlib.Algebra.BigOperators.Intervals
import Mathlib.Algebra.Order.BigOperators.Group.Finset
import Mathlib.Tactic.Linarith

/-! # A stored append never outgrows its restart

An append looks at the size of the whole commit request and of the state file
before it inserts anything. Both bounds together keep what it stored readable:
the number of records, their bytes, the request of the longer chain and every
state file made of the heads of its prefixes.
-/

namespace GeniusNew

open Json HashChain

namespace AuditStore

open AnchorProcess

section Requests

variable {interpreter : Interpreter} {verifier : AuditVerifier}

/-- The request that commits a whole chain. -/
def chainRequest (head : AuditHead) (records : List CheckedRecord) : Value :=
  .dict (commitFields head (records.map recordDict))

theorem commitRequest_chain {head : AuditHead} {claimed : Committed} {records : List CheckedRecord}
    (verified : verifyHead verifier (some head) = .ok claimed)
    (whole : records.length ≤ claimed.count) :
    commitRequest (some head) (records.map CheckedRecord.toItem) =
      .ok (chainRequest head records) := by
  obtain ⟨signature, same, _⟩ := verifyHead_eq_ok.mp verified
  have counted : count head.count "head.count" = .ok ⟨claimed.count, claimed.count_le⟩ := by
    rw [Option.some.inj same]
    exact count_eq_ok.mpr rfl
  refine commitRequest_eq_ok.mpr ⟨_, _, counted, ?_, rfl⟩
  rw [List.take_of_length_le (by rw [List.length_map]; exact Nat.le_succ_of_le whole)]
  exact recordDicts_toItem records

theorem dumps_recordDict_joined (record : CheckedRecord) :
    dumps (recordDict (joinedRecord record)) = dumps (recordDict record) := by
  simp only [recordDict, joinedRecord, dumps, dumpsFields, dumps_toDict_joined]

theorem length_envelope {nonce : Str} (hexadecimal : isHexText (nonceBytes * 2) nonce = true)
    (request : Value) :
    (dumps (envelope nonce request)).length = 87 + (dumps request).length := by
  have keyLengths : (quote (str "nonce")).length = 7 ∧ (quote (str "request")).length = 9 := by
    decide
  have digits : nonceBytes * 2 = 64 := rfl
  rw [envelope, length_dumps_dict (List.cons_ne_nil _ _)]
  simp only [List.map_cons, List.map_nil, List.sum_cons, List.sum_nil, fieldLength,
    length_dumps_hex hexadecimal, keyLengths]
  omega

theorem length_chainRequest (head : AuditHead) (records : List CheckedRecord) :
    (dumps (chainRequest head records)).length =
      36 + (dumps (headDict head)).length + (dumps (.list (records.map recordDict))).length := by
  have keyLengths : (quote (str "head")).length = 6 ∧ (quote (str "kind")).length = 6 ∧
      (quote (str "records")).length = 9 ∧ (dumps (.str (str "commit"))).length = 8 := by
    decide
  rw [chainRequest, commitFields, length_dumps_dict (List.cons_ne_nil _ _)]
  simp only [List.map_cons, List.map_nil, List.sum_cons, List.sum_nil, fieldLength, keyLengths]
  omega

/-- Joining pairs changes nothing in the text of a request. -/
theorem length_chainRequest_joined (head : AuditHead) (records : List CheckedRecord) :
    (dumps (chainRequest head (records.map joinedRecord))).length =
      (dumps (chainRequest head records)).length := by
  have texts : dumps (.list ((records.map joinedRecord).map recordDict)) =
      dumps (.list (records.map recordDict)) := by
    simp only [dumps, dumpsItems_eq_map, List.map_map, Function.comp_def, dumps_recordDict_joined]
  rw [length_chainRequest, length_chainRequest, texts]

/-- The bytes of the events are part of the request. -/
theorem sum_toBytes_le (head : AuditHead) (position : Nat) (previous : Digest)
    (events : List AuditEvent) :
    (events.map fun event => event.toBytes.length).sum ≤
      (dumps (chainRequest head (recordsFrom position previous events))).length := by
  have summed : ∀ (position : Nat) (previous : Digest),
      (events.map fun event => event.toBytes.length).sum ≤
        (((recordsFrom position previous events).map recordDict).map fun item =>
          (dumps item).length + 1).sum := by
    induction events with
    | nil => exact fun _ _ => le_rfl
    | cons event events ih =>
        intro position previous
        have first : (dumps (recordDict ⟨position, event, previous,
            recordHash position event previous⟩)).length =
              183 + digitCount position + (dumps event.toDict).length := length_recordDict rfl
        have rest := ih (position + 1) (recordHash position event previous)
        have bytes : event.toBytes.length = (dumps event.toDict).length :=
          length_canonicalBytes event.toDict
        simp only [recordsFrom, List.map_cons, List.sum_cons]
        omega
  cases events with
  | nil => exact Nat.zero_le _
  | cons event events =>
      have nonempty : (recordsFrom position previous (event :: events)).map recordDict ≠ [] := by
        rw [recordsFrom, List.map_cons]
        exact List.cons_ne_nil _ _
      have bytes := summed position previous
      rw [length_chainRequest, length_dumps_list nonempty]
      omega

theorem depth_recordDict_le (record : CheckedRecord) : (recordDict record).depth ≤ 2 := by
  have event := depth_toDict_le record.event
  simp only [recordDict, Value.depth, Value.depthFields]
  omega

theorem printable_recordDict (interpreter : Interpreter) {record : CheckedRecord}
    {events : List AuditEvent} (few : events.length ≤ maxCount)
    (member : record ∈ recordsFrom 0 emptyHash events) :
    (recordDict record).printable interpreter = true := by
  have index : record.index ∈ (List.range' 0 events.length).map Int.ofNat := by
    rw [← index_recordsFrom 0 emptyHash events]
    exact List.mem_map_of_mem member
  obtain ⟨position, inside, same⟩ := List.mem_map.mp index
  have small : position ≤ maxCount := by
    have below := (List.mem_range'_1.mp inside).2
    omega
  simp [recordDict, Value.printable, Value.printableFields, printable_toDict, ← same,
    length_digits_le small]

/-- The request of a chain has a text. -/
theorem canonical_envelope (nonce : Str) {head : AuditHead} {claimed : Committed}
    {events : List AuditEvent} (verified : verifyHead verifier (some head) = .ok claimed)
    (few : events.length ≤ maxCount) :
    canonical interpreter (envelope nonce (chainRequest head (recordsFrom 0 emptyHash events))) =
      .ok (canonicalBytes
        (envelope nonce (chainRequest head (recordsFrom 0 emptyHash events)))) := by
  obtain ⟨shallow, printed, _⟩ := canonical_eq_ok.mp (canonical_headDict interpreter verified)
  refine canonical_eq_ok.mpr ⟨?_, ?_, rfl⟩
  · have items : Value.depthItems ((recordsFrom 0 emptyHash events).map recordDict) ≤ 2 := by
      refine Value.depthItems_le.mpr fun item member => ?_
      obtain ⟨record, _, rfl⟩ := List.mem_map.mp member
      exact depth_recordDict_le record
    have limit := interpreter.recursionLimit_sufficient
    have flat : (headDict head).depth = 1 := by
      obtain ⟨signature, same, _⟩ := verifyHead_eq_ok.mp verified
      rw [Option.some.inj same]
      rfl
    simp only [envelope, chainRequest, commitFields, Value.depth, Value.depthFields, flat]
    omega
  · have items : Value.printableItems interpreter
        ((recordsFrom 0 emptyHash events).map recordDict) = true := by
      refine Value.printableItems_iff.mpr fun item member => ?_
      obtain ⟨record, inside, rfl⟩ := List.mem_map.mp member
      exact printable_recordDict interpreter few inside
    simp [envelope, chainRequest, commitFields, Value.printable, Value.printableFields, printed,
      items]

end Requests

section Lines

variable {verifier : AuditVerifier}

theorem sum_lines_small {bound : Nat} (small : bound ≤ 1000) :
    ∑ count ∈ Finset.range bound, (269 + digitCount count) ≤ 272000 := by
  have each : ∀ count ∈ Finset.range bound, 269 + digitCount count ≤ 272 := by
    intro count member
    have digits : digitCount count ≤ 2 + 1 :=
      digitCount_le (Nat.lt_of_lt_of_le (Finset.mem_range.mp member) small)
    omega
  have total := Finset.sum_le_card_nsmul _ _ _ each
  rw [Finset.card_range, nsmul_eq_mul, Nat.cast_id] at total
  omega

/-- Lines for all counts up to a bound take no more than the line of the bound
for every count but zero, unless there are fewer than a thousand. -/
theorem sum_lines_le (bound : Nat) :
    ∑ count ∈ Finset.range (bound + 1), (269 + digitCount count) ≤
      max 272000 (bound * (269 + digitCount bound)) := by
  rcases Nat.lt_or_ge bound 1000 with few | many
  · exact (sum_lines_small few).trans (Nat.le_max_left _ _)
  · have four : 4 ≤ digitCount bound :=
      (show 4 = digitCount 1000 by decide) ▸ digitCount_mono many
    have each : ∀ count ∈ Finset.Ico 1000 (bound + 1),
        269 + digitCount count ≤ 269 + digitCount bound := by
      intro count member
      have below := (Finset.mem_Ico.mp member).2
      exact Nat.add_le_add_left (digitCount_mono (Nat.le_of_lt_succ below)) _
    have large := Finset.sum_le_card_nsmul _ _ _ each
    rw [Nat.card_Ico, nsmul_eq_mul, Nat.cast_id] at large
    have first := sum_lines_small (le_refl 1000)
    have split := Finset.sum_range_add_sum_Ico (fun count => 269 + digitCount count)
      (Nat.le_succ_of_le many)
    refine le_max_of_le_right ?_
    obtain ⟨rest, rfl⟩ := Nat.exists_eq_add_of_le many
    generalize digitCount (1000 + rest) = digits at *
    have count : 1000 + rest + 1 - 1000 = rest + 1 := by omega
    rw [count] at large
    nlinarith

/-- The lines of heads with rising counts up to a bound. -/
theorem length_lines_le {heads : List AuditHead} {claims : List Committed} {bound : Nat}
    (verified : List.Forall₂
      (fun head claimed => verifyHead verifier (some head) = .ok claimed) heads claims)
    (rises : claims.Pairwise fun first second => first.count < second.count)
    (bounded : ∀ claimed ∈ claims, claimed.count ≤ bound) :
    (heads.map lineOf).flatten.length ≤ max 272000 (bound * (269 + digitCount bound)) := by
  have lengths : (heads.map lineOf).flatten.length =
      ((claims.map Committed.count).map fun count => 269 + digitCount count).sum := by
    induction verified with
    | nil => rfl
    | cons first _ ih =>
        rw [List.map_cons, List.flatten_cons, List.length_append, length_lineOf first,
          List.map_cons, List.map_cons, List.sum_cons,
          ih (List.pairwise_cons.mp rises).2 fun claimed inside =>
            bounded claimed (List.mem_cons_of_mem _ inside)]
  have distinct : (claims.map Committed.count).Nodup := by
    rw [List.Nodup, List.pairwise_map]
    exact rises.imp fun less => less.ne
  rw [lengths, ← List.sum_toFinset _ distinct]
  refine (Finset.sum_le_sum_of_subset ?_).trans (sum_lines_le bound)
  intro count member
  obtain ⟨claimed, inside, rfl⟩ := List.mem_map.mp (List.mem_toFinset.mp member)
  exact Finset.mem_range.mpr (Nat.lt_succ_of_le (bounded claimed inside))

/-- A state file of heads with rising counts holds their last claim. -/
theorem recorded_lines {heads : List AuditHead} {claims : List Committed}
    (verified : List.Forall₂
      (fun head claimed => verifyHead verifier (some head) = .ok claimed) heads claims)
    (rises : claims.Pairwise fun first second => first.count < second.count) :
    Recorded verifier (heads.map lineOf).flatten claims.getLast? := by
  rw [← List.forall₂_reverse_iff] at verified
  induction claims using List.reverseRecOn generalizing heads with
  | nil =>
      rw [List.reverse_nil, List.forall₂_nil_right_iff, List.reverse_eq_nil_iff] at verified
      rw [verified]
      exact Recorded.empty
  | append_singleton claims claimed ih =>
      rw [List.reverse_append, List.reverse_singleton, List.singleton_append,
        List.forall₂_cons_right_iff] at verified
      obtain ⟨head, others, first, rest, same⟩ := verified
      obtain rfl : heads = others.reverse ++ [head] := by
        rw [← List.reverse_reverse heads, same, List.reverse_cons]
      rw [List.pairwise_append] at rises
      have before := ih ((List.reverse_reverse others).symm ▸ rest) rises.1
      rw [List.map_append, List.map_singleton, List.flatten_append, List.flatten_singleton,
        List.getLast?_concat]
      refine Recorded.line head claimed before first fun earlier last => ?_
      exact rises.2.2 earlier (List.mem_of_getLast? last) claimed List.mem_cons_self

end Lines

section Append

variable {interpreter : Interpreter} {authority : AuditAuthority} {event : AuditEvent}
  {before after : Tables} {record : CheckedRecord}

/-- The row of the head that an append signs. -/
def signedRow (authority : AuditAuthority) (claimed : Committed) (event : AuditEvent) : HeadRow :=
  ⟨claimed.count, headVersion, claimed.headHash.val,
    authority.sign (canonicalBytes (AuditHead.claiming claimed []).body), event.occurredAt.val⟩

theorem headRow_signed (authority : AuditAuthority) (claimed : Committed) (event : AuditEvent) :
    headRow (authority.signed claimed) event = some (signedRow authority claimed event) := by
  simp only [AuditAuthority.signed, AuditHead.claiming, headRow, fromHex_hex, signedRow]

theorem headOf_signedRow (authority : AuditAuthority) (claimed : Committed) (event : AuditEvent) :
    headOf (signedRow authority claimed event) = authority.signed claimed := rfl

/-- The head of a chain with one more event. -/
def grownTo (events : List AuditEvent) (event : AuditEvent) (small : events.length + 1 ≤ maxCount) :
    Committed :=
  ⟨events.length + 1, (nextRecord (recordsFrom 0 emptyHash events) event).recordHash, small⟩

/-- What `_check_commit_size` asks of a chain and its head. -/
theorem checkCommitSize_eq_ok {head : AuditHead} {claimed : Committed} {events : List AuditEvent}
    (verified : verifyHead authority.verifier (some head) = .ok claimed)
    (whole : events.length ≤ claimed.count) :
    checkCommitSize interpreter head ((recordsFrom 0 emptyHash events).map CheckedRecord.toItem) =
        .ok () ↔
      (dumps (envelope (List.replicate (nonceBytes * 2) 48)
        (chainRequest head (recordsFrom 0 emptyHash events)))).length ≤ maxRequestBytes ∧
      claimed.count * (lineOf head).length ≤ maxStateBytes := by
  obtain ⟨signature, same, _⟩ := verifyHead_eq_ok.mp verified
  have counted : count head.count "head.count" = .ok ⟨claimed.count, claimed.count_le⟩ := by
    rw [Option.some.inj same]
    exact count_eq_ok.mpr rfl
  have asked : commitRequest (some head)
      ((recordsFrom 0 emptyHash events).map CheckedRecord.toItem) =
        .ok (chainRequest head (recordsFrom 0 emptyHash events)) :=
    commitRequest_chain verified (by rwa [length_recordsFrom])
  simp only [checkCommitSize, asked, headLine_eq verified, counted, bind_eq_ok, Except.ok.injEq,
    exists_eq_left', guarded_eq_ok, not_lt, frame_eq_ok, pure_eq_ok, and_true,
    canonical_envelope _ verified (whole.trans claimed.count_le), length_canonicalBytes]
  constructor
  · rintro ⟨sent, ⟨fits, _⟩, lines⟩
    exact ⟨fits, lines⟩
  · rintro ⟨fits, lines⟩
    exact ⟨_, ⟨fits, rfl⟩, lines⟩

/-- What an append that is accepted has checked and stored. -/
theorem append_eq_ok (accepted : append interpreter authority event before = .ok (record, after)) :
    ∃ events, ∃ small : events.length + 1 ≤ maxCount, Holds authority.verifier before events ∧
      record = nextRecord (recordsFrom 0 emptyHash events) event ∧
      event.toBytes.length ≤ maxEventBytes ∧
      checkCommitSize interpreter (authority.signed (grownTo events event small))
        ((recordsFrom 0 emptyHash events ++ [record]).map CheckedRecord.toItem) = .ok () ∧
      after = ⟨before.chain ++ [chainRow record],
        before.heads ++ [signedRow authority (grownTo events event small) event]⟩ := by
  simp only [append, bind_eq_ok, signHead] at accepted
  obtain ⟨⟨last, records⟩, found, head, ⟨counted, checked, signed⟩, ⟨⟩, sized, tables, inserted,
    rest⟩ := accepted
  obtain ⟨events, holds, rfl, _⟩ := read_eq_ok.mp found
  obtain ⟨number, bounded⟩ := counted
  have same : number = events.length + 1 := by
    have number' := Value.int.inj (count_eq_ok.mp checked)
    rw [length_recordsFrom] at number'
    exact_mod_cast number'.symm
  subst same
  obtain rfl : authority.signed (grownTo events event bounded) = head := pure_eq_ok.mp signed
  rw [headRow_signed] at rest
  obtain ⟨final, stored, ends⟩ := bind_eq_ok.mp rest
  obtain ⟨rfl, rfl⟩ := Prod.mk.inj (pure_eq_ok.mp ends)
  simp only [insertRecord, guarded_eq_ok, not_or, not_lt] at inserted
  obtain ⟨⟨_, _, _, short⟩, inserted⟩ := inserted
  obtain rfl := Except.ok.inj inserted
  simp only [insertHead, guarded_eq_ok] at stored
  obtain rfl := Except.ok.inj stored.2
  exact ⟨events, bounded, holds, rfl, short, sized, rfl⟩

theorem nextRecord_joined (records : List CheckedRecord) (event : AuditEvent) :
    nextRecord records event.joined = joinedRecord (nextRecord records event) := by
  have same : recordHash records.length event.joined (lastHash emptyHash records) =
      recordHash records.length event (lastHash emptyHash records) := link_joined _ _ _
  rw [nextRecord, same]
  rfl

theorem chainRow_joinedRecord (record : CheckedRecord) :
    chainRow (joinedRecord record) = chainRow record := by
  rw [chainRow, joinedRecord, toBytes_joined]
  rfl

theorem minHeadLineBytes_eq : minHeadLineBytes = 270 := by decide +kernel

/-- The state bound of the last head bounds the number of records. -/
theorem length_le_maxStoredRecords {claimed : Committed}
    (fits : claimed.count * (lineOf (authority.signed claimed)).length ≤ maxStateBytes) :
    claimed.count ≤ maxStoredRecords := by
  refine le_min claimed.count_le ?_
  rw [minHeadLineBytes_eq, Nat.le_div_iff_mul_le (by decide)]
  have line := length_lineOf (verifyHead_signed authority claimed)
  have digits := digitCount_pos claimed.count
  exact (Nat.mul_le_mul_left _ (by omega)).trans fits

/-- What an append stored is the chain with one more event. -/
theorem holds_after_append
    (accepted : append interpreter authority event before = .ok (record, after)) :
    ∃ events, ∃ small : events.length + 1 ≤ maxCount, Holds authority.verifier before events ∧
      record = nextRecord (recordsFrom 0 emptyHash events) event ∧
      Holds authority.verifier after (events ++ [event.joined]) ∧
      (sortedHeads after).getLast?.map headOf =
        some (authority.signed (grownTo events event small)) ∧
      checkCommitSize interpreter (authority.signed (grownTo events event small))
        ((recordsFrom 0 emptyHash (events ++ [event])).map CheckedRecord.toItem) = .ok () := by
  obtain ⟨events, small, holds, rfl, short, sized, rfl⟩ := append_eq_ok accepted
  rw [← recordsFrom_concat] at sized
  have verified := verifyHead_signed authority (grownTo events event small)
  have whole : (events ++ [event]).length ≤ (grownTo events event small).count := by
    rw [List.length_append, List.length_singleton]
    exact le_rfl
  obtain ⟨request, state⟩ := (checkCommitSize_eq_ok verified whole).mp sized
  have nonce : isHexText (nonceBytes * 2) (List.replicate (nonceBytes * 2) 48) = true := by decide
  have bytes := sum_toBytes_le (authority.signed (grownTo events event small)) 0 emptyHash
    (events ++ [event])
  rw [List.map_append, List.map_singleton, List.sum_append, List.sum_singleton] at bytes
  rw [length_envelope nonce] at request
  have bound : Binds authority.verifier (signedRow authority (grownTo events event small) event)
      (nextRecord (recordsFrom 0 emptyHash events) event.joined) := by
    refine ⟨authority.length_sign _, rfl, grownTo events event small, ?_, ?_, ?_⟩
    · rw [headOf_signedRow]
      exact verified
    · rw [nextRecord, length_recordsFrom]
      rfl
    · rw [nextRecord_joined]
      rfl
  have storable : Storable event.joined := by
    refine ⟨joined_joined event, ?_⟩
    rw [toBytes_joined]
    exact short
  have total : eventBytes before + event.joined.toBytes.length ≤ maxRequestBytes := by
    rw [holds.eventBytes_eq, toBytes_joined]
    omega
  have longer := holds.append storable bound (length_le_maxStoredRecords state) total
  rw [nextRecord_joined, chainRow_joinedRecord] at longer
  refine ⟨events, small, holds, rfl, longer, ?_, sized⟩
  rw [holds.sortedHeads_append _ rfl, List.getLast?_concat, Option.map_some, headOf_signedRow]

/-- The first event of a chain is always accepted. -/
theorem append_first (short : event.toBytes.length ≤ maxEventBytes) :
    ∃ record after, append interpreter authority event ⟨[], []⟩ = .ok (record, after) := by
  have empty : read interpreter authority.verifier ⟨[], []⟩ = .ok (none, []) :=
    read_eq_ok.mpr ⟨[], holds_empty _, rfl, by rw [sortedHeads, List.mergeSort_nil]; rfl⟩
  have small : ([] : List AuditEvent).length + 1 ≤ maxCount := by decide
  have verified := verifyHead_signed authority (grownTo [] event small)
  have line := length_lineOf verified
  have digits : digitCount (grownTo [] event small).count = 1 := by
    show digitCount 1 = 1
    decide
  have nonce : isHexText (nonceBytes * 2) (List.replicate (nonceBytes * 2) 48) = true := by decide
  have sized : checkCommitSize interpreter (authority.signed (grownTo [] event small))
      ((recordsFrom 0 emptyHash [event]).map CheckedRecord.toItem) = .ok () := by
    refine (checkCommitSize_eq_ok verified (le_refl 1)).mpr ⟨?_, ?_⟩
    · have record : (dumps (recordDict ⟨(0 : Nat), event, emptyHash,
          recordHash (0 : Nat) event emptyHash⟩)).length =
            183 + digitCount 0 + (dumps event.toDict).length := length_recordDict rfl
      have bytes : event.toBytes.length = (dumps event.toDict).length :=
        length_canonicalBytes event.toDict
      have zero : digitCount 0 = 1 := by decide
      have limits : maxEventBytes + 10000 ≤ maxRequestBytes := by decide
      rw [length_envelope nonce, length_chainRequest, length_headDict verified, recordsFrom,
        recordsFrom, List.map_singleton, length_dumps_list (List.cons_ne_nil _ _),
        List.map_singleton, List.sum_singleton]
      omega
    · show 1 * _ ≤ _
      rw [line, digits]
      decide
  have signed : signHead authority (([] : List CheckedRecord).length + 1)
      (nextRecord [] event).recordHash = .ok (authority.signed (grownTo [] event small)) := rfl
  refine ⟨nextRecord [] event, ⟨[chainRow (nextRecord [] event)],
    [signedRow authority (grownTo [] event small) event]⟩, ?_⟩
  refine bind_eq_ok.mpr ⟨_, empty, bind_eq_ok.mpr ⟨_, signed, bind_eq_ok.mpr ⟨(), sized,
    bind_eq_ok.mpr ⟨⟨[chainRow (nextRecord [] event)], []⟩, ?_, ?_⟩⟩⟩⟩
  · rw [insertRecord]
    refine guarded_eq_ok.mpr ⟨?_, rfl⟩
    simp [nextRecord, short]
  · simp only [headRow_signed]
    refine bind_eq_ok.mpr ⟨_, guarded_eq_ok.mpr ⟨?_, rfl⟩, rfl⟩
    simp [signedRow, grownTo, authority.length_sign]

/-- A head that claims the first records of a chain. -/
structure PrefixHead (verifier : AuditVerifier) (records : List CheckedRecord) (head : AuditHead)
    (claimed : Committed) : Prop where
  verified : verifyHead verifier (some head) = .ok claimed
  count_le : claimed.count ≤ records.length
  headHash_eq : claimed.headHash = lastHash emptyHash (records.take claimed.count)

theorem exists_of_forall₂ {α β : Type} {relation : α → β → Prop} {first : List α} {second : List β}
    (related : List.Forall₂ relation first second) {item : β} (member : item ∈ second) :
    ∃ other, relation other item := by
  induction related with
  | nil => cases member
  | cons here _ ih =>
      rcases List.mem_cons.mp member with rfl | inside
      · exact ⟨_, here⟩
      · exact ih inside

theorem mapM_headLine {heads : List AuditHead} {claims : List Committed} {verifier : AuditVerifier}
    (verified : List.Forall₂
      (fun head claimed => verifyHead verifier (some head) = .ok claimed) heads claims) :
    heads.mapM (headLine interpreter) = .ok (heads.map lineOf) := by
  induction verified with
  | nil => rfl
  | cons first _ ih =>
      rw [List.mapM_cons, headLine_eq first, ih]
      rfl

/-- A state file of prefix heads with rising counts loads. -/
theorem load_lines {verifier : AuditVerifier} {heads : List AuditHead} {claims : List Committed}
    (verified : List.Forall₂
      (fun head claimed => verifyHead verifier (some head) = .ok claimed) heads claims)
    (rises : claims.Pairwise fun first second => first.count < second.count)
    (short : (heads.map lineOf).flatten.length ≤ maxStateBytes) :
    load interpreter verifier (some (heads.map lineOf).flatten) =
      .ok (claims.getLast?.getD .initial) := by
  refine load_eq_ok.mpr ⟨short, ?_⟩
  have recorded := recorded_lines verified rises
  cases last : claims.getLast? with
  | none =>
      obtain rfl := List.getLast?_eq_none_iff.mp last
      obtain rfl := List.forall₂_nil_right_iff.mp verified
      exact Or.inl ⟨rfl, rfl⟩
  | some claimed =>
      rw [last] at recorded
      exact Or.inr recorded

end Append

end AuditStore

open AuditStore AnchorProcess in
/-- An append that is accepted leaves tables that the next read accepts, a chain
whose whole commit request fits its frame, and heads whose lines load. -/
theorem stored_append_restarts (interpreter : Interpreter) (authority : AuditAuthority)
    (event : AuditEvent) (before after : Tables) (record : CheckedRecord)
    (accepted : append interpreter authority event before = .ok (record, after)) :
    ∃ head earlier records, records = earlier ++ [joinedRecord record] ∧
      read interpreter authority.verifier after = .ok (some head, records) ∧
      after.chain.length ≤ maxStoredRecords ∧ after.heads.length = after.chain.length ∧
      largestEvent after ≤ maxEventBytes ∧ eventBytes after ≤ maxRequestBytes ∧
      (∀ nonce, isHexText (nonceBytes * 2) nonce = true → ∃ request sent,
        commitRequest (some head) (records.map CheckedRecord.toItem) = .ok request ∧
        frame interpreter (envelope nonce request) maxRequestBytes = .ok sent) ∧
      ∀ heads claims, List.Forall₂ (PrefixHead authority.verifier records) heads claims →
        claims.Pairwise (fun first second => first.count < second.count) →
        heads.mapM (headLine interpreter) = .ok (heads.map lineOf) ∧
        (heads.map lineOf).flatten.length ≤ maxStateBytes ∧
        load interpreter authority.verifier (some (heads.map lineOf).flatten) =
          .ok (claims.getLast?.getD .initial) := by
  obtain ⟨events, small, _, rfl, holds, last, sized⟩ := holds_after_append accepted
  have verified := verifyHead_signed authority (grownTo events event small)
  have whole : (events ++ [event]).length ≤ (grownTo events event small).count := by
    rw [List.length_append, List.length_singleton]
    exact le_rfl
  obtain ⟨fits, lines⟩ := (checkCommitSize_eq_ok verified whole).mp sized
  have joined : recordsFrom 0 emptyHash (events ++ [event.joined]) =
      recordsFrom 0 emptyHash events ++
        [joinedRecord (nextRecord (recordsFrom 0 emptyHash events) event)] := by
    rw [recordsFrom_concat, nextRecord_joined]
  have length : (recordsFrom 0 emptyHash (events ++ [event.joined])).length = events.length + 1 := by
    rw [length_recordsFrom, List.length_append, List.length_singleton]
  refine ⟨authority.signed (grownTo events event small), _, _, joined,
    read_eq_ok.mpr ⟨_, holds, rfl, last.symm⟩, holds.length_chain.trans_le holds.length_le,
    holds.length_heads.trans holds.length_chain.symm, holds.largestEvent_le, holds.bytes_le,
    fun nonce hexadecimal => ?_, fun heads claims chosen rises => ?_⟩
  · have fixed : events.map AuditEvent.joined = events := by
      refine (List.map_congr_left fun other member => ?_).trans (List.map_id _)
      exact (holds.storable other (List.mem_append_left _ member)).1
    have origin : (recordsFrom 0 emptyHash (events ++ [event])).map joinedRecord =
        recordsFrom 0 emptyHash (events ++ [event.joined]) := by
      rw [← recordsFrom_joined, List.map_append, List.map_singleton, fixed]
    have few : (events ++ [event.joined]).length ≤ maxCount := by
      rw [List.length_append, List.length_singleton]
      exact small
    have bounded : (dumps (envelope nonce (chainRequest
        (authority.signed (grownTo events event small))
        (recordsFrom 0 emptyHash (events ++ [event.joined]))))).length ≤ maxRequestBytes := by
      rw [length_envelope (by decide)] at fits
      rw [length_envelope hexadecimal, ← origin, length_chainRequest_joined]
      exact fits
    refine ⟨_, _, commitRequest_chain verified (length.trans_le le_rfl), frame_eq_ok.mpr
      ⟨_, canonical_envelope nonce verified few, ?_, rfl⟩⟩
    rw [length_canonicalBytes]
    exact bounded
  · have verifies := chosen.imp fun head claimed chosen => chosen.verified
    have bounded : ∀ claimed ∈ claims, claimed.count ≤ events.length + 1 := by
      intro claimed member
      obtain ⟨head, chosen⟩ := exists_of_forall₂ chosen member
      exact chosen.count_le.trans length.le
    have short : (heads.map lineOf).flatten.length ≤ maxStateBytes := by
      refine (length_lines_le verifies rises bounded).trans (max_le (by decide) ?_)
      rw [length_lineOf verified] at lines
      exact lines
    exact ⟨mapM_headLine verifies, short, load_lines verifies rises short⟩

open AuditStore AnchorProcess in
theorem stored_append_restarts_first : ∃ record after,
    append literalInterpreter digestAuthority firstIssued ⟨[], []⟩ = .ok (record, after) ∧
      ∃ head earlier, read literalInterpreter digestAuthority.verifier after =
        .ok (some head, earlier ++ [joinedRecord record]) := by
  have short : firstIssued.toBytes.length ≤ maxEventBytes := by
    rw [AuditEvent.toBytes, length_canonicalBytes, length_dumps_sample]
    decide
  obtain ⟨record, after, accepted⟩ := append_first short
  obtain ⟨head, earlier, records, rfl, found, _⟩ := stored_append_restarts literalInterpreter
    digestAuthority firstIssued ⟨[], []⟩ after record accepted
  exact ⟨record, after, accepted, head, earlier, found⟩

end GeniusNew
