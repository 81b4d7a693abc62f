import GeniusNew.Audit.Verified

/-! # Tamper evidence

Which logs one signed head admits, and which logs an anchor admits after it
committed a chain. Both are read off the chain library: two accepted logs are
chains of events with the tip the head claims, and a log accepted with an anchor
passes the committed tip at the committed position.
-/

namespace GeniusNew

open Json HashChain

/-- The triples of index, written event and previous hash that the record hashes
of a log are taken over. -/
def hashed (items : List Item) : Set (Nat × Value × Digest) :=
  { input | ∃ record : CheckedRecord, record.toItem ∈ items ∧ record.index = input.1 ∧
    record.event.toDict = input.2.1 ∧ record.previousHash = input.2.2 }

theorem mem_hashed_of_mem_inputs {events : List AuditEvent} {position : Nat} {previous : Digest}
    {input : Nat × Value × Digest} (member : input ∈ inputs link position previous (written events)) :
    input ∈ hashed ((recordsFrom position previous events).map CheckedRecord.toItem) := by
  induction events generalizing position previous with
  | nil => cases member
  | cons event events ih =>
      rcases List.mem_cons.mp member with rfl | later
      · exact ⟨_, List.mem_cons_self, rfl, rfl, rfl⟩
      · obtain ⟨record, inside, fields⟩ := ih later
        exact ⟨record, List.mem_cons_of_mem _ inside, fields⟩

theorem toItem_injective : Function.Injective CheckedRecord.toItem := by
  rintro ⟨index, event, previous, hash⟩ ⟨index', event', previous', hash'⟩ same
  simp only [CheckedRecord.toItem, Item.record.injEq, AuditRecord.mk.injEq, Value.int.injEq,
    Option.some.injEq, Value.str.injEq, ← Subtype.ext_iff] at same
  obtain ⟨rfl, rfl, rfl, rfl⟩ := same
  rfl

theorem mem_inputs_of_mem_recordsFrom {events : List AuditEvent} {position : Nat}
    {previous : Digest} {record : CheckedRecord}
    (member : record ∈ recordsFrom position previous events) {input : Nat × Value × Digest}
    (indexed : record.index = input.1) (written_eq : record.event.toDict = input.2.1)
    (linked : record.previousHash = input.2.2) :
    input ∈ inputs link position previous (written events) := by
  induction events generalizing position previous with
  | nil => cases member
  | cons event events ih =>
      rcases List.mem_cons.mp member with rfl | later
      · obtain ⟨index, dict, before⟩ := input
        simp only at indexed written_eq linked
        obtain rfl : position = index := Int.ofNat.inj indexed
        subst written_eq linked
        exact List.mem_cons_self
      · exact List.mem_cons_of_mem _ (ih later)

/-- A chain hashes nothing but its own inputs. -/
theorem hashed_chainItems (events : List AuditEvent) :
    hashed (chainItems events) = { input | input ∈ inputs link 0 emptyHash (written events) } := by
  refine Set.Subset.antisymm ?_ fun input member => mem_hashed_of_mem_inputs member
  rintro input ⟨record, member, indexed, written_eq, linked⟩
  obtain ⟨other, inside, same⟩ := List.mem_map.mp member
  obtain rfl := toItem_injective same
  exact mem_inputs_of_mem_recordsFrom inside indexed written_eq linked

theorem collisionFree_written {first second : List AuditEvent}
    (collisionFree : Set.InjOn link (hashed (chainItems first) ∪ hashed (chainItems second))) :
    Set.InjOn link { input | input ∈ inputs link 0 emptyHash (written first) ∨
      input ∈ inputs link 0 emptyHash (written second) } := by
  rw [hashed_chainItems, hashed_chainItems] at collisionFree
  exact collisionFree

/-- The dictionaries of a chain's records depend on its written events only. -/
def dictsFrom (position : Nat) (previous : Digest) : List Value → List Value
  | [] => []
  | event :: events =>
      .dict [(str "event", event), (str "index", .int position),
        (str "previous_hash", .str previous.val),
        (str "record_hash", .str (link (position, event, previous)).val)] ::
        dictsFrom (position + 1) (link (position, event, previous)) events

theorem toDict_recordsFrom (position : Nat) (previous : Digest) (events : List AuditEvent) :
    ((recordsFrom position previous events).map CheckedRecord.toItem).map Item.toDict =
      (dictsFrom position previous (written events)).map some := by
  induction events generalizing position previous with
  | nil => rfl
  | cons event events ih =>
      rw [recordsFrom, List.map_cons, List.map_cons, ih]
      rfl

theorem dictsFrom_append (position : Nat) (previous : Digest) (first second : List Value) :
    ∃ rest, dictsFrom position previous (first ++ second) =
      dictsFrom position previous first ++ rest := by
  induction first generalizing position previous with
  | nil => exact ⟨_, rfl⟩
  | cons event first ih =>
      obtain ⟨rest, same⟩ := ih (position + 1) (link (position, event, previous))
      exact ⟨rest, by rw [List.cons_append, dictsFrom, same]; rfl⟩

section Accepted

variable {verifier : AuditVerifier} {items : List Item} {head : Option AuditHead}

/-- A chain that passes the anchor check passes the committed tip. -/
theorem reached_of_anchored {claimed committed : Committed} {events : List AuditEvent}
    (whole : Verified claimed events)
    (anchored : verifyAnchored claimed (recordsFrom 0 emptyHash events) committed = .ok ()) :
    committed.count ≤ events.length ∧
      (committed.count ≠ 0 → tip link 0 emptyHash (written (events.take committed.count)) =
        committed.headHash) := by
  simp only [verifyAnchored, guarded_eq_ok] at anchored
  obtain ⟨long, equal, contained, _⟩ := anchored
  have reached : committed.count ≤ events.length := by
    rw [whole.length_eq]
    omega
  refine ⟨reached, fun positive => ?_⟩
  rcases Nat.lt_or_ge committed.count claimed.count with longer | exact
  · rw [hashAt_recordsFrom positive reached] at contained
    have found := not_not.mp fun other => contained ⟨positive, longer, other⟩
    exact Option.some.inj found
  · have same : claimed.count = committed.count := by omega
    rw [← same, ← whole.length_eq, List.take_length, whole.tip_eq]
    exact not_not.mp fun other => equal ⟨same, other⟩

/-- A log that `verify` accepts, with the position its anchor holds it to. -/
theorem verify_eq_ok {anchor : Option Committed} {length : Nat}
    (accepted : verify verifier items head anchor = .ok length) :
    ∃ claimed events, verifyHead verifier head = .ok claimed ∧ Verified claimed events ∧
      items = chainItems events ∧ length = events.length ∧
      ∀ committed ∈ anchor, committed.count ≤ events.length ∧
        (committed.count ≠ 0 → tip link 0 emptyHash (written (events.take committed.count)) =
          committed.headHash) := by
  obtain ⟨⟨claimed, records⟩, chained, checked⟩ := bind_eq_ok.mp accepted
  obtain ⟨verified, events, whole, rfl, rfl⟩ := verifyChain_eq_ok.mp chained
  cases anchor with
  | none =>
      have counted := pure_eq_ok.mp checked
      rw [length_recordsFrom] at counted
      refine ⟨claimed, events, verified, whole, rfl, counted.symm, ?_⟩
      intro other absent
      cases absent
  | some committed =>
      obtain ⟨_, anchored, counts⟩ := bind_eq_ok.mp checked
      have counted := pure_eq_ok.mp counts
      rw [length_recordsFrom] at counted
      refine ⟨claimed, events, verified, whole, rfl, counted.symm, ?_⟩
      intro other member
      obtain rfl := Option.mem_some_iff.mp member
      exact reached_of_anchored whole anchored

/-- What `commit` committed to is the chain it was given. -/
theorem commit_eq_ok {state committed : Committed}
    (accepted : (AuditAnchor.commit verifier head items state).1 = .ok committed) :
    ∃ events, verifyHead verifier head = .ok committed ∧ Verified committed events ∧
      items = chainItems events ∧ (AuditAnchor.commit verifier head items state).2 = committed ∧
      AuditAnchor.commitLocked committed (recordsFrom 0 emptyHash events) state = .ok committed := by
  unfold AuditAnchor.commit at accepted ⊢
  obtain ⟨decided, stored⟩ := AuditAnchor.settle_eq_ok accepted
  obtain ⟨⟨claimed, chain⟩, prepared, locked⟩ := bind_eq_ok.mp decided
  obtain ⟨verified, events, whole, rfl, rfl⟩ := prepare_eq_ok.mp prepared
  have moved : claimed = committed := by
    simp only [AuditAnchor.commitLocked, guarded_eq_ok] at locked
    exact Except.ok.inj locked.2.2.2
  subst moved
  exact ⟨events, verified, whole, rfl, stored, locked⟩

end Accepted

section Instance

theorem first_second_occurs : 0 < (1 : Int) ∧ (1 : Int) ≤ maxOccurredAt := by decide

/-- An issued handoff at a given time. -/
def issuedAt (occurredAt : OccurredAt) : AuditEvent where
  traceId := ⟨str "trace-1", by decide⟩
  jobId := ⟨str "job-1", by decide⟩
  actor := ⟨.orchestrator, ⟨str "orchestrator-1", by decide⟩⟩
  subject := ⟨str "alice", by decide⟩
  action := .handoffIssued
  decision := .allowed
  reasonCode := ⟨str "ISSUED", by decide⟩
  policyVersion := ⟨str "policy-v1", by decide⟩
  constitutionVersion := ⟨str "constitution-v1-draft", by decide⟩
  handoffSha256 := emptyHash
  payloadSha256 := emptyHash
  occurredAt
  approvalRecordHash := none
  bindings := .legacy
  bindings_agree := rfl

/-- A keyless signature scheme: a message is signed by its digest, twice. -/
def digestSignature (message : Bytes) : Bytes := Sha256.digest message ++ Sha256.digest message

def digestAuthority : AuditAuthority where
  sign := digestSignature
  verifier := ⟨fun message signature => signature = digestSignature message⟩
  sign_verifies := fun _ => decide_eq_true rfl
  length_sign := fun _ => by
    rw [digestSignature, List.length_append, Sha256.length_digest]

/-- What a chain of events commits to. -/
def commitment (events : List AuditEvent) (short : events.length ≤ maxCount) : Committed :=
  ⟨events.length, tip link 0 emptyHash (written events), short⟩

theorem verified_commitment {events : List AuditEvent} (short : events.length ≤ maxCount) :
    Verified (commitment events short) events := ⟨rfl, rfl⟩

variable (authority : AuditAuthority) (events : List AuditEvent)

theorem verifyChain_signed (short : events.length ≤ maxCount) :
    verifyChain authority.verifier (chainItems events)
        (some (authority.signed (commitment events short))) =
      .ok (commitment events short, recordsFrom 0 emptyHash events) :=
  verifyChain_eq_ok.mpr ⟨verifyHead_signed _ _, events, ⟨rfl, rfl⟩, rfl, rfl⟩

theorem commit_signed (short : events.length ≤ maxCount) :
    AuditAnchor.commit authority.verifier (some (authority.signed (commitment events short)))
        (chainItems events) Committed.initial =
      (.ok (commitment events short), commitment events short) := by
  have prepared : AuditAnchor.prepare authority.verifier
      (some (authority.signed (commitment events short))) (chainItems events) =
        .ok (commitment events short, recordsFrom 0 emptyHash events) :=
    prepare_eq_ok.mpr ⟨verifyHead_signed _ _, events, ⟨rfl, rfl⟩, rfl, rfl⟩
  have locked : AuditAnchor.commitLocked (commitment events short) (recordsFrom 0 emptyHash events)
      Committed.initial = .ok (commitment events short) := by
    refine guarded_eq_ok.mpr ⟨Nat.not_lt_zero _, guarded_eq_ok.mpr ⟨?_, guarded_eq_ok.mpr
      ⟨fun ⟨nonzero, _⟩ => nonzero rfl, rfl⟩⟩⟩
    rintro ⟨empty, differs⟩
    apply differs
    obtain rfl : events = [] := List.length_eq_zero_iff.mp empty
    rfl
  simp only [AuditAnchor.commit, prepared, bind, Except.bind, locked, AuditAnchor.settle]

end Instance

/-- The logs one head admits agree in every record, and a log an anchor admits
contains the chain the anchor committed to, as long as no two of the values
hashed in the two logs collide. Any other log is refused. -/
theorem verify_tamper_evident (verifier : AuditVerifier) :
    (∀ (head : Option AuditHead) (anchor anchor' : Option Committed) (first second : List Item)
        (length length' : Nat),
      Set.InjOn link (hashed first ∪ hashed second) →
      verify verifier first head anchor = .ok length →
      verify verifier second head anchor' = .ok length' →
      first.length = second.length ∧ ∃ dicts : List Value,
        first.map Item.toDict = dicts.map some ∧ second.map Item.toDict = dicts.map some) ∧
    (∀ (head head' : Option AuditHead) (state committed : Committed) (chain items : List Item),
      Set.InjOn link (hashed chain ∪ hashed items) →
      AuditAnchor.commit verifier head chain state = (.ok committed, committed) →
      (∀ length, verify verifier items head' (some committed) = .ok length →
        chain.map Item.toDict <+: items.map Item.toDict) ∧
      (¬ chain.map Item.toDict <+: items.map Item.toDict →
        ∃ raised, verify verifier items head' (some committed) = .error raised)) := by
  constructor
  · intro head anchor anchor' first second length length' collisionFree accepted accepted'
    obtain ⟨claimed, events, verified, whole, rfl, _⟩ := verify_eq_ok accepted
    obtain ⟨claimed', events', verified', whole', rfl, _⟩ := verify_eq_ok accepted'
    obtain rfl := Except.ok.inj (verified.symm.trans verified')
    have sameLength : events.length = events'.length := by
      rw [whole.length_eq, whole'.length_eq]
    have same : written events = written events' := by
      refine (eq_of_tip_eq (collisionFree_written collisionFree) ?_
        (whole.tip_eq.trans whole'.tip_eq.symm)).1
      rw [length_written, length_written, sameLength]
    refine ⟨by rw [length_chainItems, length_chainItems, sameLength],
      dictsFrom 0 emptyHash (written events), toDict_recordsFrom _ _ _, ?_⟩
    rw [same]
    exact toDict_recordsFrom _ _ _
  · intro head head' state committed chain items collisionFree moved
    have contained : ∀ length, verify verifier items head' (some committed) = .ok length →
        chain.map Item.toDict <+: items.map Item.toDict := by
      intro length accepted
      obtain ⟨events, _, whole, rfl, _⟩ := commit_eq_ok (congrArg Prod.fst moved)
      obtain ⟨claimed, events', _, whole', rfl, _, anchored⟩ := verify_eq_ok accepted
      obtain ⟨reached, passes⟩ := anchored committed rfl
      have sized : (written events).length = committed.count := by
        rw [length_written, whole.length_eq]
      have initial : written events <+: written events' := by
        refine isPrefix_of_tip_eq (collisionFree_written collisionFree) ?_ ?_
        · rwa [sized, length_written]
        · rw [whole.tip_eq, sized, ← written_take]
          rcases Nat.eq_zero_or_pos committed.count with empty | positive
          · rw [empty, List.take_zero, ← whole.tip_eq]
            rw [empty, List.length_eq_zero_iff] at sized
            rw [sized]
            rfl
          · exact (passes (by omega)).symm
      obtain ⟨suffix, extended⟩ := initial
      obtain ⟨rest, same⟩ := dictsFrom_append 0 emptyHash (written events) suffix
      rw [chainItems, chainItems, toDict_recordsFrom, toDict_recordsFrom, ← extended, same,
        List.map_append]
      exact List.prefix_append _ _
    refine ⟨contained, fun differs => ?_⟩
    cases accepted : verify verifier items head' (some committed) with
    | error raised => exact ⟨raised, rfl⟩
    | ok length => exact (differs (contained length accepted)).elim

/-- A chain of one event signed by its digest: nothing collides, the anchor takes
the chain, and the chain passes `verify` with and without the anchor. -/
theorem verify_tamper_evident_one_event :
    let chain := chainItems [issuedAt ⟨1, by decide⟩]
    let committed := commitment [issuedAt ⟨1, by decide⟩] (by decide)
    let head := some (digestAuthority.signed committed)
    Set.InjOn link (hashed chain ∪ hashed chain) ∧
      verify digestAuthority.verifier chain head (some committed) = .ok 1 ∧
      (∃ dicts : List Value, chain.map Item.toDict = dicts.map some) ∧
      chain.map Item.toDict <+: chain.map Item.toDict := by
  intro chain committed head
  have collisionFree : Set.InjOn link (hashed chain ∪ hashed chain) := by
    rw [Set.union_self, hashed_chainItems]
    intro first member second member' _
    rw [List.mem_singleton.mp member, List.mem_singleton.mp member']
  have chained : verifyChain digestAuthority.verifier chain head = _ := verifyChain_signed _ _ _
  have alone : verify digestAuthority.verifier chain head none = .ok 1 := by
    rw [verify, chained]
    rfl
  have consistent : verifyAnchored committed (recordsFrom 0 emptyHash [issuedAt ⟨1, by decide⟩])
      committed = .ok () := by
    simp [verifyAnchored]
  have anchored : verify digestAuthority.verifier chain head (some committed) = .ok 1 := by
    exact bind_eq_ok.mpr ⟨_, chained, bind_eq_ok.mpr ⟨(), consistent, rfl⟩⟩
  refine ⟨collisionFree, anchored, ?_, ?_⟩
  · obtain ⟨dicts, same, _⟩ := ((verify_tamper_evident digestAuthority.verifier).1 head none none chain chain
      1 1 collisionFree alone alone).2
    exact ⟨dicts, same⟩
  · exact ((verify_tamper_evident digestAuthority.verifier).2 head head Committed.initial committed chain chain
      collisionFree (commit_signed _ _ _)).1 1 anchored

end GeniusNew
