import GeniusNew.Durable.Checked
import GeniusNew.Durable.Turns
import GeniusNew.Transition.Run

/-! # What holds in every run

Any requests of any instances, in any order, with any of them crashed at any point,
keep the tables and the chain together. Every request stands where its job stands, and
no job enters a worker twice.
-/

namespace GeniusNew.Durable

open Json Database PostgresAuditChain
open Wiring (Call milestones)

/-- The job of a request that is about to enter a worker. -/
def Request.entering (request : Request) : Option Str :=
  match request.phase with
  | .entering attempt => some attempt.job.jobId
  | _ => none

def Entry.jobId (entry : Entry) : Str := entry.attempt.job.jobId

/-- What the instances were asked. -/
def State.calls (state : State) : List (Wiring.Service × Call) :=
  state.requests.map fun request => (request.service, request.call)

/-- The id a job is issued under, as the event will carry it. -/
def issuedAs (asked : Wiring.Service × Call) : Option Str := asked.2.minted.bind audited

/-- The ids of the jobs that were issued, and of those that are still to be. -/
def State.issuing (state : State) (events : List AuditEvent) : List Str :=
  events.filterMap issuedId ++ state.requests.filterMap Request.due

/-- An instance checks handoffs with a policy and a public key. -/
def Trusts (policy : Policy) (verifier : HandoffVerifier) (service : Wiring.Service) : Prop :=
  service.policy = policy ∧ service.signer.verifier = verifier

/-- Every job is issued once, and only where it was asked for. -/
structure Unique (asked issuing : List Str) : Prop where
  once : issuing.Nodup
  asked : issuing ⊆ asked

theorem Unique.fewer {asked issuing next : List Str} (unique : Unique asked issuing)
    (fewer : next.Subperm issuing) : Unique asked next := by
  refine ⟨?_, fun id member => unique.asked (fewer.subset member)⟩
  obtain ⟨part, same, inside⟩ := fewer
  exact same.nodup_iff.mp (unique.once.sublist inside)

/-- What holds of the tables, the chain and the requests together. -/
structure Upheld (interpreter : Interpreter) (authority : AuditAuthority) (state : State)
    (events : List AuditEvent) : Prop where
  chain : AuditStore.Holds authority.verifier state.store.audit events
  coherent : Coherent interpreter state.store.tables
  reconciled : Reconciled interpreter state.store.tables events
  audit : ∀ asked ∈ state.calls, asked.1.audit = authority
  held : ∀ request ∈ state.requests, request.phase.Held interpreter request.service request.call
    state.store.tables events
  entries : ∀ entry ∈ state.entries, ∃ call, entry.attempt.Held interpreter entry.service call
    state.store.tables events 3 entered
  once : (state.entries.map Entry.jobId ++ state.requests.filterMap Request.entering).Nodup
  origins : ∀ jobId ∈ state.store.tables.jobs, ∃ asked ∈ state.calls, asked.2.minted = some jobId
  endorsed : ∀ recordHash row record, state.store.tables.records.lookup recordHash = some row →
    Holds interpreter recordHash row record → record.state = .granted →
      ∃ event ∈ events, ∃ asked ∈ state.calls, Endorses asked.1 event record
  unique : (state.calls.filterMap issuedAs).Nodup →
    Unique (state.calls.filterMap issuedAs) (state.issuing events)
  waiting : ∀ policy verifier, (∀ asked ∈ state.calls, Trusts policy verifier asked.1) →
    Issued interpreter policy verifier state.store.tables

theorem upheld_initial (interpreter : Interpreter) (authority : AuditAuthority) :
    Upheld interpreter authority .initial [] where
  chain := AuditStore.holds_empty _
  coherent := coherent_empty
  reconciled := reconciled_empty interpreter
  audit := fun _ member => nomatch member
  held := fun _ member => nomatch member
  entries := fun _ member => nomatch member
  once := List.nodup_nil
  origins := fun jobId member => by
    obtain ⟨row, found⟩ := Table.mem_iff.mp member
    have absent : (∅ : Table JobRow).lookup jobId = none := AList.lookup_empty _
    exact nomatch absent.symm.trans found
  endorsed := fun recordHash row _ found => by
    have absent : (∅ : Table ApprovalRow).lookup recordHash = none := AList.lookup_empty _
    exact nomatch absent.symm.trans found
  unique := fun _ => ⟨List.nodup_nil, List.nil_subset _⟩
  waiting := fun policy verifier _ jobId row found => by
    have absent : (∅ : Table PendingRow).lookup jobId = none := AList.lookup_empty _
    exact nomatch absent.symm.trans found

section Set

variable {state : State} {index : Nat} {request : Request}

theorem calls_set (found : state.requests[index]? = some request) (phase : Phase) :
    (state.requests.set index (request.at_ phase)).map
      (fun request => (request.service, request.call)) = state.calls := by
  have kept : (state.requests.set index (request.at_ phase)).filterMap
      (fun request => some (request.service, request.call)) =
        state.requests.filterMap fun request => some (request.service, request.call) :=
    filterMap_set_of_eq found rfl
  rw [List.filterMap_eq_map'] at kept
  exact kept

/-- Nothing becomes of the other requests. -/
theorem held_set {interpreter : Interpreter} {tables : Tables} {events : List AuditEvent}
    {phase : Phase}
    (others : ∀ other ∈ state.requests, other.phase.Held interpreter other.service other.call
      tables events)
    (held : phase.Held interpreter request.service request.call tables events) :
    ∀ other ∈ state.requests.set index (request.at_ phase),
      other.phase.Held interpreter other.service other.call tables events := by
  intro other member
  obtain old | rfl := List.mem_or_eq_of_mem_set member
  · exact others other old
  · exact held

end Set

section Step

variable {interpreter : Interpreter} {authority : AuditAuthority} {state : State}
  {events : List AuditEvent} {index : Nat} {request : Request} {phase : Phase}

/-- A job that entered a worker, or is about to, was committed. -/
theorem Upheld.entered (upheld : Upheld interpreter authority state events) {jobId : Str}
    (member : jobId ∈ state.entries.map Entry.jobId ++ state.requests.filterMap Request.entering) :
    ∃ row, state.store.tables.jobs.lookup jobId = some row ∧ entered row.state = true := by
  obtain past | next := List.mem_append.mp member
  · obtain ⟨entry, inside, rfl⟩ := List.mem_map.mp past
    obtain ⟨_, held⟩ := upheld.entries entry inside
    obtain ⟨row, found, _, _, _, far⟩ := held.reached
    exact ⟨row, found, far⟩
  · obtain ⟨request, inside, enters⟩ := List.mem_filterMap.mp next
    have held := upheld.held request inside
    obtain ⟨service, call, phase⟩ := request
    cases phase with
    | entering attempt =>
        obtain rfl := Option.some.inj enters
        obtain ⟨row, found, _, _, _, far⟩ := Attempt.Held.reached held
        exact ⟨row, found, far⟩
    | _ => cases enters

theorem due_of_not {phase : Phase} (outside : ∀ attempt, phase ≠ .entering attempt) :
    (request.at_ phase).entering = none := by
  cases phase with
  | entering attempt => exact absurd rfl (outside attempt)
  | _ => rfl

/-- A request goes on, and nothing is committed. -/
theorem Upheld.stays (upheld : Upheld interpreter authority state events)
    (found : state.requests[index]? = some request)
    (held : phase.Held interpreter request.service request.call state.store.tables events)
    (due : (request.at_ phase).due = none ∨ (request.at_ phase).due = request.due)
    (outside : ∀ attempt, phase ≠ .entering attempt) :
    Upheld interpreter authority
      { state with requests := state.requests.set index (request.at_ phase) } events where
  chain := upheld.chain
  coherent := upheld.coherent
  reconciled := upheld.reconciled
  audit := by
    rw [State.calls, calls_set found]
    exact upheld.audit
  held := held_set upheld.held held
  entries := upheld.entries
  once := by
    refine upheld.once.sublist (List.Sublist.append (List.Sublist.refl _) ?_)
    exact Assoc.filterMap_set_sublist (due_of_not outside)
  origins := by
    rw [State.calls, calls_set found]
    exact upheld.origins
  endorsed := by
    rw [State.calls, calls_set found]
    exact upheld.endorsed
  unique := by
    rw [State.calls, calls_set found]
    intro distinct
    refine (upheld.unique distinct).fewer ?_
    obtain none_ | same := due
    · exact ((List.Sublist.refl _).append (Assoc.filterMap_set_sublist none_)).subperm
    · rw [State.issuing, filterMap_set_of_eq found same]
      exact List.Subperm.refl _
  waiting := by
    rw [State.calls, calls_set found]
    exact upheld.waiting

/-- A request enters a worker. -/
theorem Upheld.enters (upheld : Upheld interpreter authority state events)
    (found : state.requests[index]? = some request) {attempt : Attempt}
    (before : request.phase = .entering attempt) :
    Upheld interpreter authority
      { state with
        requests := state.requests.set index (request.at_ (.running attempt))
        entries := state.entries ++ [⟨request.service, attempt⟩] } events := by
  have held := upheld.held request (List.mem_of_getElem? found)
  rw [before] at held
  have stays : Upheld interpreter authority { state with
      requests := state.requests.set index (request.at_ (.running attempt)) } events :=
    upheld.stays found held (.inl rfl) fun _ => Phase.noConfusion
  exact {
    chain := stays.chain
    coherent := stays.coherent
    reconciled := stays.reconciled
    audit := stays.audit
    held := stays.held
    entries := by
      intro entry member
      obtain old | last := List.mem_append.mp member
      · exact upheld.entries entry old
      · rw [List.mem_singleton.mp last]
        exact ⟨request.call, held⟩
    once := by
      have shown : request.entering = some attempt.job.jobId := by
        rw [Request.entering, before]
      have silent : (request.at_ (.running attempt)).entering = none := rfl
      have moved := Assoc.perm_filterMap_set found shown silent
      have all := (moved.append_left (state.entries.map Entry.jobId)).nodup_iff.mp upheld.once
      rw [List.map_append, List.append_assoc]
      exact all
    origins := stays.origins
    endorsed := stays.endorsed
    unique := stays.unique
    waiting := stays.waiting }

/-- A job enters a worker only where it was not committed before. -/
theorem Upheld.once_committed (upheld : Upheld interpreter authority state events)
    {tables : Tables} {event : AuditEvent}
    (committed : Committed interpreter state.store.tables events request phase tables event) :
    (state.entries.map Entry.jobId ++
      (state.requests.set index (request.at_ phase)).filterMap Request.entering).Nodup := by
  cases shown : (request.at_ phase).entering with
  | none =>
      refine upheld.once.sublist (List.Sublist.append (List.Sublist.refl _) ?_)
      exact Assoc.filterMap_set_sublist shown
  | some jobId =>
      have absent : jobId ∉ state.entries.map Entry.jobId ++
          state.requests.filterMap Request.entering := by
        intro member
        obtain ⟨row, found, far⟩ := upheld.entered member
        cases phase with
        | entering attempt =>
            obtain rfl := Option.some.inj shown
            obtain ⟨job, stored, open_⟩ := committed.enters attempt rfl
            obtain rfl := Option.some.inj (found.symm.trans stored)
            rw [open_] at far
            cases far
        | _ => cases shown
      have fewer : ((state.requests.set index (request.at_ phase)).filterMap
          Request.entering).Subperm (jobId :: state.requests.filterMap Request.entering) :=
        Assoc.subperm_filterMap_set shown
      have whole := (List.subperm_append_left (state.entries.map Entry.jobId)).mpr fewer
      obtain ⟨part, same, inside⟩ := whole.trans List.perm_middle.subperm
      exact same.nodup_iff.mp ((List.nodup_cons.mpr ⟨absent, upheld.once⟩).sublist inside)

/-- A job that is issued is no longer due. -/
theorem Committed.issuing {before tables : Tables} {event : AuditEvent} {next : Store}
    (committed : Committed interpreter before events request phase tables event)
    (found : state.requests[index]? = some request) :
    (State.issuing { state with
      store := next
      requests := state.requests.set index (request.at_ phase) } (events ++ [event])).Subperm
        (state.issuing events) := by
  unfold State.issuing
  rw [Assoc.Accounts.filterMap_concat]
  by_cases issued : event.action = .handoffIssued
  · have same : issuedId event = some event.jobId.val := if_pos issued
    have moved := Assoc.perm_filterMap_set found (committed.issues issued).1 committed.due
    rw [same, Option.toList_some, List.append_assoc]
    exact (moved.append_left _).symm.subperm
  · have none_ : issuedId event = none := if_neg issued
    rw [none_, Option.toList_none, List.append_nil]
    exact ((List.Sublist.refl _).append (Assoc.filterMap_set_sublist committed.due)).subperm

/-- Only an issuance puts a job among the ones that wait. -/
theorem Commits.effect_under {before after : Tables} {event : AuditEvent} {policy : Policy}
    {verifier : HandoffVerifier} (commits : Commits interpreter before events after event)
    (unissued : event.action ≠ .handoffIssued) :
    after = before ∨ ∃ transaction : Transaction,
      transaction.Under policy verifier ∧ Effect interpreter before transaction after := by
  have known {transaction : Transaction} (effect : Effect interpreter before transaction after)
      (under : transaction.Under policy verifier) : after = before ∨ ∃ transaction : Transaction,
        transaction.Under policy verifier ∧ Effect interpreter before transaction after :=
    .inr ⟨transaction, under, effect⟩
  cases commits with
  | noted => exact .inl rfl
  | queued _ _ action => exact absurd action unissued
  | refused effect => exact known effect trivial
  | granted grants => exact known (.grant grants) trivial
  | reserved fresh carried => exact known (.reserve fresh carried) trivial
  | consumed succeeds carried found waits owned bound expires queued wired =>
      exact known (.consume succeeds carried found waits owned bound expires queued wired) trivial
  | dispatched found bound open_ => exact known (.commit found bound open_) trivial
  | accepted fresh unique found bound committed =>
      exact known (.accept fresh unique found bound committed) trivial

theorem Committed.issued {before tables : Tables} {event : AuditEvent} {policy : Policy}
    {verifier : HandoffVerifier}
    (committed : Committed interpreter before events request phase tables event)
    (queued : Queued before) (trusts : Trusts policy verifier request.service)
    (issued : Issued interpreter policy verifier before) :
    Issued interpreter policy verifier tables := by
  have effect : tables = before ∨ ∃ transaction : Transaction,
      transaction.Under policy verifier ∧ Effect interpreter before transaction tables := by
    by_cases action : event.action = .handoffIssued
    · obtain ⟨_, rfl | ⟨jobId, waiting, now, effect⟩⟩ := committed.issues action
      · exact .inl rfl
      · have under : (Transaction.add _ _ jobId waiting now).Under policy verifier := trusts
        exact .inr ⟨_, under, effect⟩
    · exact committed.commits.effect_under action
  obtain rfl | ⟨transaction, under, effect⟩ := effect
  · exact issued
  · exact issued.effect queued under effect

/-- A request commits a transaction with its event. -/
theorem Upheld.commits (upheld : Upheld interpreter authority state events)
    (found : state.requests[index]? = some request) {tables : Tables} {audit : AuditStore.Tables}
    {event : AuditEvent}
    (committed : Committed interpreter state.store.tables events request phase tables event)
    (chain : AuditStore.Holds authority.verifier audit (events ++ [event])) :
    Upheld interpreter authority
      { state with
        store := ⟨tables, audit⟩
        requests := state.requests.set index (request.at_ phase) } (events ++ [event]) := by
  have later := committed.commits.later upheld.coherent.queued
  have calls : (State.calls { state with
      store := ⟨tables, audit⟩
      requests := state.requests.set index (request.at_ phase) }) = state.calls :=
    calls_set found phase
  have asked : (request.service, request.call) ∈ state.calls :=
    List.mem_map.mpr ⟨request, List.mem_of_getElem? found, rfl⟩
  exact {
    chain
    coherent := committed.commits.coherent upheld.coherent
    reconciled := upheld.reconciled.commits upheld.coherent.chained committed.commits
    audit := by
      rw [calls]
      exact upheld.audit
    held := held_set (fun other member => (upheld.held other member).later later [event])
      committed.held
    entries := by
      intro entry member
      obtain ⟨call, held⟩ := upheld.entries entry member
      exact ⟨call, held.later forward_entered later [event]⟩
    once := upheld.once_committed committed
    origins := by
      rw [calls]
      intro jobId member
      obtain old | minted := committed.keys jobId member
      · exact upheld.origins jobId old
      · exact ⟨_, asked, minted⟩
    endorsed := by
      rw [calls]
      intro recordHash row record stored holds granted
      obtain old | endorses := committed.grants recordHash row record stored holds granted
      · obtain ⟨event, member, rest⟩ := upheld.endorsed recordHash row record old holds granted
        exact ⟨event, List.mem_append_left _ member, rest⟩
      · exact ⟨event, List.mem_append_right _ List.mem_cons_self, _, asked, endorses⟩
    unique := by
      rw [calls]
      intro distinct
      exact (upheld.unique distinct).fewer (committed.issuing found)
    waiting := by
      rw [calls]
      intro policy verifier trusted
      exact committed.issued upheld.coherent.queued (trusted _ asked)
        (upheld.waiting policy verifier trusted) }

/-- A new request. -/
theorem Upheld.requested (upheld : Upheld interpreter authority state events)
    {service : Wiring.Service} (call : Call) (audit : service.audit = authority) :
    Upheld interpreter authority
      { state with requests := state.requests ++ [⟨service, call, .called⟩] } events := by
  have calls : State.calls { state with requests := state.requests ++ [⟨service, call, .called⟩] } =
      state.calls ++ [(service, call)] := List.map_append
  exact {
    chain := upheld.chain
    coherent := upheld.coherent
    reconciled := upheld.reconciled
    audit := by
      rw [calls]
      intro asked member
      obtain old | new := List.mem_append.mp member
      · exact upheld.audit asked old
      · rw [List.mem_singleton.mp new]
        exact audit
    held := by
      intro request member
      obtain old | new := List.mem_append.mp member
      · exact upheld.held request old
      · rw [List.mem_singleton.mp new]
        trivial
    entries := upheld.entries
    once := by
      rw [Assoc.Accounts.filterMap_concat]
      exact (List.append_nil _).symm ▸ upheld.once
    origins := by
      rw [calls]
      intro jobId member
      obtain ⟨asked, old, minted⟩ := upheld.origins jobId member
      exact ⟨asked, List.mem_append_left _ old, minted⟩
    endorsed := by
      rw [calls]
      intro recordHash row record found holds granted
      obtain ⟨event, member, asked, old, endorses⟩ :=
        upheld.endorsed recordHash row record found holds granted
      exact ⟨event, member, asked, List.mem_append_left _ old, endorses⟩
    unique := by
      rw [calls, Assoc.Accounts.filterMap_concat]
      intro distinct
      obtain ⟨once, asked⟩ := upheld.unique (distinct.sublist (List.sublist_append_left _ _))
      have same : State.issuing { state with
          requests := state.requests ++ [⟨service, call, .called⟩] } events =
            state.issuing events ++ (issuedAs (service, call)).toList := by
        rw [State.issuing, Assoc.Accounts.filterMap_concat, ← List.append_assoc]
        rfl
      rw [same]
      refine ⟨once.append (distinct.sublist (List.sublist_append_right _ _)) ?_, ?_⟩
      · exact fun _ one two => List.disjoint_of_nodup_append distinct (asked one) two
      · exact List.append_subset.mpr ⟨fun id member => List.mem_append_left _ (asked member),
          List.subset_append_right _ _⟩
    waiting := by
      rw [calls]
      exact fun policy verifier trusted => upheld.waiting policy verifier fun asked old =>
        trusted asked (List.mem_append_left _ old) }

/-- What a request does where all this holds. -/
theorem Upheld.turned (upheld : Upheld interpreter authority state events)
    (found : state.requests[index]? = some request) {input : Input} {after : State}
    (turned : turn interpreter state request input = some (phase, after)) :
    Turned interpreter authority state events request phase after := by
  have member := List.mem_of_getElem? found
  have audit : request.service.audit = authority :=
    upheld.audit (request.service, request.call) (List.mem_map.mpr ⟨request, member, rfl⟩)
  have chain := upheld.chain
  rw [← audit] at chain ⊢
  exact turn_turned chain upheld.coherent upheld.reconciled.issuances
    (upheld.held request member) turned

end Step

end GeniusNew.Durable
