import GeniusNew.Approvals.Admission
import GeniusNew.Contracts.Utf8
import GeniusNew.Orchestrator.Dispatch
import Mathlib.Data.List.Perm.Basic

/-! # Starting a service

`build` registers every worker under the one agent that the grants for its tool name, and
the orchestrator takes the endpoints when no two have the same agent. A service that starts
with a worker for every allowed tool routes every subject that has a grant.
-/

namespace GeniusNew

open Json

namespace Orchestrator

/-- `WorkerEndpoint(...)`; of the runner the endpoint keeps its tool. -/
def endpoint (workerAgentId tool : Str) : Outcome WorkerEndpoint :=
  if isInstanceId workerAgentId then .ok ⟨workerAgentId, tool⟩
  else fail "worker_agent_id must be a lowercase identifier of at most 63 characters"

/-- `Orchestrator.__init__`, where every argument is of the class it should be. -/
def Config.new (orchestratorId : Str) (gateway : Gateway) (approvals : Nat)
    (workers : List WorkerEndpoint) (onAdmitted onDispatched atomicAdmitted atomicDispatched : Bool) :
    Outcome Config :=
  if ¬ isInstanceId orchestratorId then
    fail "orchestrator_id must be a lowercase identifier of at most 63 characters"
  else if atomicAdmitted ≠ atomicDispatched then
    fail "atomic dispatch auditing must configure both boundaries"
  else if workers = [] then fail "workers must not be empty"
  else if ¬ (workers.map WorkerEndpoint.workerAgentId).Nodup then
    fail "worker_agent_id values must be unique"
  else .ok {
    orchestratorId, gateway, approvals, workers, onAdmitted, onDispatched
    atomic := atomicAdmitted }

end Orchestrator

namespace Wiring

open Orchestrator

/-- `config.BUILTIN_WORKERS`. -/
inductive Builtin where
  | deterministicSummarizer
  | textDigest
  deriving DecidableEq

def Builtin.tool : Builtin → Str
  | deterministicSummarizer => str "summarize"
  | textDigest => str "digest"

def builtinWorkers : List (Str × Builtin) :=
  [Builtin.deterministicSummarizer, .textDigest].map fun worker => (worker.tool, worker)

/-- `config._workers`; `plain` is how a text stands in a message. -/
def configuredWorkers (plain : Str → String) (policy : Policy) : Outcome (List Builtin) :=
  let missing := policy.allowedTools.filter fun tool => (builtinWorkers.lookup tool).isNone
  if missing ≠ [] then
    fail ("no built-in worker for tools: " ++ ", ".intercalate (missing.map plain))
  else .ok (policy.allowedTools.filterMap fun tool => builtinWorkers.lookup tool)

/-- A runner as `build` uses it. Only the runner of a worker service has a `preflight` that
can fail. -/
structure Runner where
  tool : Str
  preflight : Outcome Unit

/-- The agents that the grants for a tool name. -/
def agents (policy : Policy) (tool : Str) : List Str :=
  ((policy.grants.filter fun grant => tool ∈ grant.tools).map Grant.workerAgentId).dedup

section Build

variable {Worker : Type} (repr : Str → String) (makeRunner : Worker → Outcome (Option Runner))
  (policy : Policy)

/-- One round of the endpoint loop of `build`. -/
def endpointOf (worker : Worker) : Outcome WorkerEndpoint := do
  match ← makeRunner worker with
  | none => fail "runner_factory must return a WorkerRunner"
  | some runner => do
      runner.preflight
      match agents policy runner.tool with
      | [] => fail ("no grant in this policy names a worker for tool " ++ repr runner.tool)
      | [agent] => endpoint agent runner.tool
      | _ :: _ :: _ =>
          fail ("grants name more than one worker agent for tool " ++ repr runner.tool ++
            "; one worker cannot be registered as several agents")

/-- The orchestrator of `build`: the endpoint loop and the constructor. -/
def orchestratorOf (gateway : Gateway) (durable : Bool) (workers : List Worker) :
    Outcome Config := do
  let endpoints ← workers.mapM (endpointOf repr makeRunner policy)
  Config.new policy.orchestratorId gateway 0 endpoints (!durable) (!durable) durable durable

end Build

section Started

variable {Worker : Type} {repr : Str → String} {makeRunner : Worker → Outcome (Option Runner)}
  {policy reordered : Policy} {worker : Worker} {endpoint : WorkerEndpoint}
  {workers shuffled : List Worker} {endpoints : List WorkerEndpoint}

theorem mem_agents {tool agent : Str} : agent ∈ agents policy tool ↔
    ∃ grant ∈ policy.grants, tool ∈ grant.tools ∧ grant.workerAgentId = agent := by
  rw [agents, List.mem_dedup, List.mem_map]
  constructor
  · intro ⟨grant, member, same⟩
    obtain ⟨inside, granted⟩ := List.mem_filter.mp member
    exact ⟨grant, inside, of_decide_eq_true granted, same⟩
  · intro ⟨grant, inside, granted, same⟩
    exact ⟨grant, List.mem_filter.mpr ⟨inside, decide_eq_true granted⟩, same⟩

/-- The order of the grants does not change a sole agent. -/
theorem agents_of_perm {tool agent : Str} (grants : reordered.grants.Perm policy.grants)
    (sole : agents policy tool = [agent]) : agents reordered tool = [agent] := by
  apply List.perm_singleton.mp
  rw [← sole]
  exact ((grants.filter _).map _).dedup

theorem endpointOf_eq_ok : endpointOf repr makeRunner policy worker = .ok endpoint ↔
    ∃ runner, makeRunner worker = .ok (some runner) ∧ runner.preflight = .ok () ∧
      agents policy runner.tool = [endpoint.workerAgentId] ∧
      isInstanceId endpoint.workerAgentId = true ∧ endpoint.tool = runner.tool := by
  unfold endpointOf
  constructor
  · intro registered
    obtain ⟨made, answered, registered⟩ := bind_eq_ok.mp registered
    cases made with
    | none => exact (fail_ne_ok registered).elim
    | some runner =>
        obtain ⟨_, checked, registered⟩ := bind_eq_ok.mp registered
        refine ⟨runner, answered, checked, ?_⟩
        split at registered
        · exact (fail_ne_ok registered).elim
        · next agent sole =>
            obtain ⟨valid, same⟩ := guard_eq_ok.mp registered
            obtain rfl := Except.ok.inj same
            exact ⟨sole, valid, rfl⟩
        · exact (fail_ne_ok registered).elim
  · intro ⟨runner, answered, checked, sole, valid, same⟩
    refine bind_eq_ok.mpr ⟨some runner, answered, bind_eq_ok.mpr ⟨(), checked, ?_⟩⟩
    rw [sole]
    apply guard_eq_ok.mpr
    refine ⟨valid, ?_⟩
    rw [← same]

/-- The loop registers every worker, one endpoint each. -/
theorem mapM_endpointOf : workers.mapM (endpointOf repr makeRunner policy) = .ok endpoints ↔
    List.Forall₂ (fun worker endpoint => endpointOf repr makeRunner policy worker = .ok endpoint)
      workers endpoints := by
  induction workers generalizing endpoints with
  | nil =>
      rw [List.mapM_nil, pure_eq_ok, List.forall₂_nil_left_iff]
      exact eq_comm
  | cons worker workers ih =>
      rw [List.mapM_cons, List.forall₂_cons_left_iff]
      constructor
      · intro registered
        obtain ⟨first, one, registered⟩ := bind_eq_ok.mp registered
        obtain ⟨rest, others, same⟩ := bind_eq_ok.mp registered
        exact ⟨first, rest, one, ih.mp others, (pure_eq_ok.mp same).symm⟩
      · intro ⟨first, rest, one, others, same⟩
        refine bind_eq_ok.mpr ⟨first, one, bind_eq_ok.mpr ⟨rest, ih.mpr others, ?_⟩⟩
        rw [same]
        rfl

theorem Config.new_eq_ok {orchestratorId : Str} {gateway : Gateway} {approvals : Nat}
    {onAdmitted onDispatched atomicAdmitted atomicDispatched : Bool} {config : Config} :
    Config.new orchestratorId gateway approvals endpoints onAdmitted onDispatched atomicAdmitted
        atomicDispatched = .ok config ↔
      isInstanceId orchestratorId = true ∧ atomicAdmitted = atomicDispatched ∧ endpoints ≠ [] ∧
        (endpoints.map WorkerEndpoint.workerAgentId).Nodup ∧
        config = ⟨orchestratorId, gateway, approvals, endpoints, onAdmitted, onDispatched,
          atomicAdmitted⟩ := by
  simp only [Config.new, guarded_eq_ok, not_not, ne_eq, Except.ok.injEq]
  rw [@eq_comm _ config]

/-- Every endpoint stands under the agent of each grant for its tool, every tool that is
granted has an endpoint, and no agent has two. -/
structure Staffed (policy : Policy) (endpoints : List WorkerEndpoint) : Prop where
  named : ∀ endpoint ∈ endpoints, ∀ grant ∈ policy.grants, endpoint.tool ∈ grant.tools →
    grant.workerAgentId = endpoint.workerAgentId
  covered : ∀ grant ∈ policy.grants, ∀ tool ∈ grant.tools,
    ∃ endpoint ∈ endpoints, endpoint.tool = tool
  distinct : (endpoints.map WorkerEndpoint.workerAgentId).Nodup

theorem Staffed.unique {other : WorkerEndpoint} (staffed : Staffed policy endpoints)
    (member : endpoint ∈ endpoints) (present : other ∈ endpoints)
    (same : other.workerAgentId = endpoint.workerAgentId) : other = endpoint :=
  List.inj_on_of_nodup_map staffed.distinct present member same

/-- A grant has a tool, and the tool's endpoint is the one of the grant's agent. -/
theorem Staffed.exists_endpoint {grant : Grant} (staffed : Staffed policy endpoints)
    (granted : grant ∈ policy.grants) :
    ∃ endpoint ∈ endpoints, endpoint.workerAgentId = grant.workerAgentId ∧
      endpoint.tool ∈ grant.tools := by
  have valid := grant.tools_valid
  simp only [isStringTuple, Bool.and_eq_true, Bool.not_eq_true', List.isEmpty_eq_false_iff] at valid
  obtain ⟨tool, held⟩ := List.exists_mem_of_ne_nil _ valid.1.1
  obtain ⟨endpoint, member, same⟩ := staffed.covered grant granted tool held
  have inside : endpoint.tool ∈ grant.tools := same.symm ▸ held
  exact ⟨endpoint, member, (staffed.named endpoint member grant granted inside).symm, inside⟩

/-- `grant_for` of the subject of a grant. -/
theorem grantFor_subject {grant : Grant} (granted : grant ∈ policy.grants) :
    policy.grantFor grant.subject = .ok grant := by
  obtain ⟨data, encoded⟩ := Option.isSome_iff_exists.mp grant.subject_valid.2
  have bytes : subjectBytes grant.subject = .ok data := by
    rw [subjectBytes, if_neg grant.subject_valid.1, encoded]
  have distinct : (policy.grants.map fun grant => encodeUtf8 grant.subject).Nodup := by
    have subjects := policy.grants_valid.2.map_on (f := encodeUtf8) ?_
    · rwa [List.map_map] at subjects
    · intro subject member other _ same
      obtain ⟨named, _, rfl⟩ := List.mem_map.mp member
      obtain ⟨written, own⟩ := Option.isSome_iff_exists.mp named.subject_valid.2
      exact encodeUtf8_injective own (same.symm.trans own)
  have found := Assoc.find?_key distinct granted encoded
  rw [Policy.grantFor, bytes]
  simp only [bind, Except.bind, found]
  rfl

/-- Over a staffed policy a subject with a grant is routed to the endpoint of its agent. -/
theorem Staffed.route {config : Config} {grant : Grant} {jobId : Str} {now : Int}
    (staffed : Staffed policy config.workers) (own : policy.orchestratorId = config.orchestratorId)
    (granted : grant ∈ policy.grants) (timely : inRange now) (member : endpoint ∈ config.workers)
    (agent : endpoint.workerAgentId = grant.workerAgentId) (held : endpoint.tool ∈ grant.tools) :
    Orchestrator.route config ⟨grant.subject, jobId, policy, now⟩ = .ok endpoint := by
  have found := Assoc.find?_key staffed.distinct member agent
  unfold Orchestrator.route
  rw [if_neg (not_not.mpr timely)]
  dsimp only
  rw [if_neg (not_not.mpr own), grantFor_subject granted]
  dsimp only
  rw [found]
  exact if_neg (not_not.mpr held)

variable {gateway : Gateway} {durable : Bool} {config : Config}

theorem orchestratorOf_eq_ok :
    orchestratorOf repr makeRunner policy gateway durable workers = .ok config ↔
      ∃ endpoints, workers.mapM (endpointOf repr makeRunner policy) = .ok endpoints ∧
        isInstanceId policy.orchestratorId = true ∧ endpoints ≠ [] ∧
        (endpoints.map WorkerEndpoint.workerAgentId).Nodup ∧
        config = ⟨policy.orchestratorId, gateway, 0, endpoints, !durable, !durable, durable⟩ := by
  unfold orchestratorOf
  simp only [bind_eq_ok, Config.new_eq_ok, true_and]

/-- The start-up checks together staff the policy, when there is a worker for every allowed
tool. -/
theorem staffed_of_started
    (covered : ∀ tool ∈ policy.allowedTools, ∃ worker ∈ workers, ∃ runner,
      makeRunner worker = .ok (some runner) ∧ runner.tool = tool)
    (registered : workers.mapM (endpointOf repr makeRunner policy) = .ok endpoints)
    (distinct : (endpoints.map WorkerEndpoint.workerAgentId).Nodup) :
    Staffed policy endpoints where
  named := by
    intro endpoint member grant granted held
    obtain ⟨worker, _, own⟩ := Assoc.exists_left_of_mem (mapM_endpointOf.mp registered) member
    obtain ⟨runner, _, _, sole, _, same⟩ := endpointOf_eq_ok.mp own
    have named := mem_agents.mpr ⟨grant, granted, same ▸ held, rfl⟩
    rw [sole] at named
    exact List.mem_singleton.mp named
  covered := by
    intro grant granted tool held
    obtain ⟨worker, employed, runner, made, implements⟩ :=
      covered tool ((policy.grants_allowed grant granted).1 held)
    obtain ⟨endpoint, member, own⟩ :=
      Assoc.exists_right_of_mem (mapM_endpointOf.mp registered) employed
    obtain ⟨other, answered, _, _, _, same⟩ := endpointOf_eq_ok.mp own
    obtain rfl := Option.some.inj (Except.ok.inj (made.symm.trans answered))
    exact ⟨endpoint, member, same.trans implements⟩
  distinct := distinct

/-- Another order of workers and grants starts as well, with the same endpoints in another
order. -/
theorem started_of_perm (workers_perm : workers.Perm shuffled)
    (grants_perm : policy.grants.Perm reordered.grants)
    (own : reordered.orchestratorId = policy.orchestratorId)
    (started : orchestratorOf repr makeRunner policy gateway durable workers = .ok config) :
    ∃ other, orchestratorOf repr makeRunner reordered gateway durable shuffled = .ok other ∧
      other.orchestratorId = config.orchestratorId ∧ other.workers.Perm config.workers := by
  obtain ⟨endpoints, registered, valid, nonempty, distinct, rfl⟩ := orchestratorOf_eq_ok.mp started
  obtain ⟨moved, all, perm⟩ :=
    List.perm_comp_forall₂ workers_perm.symm (mapM_endpointOf.mp registered)
  have again : shuffled.mapM (endpointOf repr makeRunner reordered) = .ok moved := by
    apply mapM_endpointOf.mpr
    refine all.imp fun worker endpoint own => ?_
    obtain ⟨runner, made, checked, sole, rest⟩ := endpointOf_eq_ok.mp own
    exact endpointOf_eq_ok.mpr
      ⟨runner, made, checked, agents_of_perm grants_perm.symm sole, rest⟩
  refine ⟨_, orchestratorOf_eq_ok.mpr ⟨moved, again, own.symm ▸ valid, ?_, ?_, rfl⟩, own, perm⟩
  · intro empty
    rw [empty, List.nil_perm] at perm
    exact nonempty perm
  · exact (perm.map _).nodup_iff.mpr distinct

end Started

theorem tool_of_builtin {tool : Str} {worker : Builtin}
    (known : builtinWorkers.lookup tool = some worker) : worker.tool = tool := by
  have member := Assoc.mem_of_lookup known
  obtain ⟨listed, _, same⟩ := List.mem_map.mp member
  obtain ⟨named, rfl⟩ := Prod.mk.inj same
  exact named

/-- A configuration has a worker for every allowed tool. -/
theorem covered_of_configured {plain : Str → String} {policy : Policy} {workers : List Builtin}
    (configured : configuredWorkers plain policy = .ok workers) :
    ∀ tool ∈ policy.allowedTools, ∃ worker ∈ workers, worker.tool = tool := by
  intro tool allowed
  obtain ⟨complete, same⟩ := guarded_eq_ok.mp configured
  rw [not_not] at complete
  cases known : builtinWorkers.lookup tool with
  | none =>
      have absent : (builtinWorkers.lookup tool).isNone = true := known ▸ rfl
      exact (List.filter_eq_nil_iff.mp complete tool allowed absent).elim
  | some worker =>
      refine ⟨worker, ?_, tool_of_builtin known⟩
      rw [← Except.ok.inj same]
      exact List.mem_filterMap.mpr ⟨tool, allowed, known⟩

/-- A service that starts with a worker for every allowed tool routes every subject that has
a grant, at any time in range, to the one endpoint under the agent of the grant, whose tool
is granted. Another order of workers and grants changes nothing. -/
theorem started_service_routes {Worker : Type} {repr : Str → String}
    {makeRunner : Worker → Outcome (Option Runner)} {policy : Policy} {gateway : Gateway}
    {durable : Bool} {workers : List Worker} {config : Config}
    (started : orchestratorOf repr makeRunner policy gateway durable workers = .ok config)
    (covered : ∀ tool ∈ policy.allowedTools, ∃ worker ∈ workers, ∃ runner,
      makeRunner worker = .ok (some runner) ∧ runner.tool = tool)
    {grant : Grant} (granted : grant ∈ policy.grants) {now : Int} (timely : inRange now)
    (jobId : Str) :
    ∃ endpoint, route config ⟨grant.subject, jobId, policy, now⟩ = .ok endpoint ∧
      endpoint ∈ config.workers ∧ endpoint.workerAgentId = grant.workerAgentId ∧
      (∀ other ∈ config.workers, other.workerAgentId = grant.workerAgentId → other = endpoint) ∧
      endpoint.tool ∈ grant.tools ∧
      ∀ (shuffled : List Worker) (reordered : Policy), workers.Perm shuffled →
        policy.grants.Perm reordered.grants → reordered.orchestratorId = policy.orchestratorId →
          ∃ other, orchestratorOf repr makeRunner reordered gateway durable shuffled = .ok other ∧
            route other ⟨grant.subject, jobId, reordered, now⟩ = .ok endpoint := by
  obtain ⟨endpoints, registered, _, _, distinct, rfl⟩ := orchestratorOf_eq_ok.mp started
  have staffed := staffed_of_started covered registered distinct
  obtain ⟨endpoint, member, agent, held⟩ := staffed.exists_endpoint granted
  refine ⟨endpoint, staffed.route rfl granted timely member agent held, member, agent,
    fun other present same => staffed.unique member present (same.trans agent.symm), held, ?_⟩
  intro shuffled reordered workers_perm grants_perm own
  obtain ⟨other, begun, named, perm⟩ := started_of_perm workers_perm grants_perm own started
  refine ⟨other, begun, ?_⟩
  have again : Staffed reordered other.workers := {
    named := fun endpoint present grant granted =>
      staffed.named endpoint (perm.mem_iff.mp present) grant (grants_perm.mem_iff.mpr granted)
    covered := fun grant granted tool held => by
      obtain ⟨endpoint, present, same⟩ :=
        staffed.covered grant (grants_perm.mem_iff.mpr granted) tool held
      exact ⟨endpoint, perm.mem_iff.mpr present, same⟩
    distinct := (perm.map _).nodup_iff.mpr distinct }
  exact again.route (own.trans named.symm) (grants_perm.mem_iff.mp granted) timely
    (perm.mem_iff.mpr member) agent held

/-- The runner of a built-in worker. -/
def builtinRunner (worker : Builtin) : Outcome (Option Runner) := .ok (some ⟨worker.tool, .ok ()⟩)

theorem started_service_routes_demo : ∃ config endpoint,
    orchestratorOf (fun _ => "") builtinRunner (demoPolicy false) demoGateway true
      [.deterministicSummarizer] = .ok config ∧
    route config ⟨str "subject-demo", str "job-demo", demoPolicy false, 100⟩ = .ok endpoint ∧
      endpoint.workerAgentId = str "worker-demo" := by
  have configured : configuredWorkers (fun _ => "") (demoPolicy false) =
      .ok [.deterministicSummarizer] := rfl
  have started : orchestratorOf (fun _ => "") builtinRunner (demoPolicy false) demoGateway true
      [.deterministicSummarizer] = .ok ⟨str "orchestrator-demo", demoGateway, 0,
        [⟨str "worker-demo", str "summarize"⟩], false, false, true⟩ := by rfl
  obtain ⟨endpoint, routed, _, agent, _⟩ := started_service_routes started
    (fun tool allowed => by
      obtain ⟨worker, employed, same⟩ := covered_of_configured configured tool allowed
      exact ⟨worker, employed, _, rfl, same⟩)
    (List.mem_singleton_self (demoGrant false)) (show inRange 100 by decide) (str "job-demo")
  exact ⟨_, endpoint, started, routed, agent⟩

end Wiring

end GeniusNew
