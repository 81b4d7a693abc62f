import GeniusNew.WorkerService.Messages
import GeniusNew.WorkerService.Transport

/-! # One exchange with the worker

`CoreExchange.run` greets the worker, binds the process that answered to a
running invocation, sends the one request and takes the one result. What it
returns is all there was on the stream: a READY frame, a RESULT frame that names
the request's digest, and the end.
-/

namespace GeniusNew

open Json Raising

namespace WorkerService

/-- What an exchange is given and what it meets apart from the stream: the
outcome of `lifecycle.bind`, whether the worker has exited by then, and whether
the request's end can be sent. -/
structure Encounter where
  payload : List (Str × Value)
  nonce : Str
  bind : Outcome Invocation
  exited : Except String Bool
  shutdown : Bool

namespace CoreExchange

/-- A connection before its first frame. -/
def start (uid gid : Int) (incoming : Bytes) (deliveries : List Delivery)
    (sendings : List Sending) : CoreExchange where
  incoming
  deliveries
  sendings
  sent := []
  identity := ⟨uid, gid, none, none⟩
  invocation := none
  log := []

/-- `self.invocation = self.lifecycle.bind(...)`. -/
def bind (bound : Outcome Invocation) : Core Unit := do
  let invocation ← .ofExcept bound
  modify fun exchange => { exchange with
    invocation := some invocation, log := exchange.log ++ [.bound invocation] }

/-- `_CoreExchange.run` before the bind: READY is authenticated. -/
def greet (interpreter : Interpreter) (encounter : Encounter) : Core Unit := do
  let _ ← writeFrame interpreter (hello encounter.nonce) helloLimit
  let ready ← readFrame interpreter helloLimit
  .ofExcept (validateReady ready encounter.nonce)
  let exchange ← get
  if exchange.identity.pid = none ∨ exchange.identity.pidfd = none then
    refuse "worker READY has no bound process"
  else return ()

/-- `_CoreExchange.run` after the bind. -/
def work (interpreter : Interpreter) (encounter : Encounter) : Core Answer := do
  let exited ← .ofExcept (Probe.answer encounter.exited)
  if exited then refuse "worker exited before receiving payload"
  else do
    let request ← .ofExcept (request encounter.payload encounter.nonce)
    let wire ← writeFrame interpreter request payloadLimit
    if encounter.shutdown then refuse "worker request end cannot be sent"
    else do
      let result ← readFrame interpreter payloadLimit
      expectEof
      .ofExcept (validateResult result encounter.nonce (sha256 wire))

/-- `_CoreExchange.run`. -/
def run (interpreter : Interpreter) (encounter : Encounter) : Core Answer := do
  greet interpreter encounter
  bind encounter.bind
  work interpreter encounter

end CoreExchange

/-- The log of an exchange that began without one: descriptors that came with a
delivery were closed, and the invocation that is set was bound. -/
structure Traced (start finish : CoreExchange) : Prop where
  events : ∀ event ∈ finish.log,
    (∃ fd, event = .closed fd ∧ ∃ delivery ∈ start.deliveries, fd ∈ delivery.descriptors) ∨
      ∃ invocation, event = .bound invocation ∧ finish.invocation = some invocation
  bound : ∀ invocation, finish.invocation = some invocation → .bound invocation ∈ finish.log
  deliveries : finish.deliveries ⊆ start.deliveries

namespace Traced

variable {start middle finish : CoreExchange}

theorem initial (unbound : start.invocation = none) (silent : start.log = []) :
    Traced start start where
  events event member := by
    rw [silent] at member
    exact nomatch member
  bound invocation bound := by
    rw [unbound] at bound
    exact nomatch bound
  deliveries := List.Subset.refl _

theorem keeps (traced : Traced start middle) (keeps : Keeps middle finish) :
    Traced start finish where
  events event member := by
    obtain ⟨fds, logged, came⟩ := keeps.log
    rw [logged] at member
    rw [keeps.invocation]
    rcases List.mem_append.mp member with old | new
    · exact traced.events event old
    · obtain ⟨fd, inside, rfl⟩ := List.mem_map.mp new
      obtain ⟨delivery, present, carried⟩ := came fd inside
      exact .inl ⟨fd, rfl, delivery, traced.deliveries present, carried⟩
  bound invocation bound := by
    obtain ⟨fds, logged, _⟩ := keeps.log
    rw [keeps.invocation] at bound
    rw [logged]
    exact List.mem_append_left _ (traced.bound invocation bound)
  deliveries := List.Subset.trans keeps.deliveries traced.deliveries

theorem binds (traced : Traced start middle) (unbound : middle.invocation = none)
    (invocation : Invocation) : Traced start { middle with
      invocation := some invocation, log := middle.log ++ [.bound invocation] } where
  events event member := by
    rcases List.mem_append.mp member with old | new
    · rcases traced.events event old with closed | ⟨other, _, bound⟩
      · exact .inl closed
      · rw [unbound] at bound
        exact nomatch bound
    · exact .inr ⟨invocation, List.mem_singleton.mp new, rfl⟩
  bound other bound := by
    obtain rfl := Option.some.inj bound
    exact List.mem_append_right _ List.mem_cons_self
  deliveries := traced.deliveries

end Traced

section Exchange

variable {interpreter : Interpreter} {encounter : Encounter}

theorem depth_hello (nonce : Str) : (hello nonce).depth ≤ interpreter.recursionLimit := by
  have deep := interpreter.recursionLimit_sufficient
  simp only [hello, Value.depth, Value.depthFields]
  omega

theorem request_eq_ok {payload : List (Str × Value)} {nonce : Str} {message : Value} :
    request payload nonce = .ok message ↔ hasKeys payload [str "text"] = true ∧
      ∃ text, payload.lookup (str "text") = some (.str text) ∧
        message = requestMessage text nonce := by
  rw [request, guard_eq_ok]
  refine and_congr_right fun _ => ?_
  split
  · next text found =>
    rw [found]
    constructor
    · exact fun same => ⟨text, rfl, (Except.ok.inj same).symm⟩
    · rintro ⟨other, same, rfl⟩
      cases same
      rfl
  · next other =>
    refine ⟨fun absurd => (fail_ne_ok absurd).elim, ?_⟩
    rintro ⟨text, found, _⟩
    exact (other text found).elim

theorem depth_requestMessage (text nonce : Str) :
    (requestMessage text nonce).depth ≤ interpreter.recursionLimit := by
  have deep := interpreter.recursionLimit_sufficient
  simp only [requestMessage, requestFields, IsolationLimits.toDict, IsolationLimits.fields,
    IsolationLimits.default, Number.toValue, Value.depth, Value.depthFields]
  omega

theorem contained_request (payload : List (Str × Value)) (nonce : Str) :
    Contained some (request payload nonce) := by
  unfold request
  rw [contained_ite]
  refine ⟨fun _ => ?_, fun _ => contained_fail _⟩
  split
  · exact contained_ok _
  · exact contained_fail _

theorem contained_validateResult (fields : List (Str × Value)) (nonce : Str) (digest : Digest) :
    Contained some (validateResult fields nonce digest) := by
  unfold validateResult
  simp only [contained_ite]
  refine ⟨fun _ => contained_fail _, fun _ => ⟨fun _ => ?_, fun _ => ⟨fun _ => ?_,
    fun _ => contained_fail _⟩⟩⟩
  · split
    · rw [contained_ite]
      refine ⟨fun _ => ?_, fun _ => contained_fail _⟩
      split
      · exact contained_ok _
      · exact contained_fail _
    · exact contained_fail _
  · split
    · split
      · exact contained_ok _
      · exact contained_fail _
    · exact contained_fail _

/-- What an exchange has read when READY passed: the stream began with it. -/
def Greeted (interpreter : Interpreter) (nonce : Str) (start finish : CoreExchange) : Prop :=
  ∃ raw fields, raw.length ≤ helloLimit ∧ start.incoming = frameBytes raw ++ finish.incoming ∧
    decodeFrame interpreter "worker frame" raw = .ok fields ∧ validateReady fields nonce = .ok ()

theorem greet_ensures {start : CoreExchange} (unbound : start.invocation = none)
    (silent : start.log = []) :
    Ensures (· = start) (CoreExchange.greet interpreter encounter)
      (fun _ finish => Traced start finish ∧ finish.invocation = none ∧
        Greeted interpreter encounter.nonce start finish)
      (fun _ finish => Traced start finish ∧ finish.invocation = none) := by
  have kept {finish : CoreExchange} (keeps : Keeps start finish) :
      Traced start finish ∧ finish.invocation = none :=
    ⟨(Traced.initial unbound silent).keeps keeps, keeps.invocation.trans unbound⟩
  refine .bind ((writeFrame_ensures start (depth_hello _) helloLimit).weaken (fun _ same => same)
    (fun _ _ post => post) fun _ _ post => kept post.1) fun greeting => ?_
  refine .each fun middle ⟨wrote, front, _⟩ => ?_
  refine .bind ((readFrame_ensures middle helloLimit).weaken (fun _ same => same)
    (fun _ _ post => post) fun _ _ post => kept (wrote.trans post.1)) fun fields => ?_
  refine .ofExcept_bind (fun _ _ _ post => kept (wrote.trans post.1)) fun _ valid => ?_
  refine .get_bind fun exchange => .ite (fun _ => .throw fun finish ⟨reads, _⟩ =>
    kept (wrote.trans reads)) fun _ => .pure ?_
  rintro finish ⟨reads, raw, bounded, _, back, decoded⟩
  obtain ⟨traced, unbound⟩ := kept (wrote.trans reads)
  exact ⟨traced, unbound, raw, fields, bounded, front ▸ back, decoded, valid⟩

/-- What an exchange has read when it returned an answer: one RESULT frame for the
request it wrote, and the end. -/
def Answered (interpreter : Interpreter) (encounter : Encounter) (incoming : Bytes)
    (answer : Answer) : Prop :=
  ∃ raw fields message wire, raw.length ≤ payloadLimit ∧ incoming = frameBytes raw ∧
    decodeFrame interpreter "worker frame" raw = .ok fields ∧
    request encounter.payload encounter.nonce = .ok message ∧
    canonical interpreter message = .ok wire ∧
    validateResult fields encounter.nonce (sha256 wire) = .ok answer

/-- After the bind only an illegible frame raises anything but a refusal. -/
theorem work_ensures (start : CoreExchange) :
    Ensures (· = start) (CoreExchange.work interpreter encounter)
      (fun answer finish => Keeps start finish ∧
        Answered interpreter encounter start.incoming answer)
      (fun raised finish => Keeps start finish ∧ (raised.IsRefusal ∨ ∃ raw rest,
        raw.length ≤ payloadLimit ∧ start.incoming = frameBytes raw ++ rest ∧
        legible interpreter raw = false)) := by
  refine .ofExcept_bind ?_ fun exited _ => ?_
  · rintro raised finish failed rfl
    exact ⟨.refl _, .inl (isRefusal_of_contained (contained_answer _) failed)⟩
  refine .ite (fun _ => .throw fun finish same => same ▸ ⟨.refl _, .inl ⟨_, rfl⟩⟩) fun _ => ?_
  refine .ofExcept_bind ?_ fun message made => ?_
  · rintro raised finish failed rfl
    exact ⟨.refl _, .inl (isRefusal_of_contained (contained_request _ _) failed)⟩
  obtain ⟨_, text, _, rfl⟩ := request_eq_ok.mp made
  refine .bind ((writeFrame_ensures start (depth_requestMessage _ _) payloadLimit).weaken
    (fun _ same => same) (fun _ _ post => post) fun _ _ post => ⟨post.1, .inl post.2⟩) fun wire => ?_
  refine .ite (fun _ => .throw fun finish post => ⟨post.1, .inl ⟨_, rfl⟩⟩) fun _ => ?_
  refine .each fun asked ⟨wrote, front, printed, _⟩ => ?_
  refine .bind ((readFrame_ensures asked payloadLimit).weaken (fun _ same => same)
    (fun _ _ post => post) ?_) fun fields => ?_
  · rintro raised finish ⟨reads, refused | ⟨raw, bounded, back, illegible⟩⟩
    · exact ⟨wrote.trans reads, .inl refused⟩
    · exact ⟨wrote.trans reads, .inr ⟨raw, finish.incoming, bounded, front ▸ back, illegible⟩⟩
  refine .each fun taken ⟨reads, raw, bounded, _, back, decoded⟩ => ?_
  refine .bind ((expectEof_ensures taken).weaken (fun _ same => same) (fun _ _ post => post)
    fun _ _ post => ⟨(wrote.trans reads).trans post.1, .inl post.2⟩) fun _ => ?_
  refine .ofExcept (fun answer finish valid ⟨ends, nothing⟩ => ?_)
    fun raised finish failed ⟨ends, _⟩ => ?_
  · refine ⟨(wrote.trans reads).trans ends, raw, fields, _, wire, bounded, ?_, decoded, made,
      printed, valid⟩
    rw [← front, back, nothing, List.append_nil]
  · exact ⟨(wrote.trans reads).trans ends,
      .inl (isRefusal_of_contained (contained_validateResult _ _ _) failed)⟩

theorem bind_ensures {start middle : CoreExchange} {bound : Outcome Invocation}
    (traced : Traced start middle) (unbound : middle.invocation = none) :
    Ensures (· = middle) (CoreExchange.bind bound)
      (fun _ finish => Traced start finish ∧ finish.invocation.isSome = true ∧
        finish.incoming = middle.incoming)
      (fun _ finish => Traced start finish ∧ finish.invocation = none) := by
  refine .ofExcept_bind (fun _ _ _ same => same ▸ ⟨traced, unbound⟩) fun invocation _ => ?_
  refine .modify fun state same => ?_
  subst same
  exact ⟨traced.binds unbound invocation, rfl, rfl⟩

/-- The run of an exchange: what it returns was read off the whole stream, and
once an invocation is bound only an illegible second frame raises anything but a
refusal. -/
theorem run_ensures {start : CoreExchange} (unbound : start.invocation = none)
    (silent : start.log = []) :
    Ensures (· = start) (CoreExchange.run interpreter encounter)
      (fun answer finish => Traced start finish ∧ finish.invocation.isSome = true ∧
        ∃ middle, Greeted interpreter encounter.nonce start middle ∧
          Answered interpreter encounter middle.incoming answer)
      (fun raised finish => Traced start finish ∧ (raised.IsRefusal ∨ finish.invocation = none ∨
        ∃ middle raw rest, Greeted interpreter encounter.nonce start middle ∧
          raw.length ≤ payloadLimit ∧ middle.incoming = frameBytes raw ++ rest ∧
          legible interpreter raw = false)) := by
  refine .bind ((greet_ensures unbound silent).weaken (fun _ same => same) (fun _ _ post => post)
    fun _ _ post => ⟨post.1, .inr (.inl post.2)⟩) fun _ => ?_
  refine .each fun middle ⟨traced, free, greeted⟩ => ?_
  refine .bind ((bind_ensures traced free).weaken (fun _ same => same) (fun _ _ post => post)
    fun _ _ post => ⟨post.1, .inr (.inl post.2)⟩) fun _ => ?_
  refine .each fun ready ⟨tracing, bound, front⟩ => ?_
  refine (work_ensures ready).weaken (fun _ same => same) ?_ ?_
  · rintro answer finish ⟨kept, answered⟩
    refine ⟨tracing.keeps kept, kept.invocation ▸ bound, middle, greeted, ?_⟩
    rwa [← front]
  · rintro raised finish ⟨kept, refused | ⟨raw, rest, bounded, back, illegible⟩⟩
    · exact ⟨tracing.keeps kept, .inl refused⟩
    · exact ⟨tracing.keeps kept, .inr (.inr ⟨middle, raw, rest, greeted, bounded,
        front ▸ back, illegible⟩)⟩

end Exchange

end WorkerService

end GeniusNew
