import GeniusNew.HttpEntry.Entry

/-! # What a request can reach

A request that no registered key authenticates is answered from what it shares with any
other such request, and reaches neither a budget nor a callback. A submission carries a
registered subject, an id minted for it and the text of the body.
-/

namespace GeniusNew.HttpEntry

open Json

/-- Whether the body is larger than the entry takes. -/
def Entry.oversized (entry : Entry) (body : Option Bytes) : Bool :=
  body.any fun body => body.length > entry.maxBodyBytes

/-- What the answer to a stranger depends on. -/
structure Agree (lower : Str → Str) (entry : Entry) (one other : Request)
    (headers otherHeaders : List (Str × Option Str)) : Prop where
  method : one.method = other.method
  path : one.path = other.path
  bodyType : one.body.isSome = other.body.isSome
  bodySize : entry.oversized one.body = entry.oversized other.body
  contentType : acceptedType (header lower headers "content-type") =
    acceptedType (header lower otherHeaders "content-type")

/-- The header of a request that names its key. -/
def Request.authorization (lower : Str → Str) (request : Request) : Option Str :=
  request.headers.bind fun headers => header lower headers "authorization"

section Strangers

variable {lower : Str → Str} {interpreter : Interpreter} {entry : Entry} {callbacks : Callbacks}
  {request : Request} {headers : List (Str × Option Str)}

theorem refusedEarly_congr {method path : Str} {body other : Option Bytes}
    (typed : body.isSome = other.isSome) (sized : entry.oversized body = entry.oversized other) :
    entry.refusedEarly method path body = entry.refusedEarly method path other := by
  unfold Entry.refusedEarly
  cases body with
  | none =>
      cases other with
      | none => rfl
      | some other => cases typed
  | some body =>
      cases other with
      | none => cases typed
      | some other =>
          have same : (body.length > entry.maxBodyBytes) = (other.length > entry.maxBodyBytes) := by
            simpa [Entry.oversized] using sized
          simp only [same]

/-- How a request that no key authenticates is answered. -/
theorem handle_of_unresolved (mapping : request.headers = some headers)
    (unresolved : entry.principal (header lower headers "authorization") = none) :
    entry.handle callbacks lower interpreter request = entry.answer
      (match request.method, request.path with
      | some method, some path =>
          (entry.refusedEarly method path request.body).getD
            (if acceptedType (header lower headers "content-type") then
              refusal 401 .unauthenticated else refusal 415 .unsupportedMediaType)
      | _, _ => refusal 400 .malformedRequest) := by
  unfold Entry.handle
  rw [mapping]
  cases request.method with
  | none => rfl
  | some method =>
      cases request.path with
      | none => rfl
      | some path =>
          dsimp only
          cases entry.refusedEarly method path request.body with
          | some response => rfl
          | none =>
              rw [unresolved]
              by_cases typed : acceptedType (header lower headers "content-type") = true
              · simp only [typed, if_true, Option.getD_none]
              · simp only [typed, Bool.false_eq_true, if_false, Option.getD_none]

theorem handle_strangers {other : Request} {otherHeaders : List (Str × Option Str)}
    {otherCallbacks : Callbacks} (mapping : request.headers = some headers)
    (otherMapping : other.headers = some otherHeaders)
    (unresolved : entry.principal (header lower headers "authorization") = none)
    (otherUnresolved : entry.principal (header lower otherHeaders "authorization") = none)
    (agree : Agree lower entry request other headers otherHeaders) :
    ∃ response, entry.handle callbacks lower interpreter request = entry.answer response ∧
      entry.handle otherCallbacks lower interpreter other = entry.answer response := by
  rw [handle_of_unresolved mapping unresolved, handle_of_unresolved otherMapping otherUnresolved,
    ← agree.method, ← agree.path, ← agree.contentType]
  refine ⟨_, rfl, ?_⟩
  cases request.method with
  | none => rfl
  | some method =>
      cases request.path with
      | none => rfl
      | some path =>
          dsimp only
          rw [refusedEarly_congr agree.bodyType agree.bodySize]

end Strangers

/-- What a handled request that submitted something did, for the principal and the text
that its headers and its body stand for. -/
structure Submitted (callbacks : Callbacks) (principal : Principal) (text : Str)
    (arguments : Submission) (events : List Event) : Prop where
  minted : callbacks.jobIds = .ok (some arguments.jobId)
  named : arguments.jobId ≠ []
  subject : arguments.subject = principal.subject
  payload : arguments.payload = [(str "text", text)]
  order : events = [.mintedId, .acquired, .submitted arguments, .released]

section Submissions

variable {lower : Str → Str} {interpreter : Interpreter} {entry : Entry} {callbacks : Callbacks}
  {principal : Principal} {body : Bytes} {jobId : Str} {arguments : Submission}

theorem target_of_call {target : Event} {outcome : Outcome Returned} {minted : Str}
    (submitted : .submitted arguments ∈ (entry.call target outcome minted).events) :
    target = .submitted arguments ∧
      (entry.call target outcome minted).events = [.acquired, .submitted arguments, .released] := by
  have used : (entry.call target outcome minted).events = [] ∨
      (entry.call target outcome minted).events = [.acquired, target, .released] := by
    unfold Entry.call
    by_cases busy : entry.available = 0
    · rw [if_pos busy]
      exact .inl rfl
    · rw [if_neg busy]
      right
      split <;> rfl
  rcases used with none_ | used
  · rw [none_] at submitted
    cases submitted
  · rw [used] at submitted ⊢
    have same : target = .submitted arguments := by simpa [eq_comm] using submitted
    exact ⟨same, by rw [same]⟩

theorem submitted_of_dispatch {text : Str}
    (submitted : .submitted arguments ∈ (entry.dispatch callbacks principal text).events) :
    Submitted callbacks principal text arguments
      (entry.dispatch callbacks principal text).events := by
  unfold Entry.dispatch at submitted ⊢
  dsimp only at submitted ⊢
  have later := (List.mem_cons.mp submitted).resolve_left (by simp)
  clear submitted
  split at later
  case h_1 => cases later
  case h_2 => cases later
  case h_3 => cases later
  case h_4 jobId unnamed minted =>
    obtain ⟨same, used⟩ := target_of_call later
    obtain rfl := Event.submitted.inj same
    exact ⟨minted, unnamed, rfl, rfl, congrArg (.mintedId :: ·) used⟩

theorem not_submitted_of_approve {token : Option Str} : .submitted arguments ∉
    (entry.approve callbacks interpreter principal jobId body token).events := by
  intro submitted
  unfold Entry.approve at submitted
  split_ifs at submitted with empty
  · cases token with
    | none => cases submitted
    | some token =>
        dsimp only at submitted
        split_ifs at submitted with hexadecimal
        · cases (target_of_call submitted).1
        · cases submitted
  · cases submitted

theorem not_submitted_of_grant : .submitted arguments ∉
    (entry.grant callbacks interpreter principal jobId body).events := by
  intro submitted
  unfold Entry.grant at submitted
  split_ifs at submitted with empty
  · cases (target_of_call submitted).1
  · cases submitted

theorem submitted_of_serve {path : Str} {token : Option Str}
    (submitted : .submitted arguments ∈
      (entry.serve callbacks interpreter principal path token body).events) :
    ∃ text, payload interpreter body = some text ∧ Submitted callbacks principal text arguments
      (entry.serve callbacks interpreter principal path token body).events := by
  unfold Entry.serve at submitted ⊢
  cases granting : grantPath path with
  | some jobId =>
      rw [granting] at submitted
      exact (not_submitted_of_grant submitted).elim
  | none =>
      cases approving : approvePath path with
      | some jobId =>
          rw [granting, approving] at submitted
          exact (not_submitted_of_approve submitted).elim
      | none =>
          cases read : payload interpreter body with
          | none =>
              rw [granting, approving, read] at submitted
              cases submitted
          | some text =>
              rw [granting, approving, read] at submitted
              exact ⟨text, rfl, submitted_of_dispatch submitted⟩

theorem body_of_refusedEarly {method path : Str} {body : Option Bytes}
    (passed : entry.refusedEarly method path body = none) : ∃ data, body = some data := by
  cases body with
  | some data => exact ⟨data, rfl⟩
  | none =>
      unfold Entry.refusedEarly at passed
      split_ifs at passed

/-- A request is answered at once or served for the principal its key resolves to. -/
theorem handle_cases (request : Request) :
    (∃ (after : Entry) (response : Response),
      entry.handle callbacks lower interpreter request = after.answer response) ∨
      ∃ principal path token body buckets, request.body = some body ∧
        entry.principal (request.authorization lower) = some principal ∧
        entry.handle callbacks lower interpreter request =
          { entry with buckets := buckets }.serve callbacks interpreter principal path token body := by
  unfold Entry.handle
  split
  case h_2 => exact .inl ⟨_, _, rfl⟩
  case h_1 method path headers _ _ mapping =>
    cases early : entry.refusedEarly method path request.body with
    | some response => exact .inl ⟨_, _, rfl⟩
    | none =>
        dsimp only
        split_ifs with typed
        · cases resolved : entry.principal (header lower headers "authorization") with
          | none => exact .inl ⟨_, _, rfl⟩
          | some principal =>
              dsimp only
              split_ifs with granted
              · obtain ⟨body, given⟩ := body_of_refusedEarly early
                refine .inr ⟨principal, path, header lower headers "x-approval-token", body, _,
                  given, ?_, by rw [given]; rfl⟩
                rw [Request.authorization, mapping]
                exact resolved
              · exact .inl ⟨_, _, rfl⟩
        · exact .inl ⟨_, _, rfl⟩

/-- A submission is made for the principal of the request's key with the text of its
body, right after the id was minted for it. -/
theorem submitted_of_handle {request : Request}
    (submitted : .submitted arguments ∈
      (entry.handle callbacks lower interpreter request).events) :
    ∃ principal text body, request.body = some body ∧
      entry.principal (request.authorization lower) = some principal ∧
      payload interpreter body = some text ∧
      Submitted callbacks principal text arguments
        (entry.handle callbacks lower interpreter request).events := by
  obtain ⟨after, response, same⟩ | served :=
    @handle_cases lower interpreter entry callbacks request
  · rw [same] at submitted
    cases submitted
  · obtain ⟨principal, path, token, body, buckets, given, resolved, same⟩ := served
    rw [same] at submitted ⊢
    obtain ⟨text, read, made⟩ := submitted_of_serve submitted
    exact ⟨principal, text, body, given, resolved, read, made⟩

theorem mem_subjects_of_principal {authorization : Option Str}
    (resolved : entry.principal authorization = some principal) :
    principal.subject ∈ entry.registry.subjects := by
  unfold Entry.principal at resolved
  split at resolved
  case h_2 => cases resolved
  case h_1 authorization =>
    dsimp only at resolved
    split_ifs at resolved
    obtain ⟨data, -, found⟩ := Option.bind_eq_some_iff.mp resolved
    obtain ⟨_, -, -, held⟩ := PrincipalRegistry.resolve_eq_some.mp found
    exact List.mem_map.mpr ⟨_, Assoc.mem_of_lookup held, rfl⟩

end Submissions

/-- Requests that no registered key authenticates learn nothing and change nothing. Two
that agree on what is public get one response, the entry stays as it is and no callback
is made. Whatever a request is, a submission carries a registered subject, an id minted
right before it and the text alone, and of the request it depends on nothing but its key
and its body. -/
theorem handle_confined (lower : Str → Str) (interpreter : Interpreter) (entry : Entry) :
    (∀ one other headers otherHeaders callbacks otherCallbacks, one.headers = some headers →
      other.headers = some otherHeaders →
      entry.principal (header lower headers "authorization") = none →
      entry.principal (header lower otherHeaders "authorization") = none →
      Agree lower entry one other headers otherHeaders →
        ∃ response, entry.handle callbacks lower interpreter one = ⟨.ok response, entry, []⟩ ∧
          entry.handle otherCallbacks lower interpreter other = ⟨.ok response, entry, []⟩) ∧
    (∀ request callbacks arguments,
      .submitted arguments ∈ (entry.handle callbacks lower interpreter request).events →
        ∃ jobId text, arguments.subject ∈ entry.registry.subjects ∧
          callbacks.jobIds = .ok (some jobId) ∧ arguments.jobId = jobId ∧ jobId ≠ [] ∧
          arguments.payload = [(str "text", text)] ∧
          (entry.handle callbacks lower interpreter request).events =
            [.mintedId, .acquired, .submitted arguments, .released]) ∧
    ∀ (later : Entry) one other callbacks otherCallbacks arguments otherArguments,
      .submitted arguments ∈ (entry.handle callbacks lower interpreter one).events →
      .submitted otherArguments ∈ (later.handle otherCallbacks lower interpreter other).events →
      entry.principal (one.authorization lower) = later.principal (other.authorization lower) →
      one.body = other.body → callbacks.jobIds = otherCallbacks.jobIds →
        arguments = otherArguments := by
  refine ⟨?_, ?_, ?_⟩
  · intro one other headers otherHeaders callbacks otherCallbacks mapping otherMapping unresolved
      otherUnresolved agree
    exact handle_strangers mapping otherMapping unresolved otherUnresolved agree
  · intro request callbacks arguments submitted
    obtain ⟨principal, text, body, -, resolved, -, made⟩ := submitted_of_handle submitted
    refine ⟨arguments.jobId, text, ?_, made.minted, rfl, made.named, made.payload, made.order⟩
    rw [made.subject]
    exact mem_subjects_of_principal resolved
  · intro later one other callbacks otherCallbacks arguments otherArguments submitted
      otherSubmitted principals bodies ids
    obtain ⟨principal, text, body, given, resolved, read, made⟩ := submitted_of_handle submitted
    obtain ⟨principal', text', body', given', resolved', read', made'⟩ :=
      submitted_of_handle otherSubmitted
    obtain rfl : body = body' := Option.some.inj (given.symm.trans (bodies.trans given'))
    obtain rfl : text = text' := Option.some.inj (read.symm.trans read')
    obtain rfl : principal = principal' :=
      Option.some.inj (resolved.symm.trans (principals.trans resolved'))
    have minted := made.minted.symm.trans (ids.trans made'.minted)
    obtain ⟨subject, jobId, payload⟩ := arguments
    obtain ⟨subject', jobId', payload'⟩ := otherArguments
    obtain rfl : subject = subject' := made.subject.trans made'.subject.symm
    obtain rfl : jobId = jobId' := Option.some.inj (Except.ok.inj minted)
    obtain rfl : payload = payload' := made.payload.trans made'.payload.symm
    rfl

end GeniusNew.HttpEntry
