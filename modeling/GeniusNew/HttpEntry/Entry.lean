import GeniusNew.Audit.Event
import GeniusNew.HttpEntry.Buckets
import GeniusNew.HttpEntry.Registry

/-! # One HTTP request

`HttpEntry.handle` as a function of the entry's state, the request and what the entry's
callbacks answer. An object of a type the entry refuses is `none`; the response comes
with the entry afterwards and with the callbacks and the semaphore as they were used.
`lower` is `str.lower`.
-/

namespace GeniusNew.HttpEntry

open Json

inductive Reason where
  | notFound
  | methodNotAllowed
  | unsupportedMediaType
  | payloadTooLarge
  | malformedRequest
  | unauthenticated
  | tooManyRequests
  | serviceBusy
  | rejected
  | accepted
  deriving DecidableEq

def Reason.text : Reason → Str
  | notFound => str "NOT_FOUND"
  | methodNotAllowed => str "METHOD_NOT_ALLOWED"
  | unsupportedMediaType => str "UNSUPPORTED_MEDIA_TYPE"
  | payloadTooLarge => str "PAYLOAD_TOO_LARGE"
  | malformedRequest => str "MALFORMED_REQUEST"
  | unauthenticated => str "UNAUTHENTICATED"
  | tooManyRequests => str "TOO_MANY_REQUESTS"
  | serviceBusy => str "SERVICE_BUSY"
  | rejected => str "REJECTED"
  | accepted => str "ACCEPTED"

structure Response where
  status : Nat
  reason : Reason
  body : List (Str × Value)

def refusal (status : Nat) (reason : Reason) : Response :=
  ⟨status, reason, [(str "error", .str reason.text)]⟩

structure Entry where
  registry : PrincipalRegistry
  buckets : Buckets
  /-- What the semaphore `_in_flight` still lets through. -/
  available : Nat
  maxBodyBytes : Nat
  completes : Bool
  grantsApproval : Bool

structure Request where
  method : Option Str
  path : Option Str
  /-- The items of the headers, each name as `str(name)` gives it. -/
  headers : Option (List (Str × Option Str))
  body : Option Bytes

structure Submission where
  subject : Str
  jobId : Str
  payload : List (Str × Str)

structure Completing where
  subject : Str
  jobId : Str
  approvalToken : Bytes

structure Granting where
  subject : Str
  jobId : Str

/-- What a callback returns: a mapping, or an object of another type. -/
abbrev Returned := Option (List (Str × Value))

/-- What the clock and the callbacks answer while a request is handled. -/
structure Callbacks where
  now : ℚ
  jobIds : Outcome (Option Str)
  submit : Submission → Outcome Returned
  complete : Completing → Outcome Returned
  grantApproval : Granting → Outcome Returned

inductive Event where
  | mintedId
  | acquired
  | released
  | submitted (arguments : Submission)
  | completed (arguments : Completing)
  | granted (arguments : Granting)

structure Handled where
  response : Outcome Response
  entry : Entry
  events : List Event

/-- A response that nothing else comes of. -/
def Entry.answer (entry : Entry) (response : Response) : Handled := ⟨.ok response, entry, []⟩

def isJobIdChar (c : CodePoint) : Bool :=
  65 ≤ c.val && c.val ≤ 90 || 97 ≤ c.val && c.val ≤ 122 || isDigit c || c = 45

/-- `\A<before>([A-Za-z0-9-]{1,64})<after>\Z`, where `after` starts with a slash. -/
def jobIdBetween (before after path : Str) : Option Str :=
  if before.isPrefixOf path then
    let rest := path.drop before.length
    let jobId := rest.takeWhile isJobIdChar
    if 1 ≤ jobId.length ∧ jobId.length ≤ 64 ∧ rest.dropWhile isJobIdChar = after then some jobId
    else none
  else none

/-- `_APPROVE_PATH`. -/
def approvePath (path : Str) : Option Str := jobIdBetween (str "/jobs/") (str "/approve") path

/-- `_GRANT_PATH`. -/
def grantPath (path : Str) : Option Str := jobIdBetween (str "/approvals/") (str "/grant") path

/-- `text.strip()`. -/
def strip (text : Str) : Str :=
  ((text.dropWhile isWhitespace).reverse.dropWhile isWhitespace).reverse

def acceptedType : Option Str → Bool
  | some contentType => strip (contentType.takeWhile (· ≠ 59)) = str "application/json"
  | none => false

/-- `lowered.get(name)`, where a name that occurs twice has its last value. -/
def header (lower : Str → Str) (headers : List (Str × Option Str)) (name : String) : Option Str :=
  ((collect (headers.map fun item => (lower item.1, item.2))).lookup (str name)).join

def authScheme : Str := str "Bearer "

/-- `_principal`. -/
def Entry.principal (entry : Entry) : Option Str → Option Principal
  | some authorization =>
      if authScheme.isPrefixOf authorization then
        let presented := authorization.drop authScheme.length
        if presented.isEmpty ∨ presented.length > maxKeyBytes then none
        else (encodeUtf8 presented).bind fun data => entry.registry.resolve (.bytes data)
      else none
  | none => none

/-- `json.loads(body.decode("utf-8"))`, with its errors as none. -/
def loadsBody (interpreter : Interpreter) (body : Bytes) : Option Value :=
  (decodeUtf8 body).bind fun text => (loads interpreter text).toOption

/-- `_payload`: the text of the payload. -/
def payload (interpreter : Interpreter) (body : Bytes) : Option Str :=
  match loadsBody interpreter body with
  | some (.dict fields) =>
      if hasKeys fields [str "text"] then
        match fields.lookup (str "text") with
        | some (.str text) => if text = [] then none else some text
        | _ => none
      else none
  | _ => none

/-- Whether the body is the text of an empty object. -/
def emptyBody (interpreter : Interpreter) (body : Bytes) : Bool :=
  match loadsBody interpreter body with
  | some (.dict []) => true
  | _ => false

namespace Entry

variable (entry : Entry) (callbacks : Callbacks)

/-- `_call`: the arguments and the outcome of the callback are given as well. -/
def call (target : Event) (outcome : Outcome Returned) (minted : Str) : Handled :=
  if entry.available = 0 then entry.answer (refusal 503 .serviceBusy)
  else
    let events := [.acquired, target, .released]
    match outcome with
    | .error (.contractError _) => ⟨.ok (refusal 409 .rejected), entry, events⟩
    | .error raised => ⟨.error raised, entry, events⟩
    | .ok none => ⟨.ok (refusal 500 .rejected), entry, events⟩
    | .ok (some items) =>
        ⟨.ok ⟨202, .accepted, collect ((str "job_id", .str minted) :: items)⟩, entry, events⟩

/-- `_dispatch`. -/
def dispatch (principal : Principal) (text : Str) : Handled :=
  let handled : Handled := match callbacks.jobIds with
    | .error raised => ⟨.error raised, entry, []⟩
    | .ok none => entry.answer (refusal 500 .rejected)
    | .ok (some []) => entry.answer (refusal 500 .rejected)
    | .ok (some jobId) =>
        let arguments : Submission := ⟨principal.subject, jobId, [(str "text", text)]⟩
        entry.call (.submitted arguments) (callbacks.submit arguments) jobId
  { handled with events := .mintedId :: handled.events }

/-- `_approve`. -/
def approve (interpreter : Interpreter) (principal : Principal) (jobId : Str) (body : Bytes)
    (token : Option Str) : Handled :=
  if emptyBody interpreter body then
    match token with
    | some token =>
        if isHexText 64 token then
          let arguments : Completing := ⟨principal.subject, jobId, fromHex token⟩
          entry.call (.completed arguments) (callbacks.complete arguments) jobId
        else entry.answer (refusal 400 .malformedRequest)
    | none => entry.answer (refusal 400 .malformedRequest)
  else entry.answer (refusal 400 .malformedRequest)

/-- `_grant`. -/
def grant (interpreter : Interpreter) (principal : Principal) (jobId : Str) (body : Bytes) :
    Handled :=
  if emptyBody interpreter body then
    let arguments : Granting := ⟨principal.subject, jobId⟩
    entry.call (.granted arguments) (callbacks.grantApproval arguments) jobId
  else entry.answer (refusal 400 .malformedRequest)

/-- What `handle` does for a principal that its budget lets through. -/
def serve (interpreter : Interpreter) (principal : Principal) (path : Str) (token : Option Str)
    (body : Bytes) : Handled :=
  match grantPath path with
  | some jobId => entry.grant callbacks interpreter principal jobId body
  | none =>
      match approvePath path with
      | some jobId => entry.approve callbacks interpreter principal jobId body token
      | none =>
          match payload interpreter body with
          | some text => entry.dispatch callbacks principal text
          | none => entry.answer (refusal 400 .malformedRequest)

/-- What `handle` refuses before it looks at a header. -/
def refusedEarly (method path : Str) (body : Option Bytes) : Option Response :=
  if (approvePath path).isSome ∧ ¬ entry.completes then some (refusal 404 .notFound)
  else if (grantPath path).isSome ∧ ¬ entry.grantsApproval then some (refusal 404 .notFound)
  else if path ≠ str "/jobs" ∧ approvePath path = none ∧ grantPath path = none then
    some (refusal 404 .notFound)
  else if method ≠ str "POST" then some (refusal 405 .methodNotAllowed)
  else match body with
    | none => some (refusal 400 .malformedRequest)
    | some body =>
        if body.length > entry.maxBodyBytes then some (refusal 413 .payloadTooLarge) else none

/-- `HttpEntry.handle`. -/
def handle (lower : Str → Str) (interpreter : Interpreter) (request : Request) : Handled :=
  match request.method, request.path, request.headers with
  | some method, some path, some headers =>
      match entry.refusedEarly method path request.body with
      | some response => entry.answer response
      | none =>
          if acceptedType (header lower headers "content-type") then
            match entry.principal (header lower headers "authorization") with
            | none => entry.answer (refusal 401 .unauthenticated)
            | some principal =>
                let (granted, buckets) := entry.buckets.take principal.subject callbacks.now
                let charged := { entry with buckets := buckets }
                if granted then
                  charged.serve callbacks interpreter principal path
                    (header lower headers "x-approval-token") (request.body.getD [])
                else charged.answer (refusal 429 .tooManyRequests)
          else entry.answer (refusal 415 .unsupportedMediaType)
  | _, _, _ => entry.answer (refusal 400 .malformedRequest)

end Entry

end GeniusNew.HttpEntry
