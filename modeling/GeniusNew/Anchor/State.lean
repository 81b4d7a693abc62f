import GeniusNew.Anchor.Transport
import GeniusNew.Transition.Run

/-! # The anchor's state file

An anchor process with a state file appends every head that moves it before it
answers, and a restarted process resumes from the last line (`load`). `step` is
one event in the life of the file: a start, an answered request whose append
completes or is torn, or the end of the process.
-/

namespace GeniusNew

open Json HashChain Transition

namespace AnchorProcess

def maxStateBytes : Nat := 16 * 1024 * 1024

/-- `_head_line`. -/
def headLine (interpreter : Interpreter) (head : AuditHead) : Outcome Bytes := do
  let data ← canonical interpreter (headDict head)
  return data ++ [10]

def nonceBytes : Nat := 32

/-- A request on its way to a served anchor. -/
def envelope (nonce : Str) (request : Value) : Value :=
  .dict [(str "nonce", .str nonce), (str "request", request)]

/-- `_check_commit_size`: a head with its whole chain is still a request that
fits its frame, and a line for every record up to it a file that loads. -/
def checkCommitSize (interpreter : Interpreter) (head : AuditHead) (items : List Item) :
    Outcome Unit := do
  let request ← commitRequest (some head) items
  let _ ← frame interpreter (envelope (List.replicate (nonceBytes * 2) 48) request) maxRequestBytes
  let line ← headLine interpreter head
  let claimed ← count head.count "head.count"
  if claimed.val * line.length > maxStateBytes then
    fail "anchor state would exceed its restart bound"
  else return ()

/-- The loop of `_load`: each line is a head that verifies and claims more than
the one before it. -/
def loadLines (interpreter : Interpreter) (verifier : AuditVerifier) :
    Option Committed → List Bytes → Outcome (Option Committed)
  | last, [] => .ok last
  | last, line :: lines => do
      let fields ← decode interpreter line "anchor state line"
      let current ← head (.dict fields)
      let claimed ← verifyHead verifier (some current)
      if ∃ before ∈ last, claimed.count ≤ before.count then
        fail "anchor state file does not rise strictly"
      else loadLines interpreter verifier (some claimed) lines

/-- `_load` of a file that is absent or was read. `AuditAnchor.resumed` verifies
the last head once more, with the result it had in the loop. -/
def load (interpreter : Interpreter) (verifier : AuditVerifier) : Option Bytes → Outcome Committed
  | none => .ok .initial
  | some contents =>
      let data := contents.take (maxStateBytes + 1)
      if data.length > maxStateBytes then fail "anchor state file is too large"
      else if data = [] then .ok .initial
      else if data.getLast? ≠ some 10 then fail "anchor state file ends in a torn line"
      else do
        let last ← loadLines interpreter verifier none (data.dropLast.splitOn 10)
        match last with
        | some claimed => return claimed
        | none => fail "head is invalid"

/-- How the write of a line went. -/
inductive Append where
  | completes
  | torn (count : Nat)
  | unopened

/-- `_append`: the file afterwards. -/
def append (file : Option Bytes) (line : Bytes) : Append → Option Bytes
  | .completes => some (file.getD [] ++ line)
  | .torn count => some (file.getD [] ++ line.take count)
  | .unopened => file

/-- `_refusal`. -/
def refusal (message : String) : Value :=
  .dict [(str "kind", .str (str "refused")), (str "message", .str ((str message).take 512))]

/-- What `_answer` leaves behind. Without a reply the process ends. -/
structure Answered where
  reply : Option Value
  state : Committed
  file : Option Bytes

def answer (interpreter : Interpreter) (verifier : AuditVerifier) (message : List (Str × Value))
    (write : Append) (state : Committed) (file : Option Bytes) : Answered :=
  match handle interpreter verifier message state with
  | (.error (.contractError text), after) => ⟨some (refusal text), after, file⟩
  | (.error _, after) => ⟨none, after, file⟩
  | (.ok reply, after) =>
      if after = state then ⟨some reply, after, file⟩
      else
        match head ((message.lookup (str "head")).getD .null) >>= headLine interpreter with
        | .error _ => ⟨none, after, file⟩
        | .ok line =>
            match write with
            | .completes => ⟨some reply, after, append file line .completes⟩
            | write => ⟨none, after, append file line write⟩

def replyKeys : List Str := [str "count", str "head_hash", str "kind"]

/-- `_state`: what a writer reads out of an `ok` reply. -/
def statedBy (reply : Value) : Option Committed :=
  match reply with
  | .dict fields =>
      if isKind fields "ok" && hasKeys fields replyKeys then
        (do
          let claimed ← count ((fields.lookup (str "count")).getD .null) "anchor count"
          let headHash ← digest ((fields.lookup (str "head_hash")).getD .null) "anchor head_hash"
          return ⟨claimed.val, headHash, counted_le claimed⟩ : Outcome Committed).toOption
      else none
  | _ => none

/-- The state file, the live process with its committed state, and every state
that an `ok` reply has reported so far. -/
structure Served where
  file : Option Bytes
  live : Option Committed
  reported : List Committed

inductive ServeEvent where
  | start (readable : Bool)
  | request (message : List (Str × Value)) (write : Append)
  | stop

def step (interpreter : Interpreter) (verifier : AuditVerifier) (served : Served) :
    ServeEvent → Option Served
  | .start readable =>
      match served.live with
      | some _ => none
      | none =>
          if readable then
            match load interpreter verifier served.file with
            | .ok state =>
                some { served with
                  live := some state
                  reported := (statedBy (committed state)).toList ++ served.reported }
            | .error _ => some served
          else some served
  | .request message write =>
      match served.live with
      | none => none
      | some state =>
          let answered := answer interpreter verifier message write state served.file
          match answered.reply with
          | none => some { served with file := answered.file, live := none }
          | some reply => some {
              file := answered.file
              live := some answered.state
              reported := (statedBy reply).toList ++ served.reported }
  | .stop =>
      match served.live with
      | none => none
      | some _ => some { served with live := none }

section Lines

variable {interpreter : Interpreter} {verifier : AuditVerifier}

/-- The line of a head. -/
def lineOf (head : AuditHead) : Bytes := canonicalBytes (headDict head) ++ [10]

/-- A state file whose lines are verified heads with rising counts, and what its
last line claims. -/
inductive Recorded (verifier : AuditVerifier) : Bytes → Option Committed → Prop
  | empty : Recorded verifier [] none
  | line {data : Bytes} {last : Option Committed} (head : AuditHead) (claimed : Committed)
      (before : Recorded verifier data last)
      (verified : verifyHead verifier (some head) = .ok claimed)
      (rises : ∀ earlier ∈ last, earlier.count < claimed.count) :
      Recorded verifier (data ++ lineOf head) (some claimed)

theorem length_digits_le {number : Nat} (small : number ≤ maxCount) :
    (Nat.digits 10 number).length ≤ maxIntDigits := by
  have bound : number < 10 ^ 7 := Nat.lt_of_le_of_lt small (by decide)
  exact (length_digits_of_lt 7 bound).trans (by decide)

theorem canonical_headDict (interpreter : Interpreter) {sent : AuditHead} {claimed : Committed}
    (verified : verifyHead verifier (some sent) = .ok claimed) :
    canonical interpreter (headDict sent) = .ok (canonicalBytes (headDict sent)) := by
  obtain ⟨signature, same, _⟩ := verifyHead_eq_ok.mp verified
  obtain rfl := Option.some.inj same
  refine canonical_eq_ok.mpr ⟨?_, ?_, rfl⟩
  · have shallow : ∀ version counted hash signature,
        (headDict ⟨.str version, .int counted, .str hash, .str signature⟩).depth = 1 :=
      fun _ _ _ _ => rfl
    rw [shallow]
    exact Nat.le_trans (by decide) interpreter.recursionLimit_sufficient
  · simp [headDict, headFields, Value.printable, Value.printableFields,
      length_digits_le claimed.count_le]

theorem headLine_eq {sent : AuditHead} {claimed : Committed}
    (verified : verifyHead verifier (some sent) = .ok claimed) :
    headLine interpreter sent = .ok (lineOf sent) := by
  rw [headLine, canonical_headDict interpreter verified]
  rfl

theorem receivedHead_of_verified {sent : AuditHead} {claimed : Committed}
    (verified : verifyHead verifier (some sent) = .ok claimed) : receivedHead sent = sent := by
  obtain ⟨signature, same, hexadecimal, _⟩ := verifyHead_eq_ok.mp verified
  obtain rfl := Option.some.inj same
  exact (receivedHead_eq hexadecimal).mpr rfl

/-- A line that was written is read back as its head. -/
theorem decode_line {sent : AuditHead} {claimed : Committed} {noun : String}
    (verified : verifyHead verifier (some sent) = .ok claimed) :
    ∃ fields, decode interpreter (canonicalBytes (headDict sent)) noun = .ok fields ∧
      head (.dict fields) = .ok sent := by
  have again : canonicalBytes (headDict sent).decoded = canonicalBytes (headDict sent) :=
    congrArg asciiBytes (Value.dumps_decoded (tidy_headDict verified))
  have named : keys (headFields sent) = headKeys := rfl
  have distinct : (keys (headFields sent)).Nodup := named ▸ plain_headKeys.nodup
  have plain : ∀ key ∈ keys (headFields sent), joinSurrogates key = key :=
    named ▸ plain_headKeys.plain
  have encoded : canonical interpreter (.dict (headFields sent)) =
      .ok (canonicalBytes (headDict sent)) := canonical_headDict interpreter verified
  have decoded : decode interpreter (canonicalBytes (headDict sent)) noun =
      .ok (receivedFields (headFields sent)) := by
    rw [decode_canonical distinct plain encoded]
    exact if_neg (not_not.mpr again)
  have read := head_received sent
  rw [receivedHead_of_verified verified, headDict,
    (received_fields (headFields sent) plain_headKeys named).1] at read
  exact ⟨_, decoded, read⟩

/-- A line that is read as a head is the line of that head. -/
theorem lineOf_of_decode {line : Bytes} {noun : String} {fields : List (Str × Value)}
    {sent : AuditHead} (decoded : decode interpreter line noun = .ok fields)
    (read : head (.dict fields) = .ok sent) : canonicalBytes (headDict sent) = line := by
  obtain ⟨distinct, encoded⟩ := decode_eq_ok decoded
  have same := (canonical_eq_ok.mp encoded).2.2
  simp only [head] at read
  split_ifs at read with named
  · obtain rfl := Except.ok.inj read
    have sorted := sortKeys_of_hasKeys distinct plain_headKeys.nodup (by decide) named .null
    rw [same, canonicalBytes, canonicalBytes, ← dumps_sortKeys fields, sorted]
    rfl
  · exact (fail_ne_ok read).elim

theorem loadLines_append (last : Option Committed) (first second : List Bytes) :
    loadLines interpreter verifier last (first ++ second) =
      loadLines interpreter verifier last first >>= fun out =>
        loadLines interpreter verifier out second := by
  induction first generalizing last with
  | nil => rfl
  | cons line first ih =>
      simp only [List.cons_append, loadLines, bind_assoc]
      refine bind_congr fun fields => bind_congr fun current => bind_congr fun claimed => ?_
      split_ifs
      · rfl
      · exact ih _

theorem loadLines_line {sent : AuditHead} {claimed : Committed} {last : Option Committed}
    (verified : verifyHead verifier (some sent) = .ok claimed)
    (rises : ∀ earlier ∈ last, earlier.count < claimed.count) :
    loadLines interpreter verifier last [canonicalBytes (headDict sent)] = .ok (some claimed) := by
  obtain ⟨fields, decoded, read⟩ := decode_line verified
  refine bind_eq_ok.mpr ⟨fields, decoded, bind_eq_ok.mpr ⟨sent, read, bind_eq_ok.mpr
    ⟨claimed, verified, guarded_eq_ok.mpr ⟨?_, rfl⟩⟩⟩⟩
  rintro ⟨earlier, member, least⟩
  exact absurd (rises earlier member) (not_lt.mpr least)

/-- A recorded file is empty, or its lines load to what its last line claims. -/
theorem loadLines_of_recorded (interpreter : Interpreter) {data : Bytes} {last : Option Committed}
    (recorded : Recorded verifier data last) :
    (data = [] ∧ last = none) ∨ ∃ front, data = front ++ [10] ∧
      loadLines interpreter verifier none (front.splitOn 10) = .ok last := by
  induction recorded with
  | empty => exact Or.inl ⟨rfl, rfl⟩
  | @line data last sent claimed _ verified rises ih =>
      right
      refine ⟨data ++ canonicalBytes (headDict sent), (List.append_assoc _ _ _).symm, ?_⟩
      have solid : (10 : UInt8) ∉ canonicalBytes (headDict sent) := not_newline_canonicalBytes _
      rcases ih with ⟨rfl, rfl⟩ | ⟨front, rfl, loaded⟩
      · rw [List.nil_append, List.splitOn_eq_singleton solid]
        exact loadLines_line verified rises
      · rw [List.append_assoc, List.singleton_append, List.splitOn_append_cons_self,
          List.splitOn_eq_singleton solid, loadLines_append, loaded]
        exact loadLines_line verified rises

theorem recorded_of_loadLines {data : Bytes} {last out : Option Committed} {lines : List Bytes}
    (recorded : Recorded verifier data last)
    (loaded : loadLines interpreter verifier last lines = .ok out) :
    Recorded verifier (data ++ lines.flatMap (· ++ [10])) out := by
  induction lines generalizing data last with
  | nil =>
      obtain rfl := Except.ok.inj loaded
      rwa [List.flatMap_nil, List.append_nil]
  | cons line lines ih =>
      obtain ⟨fields, decoded, loaded⟩ := bind_eq_ok.mp loaded
      obtain ⟨current, read, loaded⟩ := bind_eq_ok.mp loaded
      obtain ⟨claimed, verified, loaded⟩ := bind_eq_ok.mp loaded
      obtain ⟨rises, loaded⟩ := guarded_eq_ok.mp loaded
      have longer := Recorded.line current claimed recorded verified
        fun earlier member => not_le.mp fun least => rises ⟨earlier, member, least⟩
      have rest := ih longer loaded
      rw [lineOf, lineOf_of_decode decoded read, List.append_assoc] at rest
      rwa [List.flatMap_cons]

theorem flatMap_splitOn (data : Bytes) : (data.splitOn 10).flatMap (· ++ [10]) = data ++ [10] := by
  have joined : ∀ lines : List Bytes, lines ≠ [] →
      lines.flatMap (· ++ [10]) = [10].intercalate lines ++ [10] := by
    intro lines
    induction lines with
    | nil => exact fun nonempty => (nonempty rfl).elim
    | cons line lines ih =>
        intro _
        cases lines with
        | nil => simp
        | cons second lines =>
            rw [List.flatMap_cons, ih (List.cons_ne_nil _ _), List.intercalate_cons_cons]
            simp only [List.append_assoc]
  rw [joined _ (List.splitOn_ne_nil _ _), List.intercalate_splitOn]

/-- What a file that was read loads to. -/
theorem load_eq_ok {data : Bytes} {state : Committed} :
    load interpreter verifier (some data) = .ok state ↔ data.length ≤ maxStateBytes ∧
      (data = [] ∧ state = .initial ∨ Recorded verifier data (some state)) := by
  have whole : data.length ≤ maxStateBytes → data.take (maxStateBytes + 1) = data :=
    fun short => List.take_of_length_le (Nat.le_succ_of_le short)
  simp only [load, guarded_eq_ok, not_lt, List.length_take]
  constructor
  · rintro ⟨short, loaded⟩
    have short' : data.length ≤ maxStateBytes := by omega
    refine ⟨short', ?_⟩
    rw [whole short'] at loaded
    split_ifs at loaded with empty torn
    · exact Or.inl ⟨empty, (Except.ok.inj loaded).symm⟩
    · exact (fail_ne_ok loaded).elim
    · right
      obtain ⟨last, lines, resumed⟩ := bind_eq_ok.mp loaded
      have recorded := recorded_of_loadLines Recorded.empty lines
      have split : data.dropLast ++ [10] = data :=
        List.dropLast_append_getLast? 10 (not_not.mp torn)
      rw [flatMap_splitOn, split, List.nil_append] at recorded
      cases last with
      | none => exact (fail_ne_ok resumed).elim
      | some claimed => rwa [← pure_eq_ok.mp resumed]
  · rintro ⟨short, ⟨rfl, rfl⟩ | recorded⟩
    · exact ⟨by simp, rfl⟩
    · refine ⟨by omega, ?_⟩
      rw [whole short]
      rcases loadLines_of_recorded interpreter recorded with ⟨rfl, none⟩ | ⟨front, rfl, loaded⟩
      · cases none
      · rw [if_neg (List.append_ne_nil_of_right_ne_nil _ (List.cons_ne_nil _ _)),
          if_neg (by simp), List.dropLast_concat]
        exact bind_eq_ok.mpr ⟨some state, loaded, rfl⟩

end Lines

section Answers

variable {interpreter : Interpreter} {verifier : AuditVerifier} {message : List (Str × Value)}
  {state next : Committed}

/-- `later` is `earlier` or lies further along. -/
def Continues (earlier later : Committed) : Prop := earlier.count < later.count ∨ earlier = later

theorem Continues.trans {first second third : Committed} (before : Continues first second)
    (after : Continues second third) : Continues first third := by
  rcases before with less | rfl
  · rcases after with less' | rfl
    · exact Or.inl (less.trans less')
    · exact Or.inl less
  · exact after

/-- A commit that returns has moved its anchor forward or found it there. -/
theorem commit_continues {sent : Option AuditHead} {items : List Item}
    (decided : (AuditAnchor.commit verifier sent items state).1 = .ok next) :
    verifyHead verifier sent = .ok next ∧ Continues state next := by
  obtain ⟨events, verified, _, _, locked⟩ := commit_eq_ok_iff.mp decided
  simp only [AuditAnchor.commitLocked, guarded_eq_ok] at locked
  obtain ⟨long, equal, _⟩ := locked
  refine ⟨verified, ?_⟩
  rcases Nat.lt_or_ge state.count next.count with less | least
  · exact Or.inl less
  · have same : next.count = state.count := by omega
    exact Or.inr (Committed.ext same.symm (not_not.mp fun other => equal ⟨same, Ne.symm other⟩))

theorem commitDelta_continues {sent : Option AuditHead} {items : List Item}
    (decided : (AuditAnchor.commitDelta verifier sent items state).1 = .ok next) :
    verifyHead verifier sent = .ok next ∧ Continues state next := by
  obtain ⟨records, extended⟩ := AuditAnchor.commitDelta_eq_ok.mp decided
  obtain ⟨verified, _, events, sized, ends, _⟩ := extend_eq_ok.mp extended
  refine ⟨verified, ?_⟩
  cases events with
  | nil => exact Or.inr (Committed.ext sized ends)
  | cons event events =>
      left
      rw [List.length_cons] at sized
      omega

/-- A request that reaches the anchor with a head carries that head. -/
theorem head_of_readRequest {request : Request}
    (read : readRequest interpreter message state = .ok request) :
    match request with
    | .committed => True
    | .commit2 sent _ => head ((message.lookup (str "head")).getD .null) = .ok sent
    | .commit sent _ => head ((message.lookup (str "head")).getD .null) = .ok sent := by
  simp only [readRequest] at read
  split_ifs at read
  · obtain rfl := Except.ok.inj read
    trivial
  · obtain ⟨data, _, read⟩ := bind_eq_ok.mp read
    obtain ⟨_, read⟩ := guarded_eq_ok.mp read
    obtain ⟨sent, found, read⟩ := bind_eq_ok.mp read
    obtain ⟨_, _, read⟩ := bind_eq_ok.mp read
    obtain ⟨_, _, read⟩ := bind_eq_ok.mp read
    obtain ⟨_, read⟩ := guarded_eq_ok.mp read
    obtain rfl := pure_eq_ok.mp read
    exact found
  · exact (fail_ne_ok read).elim
  · obtain ⟨sent, found, read⟩ := bind_eq_ok.mp read
    obtain ⟨_, _, read⟩ := bind_eq_ok.mp read
    obtain rfl := pure_eq_ok.mp read
    exact found

/-- Everything `_handle` can do: raise, reply with the state as it is, or move
the anchor strictly forward to the head the message carries. -/
theorem handle_cases (interpreter : Interpreter) (verifier : AuditVerifier)
    (message : List (Str × Value)) (state : Committed) :
    (∃ raised, handle interpreter verifier message state = (.error raised, state)) ∨
    handle interpreter verifier message state = (.ok (committed state), state) ∨
    ∃ next sent, state.count < next.count ∧
      head ((message.lookup (str "head")).getD .null) = .ok sent ∧
      verifyHead verifier (some sent) = .ok next ∧
      handle interpreter verifier message state = (.ok (committed next), next) := by
  have settled : ∀ (outcome : Outcome Committed) (sent : AuditHead),
      head ((message.lookup (str "head")).getD .null) = .ok sent →
      (∀ next, (AuditAnchor.settle state outcome).1 = .ok next →
        verifyHead verifier (some sent) = .ok next ∧ Continues state next) →
      ∀ result, result = ((AuditAnchor.settle state outcome).1.map committed,
        (AuditAnchor.settle state outcome).2) →
      (∃ raised, result = (.error raised, state)) ∨ result = (.ok (committed state), state) ∨
        ∃ next sent, state.count < next.count ∧
          head ((message.lookup (str "head")).getD .null) = .ok sent ∧
          verifyHead verifier (some sent) = .ok next ∧ result = (.ok (committed next), next) := by
    rintro outcome sent found moves _ rfl
    cases outcome with
    | error raised => exact Or.inl ⟨raised, rfl⟩
    | ok next =>
        right
        obtain ⟨verified, less | rfl⟩ := moves next rfl
        · exact Or.inr ⟨next, sent, less, found, verified, rfl⟩
        · exact Or.inl rfl
  cases read : readRequest interpreter message state with
  | error raised => exact Or.inl ⟨raised, by rw [handle, read]⟩
  | ok request =>
      have found := head_of_readRequest read
      cases request with
      | committed => exact Or.inr (Or.inl (by rw [handle, read]))
      | commit2 sent items =>
          exact settled _ sent found (fun next decided => commitDelta_continues decided) _
            (by rw [handle, read]; rfl)
      | commit sent items =>
          exact settled _ sent found (fun next decided => commit_continues decided) _
            (by rw [handle, read]; rfl)

theorem statedBy_committed (state : Committed) : statedBy (committed state) = some state := by
  have counted : count (.int state.count) "anchor count" = .ok ⟨state.count, state.count_le⟩ :=
    count_eq_ok.mpr rfl
  have hashed : digest (.str state.headHash.val) "anchor head_hash" = .ok state.headHash :=
    digest_eq_ok.mpr rfl
  have looked : statedBy (committed state) = (do
      let claimed ← count (.int state.count) "anchor count"
      let headHash ← digest (.str state.headHash.val) "anchor head_hash"
      return ⟨claimed.val, headHash, claimed.property⟩ : Outcome Committed).toOption := rfl
  rw [looked, counted, hashed]
  rfl

theorem statedBy_refusal (text : String) : statedBy (refusal text) = none := rfl

/-- Everything `_answer` can do with a state file. -/
theorem answer_cases (interpreter : Interpreter) (verifier : AuditVerifier)
    (message : List (Str × Value)) (write : Append) (state : Committed) (file : Option Bytes) :
    (∃ reply, answer interpreter verifier message write state file = ⟨reply, state, file⟩ ∧
      ∀ said ∈ reply, statedBy said = none ∨ statedBy said = some state) ∨
    ∃ next sent, state.count < next.count ∧ verifyHead verifier (some sent) = .ok next ∧
      head ((message.lookup (str "head")).getD .null) = .ok sent ∧
      answer interpreter verifier message write state file =
        ⟨if write matches .completes then some (committed next) else none, next,
          append file (lineOf sent) write⟩ := by
  rcases handle_cases interpreter verifier message state with
    ⟨raised, handled⟩ | handled | ⟨next, sent, less, found, verified, handled⟩
  · left
    cases raised with
    | contractError text =>
        refine ⟨some (refusal text), by rw [answer, handled], ?_⟩
        intro said member
        rw [← Option.mem_some_iff.mp member]
        exact Or.inl (statedBy_refusal text)
    | _ => exact ⟨none, by rw [answer, handled], nofun⟩
  · left
    refine ⟨some (committed state), by simp only [answer, handled, ↓reduceIte], ?_⟩
    intro said member
    rw [← Option.mem_some_iff.mp member]
    exact Or.inr (statedBy_committed state)
  · right
    have moved : next ≠ state := fun same => absurd (congrArg Committed.count same) (by omega)
    have line : head ((message.lookup (str "head")).getD .null) >>= headLine interpreter =
        .ok (lineOf sent) := by
      rw [found]
      exact headLine_eq verified
    refine ⟨next, sent, less, verified, found, ?_⟩
    simp only [answer, handled, moved, ↓reduceIte, line]
    cases write <;> rfl

end Answers

end AnchorProcess

end GeniusNew
