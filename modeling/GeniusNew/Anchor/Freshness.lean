import GeniusNew.Anchor.Client

/-! # A served anchor in a hostile network

Callers and a served anchor with whoever sits between them. What arrives at either end is
any bytes whatever, in any order and as often as one likes; only a signature of the reply
key that verifies was made by the anchor. What a caller gets was answered to its own nonce,
after it drew the nonce.
-/

namespace GeniusNew

open Json Transition

namespace AnchorProcess

/-- What has happened, as far as a nonce or the reply key is concerned. -/
inductive Happening where
  | issued (caller : Nat) (nonce : Str)
  | answered (connection : Nat) (nonce : Str) (request : List (Str × Value)) (reply : Value)
  | signed (message : Bytes)
  | returned (caller : Nat) (nonce : Str) (state : Committed)

namespace Happening

/-- The nonce that is spoken of. -/
def nonce? : Happening → Option Str
  | issued _ nonce => some nonce
  | answered _ nonce _ _ => some nonce
  | signed _ => none
  | returned _ nonce _ => some nonce

/-- The message that the reply key signed. -/
def message? (interpreter : Interpreter) : Happening → Option Bytes
  | issued _ _ => none
  | answered _ nonce _ reply => (replyMessage interpreter nonce reply).toOption
  | signed message => some message
  | returned _ _ _ => none

end Happening

/-- The anchor with its state file, what each connection holds that was not read yet, if
the anchor did not hang up on it, and the nonce that each caller waits with. -/
structure Network where
  file : Option Bytes
  live : Option Committed
  connections : Nat → Option Bytes
  waiting : Nat → Option Str
  log : List Happening

def Network.initial (file : Option Bytes) : Network :=
  ⟨file, none, fun _ => some [], fun _ => none, []⟩

/-- A step of one of the parties, with the bytes it was made to see. -/
inductive NetworkEvent where
  | start (readable : Bool)
  | stop
  | issue (caller : Nat) (drawn : Bytes) (request : Value)
  | serve (connection : Nat) (arrived : Bytes) (write : Append)
  | deliver (caller : Nat) (stream : Option Bytes)
  | sign (message : Bytes)

namespace Network

def happened (network : Network) (happening : Happening) : Network :=
  { network with log := network.log ++ [happening] }

def setConnection (network : Network) (connection : Nat) (held : Option Bytes) : Network :=
  { network with connections := Function.update network.connections connection held }

def setWaiting (network : Network) (caller : Nat) (nonce : Option Str) : Network :=
  { network with waiting := Function.update network.waiting caller nonce }

/-- What a frame does to the anchor and to the connection it came on. -/
def serve (host : Host) (verifier : AuditVerifier) (key : ReplyKey) (network : Network)
    (connection : Nat) (state : Committed) (data rest : Bytes) (write : Append) : Network :=
  match serveFrame host verifier key data write state network.file with
  | (.hangsUp, after, left) =>
      { network.setConnection connection none with live := some after, file := left }
  | (.ends, _, left) => { network with live := none, file := left }
  | (.answers nonce request reply _, after, left) =>
      { (network.setConnection connection (some rest)).happened
          (.answered connection nonce request reply) with live := some after, file := left }

/-- A step, where the party can take it. Under the reply label the key signs replies only. -/
def step (host : Host) (verifier : AuditVerifier) (key : ReplyKey) (network : Network) :
    NetworkEvent → Option Network
  | .start readable =>
      match network.live with
      | some _ => none
      | none =>
          if readable then
            match load host.interpreter verifier network.file with
            | .ok state =>
                some { network with live := some state, connections := fun _ => some [] }
            | .error _ => some network
          else some network
  | .stop => some { network with live := none }
  | .issue caller drawn request =>
      match network.waiting caller with
      | some _ => none
      | none =>
          if drawn.length = nonceBytes then
            match frame host.interpreter (envelope (hex drawn) request) maxRequestBytes with
            | .ok _ => some ((network.setWaiting caller (some (hex drawn))).happened
                (.issued caller (hex drawn)))
            | .error _ => some network
          else none
  | .serve connection arrived write =>
      match network.live, network.connections connection with
      | some state, some held =>
          match readFrame (held ++ arrived) with
          | some (data, rest) =>
              some (network.serve host verifier key connection state data rest write)
          | none => some (network.setConnection connection none)
      | _, _ => none
  | .deliver caller stream =>
      match network.waiting caller with
      | none => none
      | some nonce =>
          match conclude host.interpreter key nonce stream with
          | .ok state => some ((network.setWaiting caller none).happened
              (.returned caller nonce state))
          | .error _ => some (network.setWaiting caller none)
  | .sign message =>
      if replyLabel <+: message then none else some (network.happened (.signed message))

/-- What may be delivered and drawn: a signature of the reply key that verifies was made
with it, and a nonce was not in any request yet. -/
def Allowed (host : Host) (key : ReplyKey) (network : Network) : NetworkEvent → Prop
  | .issue _ drawn _ => ∀ happening ∈ network.log, happening.nonce? ≠ some (hex drawn)
  | .deliver _ (some stream) => ∀ proof message,
      signatureIn host.interpreter stream = some proof → key.verifies message proof = true →
        ∃ happening ∈ network.log, happening.message? host.interpreter = some message
  | _ => True

end Network

section Log

variable {host : Host} {verifier : AuditVerifier} {key : ReplyKey} {log : List Happening}

/-- A nonce is not spoken of before it is issued. -/
def Fresh (log : List Happening) : Prop :=
  log.Pairwise fun earlier later => ∀ caller nonce, later = .issued caller nonce →
    earlier.nonce? ≠ some nonce

/-- The reply key signed replies to nonces that the anchor gave to the request, and under
its label nothing else. -/
def Genuine (host : Host) (verifier : AuditVerifier) : Happening → Prop
  | .answered _ nonce request reply => isHexText (2 * nonceBytes) nonce = true ∧
      ∃ write state file, (respond host verifier request (some write) state file).1 = .ok (some reply)
  | .signed message => ¬ replyLabel <+: message
  | _ => True

/-- A state was answered to the nonce of a caller after the caller drew it. -/
def AnsweredTo (before : List Happening) (caller : Nat) (nonce : Str) (state : Committed) : Prop :=
  ∃ first middle last connection request, before = first ++ .issued caller nonce :: middle ++
    .answered connection nonce request (committed state) :: last

def Vouched (log : List Happening) : Prop :=
  ∀ before caller nonce state after, log = before ++ .returned caller nonce state :: after →
    AnsweredTo before caller nonce state

theorem Fresh.append {happening : Happening} (fresh : Fresh log)
    (new : ∀ caller nonce, happening = .issued caller nonce →
      ∀ earlier ∈ log, earlier.nonce? ≠ some nonce) : Fresh (log ++ [happening]) := by
  refine List.pairwise_append.mpr ⟨fresh, List.pairwise_singleton _ _, ?_⟩
  intro earlier member later last
  rw [List.mem_singleton] at last
  subst last
  exact fun caller nonce same => new caller nonce same earlier member

/-- What is answered to an issued nonce is answered after it was issued. -/
theorem Fresh.answeredTo {caller connection : Nat} {nonce : Str}
    {request : List (Str × Value)} {state : Committed} (fresh : Fresh log)
    (issued : .issued caller nonce ∈ log)
    (answered : .answered connection nonce request (committed state) ∈ log) :
    AnsweredTo log caller nonce state := by
  obtain ⟨before, last, rfl⟩ := List.append_of_mem answered
  rcases List.mem_append.mp issued with earlier | later
  · obtain ⟨first, middle, rfl⟩ := List.append_of_mem earlier
    exact ⟨first, middle, last, connection, request, rfl⟩
  · have later := (List.mem_cons.mp later).resolve_left fun same => by cases same
    have apart := (List.pairwise_append.mp fresh).2.1
    exact (List.rel_of_pairwise_cons apart later caller nonce rfl rfl).elim

theorem Fresh.issued_unique {caller other : Nat} {nonce : Str} (fresh : Fresh log)
    (mine : .issued caller nonce ∈ log) (theirs : .issued other nonce ∈ log) : caller = other := by
  obtain ⟨before, last, rfl⟩ := List.append_of_mem mine
  have apart := List.pairwise_append.mp fresh
  rcases List.mem_append.mp theirs with earlier | later
  · exact (apart.2.2 _ earlier _ List.mem_cons_self caller nonce rfl rfl).elim
  · rcases List.mem_cons.mp later with same | later
    · cases same
      rfl
    · exact (List.rel_of_pairwise_cons apart.2.1 later other nonce rfl rfl).elim

/-- A log and one more thing that happened, split. -/
theorem split_snoc {happening found : Happening} {before after : List Happening}
    (split : log ++ [happening] = before ++ found :: after) :
    (before = log ∧ found = happening) ∨ ∃ rest, log = before ++ found :: rest := by
  rcases List.eq_nil_or_concat after with rfl | ⟨rest, last, rfl⟩
  · obtain ⟨same, one⟩ := List.append_inj' split rfl
    exact .inl ⟨same.symm, (List.cons.inj one).1.symm⟩
  · rw [List.concat_eq_append, ← List.cons_append, ← List.append_assoc] at split
    exact .inr ⟨rest, (List.append_inj' split rfl).1⟩

theorem Vouched.append {happening : Happening} (vouched : Vouched log)
    (new : ∀ caller nonce state, happening = .returned caller nonce state →
      AnsweredTo log caller nonce state) : Vouched (log ++ [happening]) := by
  intro before caller nonce state after split
  rcases split_snoc split with ⟨rfl, same⟩ | ⟨rest, earlier⟩
  · exact new caller nonce state same.symm
  · exact vouched before caller nonce state rest earlier

end Log

section Run

variable {host : Host} {verifier : AuditVerifier} {key : ReplyKey} {network next : Network}

/-- What holds of a network that was reached. -/
structure Sound (host : Host) (verifier : AuditVerifier) (network : Network) : Prop where
  waits : ∀ caller nonce, network.waiting caller = some nonce →
    isHexText (2 * nonceBytes) nonce = true ∧ .issued caller nonce ∈ network.log
  fresh : Fresh network.log
  genuine : ∀ happening ∈ network.log, Genuine host verifier happening
  vouched : Vouched network.log

theorem Sound.of_log (sound : Sound host verifier network) (same : next.log = network.log)
    (waits : ∀ caller nonce, next.waiting caller = some nonce →
      network.waiting caller = some nonce) : Sound host verifier next where
  waits caller nonce waiting := same ▸ sound.waits caller nonce (waits caller nonce waiting)
  fresh := same ▸ sound.fresh
  genuine := same ▸ sound.genuine
  vouched := same ▸ sound.vouched

theorem Sound.happened {happening : Happening} (sound : Sound host verifier network)
    (fresh : ∀ caller nonce, happening = .issued caller nonce →
      ∀ earlier ∈ network.log, earlier.nonce? ≠ some nonce)
    (genuine : Genuine host verifier happening)
    (vouched : ∀ caller nonce state, happening = .returned caller nonce state →
      AnsweredTo network.log caller nonce state) :
    Sound host verifier (network.happened happening) where
  waits caller nonce waiting :=
    ⟨(sound.waits caller nonce waiting).1,
      List.mem_append_left _ (sound.waits caller nonce waiting).2⟩
  fresh := sound.fresh.append fresh
  genuine := by
    intro found member
    rcases List.mem_append.mp member with earlier | last
    · exact sound.genuine found earlier
    · rw [List.mem_singleton] at last
      exact last ▸ genuine
  vouched := sound.vouched.append vouched

/-- What a caller believes was answered to its nonce. -/
theorem Sound.answeredTo (sound : Sound host verifier network) {caller : Nat} {nonce : Str}
    {stream : Option Bytes} {state : Committed} (waiting : network.waiting caller = some nonce)
    (allowed : network.Allowed host key (.deliver caller stream))
    (returned : conclude host.interpreter key nonce stream = .ok state) :
    AnsweredTo network.log caller nonce state := by
  obtain ⟨named, issued⟩ := sound.waits caller nonce waiting
  obtain ⟨arrived, proof, reply, message, rfl, carried, made, verified, same, stated⟩ :=
    conclude_eq_ok returned
  obtain ⟨happening, member, signed⟩ := allowed proof message carried verified
  have real := sound.genuine happening member
  cases happening with
  | issued caller nonce => cases signed
  | returned caller nonce state => cases signed
  | signed other =>
      obtain rfl := Option.some.inj signed
      exact (real (label_of_replyMessage made)).elim
  | answered connection other request said =>
      obtain ⟨otherNamed, write, before, file, answered⟩ := real
      have again : replyMessage host.interpreter other said = .ok message := by
        change (replyMessage host.interpreter other said).toOption = some message at signed
        cases bound : replyMessage host.interpreter other said with
        | error raised =>
            rw [bound] at signed
            cases signed
        | ok text =>
            rw [bound] at signed
            exact congrArg _ (Option.some.inj signed)
      obtain ⟨rfl, decoded⟩ := replyMessage_inj named otherNamed made again
      obtain rfl := committed_of_stateOf (reply_of_respond answered) (decoded.symm.trans same) stated
      exact sound.fresh.answeredTo issued member

theorem openEnvelope_nonce {interpreter : Interpreter} {data : Bytes} {nonce : Str}
    {request : List (Str × Value)} (opened : openEnvelope interpreter data = .ok (nonce, request)) :
    isHexText (2 * nonceBytes) nonce = true := by
  unfold openEnvelope at opened
  obtain ⟨envelope, _, opened⟩ := bind_eq_ok.mp opened
  obtain ⟨_, opened⟩ := guarded_eq_ok.mp opened
  obtain ⟨read, checked, opened⟩ := bind_eq_ok.mp opened
  split at opened
  · obtain ⟨rfl, _⟩ := Prod.mk.inj (pure_eq_ok.mp opened)
    unfold readNonce at checked
    split at checked
    · obtain ⟨named, same⟩ := guard_eq_ok.mp checked
      exact Except.ok.inj same ▸ named
    · exact (fail_ne_ok checked).elim
  · exact (fail_ne_ok opened).elim

/-- An answer is what `_answer` made of the request of an envelope with its nonce. -/
theorem serveFrame_answers {data sent : Bytes} {write : Append} {state after : Committed}
    {file left : Option Bytes} {nonce : Str} {request : List (Str × Value)} {reply : Value}
    (served : serveFrame host verifier key data write state file =
      (.answers nonce request reply sent, after, left)) :
    openEnvelope host.interpreter data = .ok (nonce, request) ∧
      respond host verifier request (some write) state file = (.ok (some reply), after, left) ∧
      sealReply host.interpreter key nonce reply = .ok sent := by
  unfold serveFrame at served
  split at served
  · cases served
  · cases served
  · next mine asked opened =>
      split at served
      · next said moved kept answered =>
          split at served
          · next framed sealed =>
              cases served
              exact ⟨opened, answered, sealed⟩
          · cases served
      · cases served

theorem Sound.stopsWaiting (sound : Sound host verifier network) (caller : Nat) :
    Sound host verifier (network.setWaiting caller none) := by
  refine sound.of_log rfl fun other nonce waiting => ?_
  change Function.update network.waiting caller none other = some nonce at waiting
  by_cases same : other = caller
  · subst same
    rw [Function.update_self] at waiting
    cases waiting
  · rwa [Function.update_of_ne same] at waiting

theorem Sound.issue (sound : Sound host verifier network) {caller : Nat} {nonce : Str}
    (named : isHexText (2 * nonceBytes) nonce = true)
    (fresh : ∀ happening ∈ network.log, happening.nonce? ≠ some nonce) :
    Sound host verifier
      ((network.setWaiting caller (some nonce)).happened (.issued caller nonce)) where
  waits other held waiting := by
    change Function.update network.waiting caller (some nonce) other = some held at waiting
    by_cases same : other = caller
    · subst same
      rw [Function.update_self] at waiting
      obtain rfl := Option.some.inj waiting
      exact ⟨named, List.mem_append_right _ List.mem_cons_self⟩
    · rw [Function.update_of_ne same] at waiting
      exact ⟨(sound.waits other held waiting).1,
        List.mem_append_left _ (sound.waits other held waiting).2⟩
  fresh := by
    refine sound.fresh.append fun other held same => ?_
    cases same
    exact fresh
  genuine := by
    intro found member
    rcases List.mem_append.mp member with earlier | last
    · exact sound.genuine found earlier
    · rw [List.mem_singleton] at last
      subst last
      trivial
  vouched := sound.vouched.append nofun

theorem serve_sound (sound : Sound host verifier network) (connection : Nat) (state : Committed)
    (data rest : Bytes) (write : Append) :
    Sound host verifier (network.serve host verifier key connection state data rest write) := by
  unfold Network.serve
  split
  · exact sound.of_log rfl fun _ _ => id
  · exact sound.of_log rfl fun _ _ => id
  · next nonce request reply sent after left served =>
      obtain ⟨opened, answered, _⟩ := serveFrame_answers served
      have real : Genuine host verifier (.answered connection nonce request reply) :=
        ⟨openEnvelope_nonce opened, write, state, network.file, by rw [answered]⟩
      have moved : Sound host verifier
          (network.happened (.answered connection nonce request reply)) :=
        sound.happened nofun real nofun
      exact moved.of_log rfl fun _ _ => id

theorem step_sound {event : NetworkEvent} (allowed : network.Allowed host key event)
    (sound : Sound host verifier network)
    (stepped : network.step host verifier key event = some next) : Sound host verifier next := by
  cases event with
  | start readable =>
      dsimp only [Network.step] at stepped
      split at stepped
      · cases stepped
      · split_ifs at stepped
        · split at stepped
          · obtain rfl := Option.some.inj stepped
            exact sound.of_log rfl fun _ _ => id
          · obtain rfl := Option.some.inj stepped
            exact sound
        · obtain rfl := Option.some.inj stepped
          exact sound
  | stop =>
      obtain rfl := Option.some.inj stepped
      exact sound.of_log rfl fun _ _ => id
  | issue caller drawn request =>
      dsimp only [Network.step] at stepped
      split at stepped
      · cases stepped
      · split_ifs at stepped with sized
        split at stepped
        · obtain rfl := Option.some.inj stepped
          exact sound.issue (sized ▸ isHexText_hex drawn) allowed
        · obtain rfl := Option.some.inj stepped
          exact sound
  | serve connection arrived write =>
      dsimp only [Network.step] at stepped
      split at stepped
      · next state held live open_ =>
          split at stepped
          · next data rest read =>
              obtain rfl := Option.some.inj stepped
              exact serve_sound sound _ _ _ _ _
          · obtain rfl := Option.some.inj stepped
            exact sound.of_log rfl fun _ _ => id
      · cases stepped
  | deliver caller stream =>
      dsimp only [Network.step] at stepped
      split at stepped
      · cases stepped
      · next nonce waiting =>
          split at stepped
          · next state returned =>
              obtain rfl := Option.some.inj stepped
              have cleared := sound.stopsWaiting caller
              refine cleared.happened nofun trivial ?_
              intro other named stated same
              cases same
              exact sound.answeredTo waiting allowed returned
          · obtain rfl := Option.some.inj stepped
            exact sound.stopsWaiting caller
  | sign message =>
      dsimp only [Network.step] at stepped
      split_ifs at stepped with labelled
      obtain rfl := Option.some.inj stepped
      exact sound.happened nofun labelled nofun

theorem sound_initial (file : Option Bytes) : Sound host verifier (.initial file) where
  waits := nofun
  fresh := List.Pairwise.nil
  genuine := nofun
  vouched := by
    intro before caller nonce state after split
    exact absurd split (List.append_ne_nil_of_right_ne_nil before (List.cons_ne_nil _ _)).symm

theorem sound_of_run {file : Option Bytes} {events : List NetworkEvent}
    (along : Along (Network.step host verifier key) (Network.Allowed host key) (.initial file) events)
    (ran : run (Network.step host verifier key) (.initial file) events = some next) :
    Sound host verifier next :=
  run_invariant_along (Sound host verifier) (fun _ _ _ allowed sound stepped =>
    step_sound allowed sound stepped) (sound_initial file) along ran

end Run

/-- A reply to another nonce is not believed. -/
theorem conclude_of_other {host : Host} {key : ReplyKey} {nonce other : Str} {reply : Value}
    {sent : Bytes} {state : Committed} (named : isHexText (2 * nonceBytes) other = true)
    (differ : other ≠ nonce) (made : sealReply host.interpreter key other reply = .ok sent) :
    conclude host.interpreter key nonce (some sent) ≠ .ok state := by
  intro returned
  obtain ⟨message, data, _, encoded, bounded, rfl⟩ := sealReply_eq_ok.mp made
  obtain ⟨read, envelope, arrived, decoded, mine⟩ := nonce_of_conclude returned
  rw [readReply_frameHeader bounded] at arrived
  obtain rfl := Option.some.inj arrived
  have plain := plain_replyEnvelopeKeys
  have opened := @decode_canonical host.interpreter
    (replyFields other reply (hex (key.sign message))) data "anchor reply" plain.nodup plain.plain
    encoded
  rw [opened] at decoded
  obtain ⟨_, same⟩ := guarded_eq_ok.mp decoded
  obtain ⟨_, theirs, _⟩ :=
    received_replyFields named (isHexText_hex (key.sign message)) reply
  rw [Except.ok.inj same, mine] at theirs
  exact differ (Value.str.inj (Option.some.inj theirs)).symm

/-- An anchor answer is fresh and genuine. Whatever the network does, a state that a caller
gets was answered by the anchor to a request with the caller's own nonce, after the caller
drew it; a reply to another nonce, and a signature of the reply key over another nonce or
under another label, never makes the caller believe. -/
theorem exchange_fresh_and_genuine {host : Host} {verifier : AuditVerifier} {key : ReplyKey}
    {file : Option Bytes} {events : List NetworkEvent} {network : Network}
    (along : Along (Network.step host verifier key) (Network.Allowed host key) (.initial file) events)
    (ran : run (Network.step host verifier key) (.initial file) events = some network) :
    (∀ before caller nonce state after,
      network.log = before ++ .returned caller nonce state :: after →
      (∃ first middle last connection request, before = first ++ .issued caller nonce :: middle ++
          .answered connection nonce request (committed state) :: last ∧
        ∃ write held left, (respond host verifier request (some write) held left).1 =
          .ok (some (committed state))) ∧
      ∀ other, .issued other nonce ∈ network.log → other = caller) ∧
    (∀ nonce other reply sent, isHexText (2 * nonceBytes) other = true → other ≠ nonce →
      sealReply host.interpreter key other reply = .ok sent →
        ∀ state, conclude host.interpreter key nonce (some sent) ≠ .ok state) ∧
    ∀ nonce stream, isHexText (2 * nonceBytes) nonce = true →
      (∀ proof message, signatureIn host.interpreter stream = some proof →
        key.verifies message proof = true → ¬ replyLabel <+: message ∨
          ∃ other reply, isHexText (2 * nonceBytes) other = true ∧ other ≠ nonce ∧
            replyMessage host.interpreter other reply = .ok message) →
        ∀ state, conclude host.interpreter key nonce (some stream) ≠ .ok state := by
  have sound := sound_of_run along ran
  refine ⟨?_, ?_, ?_⟩
  · intro before caller nonce state after split
    have issuedEarlier := sound.vouched before caller nonce state after split
    obtain ⟨first, middle, last, connection, request, rfl⟩ := issuedEarlier
    have answered := sound.genuine (.answered connection nonce request (committed state))
      (by simp [split])
    refine ⟨⟨first, middle, last, connection, request, rfl, answered.2⟩, ?_⟩
    intro other issued
    exact sound.fresh.issued_unique issued (by simp [split])
  · intro nonce other reply sent named differ made state
    exact conclude_of_other named differ made
  · intro nonce stream named foreign state returned
    obtain ⟨arrived, proof, reply, message, same, carried, made, verified, _⟩ :=
      conclude_eq_ok returned
    obtain rfl := Option.some.inj same
    rcases foreign proof message carried verified with unlabelled | ⟨other, said, theirs, differ, again⟩
    · exact unlabelled (label_of_replyMessage made)
    · exact differ (replyMessage_inj named theirs made again).1.symm

section Honest

/-- The request for what is committed. -/
def committedRequest : List (Str × Value) := [(str "kind", .str (str "committed"))]

theorem frame_committedRequest (interpreter : Interpreter) {nonce : Str}
    (named : isHexText (2 * nonceBytes) nonce = true) : ∃ data,
      canonical interpreter (envelope nonce (.dict committedRequest)) = .ok data ∧
        data.length ≤ maxRequestBytes := by
  have shallow : 2 ≤ interpreter.recursionLimit :=
    le_trans (by decide) interpreter.recursionLimit_sufficient
  refine ⟨_, canonical_eq_ok.mpr ⟨shallow, ?_, rfl⟩, ?_⟩
  · simp [envelope, committedRequest, Value.printable, Value.printableFields]
  · have asked : (dumps (.dict committedRequest)).length ≤ 40 := by decide +kernel
    have labels : (quote (str "nonce")).length + (quote (str "request")).length ≤ 40 := by decide
    have drawn := length_dumps_hex named
    rw [length_canonicalBytes, envelope, length_dumps_dict (List.cons_ne_nil _ _)]
    simp only [List.map_cons, List.map_nil, List.sum_cons, List.sum_nil, fieldLength,
      maxRequestBytes, nonceBytes] at drawn ⊢
    omega

section Steps

variable {host : Host} {verifier : AuditVerifier} {key : ReplyKey} {network : Network}

theorem step_issue {caller : Nat} {drawn sent : Bytes} {request : Value}
    (idle : network.waiting caller = none) (sized : drawn.length = nonceBytes)
    (framed : frame host.interpreter (envelope (hex drawn) request) maxRequestBytes = .ok sent) :
    network.step host verifier key (.issue caller drawn request) =
      some ((network.setWaiting caller (some (hex drawn))).happened
        (.issued caller (hex drawn))) := by
  simp only [Network.step, idle, sized, framed, ↓reduceIte]

theorem step_serve {connection : Nat} {state : Committed} {held arrived data rest : Bytes}
    {write : Append} (live : network.live = some state)
    (open_ : network.connections connection = some held)
    (read : readFrame (held ++ arrived) = some (data, rest)) :
    network.step host verifier key (.serve connection arrived write) =
      some (network.serve host verifier key connection state data rest write) := by
  simp only [Network.step, live, open_, read]

theorem step_deliver {caller : Nat} {nonce : Str} {stream : Option Bytes} {state : Committed}
    (waiting : network.waiting caller = some nonce)
    (returned : conclude host.interpreter key nonce stream = .ok state) :
    network.step host verifier key (.deliver caller stream) =
      some ((network.setWaiting caller none).happened (.returned caller nonce state)) := by
  simp only [Network.step, waiting, returned]

end Steps

theorem respond_committedRequest (host : Host) (verifier : AuditVerifier) (write : Append)
    (state : Committed) (file : Option Bytes) :
    respond host verifier committedRequest (some write) state file =
      (.ok (some (committed state)), state, file) := by
  have handled : handle host.inner verifier committedRequest state = (.ok (committed state), state) :=
    rfl
  rw [respond, handled]
  exact if_pos rfl

/-- Where nobody interferes, a caller that asks is told. -/
theorem committed_exchange (host : Host) (verifier : AuditVerifier) (key : ReplyKey) {drawn : Bytes}
    (sized : drawn.length = nonceBytes) : ∃ message arrived sent served,
      replyMessage host.interpreter (hex drawn) (committed .initial) = .ok message ∧
      sealReply host.interpreter key (hex drawn) (committed .initial) = .ok sent ∧
      run (Network.step host verifier key) (.initial none)
        [.start true, .issue 0 drawn (.dict committedRequest), .serve 0 arrived .completes] =
          some served ∧
      Along (Network.step host verifier key) (Network.Allowed host key) (.initial none)
        [.start true, .issue 0 drawn (.dict committedRequest), .serve 0 arrived .completes] ∧
      served.log = [.issued 0 (hex drawn),
        .answered 0 (hex drawn) committedRequest (committed .initial)] ∧
      served.step host verifier key (.deliver 0 (some sent)) =
        some ((served.setWaiting 0 none).happened (.returned 0 (hex drawn) .initial)) := by
  have named : isHexText (2 * nonceBytes) (hex drawn) = true := sized ▸ isHexText_hex drawn
  obtain ⟨message, sent, bound, made⟩ :=
    @exists_sealReply host.interpreter _ key named .initial
  obtain ⟨data, encoded, bounded⟩ := frame_committedRequest host.interpreter named
  have framed : frame host.interpreter (envelope (hex drawn) (.dict committedRequest))
      maxRequestBytes = .ok (frameHeader data.length ++ data) :=
    frame_eq_ok.mpr ⟨data, encoded, bounded, rfl⟩
  have plain : PlainKeys (keys committedRequest) := ⟨by decide, by decide⟩
  have neat : (Value.dict committedRequest).tidy = true :=
    tidy_of_fields plain rfl (by simp [committedRequest, Value.tidy])
  have opened : openEnvelope host.interpreter data = .ok (hex drawn, committedRequest) :=
    openEnvelope_of_canonical neat named encoded
  have answered := respond_committedRequest host verifier .completes .initial none
  have served : serveFrame host verifier key data .completes .initial none =
      (.answers (hex drawn) committedRequest (committed .initial) sent, .initial, none) := by
    rw [serveFrame, opened]
    dsimp only
    rw [answered]
    dsimp only
    rw [made]
  let started : Network := { Network.initial none with live := some .initial }
  let asked := (started.setWaiting 0 (some (hex drawn))).happened (.issued 0 (hex drawn))
  have first : (Network.initial none).step host verifier key (.start true) = some started := rfl
  have second : started.step host verifier key (.issue 0 drawn (.dict committedRequest)) =
      some asked := step_issue rfl sized framed
  have read : readFrame ([] ++ (frameHeader data.length ++ data)) = some (data, []) := by
    rw [List.nil_append]
    exact readFrame_frameHeader bounded
  have third := @step_serve host verifier key asked 0 .initial _ _ data [] .completes rfl rfl read
  have turned : asked.serve host verifier key 0 .initial data [] .completes =
      { (asked.setConnection 0 (some [])).happened
          (.answered 0 (hex drawn) committedRequest (committed .initial)) with
        live := some .initial, file := none } := by
    unfold Network.serve
    rw [show asked.file = none from rfl, served]
  refine ⟨message, _, sent, _, bound, made, (run_cons _).mpr ⟨_, first, (run_cons _).mpr
    ⟨_, second, (run_cons _).mpr ⟨_, third, rfl⟩⟩⟩, ?_, ?_, ?_⟩
  · have fresh : started.Allowed host key (.issue 0 drawn (.dict committedRequest)) :=
      fun _ member => (List.not_mem_nil member).elim
    exact along_cons trivial first (along_cons fresh second (along_cons trivial third along_nil))
  · rw [turned]
    rfl
  · rw [turned]
    exact step_deliver rfl (conclude_of_sealReply named made)

end Honest

section First

/-- A key that tells one message from all others. -/
def markingKey (marked : Bytes) : ReplyKey where
  sign message := List.replicate 64 (if message = marked then 1 else 0)
  verifies message proof := proof = List.replicate 64 (if message = marked then 1 else 0)
  sign_verifies _ := decide_eq_true rfl
  length_sign _ := List.length_replicate

theorem markingKey_verifies {marked message : Bytes}
    (verified : (markingKey marked).verifies message ((markingKey marked).sign marked) = true) :
    message = marked := by
  have same : List.replicate 64 (if marked = marked then (1 : UInt8) else 0) =
      List.replicate 64 (if message = marked then 1 else 0) := of_decide_eq_true verified
  by_contra other
  rw [if_pos rfl, if_neg other] at same
  exact absurd same (by decide)

def firstDrawn : Bytes := List.replicate nonceBytes 0

def firstMessage : Bytes :=
  replyLabel ++ canonicalBytes (.dict (boundReply (hex firstDrawn) (committed .initial)))

theorem exchange_fresh_and_genuine_first : ∃ events network,
    Along (Network.step countingHost digestAuthority.verifier (markingKey firstMessage))
      (Network.Allowed countingHost (markingKey firstMessage)) (.initial none) events ∧
    run (Network.step countingHost digestAuthority.verifier (markingKey firstMessage))
      (.initial none) events = some network ∧
    .returned 0 (hex firstDrawn) .initial ∈ network.log ∧
    ∀ other, .issued other (hex firstDrawn) ∈ network.log → other = 0 := by
  obtain ⟨message, arrived, sent, served, bound, made, ran, along, log, delivered⟩ :=
    committed_exchange countingHost digestAuthority.verifier (markingKey firstMessage)
      (show firstDrawn.length = nonceBytes from List.length_replicate)
  have marked : message = firstMessage := by
    obtain ⟨data, encoded, rfl⟩ := replyMessage_eq_ok.mp bound
    rw [(canonical_eq_ok.mp encoded).2.2]
    rfl
  subst marked
  have carried := signatureIn_of_sealReply (isHexText_hex firstDrawn) bound made
  have allowed : served.Allowed countingHost (markingKey firstMessage) (.deliver 0 (some sent)) := by
    intro proof message found verified
    rw [carried] at found
    obtain rfl := Option.some.inj found
    obtain rfl := markingKey_verifies verified
    refine ⟨.answered 0 (hex firstDrawn) committedRequest (committed .initial), ?_, ?_⟩
    · rw [log]
      exact List.mem_cons_of_mem _ List.mem_cons_self
    · rw [Happening.message?, bound]
      rfl
  have whole := along.append ran (along_cons allowed delivered along_nil)
  have reached := (run_append_singleton _).mpr ⟨served, ran, delivered⟩
  have settled := exchange_fresh_and_genuine whole reached
  refine ⟨_, _, whole, reached, List.mem_append_right _ List.mem_cons_self, ?_⟩
  exact (settled.1 served.log 0 (hex firstDrawn) .initial [] rfl).2

end First

end AnchorProcess

end GeniusNew
