import GeniusNew.Contracts.Contained
import GeniusNew.WorkerService.Frame

/-! # What moving a frame does

Reading takes a frame off the front of what was sent, whatever the fragments are,
and touches neither the invocation nor any descriptor that did not arrive with
them. All it raises is refusals, but for what `json.loads` raises on a text that
is not legible.
-/

namespace GeniusNew

open Json Raising

/-- The exception is a refusal. -/
def Raised.IsRefusal (raised : Raised) : Prop := ∃ message, raised = .contractError message

theorem map_eq_ok {ε α β : Type} {outcome : Except ε α} {f : α → β} {result : β} :
    outcome.map f = .ok result ↔ ∃ value, outcome = .ok value ∧ f value = result := by
  cases outcome with
  | error raised => exact ⟨fun absurd => (nomatch absurd), fun ⟨_, absurd, _⟩ => (nomatch absurd)⟩
  | ok value =>
      constructor
      · exact fun same => ⟨value, rfl, Except.ok.inj same⟩
      · rintro ⟨_, same, rfl⟩
        rw [Except.ok.inj same]
        rfl

theorem map_eq_error {ε α β : Type} {outcome : Except ε α} {f : α → β} {raised : ε} :
    outcome.map f = .error raised ↔ outcome = .error raised := by
  cases outcome with
  | error other =>
      constructor
      · exact fun same => congrArg Except.error (Except.error.inj same)
      · exact fun same => congrArg Except.error (Except.error.inj same)
  | ok value => exact ⟨fun absurd => (nomatch absurd), fun absurd => (nomatch absurd)⟩

theorem isRefusal_of_contained {α : Type} {outcome : Outcome α} {raised : Raised}
    (contained : Contained some outcome) (failed : outcome = .error raised) : raised.IsRefusal :=
  contained raised raised failed rfl

namespace WorkerService

/-- `json.loads` of the bytes of a frame raises, if anything, a `JSONDecodeError`:
no integer has too many digits and no bracket stands too deep. -/
def legible (interpreter : Interpreter) (raw : Bytes) : Bool :=
  match (decodeAscii raw).map (loads interpreter) with
  | some (.error .digits) => false
  | some (.error .recursion) => false
  | _ => true

section Decoding

variable {interpreter : Interpreter} {noun : String} {raw : Bytes}

theorem decodeFrame_eq_ok {fields : List (Str × Value)} :
    decodeFrame interpreter noun raw = .ok fields ↔
      ∃ text, decodeAscii raw = some text ∧ loads interpreter text = .ok (.dict fields) ∧
        canonical interpreter (.dict fields) = .ok raw := by
  constructor
  · intro decoded
    rw [decodeFrame] at decoded
    split at decoded
    · exact (fail_ne_ok decoded).elim
    next text ascii =>
    split at decoded
    · exact (fail_ne_ok decoded).elim
    · cases decoded
    · cases decoded
    next found read =>
      obtain ⟨encoded, printed, kept⟩ := bind_eq_ok.mp decoded
      obtain ⟨same, returned⟩ := guarded_eq_ok.mp kept
      obtain rfl := not_not.mp same
      obtain rfl := pure_eq_ok.mp returned
      exact ⟨text, ascii, read, printed⟩
    · exact (fail_ne_ok decoded).elim
  · rintro ⟨text, ascii, read, printed⟩
    simp only [decodeFrame, ascii, read]
    exact bind_eq_ok.mpr ⟨raw, printed, guarded_eq_ok.mpr ⟨not_not.mpr rfl, rfl⟩⟩

theorem contained_canonical {value : Value} (shallow : value.depth ≤ interpreter.recursionLimit) :
    Contained some (canonical interpreter value) := by
  unfold canonical
  rw [if_pos shallow, contained_ite]
  exact ⟨fun _ => contained_ok _, fun _ => contained_fail _⟩

/-- What is raised on an illegible frame, and only there, is not a refusal. -/
theorem contained_decodeFrame : Contained some (decodeFrame interpreter noun raw) ↔
    legible interpreter raw = true := by
  rw [decodeFrame, legible]
  cases decodeAscii raw with
  | none => simp [contained_fail]
  | some text =>
      dsimp only [Option.map_some]
      cases read : loads interpreter text with
      | error problem =>
          cases problem with
          | value => simp [contained_fail]
          | digits => simp [contained_error]
          | recursion => simp [contained_error]
      | ok value =>
          refine iff_of_true ?_ rfl
          split
          · next absurd => cases absurd
          · next absurd => cases absurd
          · next absurd => cases absurd
          · next fields same =>
            obtain rfl := Except.ok.inj same
            rw [contained_bind]
            refine ⟨contained_canonical (depth_loads read), fun encoded _ => ?_⟩
            rw [contained_ite]
            exact ⟨fun _ => contained_fail _, fun _ => contained_pure _⟩
          · exact contained_fail _

end Decoding

section Header

theorem length_packHeader (size : Nat) : (packHeader size).length = 4 := rfl

theorem unpackHeader_packHeader {size : Nat} (small : size < 2 ^ 32) :
    unpackHeader (packHeader size) = size := by
  simp only [unpackHeader, packHeader, List.foldl_cons, List.foldl_nil, UInt8.toNat_ofNat']
  omega

theorem packHeader_unpackHeader {header : Bytes} (four : header.length = 4) :
    packHeader (unpackHeader header) = header := by
  match header with
  | [b₀, b₁, b₂, b₃] =>
      have bounds := And.intro b₀.toNat_lt (And.intro b₁.toNat_lt (And.intro b₂.toNat_lt b₃.toNat_lt))
      simp only [unpackHeader, packHeader, List.foldl_cons, List.foldl_nil, List.cons.injEq,
        and_true]
      refine ⟨?_, ?_, ?_, ?_⟩ <;>
        (apply UInt8.toNat_inj.mp; rw [UInt8.toNat_ofNat']; omega)

/-- A frame on the stream. -/
def frameBytes (raw : Bytes) : Bytes := packHeader raw.length ++ raw

end Header

/-- What reading and writing leave as it was, and what they may log: the closing
of descriptors that came with a delivery. -/
structure Keeps (start finish : CoreExchange) : Prop where
  invocation : finish.invocation = start.invocation
  deliveries : finish.deliveries ⊆ start.deliveries
  log : ∃ fds : List Int, finish.log = start.log ++ fds.map Event.closed ∧
    ∀ fd ∈ fds, ∃ delivery ∈ start.deliveries, fd ∈ delivery.descriptors

namespace Keeps

variable {start middle finish : CoreExchange}

theorem of_eq (invocation : finish.invocation = start.invocation)
    (deliveries : finish.deliveries ⊆ start.deliveries) (log : finish.log = start.log) :
    Keeps start finish where
  invocation := invocation
  deliveries := deliveries
  log := ⟨[], by rw [log, List.map_nil, List.append_nil], fun _ absurd => nomatch absurd⟩

theorem refl (start : CoreExchange) : Keeps start start := of_eq rfl (List.Subset.refl _) rfl

theorem trans (first : Keeps start middle) (second : Keeps middle finish) : Keeps start finish where
  invocation := second.invocation.trans first.invocation
  deliveries := List.Subset.trans second.deliveries first.deliveries
  log := by
    obtain ⟨fds, logged, came⟩ := first.log
    obtain ⟨later, relogged, arrived⟩ := second.log
    refine ⟨fds ++ later, ?_, fun fd member => ?_⟩
    · rw [relogged, logged, List.map_append, List.append_assoc]
    · rcases List.mem_append.mp member with old | new
      · exact came fd old
      · obtain ⟨delivery, inside, carried⟩ := arrived fd new
        exact ⟨delivery, first.deliveries inside, carried⟩

end Keeps

theorem accept_closes (identity : FrameIdentity) (controls : List Control) (data : Bytes)
    (flags : Nat) (probe : Probe) :
    (identity.accept controls data flags probe).2 ⊆ FrameIdentity.ownedFds controls := by
  unfold FrameIdentity.accept
  split
  · exact List.erase_subset
  · exact List.Subset.refl _

theorem contained_answer {α : Type} (answered : Except String α) :
    Contained some (Probe.answer answered) := by
  cases answered with
  | error message => exact contained_fail message
  | ok value => exact contained_ok value

theorem contained_authenticate (identity : FrameIdentity) (controls : List Control) (data : Bytes)
    (flags : Nat) (probe : Probe) :
    Contained some (identity.authenticate controls data flags probe) := by
  unfold FrameIdentity.authenticate
  simp only [contained_ite]
  refine ⟨fun _ => ⟨fun _ => contained_fail _, fun _ => contained_ok _⟩,
    fun _ => ⟨fun _ => contained_fail _, fun _ => ?_⟩⟩
  split
  · exact contained_fail _
  simp only [contained_ite]
  refine ⟨fun _ => contained_fail _, fun _ => ?_⟩
  split
  · exact contained_fail _
  · simp only [contained_ite, contained_bind, contained_answer, true_and]
    exact ⟨fun _ => contained_fail _, fun _ _ _ => ⟨fun _ => contained_fail _,
      fun _ _ _ => ⟨fun _ => contained_fail _, fun _ => contained_pure _⟩⟩⟩
  · simp only [contained_ite, contained_bind, contained_answer, true_and]
    exact ⟨fun _ => contained_fail _, fun _ => ⟨fun _ _ _ => ⟨fun _ => contained_pure _,
      fun _ => contained_fail _⟩, fun _ _ _ => ⟨fun _ => contained_fail _,
        fun _ => contained_pure _⟩⟩⟩

theorem contained_accept (identity : FrameIdentity) (controls : List Control) (data : Bytes)
    (flags : Nat) (probe : Probe) :
    Contained some (identity.accept controls data flags probe).1 := by
  have checked := contained_authenticate identity controls data flags probe
  unfold FrameIdentity.accept
  split
  · next accepted _ => exact contained_ok _
  · exact checked

section Receiving

variable {exchange read : CoreExchange} {limit size flags : Nat} {controls : List Control}
  {probe : Probe} {deliveries : List Delivery} {outcome : Outcome Bytes}

theorem keeps_recvmsg (known : .arrived size controls flags probe :: deliveries ⊆ exchange.deliveries)
    (received : recvmsg limit size controls flags probe deliveries exchange = (outcome, read)) :
    Keeps exchange read ∧ read.deliveries = deliveries := by
  have rest : deliveries ⊆ exchange.deliveries :=
    fun delivery member => known (List.mem_cons_of_mem _ member)
  have closes := accept_closes exchange.identity controls
    (exchange.incoming.take (min limit (size + 1))) flags probe
  unfold recvmsg at received
  dsimp only at received
  split at received <;>
  · cases received
    exact ⟨⟨rfl, rest, _, rfl, fun fd member => ⟨_, known List.mem_cons_self, closes member⟩⟩, rfl⟩

theorem recvmsg_eq_error {raised : Raised}
    (received : recvmsg limit size controls flags probe deliveries exchange = (.error raised, read)) :
    raised.IsRefusal := by
  unfold recvmsg at received
  dsimp only at received
  split at received
  · next other rejected =>
    cases received
    exact isRefusal_of_contained (contained_accept _ _ _ _ _) rejected
  · cases received

/-- The bytes of a fragment are the next ones of the stream. -/
theorem recvmsg_eq_ok {data : Bytes}
    (received : recvmsg limit size controls flags probe deliveries exchange = (.ok data, read)) :
    exchange.incoming = data ++ read.incoming ∧ data.length ≤ limit ∧
      (data = [] → limit ≠ 0 → exchange.incoming = []) := by
  unfold recvmsg at received
  dsimp only at received
  split at received
  · cases received
  · cases received
    refine ⟨?_, ?_, fun empty positive => ?_⟩
    · rw [List.length_take, List.take_eq_take_min, List.take_append_drop]
    · rw [List.length_take]
      omega
    · rcases List.take_eq_nil_iff.mp empty with zero | nothing
      · omega
      · exact nothing

theorem keeps_receive (length : Nat) (known : deliveries ⊆ exchange.deliveries) :
    Keeps exchange (receive length deliveries exchange).2 := by
  induction deliveries generalizing length exchange with
  | nil => cases length <;> exact .of_eq rfl known rfl
  | cons delivery deliveries ih =>
      have rest : deliveries ⊆ exchange.deliveries :=
        fun other member => known (List.mem_cons_of_mem _ member)
      cases length with
      | zero => exact .of_eq rfl known rfl
      | succ remaining =>
          cases delivery with
          | late => exact .of_eq rfl rest rfl
          | failed => exact .of_eq rfl rest rfl
          | arrived size controls flags probe =>
              rw [receive]
              split
              · next received => exact (keeps_recvmsg known received).1
              · next received => exact (keeps_recvmsg known received).1
              · next received =>
                obtain ⟨keeps, left⟩ := keeps_recvmsg known received
                exact keeps.trans (ih _ (left ▸ List.Subset.refl _))

theorem receive_eq_error {length : Nat} {raised : Raised}
    (failed : (receive length deliveries exchange).1 = .error raised) : raised.IsRefusal := by
  induction deliveries generalizing length exchange with
  | nil => cases length <;> cases failed; exact ⟨_, rfl⟩
  | cons delivery deliveries ih =>
      cases length with
      | zero => cases failed
      | succ remaining =>
          cases delivery with
          | late => cases failed; exact ⟨_, rfl⟩
          | failed => cases failed; exact ⟨_, rfl⟩
          | arrived size controls flags probe =>
              rw [receive] at failed
              split at failed
              · next received =>
                cases failed
                exact recvmsg_eq_error received
              · cases failed
                exact ⟨_, rfl⟩
              · exact ih (map_eq_error.mp failed)

/-- The bytes received are the next ones of the stream, in order. -/
theorem receive_eq_ok {length : Nat} {data : Bytes}
    (received : (receive length deliveries exchange).1 = .ok data) :
    exchange.incoming = data ++ (receive length deliveries exchange).2.incoming ∧
      data.length = length := by
  induction deliveries generalizing length exchange data with
  | nil => cases length <;> cases received; exact ⟨rfl, rfl⟩
  | cons delivery deliveries ih =>
      cases length with
      | zero => cases received; exact ⟨rfl, rfl⟩
      | succ remaining =>
          cases delivery with
          | late => cases received
          | failed => cases received
          | arrived size controls flags probe =>
              rw [receive] at received ⊢
              split at received
              · cases received
              · cases received
              · next b fragment read taken =>
                obtain ⟨tail, obtained, rfl⟩ := map_eq_ok.mp received
                obtain ⟨split, sized⟩ := ih obtained
                obtain ⟨front, bound, _⟩ := recvmsg_eq_ok taken
                rw [List.length_cons] at bound
                dsimp only
                constructor
                · rw [front, split, List.append_assoc, ← split]
                · rw [List.length_append, List.length_cons, sized]
                  omega

end Receiving

section Sending

theorem transmit_frame (frame : Bytes) (sendings : List Sending) (exchange : CoreExchange) :
    ∃ left sent, (transmit frame sendings exchange).2 =
      { exchange with sendings := left, sent := sent } := by
  induction sendings generalizing frame exchange with
  | nil => cases frame <;> exact ⟨_, _, rfl⟩
  | cons sending sendings ih =>
      cases frame with
      | nil => exact ⟨_, _, rfl⟩
      | cons b frame =>
          cases sending with
          | late => exact ⟨_, _, rfl⟩
          | blocked => exact ih _ _
          | failed => exact ⟨_, _, rfl⟩
          | sent size =>
              rw [transmit]
              split_ifs with nothing
              · exact ⟨_, _, rfl⟩
              · obtain ⟨left, sent, same⟩ := ih ((b :: frame).drop size)
                  { exchange with sent := exchange.sent ++ (b :: frame).take size }
                exact ⟨left, sent, same⟩

theorem transmit_eq_error {frame : Bytes} {sendings : List Sending} {exchange : CoreExchange}
    {raised : Raised} (failed : (transmit frame sendings exchange).1 = .error raised) :
    raised.IsRefusal := by
  induction sendings generalizing frame exchange with
  | nil => cases frame <;> cases failed; exact ⟨_, rfl⟩
  | cons sending sendings ih =>
      cases frame with
      | nil => cases failed
      | cons b frame =>
          cases sending with
          | late => cases failed; exact ⟨_, rfl⟩
          | blocked => exact ih failed
          | failed => cases failed; exact ⟨_, rfl⟩
          | sent size =>
              rw [transmit] at failed
              split_ifs at failed with nothing
              · cases failed
                exact ⟨_, rfl⟩
              · exact ih failed

/-- A frame that was written has been sent whole, however the kernel cut it. -/
theorem transmit_eq_ok {frame : Bytes} {sendings : List Sending} {exchange : CoreExchange}
    (written : (transmit frame sendings exchange).1 = .ok ()) :
    (transmit frame sendings exchange).2.sent = exchange.sent ++ frame := by
  induction sendings generalizing frame exchange with
  | nil =>
      cases frame with
      | nil => exact (List.append_nil _).symm
      | cons b frame => cases written
  | cons sending sendings ih =>
      cases frame with
      | nil => exact (List.append_nil _).symm
      | cons b frame =>
          cases sending with
          | late => cases written
          | blocked => exact ih written
          | failed => cases written
          | sent size =>
              rw [transmit] at written ⊢
              split_ifs at written ⊢ with nothing
              · cases written
              · rw [ih written, List.append_assoc, List.take_append_drop]

end Sending

section Frames

variable {interpreter : Interpreter} (start : CoreExchange)

theorem recvExact_ensures (length : Nat) :
    Ensures (· = start) (recvExact length)
      (fun data finish => Keeps start finish ∧ start.incoming = data ++ finish.incoming ∧
        data.length = length)
      (fun raised finish => Keeps start finish ∧ raised.IsRefusal) where
  returns {state finish data} same received := by
    subst same
    have kept := keeps_receive length (List.Subset.refl state.deliveries)
    rw [show receive length state.deliveries state = _ from received] at kept
    have obtained := congrArg Prod.fst received
    have split := receive_eq_ok obtained
    rw [show receive length state.deliveries state = _ from received] at split
    exact ⟨kept, split⟩
  raises {state finish raised} same received := by
    subst same
    have kept := keeps_receive length (List.Subset.refl state.deliveries)
    rw [show receive length state.deliveries state = _ from received] at kept
    exact ⟨kept, receive_eq_error (congrArg Prod.fst received)⟩

/-- What `_read_frame` returns is the object of the frame at the front of the
stream; unless it refuses, that frame is illegible. -/
theorem readFrame_ensures (limit : Nat) :
    Ensures (· = start) (readFrame interpreter limit)
      (fun fields finish => Keeps start finish ∧ ∃ raw, raw.length ≤ limit ∧ raw ≠ [] ∧
        start.incoming = frameBytes raw ++ finish.incoming ∧
        decodeFrame interpreter "worker frame" raw = .ok fields)
      (fun raised finish => Keeps start finish ∧ (raised.IsRefusal ∨ ∃ raw, raw.length ≤ limit ∧
        start.incoming = frameBytes raw ++ finish.incoming ∧ legible interpreter raw = false)) := by
  refine .bind ((recvExact_ensures start 4).weaken (fun _ same => same) (fun _ _ post => post)
    fun raised finish post => ⟨post.1, .inl post.2⟩) fun header => ?_
  refine .ite (fun _ => .throw fun finish post => ⟨post.1, .inl ⟨_, rfl⟩⟩) fun sized => ?_
  refine .each fun middle ⟨kept, front, four⟩ => ?_
  obtain ⟨positive, bounded⟩ := not_or.mp sized
  refine .bind ((recvExact_ensures middle _).weaken (fun _ same => same) (fun _ _ post => post)
    fun raised finish post => ⟨kept.trans post.1, .inl post.2⟩) fun raw => ?_
  have split (finish : CoreExchange) (back : middle.incoming = raw ++ finish.incoming)
      (whole : raw.length = unpackHeader header) :
      start.incoming = frameBytes raw ++ finish.incoming := by
    rw [front, back, frameBytes, whole, packHeader_unpackHeader four, List.append_assoc]
  refine .ofExcept (fun fields finish decoded ⟨rest, back, whole⟩ => ?_)
    fun raised finish failed ⟨rest, back, whole⟩ => ?_
  · refine ⟨kept.trans rest, raw, by omega, ?_, split finish back whole, decoded⟩
    rintro rfl
    exact positive whole.symm
  · refine ⟨kept.trans rest, ?_⟩
    by_cases read : legible interpreter raw = true
    · exact .inl (isRefusal_of_contained (contained_decodeFrame.mpr read) failed)
    · exact .inr ⟨raw, by omega, split finish back whole, Bool.eq_false_iff.mpr read⟩

theorem writeFrame_ensures {value : Value} (shallow : value.depth ≤ interpreter.recursionLimit)
    (limit : Nat) :
    Ensures (· = start) (writeFrame interpreter value limit)
      (fun raw finish => Keeps start finish ∧ finish.incoming = start.incoming ∧
        canonical interpreter value = .ok raw ∧ raw.length ≤ limit ∧
        finish.sent = start.sent ++ frameBytes raw)
      (fun raised finish => Keeps start finish ∧ raised.IsRefusal) := by
  refine .ofExcept_bind ?_ fun raw printed => ?_
  · rintro raised state failed rfl
    exact ⟨.refl _, isRefusal_of_contained (contained_canonical shallow) failed⟩
  refine .ite (fun _ => .throw fun state same => same ▸ ⟨.refl _, _, rfl⟩) fun sized => ?_
  obtain ⟨_, bounded⟩ := not_or.mp sized
  have transmits := transmit_frame (packHeader raw.length ++ raw) start.sendings start
  have sends : Ensures (· = start)
      (ofStep fun exchange => transmit (packHeader raw.length ++ raw) exchange.sendings exchange)
      (fun (_ : Unit) finish => Keeps start finish ∧ finish.incoming = start.incoming ∧
        finish.sent = start.sent ++ frameBytes raw)
      (fun raised finish => Keeps start finish ∧ raised.IsRefusal) := by
    obtain ⟨left, sent, shape⟩ := transmits
    constructor
    · rintro state finish _ rfl written
      have whole := transmit_eq_ok (congrArg Prod.fst written)
      obtain rfl := congrArg Prod.snd written
      refine ⟨?_, ?_, whole⟩
      · rw [perform_ofStep, shape]
        exact .of_eq rfl (List.Subset.refl _) rfl
      · rw [perform_ofStep, shape]
    · rintro state finish raised rfl failed
      refine ⟨?_, transmit_eq_error (congrArg Prod.fst failed)⟩
      obtain rfl := congrArg Prod.snd failed
      rw [perform_ofStep, shape]
      exact .of_eq rfl (List.Subset.refl _) rfl
  exact .bind sends fun _ => .pure fun finish ⟨kept, incoming, sent⟩ =>
    ⟨kept, incoming, printed, by omega, sent⟩

/-- `_expect_eof` passes at the end of the stream only. -/
theorem expectEof_ensures :
    Ensures (· = start) expectEof
      (fun _ finish => Keeps start finish ∧ start.incoming = [])
      (fun raised finish => Keeps start finish ∧ raised.IsRefusal) where
  returns {state finish ended} same received := by
    subst same
    simp only [expectEof, perform_ofStep] at received
    split at received
    · cases received
    · cases received
    · cases received
    next size controls flags probe deliveries waiting =>
    split at received
    · cases received
    · next taken =>
      cases received
      exact ⟨(keeps_recvmsg (waiting ▸ List.Subset.refl _) taken).1,
        (recvmsg_eq_ok taken).2.2 rfl one_ne_zero⟩
    · cases received
  raises {state finish raised} same received := by
    subst same
    simp only [expectEof, perform_ofStep] at received
    split at received
    · cases received
      exact ⟨.refl _, _, rfl⟩
    · next deliveries waiting =>
      cases received
      exact ⟨.of_eq rfl (waiting ▸ List.subset_cons_self _ _) rfl, _, rfl⟩
    · next deliveries waiting =>
      cases received
      exact ⟨.of_eq rfl (waiting ▸ List.subset_cons_self _ _) rfl, _, rfl⟩
    next size controls flags probe deliveries waiting =>
    have known : .arrived size controls flags probe :: deliveries ⊆ state.deliveries :=
      waiting ▸ List.Subset.refl _
    split at received
    · next taken =>
      cases received
      exact ⟨(keeps_recvmsg known taken).1, recvmsg_eq_error taken⟩
    · cases received
    · next taken =>
      cases received
      exact ⟨(keeps_recvmsg known taken).1, _, rfl⟩

end Frames

end WorkerService

end GeniusNew
