import GeniusNew.Contracts.Issued

/-! # What can escape

A caller treats a `ContractError` as a refusal and anything else as a crash. An
outcome is contained when it raises nothing else. Only the comparison of texts
that are not ASCII is not.
-/

namespace GeniusNew

open Json

section Outcome

variable {α β ε : Type} {cause : ε → Option Raised}

/-- Nothing but refusals is raised; `cause` is the exception behind an error that
is not a refusal by its class. -/
def Contained (cause : ε → Option Raised) (outcome : Except ε α) : Prop :=
  ∀ error exception, outcome = .error error → cause error = some exception →
    ∃ message, exception = .contractError message

theorem contained_ok (value : α) : Contained cause (.ok value : Except ε α) :=
  fun _ _ absurd => (nomatch absurd)

theorem contained_pure (value : α) : Contained cause (pure value : Except ε α) :=
  contained_ok value

theorem contained_error {error : ε} : Contained cause (.error error : Except ε α) ↔
    ∀ exception, cause error = some exception → ∃ message, exception = .contractError message := by
  constructor
  · exact fun contained exception => contained error exception rfl
  · intro caused other exception same
    obtain rfl : error = other := Except.error.inj same
    exact caused exception

theorem contained_fail (message : String) : Contained some (fail message : Outcome α) := by
  rw [fail, contained_error]
  intro exception cause
  exact ⟨message, (Option.some.inj cause).symm⟩

theorem contained_bind {outcome : Except ε α} {next : α → Except ε β} :
    Contained cause (outcome >>= next) ↔
      Contained cause outcome ∧ ∀ value, outcome = .ok value → Contained cause (next value) := by
  cases outcome with
  | error error =>
      constructor
      · exact fun whole => ⟨fun other exception same => whole other exception
          (congrArg Except.error (Except.error.inj same)), fun _ absurd => (nomatch absurd)⟩
      · exact fun parts other exception same => parts.1 other exception
          (congrArg Except.error (Except.error.inj same))
  | ok value =>
      constructor
      · intro whole
        refine ⟨contained_ok value, fun other same => ?_⟩
        obtain rfl : value = other := Except.ok.inj same
        exact whole
      · exact fun parts => parts.2 value rfl

theorem contained_ite {condition : Prop} [Decidable condition] {first second : Except ε α} :
    Contained cause (if condition then first else second) ↔
      (condition → Contained cause first) ∧ (¬condition → Contained cause second) := by
  by_cases holds : condition
  · simp [holds]
  · simp [holds]

end Outcome

section Reading

variable {interpreter : Interpreter}

theorem depth_readItems {item : Reader Value} {level : Nat}
    (inner : ∀ text value rest, item text = .ok (value, rest) → value.depth ≤ level) (fuel : Nat)
    {text rest : Str} {values : List Value} (read : readItems item fuel text = .ok (values, rest)) :
    ∀ value ∈ values, value.depth ≤ level := by
  induction fuel generalizing text rest values with
  | zero => cases read
  | succ fuel ih =>
      obtain ⟨⟨value, left⟩, first, read⟩ := bind_eq_ok.mp read
      dsimp only at read
      split at read
      · cases read
      · split_ifs at read
        · obtain ⟨rfl, _⟩ := Prod.mk.inj (Except.ok.inj read)
          exact List.forall_mem_singleton.mpr (inner _ _ _ first)
        · obtain ⟨⟨others, left⟩, more, read⟩ := bind_eq_ok.mp read
          obtain ⟨rfl, _⟩ := Prod.mk.inj (Except.ok.inj read)
          exact List.forall_mem_cons.mpr ⟨inner _ _ _ first, ih more⟩

theorem depth_readPairs {item : Reader Value} {level : Nat}
    (inner : ∀ text value rest, item text = .ok (value, rest) → value.depth ≤ level) (fuel : Nat)
    {text rest : Str} {pairs : List (Str × Value)}
    (read : readPairs item fuel text = .ok (pairs, rest)) :
    ∀ pair ∈ pairs, pair.2.depth ≤ level := by
  induction fuel generalizing text rest pairs with
  | zero => cases read
  | succ fuel ih =>
      cases text with
      | nil => cases read
      | cons mark text =>
          rw [readPairs] at read
          split_ifs at read
          obtain ⟨⟨key, left⟩, _, read⟩ := bind_eq_ok.mp read
          dsimp only at read
          split at read
          · cases read
          · split_ifs at read
            obtain ⟨⟨value, left⟩, first, read⟩ := bind_eq_ok.mp read
            dsimp only at read
            split at read
            · cases read
            · split_ifs at read
              · obtain ⟨rfl, _⟩ := Prod.mk.inj (Except.ok.inj read)
                exact List.forall_mem_singleton.mpr (inner _ _ _ first)
              · obtain ⟨⟨others, left⟩, more, read⟩ := bind_eq_ok.mp read
                obtain ⟨rfl, _⟩ := Prod.mk.inj (Except.ok.inj read)
                exact List.forall_mem_cons.mpr ⟨inner _ _ _ first, ih more⟩

theorem depth_readArray {item : Reader Value} {level : Nat}
    (inner : ∀ text value rest, item text = .ok (value, rest) → value.depth ≤ level)
    {text rest : Str} {value : Value} (read : readArray item text = .ok (value, rest)) :
    value.depth ≤ level + 1 := by
  unfold readArray at read
  split at read
  · cases read
  · split_ifs at read
    · obtain ⟨rfl, _⟩ := Prod.mk.inj (Except.ok.inj read)
      exact Nat.succ_le_succ (Nat.zero_le _)
    · obtain ⟨⟨items, left⟩, many, read⟩ := bind_eq_ok.mp read
      obtain ⟨rfl, _⟩ := Prod.mk.inj (Except.ok.inj read)
      exact Nat.succ_le_succ (Value.depthItems_le.mpr (depth_readItems inner _ many))

theorem depth_readObject {item : Reader Value} {level : Nat}
    (inner : ∀ text value rest, item text = .ok (value, rest) → value.depth ≤ level)
    {text rest : Str} {value : Value} (read : readObject item text = .ok (value, rest)) :
    value.depth ≤ level + 1 := by
  unfold readObject at read
  split at read
  · cases read
  · split_ifs at read
    · obtain ⟨rfl, _⟩ := Prod.mk.inj (Except.ok.inj read)
      exact Nat.succ_le_succ (Nat.zero_le _)
    · obtain ⟨⟨pairs, left⟩, many, read⟩ := bind_eq_ok.mp read
      obtain ⟨rfl, _⟩ := Prod.mk.inj (Except.ok.inj read)
      exact Nat.succ_le_succ (Value.depthFields_le.mpr (depth_readPairs inner _ many))

theorem depth_readName {name : String} {known value : Value} {text rest : Str}
    (flat : known.depth = 0) (read : readName name known text = .ok (value, rest)) :
    value.depth = 0 := by
  unfold readName at read
  split_ifs at read
  obtain ⟨rfl, _⟩ := Prod.mk.inj (Except.ok.inj read)
  exact flat

theorem depth_readUnsigned {negative : Bool} {value : Value} {text rest : Str}
    (read : readUnsigned interpreter negative text = .ok (value, rest)) : value.depth = 0 := by
  unfold readUnsigned at read
  split at read
  · cases read
  · split at read
    · split at read
      · obtain ⟨rfl, _⟩ := Prod.mk.inj (Except.ok.inj read)
        rfl
      · cases read
    · split at read
      · obtain ⟨rfl, _⟩ := Prod.mk.inj (Except.ok.inj read)
        rfl
      · obtain ⟨rfl, _⟩ := Prod.mk.inj (Except.ok.inj read)
        rfl

theorem depth_readNumber {value : Value} {text rest : Str}
    (read : readNumber interpreter text = .ok (value, rest)) : value.depth = 0 := by
  unfold readNumber at read
  split at read
  · split_ifs at read
    · obtain ⟨rfl, _⟩ := Prod.mk.inj (Except.ok.inj read)
      rfl
    · exact depth_readUnsigned read
  · exact depth_readUnsigned read

theorem depth_readWith {nested : Option (Reader Value)} {level : Nat}
    (inner : ∀ item ∈ nested, ∃ below, level = below + 1 ∧
      ∀ text value rest, item text = .ok (value, rest) → value.depth ≤ below)
    {text rest : Str} {value : Value} (read : readWith interpreter nested text = .ok (value, rest)) :
    value.depth ≤ level := by
  cases text with
  | nil => cases read
  | cons c text =>
      unfold readWith at read
      dsimp only at read
      split_ifs at read
      · obtain ⟨⟨units, left⟩, _, read⟩ := bind_eq_ok.mp read
        obtain ⟨rfl, _⟩ := Prod.mk.inj (Except.ok.inj read)
        exact Nat.zero_le _
      · split at read
        · cases read
        · next item =>
            obtain ⟨below, rfl, deep⟩ := inner item rfl
            exact depth_readObject deep read
      · split at read
        · cases read
        · next item =>
            obtain ⟨below, rfl, deep⟩ := inner item rfl
            exact depth_readArray deep read
      · exact (depth_readName rfl read).trans_le (Nat.zero_le _)
      · exact (depth_readName rfl read).trans_le (Nat.zero_le _)
      · exact (depth_readName rfl read).trans_le (Nat.zero_le _)
      · exact (depth_readName rfl read).trans_le (Nat.zero_le _)
      · exact (depth_readName rfl read).trans_le (Nat.zero_le _)
      · exact (depth_readNumber read).trans_le (Nat.zero_le _)

/-- A value read with a number of bracket levels left has no more. -/
theorem depth_readValue (level : Nat) {text rest : Str} {value : Value}
    (read : readValue interpreter level text = .ok (value, rest)) : value.depth ≤ level := by
  induction level generalizing text rest value with
  | zero => exact depth_readWith (fun _ absurd => by cases absurd) read
  | succ level ih =>
      refine depth_readWith (fun item same => ?_) read
      obtain rfl : _ = item := Option.some.inj same
      exact ⟨level, rfl, fun _ _ _ => ih⟩

theorem depth_readText {text : Str} {value : Value}
    (read : readText interpreter text = .ok value) : value.depth ≤ interpreter.recursionLimit := by
  obtain ⟨⟨found, rest⟩, whole, read⟩ := bind_eq_ok.mp read
  dsimp only at read
  split_ifs at read
  obtain rfl : found = value := Except.ok.inj read
  exact depth_readValue _ whole

theorem depth_loads {text : Str} {value : Value} (read : loads interpreter text = .ok value) :
    value.depth ≤ interpreter.recursionLimit := by
  cases found : readText interpreter text with
  | error raised =>
      rw [loads, found] at read
      cases read
  | ok origin =>
      rw [loads, found] at read
      obtain rfl : origin.collapse = value := Except.ok.inj read
      exact (Value.depth_collapse_le origin).trans (depth_readText found)

theorem contained_decodeWire (wire : Option Bytes) (wanted : List Str) (noun : String) :
    Contained some (decodeWire interpreter wire wanted noun) := by
  unfold decodeWire
  split
  · exact contained_fail _
  rw [contained_ite]
  refine ⟨fun _ => contained_fail _, fun _ => ?_⟩
  split
  · exact contained_fail _
  rw [contained_ite]
  refine ⟨fun _ => contained_fail _, fun _ => ?_⟩
  split
  · exact contained_fail _
  next read decoded =>
    simp only [contained_ite]
    refine ⟨fun _ => contained_fail _, fun _ => ⟨fun _ => contained_fail _, fun _ => ?_⟩⟩
    split
    · next fields =>
        have shallow := depth_readText decoded
        simp only [contained_ite, contained_bind]
        refine ⟨fun _ => contained_fail _, fun _ => ⟨?_, fun _ _ => ⟨fun _ => contained_fail _,
          fun _ => contained_pure _⟩⟩⟩
        unfold canonical
        rw [if_pos shallow, contained_ite]
        exact ⟨fun _ => contained_ok _, fun _ => contained_fail _⟩
    · exact contained_fail _

end Reading

section Fields

variable {interpreter : Interpreter}

theorem contained_string (value : Value) (field : String) : Contained some (string value field) := by
  unfold string
  split
  · exact contained_ok _
  · exact contained_fail _

theorem contained_integer (value : Value) (field : String) :
    Contained some (integer value field) := by
  unfold integer
  split
  · exact contained_ok _
  · exact contained_fail _

theorem contained_mapM_string (items : List Value) (field : String) :
    Contained some (items.mapM fun item => string item field) := by
  induction items with
  | nil => exact contained_pure _
  | cons item items ih =>
      rw [List.mapM_cons]
      simp only [contained_bind, contained_string, contained_pure, ih, implies_true, and_self]

theorem contained_stringTuple (value : Value) (field : String) :
    Contained some (stringTuple value field) := by
  unfold stringTuple
  split
  · exact contained_fail _
  · simp only [contained_bind, contained_ite, contained_mapM_string, contained_fail, contained_pure,
      implies_true, and_self]
  · exact contained_fail _

theorem contained_oneText (noun : String) (value : Value) : Contained some (oneText noun value) := by
  unfold oneText
  split
  · rw [contained_ite]
    refine ⟨fun _ => ?_, fun _ => contained_fail _⟩
    split
    · exact contained_ok _
    · exact contained_fail _
  · exact contained_fail _

theorem contained_grantFor (policy : Policy) (subject : Str) :
    Contained some (policy.grantFor subject) := by
  unfold Policy.grantFor subjectBytes
  rw [contained_bind, contained_ite]
  refine ⟨⟨fun _ => contained_fail _, fun _ => ?_⟩, fun _ _ => ?_⟩
  · split
    · exact contained_ok _
    · exact contained_fail _
  · split
    · exact contained_pure _
    · exact contained_fail _

theorem contained_handoffOf (fields : List (Str × Value)) : Contained some (handoffOf fields) := by
  simp only [handoffOf, payload, contained_bind, contained_string, contained_integer,
    contained_stringTuple, contained_oneText, contained_pure, implies_true, and_self]

/-- The one partial function of the boundary. -/
theorem contained_compareDigest {left right : Str} : Contained some (compareDigest left right) ↔
    left.all (·.val < 128) = true ∧ right.all (·.val < 128) = true := by
  unfold compareDigest
  rw [contained_ite, Bool.and_eq_true]
  constructor
  · intro parts
    by_contra other
    obtain ⟨_, absurd⟩ := parts.2 other .typeError .typeError rfl rfl
    cases absurd
  · exact fun ascii => ⟨fun _ => contained_ok _, fun other => (other ascii).elim⟩

end Fields

section Validation

variable {interpreter : Interpreter} {wire : Option Bytes} {presented : Presented}
  {verifier : HandoffVerifier} {fields : List (Str × Value)} {allowPending : Bool}

theorem contained_fromObject :
    Contained some (fromObject fields presented verifier allowPending) ↔
      (presented.jobId ≠ [] → (∃ grant, presented.policy.grantFor presented.subject = .ok grant) →
        ∀ handoff, handoffOf fields = .ok handoff →
          handoff.payloadSha256.all (·.val < 128) = true) := by
  have hash (handoff : Handoff) :=
    ascii_of_isHexText (sha256 (canonicalBytes (payloadDict handoff.payload))).property
  unfold fromObject
  constructor
  · rintro contained named ⟨grant, found⟩ handoff shaped
    have first := (contained_bind.mp contained).2 presented.jobId (string_eq_ok.mpr ⟨rfl, named⟩)
    have second := (contained_bind.mp ((contained_bind.mp first).2 grant found)).2 handoff shaped
    exact (contained_compareDigest.mp (contained_bind.mp second).1).1
  · intro comparable
    refine contained_bind.mpr ⟨contained_string _ _, fun job named => contained_bind.mpr
      ⟨contained_grantFor _ _, fun grant found => contained_bind.mpr
        ⟨contained_handoffOf _, fun handoff shaped => contained_bind.mpr ⟨?_, fun hashed _ => ?_⟩⟩⟩⟩
    · obtain ⟨same, nonempty⟩ := string_eq_ok.mp named
      rw [← Value.str.inj same] at nonempty
      exact contained_compareDigest.mpr
        ⟨comparable nonempty ⟨grant, found⟩ handoff shaped, hash handoff⟩
    · simp only [contained_ite, contained_fail, implies_true, true_and]
      intro _ _
      split
      · exact contained_fail _
      · simp only [contained_ite, contained_fail, contained_pure, implies_true, and_self]

/-- The hash a wire claims for its payload can be compared, as far as the check
comes to it. -/
def HashComparable (interpreter : Interpreter) (wire : Option Bytes) (presented : Presented) : Prop :=
  ∀ fields handoff, decodeWire interpreter wire handoffKeys "handoff" = .ok fields →
    handoffOf fields = .ok handoff → presented.jobId ≠ [] →
    (∃ grant, presented.policy.grantFor presented.subject = .ok grant) →
    handoff.payloadSha256.all (·.val < 128) = true

theorem contained_validate : Contained some (validate interpreter wire presented verifier) ↔
    HashComparable interpreter wire presented := by
  simp only [validate, contained_bind, contained_decodeWire, contained_fromObject, true_and,
    HashComparable]
  exact ⟨fun all fields handoff decoded shaped named found =>
    all fields decoded named found handoff shaped, fun all fields decoded named found handoff shaped =>
      all fields handoff decoded shaped named found⟩

theorem contained_validatePending :
    Contained some (validatePending interpreter wire presented verifier) ↔
      HashComparable interpreter wire presented := by
  simp only [validatePending, contained_bind, contained_decodeWire, contained_fromObject,
    contained_ite, contained_fail, contained_pure, implies_true, and_self, and_true, true_and,
    HashComparable]
  exact ⟨fun all fields handoff decoded shaped named found =>
    all fields decoded named found handoff shaped, fun all fields decoded named found handoff shaped =>
      all fields handoff decoded shaped named found⟩

end Validation

end GeniusNew
