import GeniusNew.Contracts.Decoded
import GeniusNew.HttpEntry.Confined

/-! # The shape of a submitted body

`_payload` decides on the dictionary that `json.loads` collected, in which the last of
several members of one name stands for all of them. It takes the one-member objects it
means to take and, besides them, the objects that repeat their one member.
-/

namespace GeniusNew.HttpEntry

open Json

section Collected

variable {α : Type} {pairs fields : List (Str × α)} {key other : Str} {value : α}

theorem collect_concat (pair : Str × α) :
    collect (pairs ++ [pair]) = assign (collect pairs) pair.1 pair.2 := by
  rw [collect, List.foldl_append]
  rfl

theorem mem_keys_assign : other ∈ keys (assign fields key value) ↔ other = key ∨ other ∈ keys fields := by
  unfold assign
  by_cases held : key ∈ keys fields
  · have same : keys (fields.map fun field => if field.1 = key then (key, value) else field) =
        keys fields := by
      rw [keys, keys, List.map_map]
      apply List.map_congr_left
      intro field _
      by_cases here : field.1 = key
      · simp [here]
      · simp [here]
    rw [if_pos held, same]
    constructor
    · exact Or.inr
    · rintro (rfl | member)
      · exact held
      · exact member
  · rw [if_neg held, keys, List.map_append, List.mem_append, or_comm]
    simp [keys]

theorem mem_keys_collect : key ∈ keys (collect pairs) ↔ key ∈ keys pairs := by
  induction pairs using List.reverseRecOn with
  | nil => rfl
  | append_singleton pairs pair ih =>
      rw [collect_concat, mem_keys_assign, ih, keys, keys, List.map_append, List.mem_append, or_comm]
      simp

/-- Pairs of one key collect to the last of them. -/
theorem collect_of_one_key (named : ∀ pair ∈ pairs, pair.1 = key) :
    collect (pairs ++ [(key, value)]) = [(key, value)] := by
  rw [collect_concat]
  have sized : (collect pairs).length ≤ 1 := by
    have subset : keys (collect pairs) ⊆ [key] := by
      intro other member
      obtain ⟨pair, inside, rfl⟩ := List.mem_map.mp (mem_keys_collect.mp member)
      exact List.mem_singleton.mpr (named pair inside)
    simpa [keys] using ((keys_collect_nodup pairs).subperm subset).length_le
  rcases found : collect pairs with _ | ⟨pair, rest⟩
  · rfl
  rcases rest with _ | ⟨second, rest⟩
  · have inside : pair ∈ collect pairs := by
      rw [found]
      exact List.mem_singleton_self pair
    obtain rfl := named pair (mem_of_mem_collect inside)
    simp [assign, keys]
  · simp [found] at sized

end Collected

/-- The body is the text of an object whose only member is a text that is not empty. -/
def ClosedShape (interpreter : Interpreter) (body : Bytes) (text : Str) : Prop :=
  text ≠ [] ∧ ∃ chars, decodeUtf8 body = some chars ∧
    readText interpreter chars = .ok (.dict [(str "text", .str text)])

/-- The body is the text of an object of several members, all of the name the payload
has, whose last value is a text that is not empty. -/
def RepeatsMember (interpreter : Interpreter) (body : Bytes) : Prop :=
  ∃ chars members text, text ≠ [] ∧ decodeUtf8 body = some chars ∧
    readText interpreter chars = .ok (.dict (members ++ [(str "text", .str text)])) ∧
    members ≠ [] ∧ ∀ member ∈ members, member.1 = str "text"

section Accepted

variable {interpreter : Interpreter} {body : Bytes} {text : Str}

theorem loadsBody_eq_some {value : Value} : loadsBody interpreter body = some value ↔
    ∃ chars written, decodeUtf8 body = some chars ∧ readText interpreter chars = .ok written ∧
      written.collapse = value := by
  unfold loadsBody
  rw [Option.bind_eq_some_iff]
  refine exists_congr fun chars => ?_
  unfold loads
  cases readText interpreter chars with
  | error raised => simp [Except.map, Except.toOption]
  | ok written => simp [Except.map, Except.toOption]

theorem payload_eq_some : payload interpreter body = some text ↔ text ≠ [] ∧
    ∃ fields, loadsBody interpreter body = some (.dict fields) ∧
      hasKeys fields [str "text"] = true ∧ fields.lookup (str "text") = some (.str text) := by
  unfold payload
  constructor
  · intro taken
    split at taken
    case h_2 => cases taken
    case h_1 fields loaded =>
      split_ifs at taken with named
      split at taken
      case h_2 => cases taken
      case h_1 held =>
        split_ifs at taken with empty
        obtain rfl := Option.some.inj taken
        exact ⟨empty, fields, loaded, named, held⟩
  · rintro ⟨nonempty, fields, loaded, named, held⟩
    simp [loaded, named, held, nonempty]

theorem collapse_eq_dict {written : Value} {fields : List (Str × Value)}
    (collapsed : written.collapse = .dict fields) : ∃ pairs, written = .dict pairs ∧
      fields = collect (pairs.map fun pair => (pair.1, pair.2.collapse)) := by
  cases written with
  | dict pairs =>
      refine ⟨pairs, rfl, ?_⟩
      rw [← Value.collapseFields_eq_map]
      exact (Value.dict.inj collapsed).symm
  | list items => cases collapsed
  | _ => cases collapsed

theorem collapse_eq_str {written : Value} (collapsed : written.collapse = .str text) :
    written = .str text := by
  cases written with
  | str written => exact collapsed
  | list items => cases collapsed
  | dict pairs => cases collapsed
  | _ => cases collapsed

/-- What the code takes: every member has the payload's name, and the last one counts. -/
theorem payload_eq_some_iff : payload interpreter body = some text ↔ text ≠ [] ∧
    ∃ chars members, decodeUtf8 body = some chars ∧
      readText interpreter chars = .ok (.dict (members ++ [(str "text", .str text)])) ∧
      ∀ member ∈ members, member.1 = str "text" := by
  rw [payload_eq_some]
  refine and_congr_right fun _ => ?_
  constructor
  · rintro ⟨fields, loaded, named, held⟩
    obtain ⟨chars, written, decoded, read, collapsed⟩ := loadsBody_eq_some.mp loaded
    obtain ⟨pairs, rfl, rfl⟩ := collapse_eq_dict collapsed
    have all : ∀ pair ∈ pairs, pair.1 = str "text" := by
      intro pair inside
      have known : pair.1 ∈ keys (collect (pairs.map fun pair => (pair.1, pair.2.collapse))) :=
        mem_keys_collect.mpr (List.mem_map.mpr ⟨_, List.mem_map.mpr ⟨pair, inside, rfl⟩, rfl⟩)
      rw [hasKeys, Bool.and_eq_true, List.all_eq_true] at named
      simpa using named.1 _ known
    cases pairs using List.reverseRecOn with
    | nil => cases held
    | append_singleton members last =>
        obtain ⟨name, value⟩ := last
        obtain rfl : name = str "text" := all (name, value) (by simp)
        have collected : collect ((members ++ [(str "text", value)]).map
            fun pair => (pair.1, pair.2.collapse)) = [(str "text", value.collapse)] := by
          rw [List.map_append]
          refine collect_of_one_key fun pair inside => ?_
          obtain ⟨member, inMembers, rfl⟩ := List.mem_map.mp inside
          exact all member (List.mem_append_left _ inMembers)
        rw [collected, List.lookup_cons_self] at held
        obtain rfl := collapse_eq_str (Option.some.inj held)
        exact ⟨chars, members, decoded, read,
          fun member inside => all member (List.mem_append_left _ inside)⟩
  · rintro ⟨chars, members, decoded, read, named⟩
    refine ⟨[(str "text", .str text)], ?_, by simp [hasKeys, keys], List.lookup_cons_self⟩
    refine loadsBody_eq_some.mpr ⟨chars, _, decoded, read, ?_⟩
    change Value.dict (collect (Value.collapseFields _)) = _
    rw [Value.collapseFields_eq_map, List.map_append]
    refine congrArg Value.dict (collect_of_one_key fun pair inside => ?_)
    obtain ⟨member, inMembers, rfl⟩ := List.mem_map.mp inside
    exact named member inMembers

/-- Bodies of the closed shape and no others are taken, and no other reaches `submit`. -/
def ClosedOnly (interpreter : Interpreter) (body : Bytes) : Prop :=
  (∀ text, payload interpreter body = some text ↔ ClosedShape interpreter body text) ∧
  ((∀ text, ¬ ClosedShape interpreter body text) → ∀ lower entry callbacks request arguments,
    request.body = some body → .submitted arguments ∉
      (Entry.handle entry callbacks lower interpreter request).events)

theorem not_closedOnly_of_repeats (repeats : RepeatsMember interpreter body) :
    ¬ ClosedOnly interpreter body := by
  obtain ⟨chars, members, text, nonempty, decoded, read, several, named⟩ := repeats
  rintro ⟨taken, -⟩
  have accepted := payload_eq_some_iff.mpr ⟨nonempty, chars, members, decoded, read, named⟩
  obtain ⟨-, chars', decoded', read'⟩ := (taken text).mp accepted
  obtain rfl : chars = chars' := Option.some.inj (decoded.symm.trans decoded')
  have same := Value.dict.inj (Except.ok.inj (read.symm.trans read'))
  exact several (List.append_left_eq_self.mp same)

theorem closedOnly_of_single (single : ¬ RepeatsMember interpreter body) :
    ClosedOnly interpreter body := by
  have taken (text : Str) :
      payload interpreter body = some text ↔ ClosedShape interpreter body text := by
    rw [payload_eq_some_iff]
    constructor
    · rintro ⟨nonempty, chars, members, decoded, read, named⟩
      by_cases several : members = []
      · subst several
        exact ⟨nonempty, chars, decoded, read⟩
      · exact (single ⟨chars, members, text, nonempty, decoded, read, several, named⟩).elim
    · rintro ⟨nonempty, chars, decoded, read⟩
      exact ⟨nonempty, chars, [], decoded, read, fun _ inside => absurd inside List.not_mem_nil⟩
  refine ⟨taken, ?_⟩
  intro foreign lower entry callbacks request arguments given submitted
  obtain ⟨_, text, data, same, -, accepted, -⟩ := submitted_of_handle submitted
  obtain rfl : body = data := Option.some.inj (given.symm.trans same)
  exact foreign text ((taken text).mp accepted)

end Accepted

/-- The body is a closed shape and nothing else is taken, exactly when it does not
repeat its member. -/
theorem closedOnly_iff (interpreter : Interpreter) (body : Bytes) :
    ClosedOnly interpreter body ↔ ¬ RepeatsMember interpreter body := by
  constructor
  · intro closed repeats
    exact not_closedOnly_of_repeats repeats closed
  · exact closedOnly_of_single

/-- An object with two members of one name. -/
def repeated : Value := .dict [(str "text", .str (str "a")), (str "text", .str (str "b"))]

example : dumps repeated = str "\x7b\"text\":\"a\",\"text\":\"b\"\x7d" := by decide

theorem repeated_taken : ¬ ∀ body, ClosedOnly literalInterpreter body := by
  intro closed
  refine not_closedOnly_of_repeats ?_ (closed (canonicalBytes repeated))
  have read := readText_dumps literalInterpreter
    (show repeated.depth ≤ literalInterpreter.recursionLimit by decide) (by decide)
  have named : ∀ member ∈ [(str "text", Value.str (str "a"))], member.1 = str "text" := by
    intro member inside
    rw [List.mem_singleton.mp inside]
  exact ⟨dumps repeated, [(str "text", .str (str "a"))], str "b", by decide,
    decodeUtf8_canonicalBytes repeated, read, List.cons_ne_nil _ _, named⟩

end GeniusNew.HttpEntry
