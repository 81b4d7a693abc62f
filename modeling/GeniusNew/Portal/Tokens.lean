import GeniusNew.Base64.Codec
import GeniusNew.Contracts.Basic
import GeniusNew.Hash.Hmac
import Mathlib.Data.List.DropRight

/-! # Portal session and CSRF tokens

A token is the URL-safe Base64 of 32 bytes without its padding. The last of its 43
characters has two spare bits that the decoder ignores; the comparison with the encoding of
what was decoded leaves one spelling for each token.
-/

namespace GeniusNew

open Json

namespace Portal

def tokenBytes : Nat := 32

def csrfLabel : Bytes := asciiBytes (str "geniusnew/portal/csrf/v1") ++ [0]

/-- `bytes.translate` from the standard alphabet to the URL-safe one. -/
def urlSafe (c : UInt8) : UInt8 := if c = 43 then 45 else if c = 47 then 95 else c

/-- `bytes.translate` with `altchars=b"-_"`, before decoding. -/
def standard (c : UInt8) : UInt8 := if c = 45 then 43 else if c = 95 then 47 else c

/-- `_encode`. -/
def encode (value : Bytes) : Str :=
  (((Base64.b2aBase64 value).map urlSafe).rdropWhile (· = Base64.equalsSign)).map fun b =>
    Fin.ofNat _ b.toNat

def isTokenChar (c : CodePoint) : Bool :=
  (65 ≤ c.val && c.val ≤ 90) || (97 ≤ c.val && c.val ≤ 122) || isDigit c || c = 95 || c = 45

/-- `[A-Za-z0-9_-]{43}` as a whole. -/
def isTokenText (value : Str) : Bool := value.length = 43 && value.all isTokenChar

/-- `_decode`. -/
def decode (value : Str) : Outcome Bytes :=
  if ¬ isTokenText value then fail "invalid Portal token"
  else
    match Base64.a2bBase64 ((asciiBytes (value ++ [61])).map standard) with
    | none => fail "invalid Portal token"
    | some raw =>
        if raw.length ≠ tokenBytes ∨ encode raw ≠ value then fail "invalid Portal token"
        else .ok raw

/-- `new_session_token`; the entropy is absent when the system has none. -/
def newSessionToken (entropy : Option Bytes) : Outcome Str :=
  match entropy with
  | none => fail "session entropy unavailable"
  | some raw =>
      if raw.length ≠ tokenBytes then fail "session entropy unavailable" else .ok (encode raw)

def sessionDigest (token : Str) : Outcome Digest := do
  let raw ← decode token
  return sha256 raw

/-- `_csrf_key`. -/
def csrfKey (key : Bytes) : Outcome Bytes :=
  if key.length < 32 then fail "invalid Portal CSRF key" else .ok key

def csrfToken (sessionToken : Str) (key : Bytes) : Outcome Str := do
  let raw ← decode sessionToken
  let key ← csrfKey key
  return encode (Hmac.digest key (csrfLabel ++ raw))

def verifyCsrfToken (sessionToken : Str) (key : Bytes) (submitted : Str) : Outcome Unit := do
  let supplied ← decode submitted
  let token ← csrfToken sessionToken key
  let expected ← decode token
  if supplied ≠ expected then fail "invalid Portal CSRF token" else return ()

section Symbols

theorem isTokenChar_urlSafe : ∀ n < 64,
    isTokenChar (Fin.ofNat _ (urlSafe (Base64.symbol n)).toNat) = true := by decide

theorem standard_urlSafe : ∀ n < 64,
    standard (urlSafe (Base64.symbol n)) = Base64.symbol n := by decide

theorem urlSafe_ne_equalsSign : ∀ n < 64,
    urlSafe (Base64.symbol n) ≠ Base64.equalsSign := by decide

end Symbols

/-- The characters of a token, before they are code points. -/
def tokenSymbols (raw : Bytes) : Bytes := (Base64.sextets raw).map fun n => urlSafe (Base64.symbol n)

section Encode

variable {raw : Bytes}

theorem mem_tokenSymbols {b : UInt8} (member : b ∈ tokenSymbols raw) :
    ∃ n < 64, b = urlSafe (Base64.symbol n) := by
  obtain ⟨n, inside, rfl⟩ := List.mem_map.mp member
  exact ⟨n, Base64.sextets_lt raw n inside, rfl⟩

theorem rdropWhile_padding (raw : Bytes) (count : Nat) :
    (tokenSymbols raw ++ List.replicate count Base64.equalsSign).rdropWhile
      (· = Base64.equalsSign) = tokenSymbols raw := by
  induction count with
  | zero =>
      rw [List.replicate_zero, List.append_nil, List.rdropWhile_eq_self_iff]
      intro nonempty
      obtain ⟨n, small, same⟩ := mem_tokenSymbols (List.getLast_mem nonempty)
      rw [same, decide_eq_true_eq]
      exact urlSafe_ne_equalsSign n small
  | succ count ih =>
      rw [List.replicate_succ', ← List.append_assoc, List.rdropWhile_concat_pos _ _ _ (by simp), ih]

/-- Only the padding is stripped. -/
theorem encode_eq (raw : Bytes) :
    encode raw = (tokenSymbols raw).map fun b => Fin.ofNat _ b.toNat := by
  have padding (count : Nat) : (List.replicate count Base64.equalsSign).map urlSafe =
      List.replicate count Base64.equalsSign := by
    rw [List.map_replicate]
    rfl
  rw [encode, Base64.b2aBase64, List.map_append, List.map_map, padding]
  exact congrArg _ (rdropWhile_padding raw _)

/-- A token of 32 bytes has the form of one. -/
theorem isTokenText_encode (sized : raw.length = tokenBytes) : isTokenText (encode raw) = true := by
  have length : (encode raw).length = 43 := by
    rw [encode_eq, List.length_map, tokenSymbols, List.length_map, Base64.length_sextets, sized]
    rfl
  rw [isTokenText, length, decide_eq_true rfl, Bool.true_and, List.all_eq_true, encode_eq]
  intro c member
  obtain ⟨b, inside, rfl⟩ := List.mem_map.mp member
  obtain ⟨n, small, rfl⟩ := mem_tokenSymbols inside
  exact isTokenChar_urlSafe n small

/-- The bytes the decoder is given for a token are its Base64. -/
theorem standard_encode (sized : raw.length = tokenBytes) :
    (asciiBytes (encode raw ++ [61])).map standard = Base64.b2aBase64 raw := by
  have padding : List.replicate ((3 - raw.length % 3) % 3) Base64.equalsSign =
      [Base64.equalsSign] := by
    rw [sized]
    rfl
  rw [encode_eq, asciiBytes, Base64.b2aBase64, padding, List.map_append, List.map_append,
    List.map_map, List.map_map]
  refine congrArg (· ++ [Base64.equalsSign]) ?_
  rw [tokenSymbols, List.map_map]
  refine List.map_congr_left fun n member => ?_
  have small := Base64.sextets_lt raw n member
  have byte := (urlSafe (Base64.symbol n)).toNat_lt
  simp only [Function.comp_apply, Fin.val_ofNat]
  rw [Nat.mod_eq_of_lt (by omega), UInt8.ofNat_toNat]
  exact standard_urlSafe n small

/-- A text decodes to 32 bytes exactly when it is their encoding. -/
theorem decode_eq_ok {value : Str} :
    decode value = .ok raw ↔ raw.length = tokenBytes ∧ value = encode raw := by
  unfold decode
  rw [guarded_eq_ok, not_not]
  constructor
  · intro ⟨_, decoded⟩
    split at decoded
    · exact (fail_ne_ok decoded).elim
    · next found _ =>
        obtain ⟨same, rfl⟩ := guarded_eq_ok.mp decoded |>.imp_right Except.ok.inj
        simp only [ne_eq, not_or, not_not] at same
        exact ⟨same.1, same.2.symm⟩
  · intro ⟨sized, same⟩
    subst same
    refine ⟨isTokenText_encode sized, ?_⟩
    rw [standard_encode sized, Base64.a2bBase64_b2aBase64]
    exact guarded_eq_ok.mpr ⟨by simp [sized], rfl⟩

theorem encode_injective {other : Bytes} (sized : raw.length = tokenBytes)
    (long : other.length = tokenBytes) (same : encode raw = encode other) : raw = other := by
  have first := decode_eq_ok.mpr ⟨sized, same.symm⟩
  exact Except.ok.inj (first.symm.trans (decode_eq_ok.mpr ⟨long, rfl⟩))

/-- A minted token is accepted. -/
theorem decode_newSessionToken {entropy : Option Bytes} {token : Str}
    (minted : newSessionToken entropy = .ok token) : ∃ raw, entropy = some raw ∧
      decode token = .ok raw := by
  unfold newSessionToken at minted
  split at minted
  · exact (fail_ne_ok minted).elim
  · next raw =>
      obtain ⟨sized, same⟩ := guarded_eq_ok.mp minted
      exact ⟨raw, rfl, decode_eq_ok.mpr ⟨not_not.mp sized, (Except.ok.inj same).symm⟩⟩

end Encode

section Accepted

variable {session token : Str} {raw key : Bytes}

theorem sessionDigest_eq_ok {digest : Digest} : sessionDigest token = .ok digest ↔
    ∃ raw, decode token = .ok raw ∧ sha256 raw = digest := by
  unfold sessionDigest
  rw [bind_eq_ok]
  simp only [pure_eq_ok]

/-- The one token of a session under an admissible key. -/
theorem csrfToken_of_decode (decoded : decode session = .ok raw) (admissible : 32 ≤ key.length) :
    csrfToken session key = .ok (encode (Hmac.digest key (csrfLabel ++ raw))) := by
  refine bind_eq_ok.mpr ⟨raw, decoded, bind_eq_ok.mpr ⟨key, ?_, rfl⟩⟩
  exact guarded_eq_ok.mpr ⟨by omega, rfl⟩

theorem verifyCsrfToken_iff (decoded : decode session = .ok raw) (admissible : 32 ≤ key.length)
    {submitted : Str} : verifyCsrfToken session key submitted = .ok () ↔
      submitted = encode (Hmac.digest key (csrfLabel ++ raw)) := by
  have expected := decode_eq_ok.mpr
    ⟨Hmac.length_digest key (csrfLabel ++ raw), rfl⟩
  unfold verifyCsrfToken
  simp only [bind_eq_ok, csrfToken_of_decode decoded admissible, Except.ok.injEq, exists_eq_left',
    expected, guarded_eq_ok, not_not, ne_eq, pure_eq_ok, and_true, exists_eq_right]
  rw [decode_eq_ok]
  exact and_iff_right (Hmac.length_digest _ _)

end Accepted

/-- A token decodes to 32 bytes exactly when it is their encoding. So two accepted tokens
with one digest are a collision of the hash, and a session under an admissible key has
exactly one text that is accepted as its CSRF token. -/
theorem tokens_have_one_spelling :
    (∀ value raw, decode value = .ok raw ↔ raw.length = tokenBytes ∧ value = encode raw) ∧
      (∀ token other digest, sessionDigest token = .ok digest → sessionDigest other = .ok digest →
        token ≠ other → ∃ raw another, decode token = .ok raw ∧ decode other = .ok another ∧
          raw ≠ another ∧ sha256 raw = sha256 another) ∧
      ∀ session key raw, decode session = .ok raw → 32 ≤ key.length →
        ∃! submitted, verifyCsrfToken session key submitted = .ok () := by
  refine ⟨fun value raw => decode_eq_ok, ?_, ?_⟩
  · intro token other digest first second different
    obtain ⟨raw, decoded, hashed⟩ := sessionDigest_eq_ok.mp first
    obtain ⟨another, read, same⟩ := sessionDigest_eq_ok.mp second
    refine ⟨raw, another, decoded, read, ?_, hashed.trans same.symm⟩
    intro equal
    apply different
    rw [(decode_eq_ok.mp decoded).2, (decode_eq_ok.mp read).2, equal]
  · intro session key raw decoded admissible
    refine ⟨_, (verifyCsrfToken_iff decoded admissible).mpr rfl, ?_⟩
    intro submitted accepted
    exact (verifyCsrfToken_iff decoded admissible).mp accepted

theorem tokens_have_one_spelling_zeros :
    decode (encode (List.replicate 32 0)) = .ok (List.replicate 32 0) ∧
      ∃! submitted, verifyCsrfToken (encode (List.replicate 32 0)) (List.replicate 32 7) submitted =
        .ok () := by
  obtain ⟨spelled, _, unique⟩ := tokens_have_one_spelling
  have decoded : decode (encode (List.replicate 32 0)) = .ok (List.replicate 32 0) :=
    (spelled _ _).mpr ⟨List.length_replicate, rfl⟩
  exact ⟨decoded, unique _ _ _ decoded List.length_replicate.ge⟩

end Portal

end GeniusNew
