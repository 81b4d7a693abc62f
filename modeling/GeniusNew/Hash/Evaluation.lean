import GeniusNew.Hash.Sha256

/-! # Digests that the kernel computes

A structural recursion of Lean unfolds to much more than its recursor, and a word that is
not evaluated is copied to wherever it is used. The functions here are the recursors
themselves, evaluate each word before it is used, and give the digest of FIPS 180-4.
-/

namespace Sha256

/-- `next` of a number that is evaluated first. -/
noncomputable def forced {Result : Type} (n : Nat) (next : Nat → Result) : Result :=
  Nat.rec (next 0) (fun n _ => next (Nat.succ n)) n

theorem forced_eq {Result : Type} (n : Nat) (next : Nat → Result) : forced n next = next n := by
  cases n <;> rfl

/-- A rotation with the operations that the kernel computes. -/
def turned (x right left : Nat) : Nat :=
  Nat.lor (Nat.shiftRight x right) (Nat.mod (Nat.shiftLeft x left) 4294967296)

/-- What is done with the eight words of a state. -/
abbrev Words (Result : Type) := Nat → Nat → Nat → Nat → Nat → Nat → Nat → Nat → Result

/-- The rounds of a block, one word after the other. -/
noncomputable def rounds {Result : Type} (next : Words Result) (constants : List Nat) :
    List Nat → Words Result :=
  List.rec (fun _ => next) (fun constant _ rest words =>
    List.casesOn words next fun scheduled words a b c d e f g h =>
      forced (Nat.mod (Nat.add (Nat.add (Nat.add (Nat.add h
        (Nat.xor (Nat.xor (turned e 6 26) (turned e 11 21)) (turned e 25 7)))
        (Nat.xor (Nat.land e f) (Nat.land (Nat.sub 4294967295 e) g))) constant) scheduled)
          4294967296) fun first =>
      forced (Nat.mod (Nat.add first (Nat.add
        (Nat.xor (Nat.xor (turned a 2 30) (turned a 13 19)) (turned a 22 10))
        (Nat.xor (Nat.xor (Nat.land a b) (Nat.land a c)) (Nat.land b c)))) 4294967296) fun top =>
      forced (Nat.mod (Nat.add d first) 4294967296) fun middle =>
        rest words top a b c middle e f g) constants

/-- The words that the rounds end with do not depend on what is done with them. -/
theorem rounds_eq {Result : Type} (constants words : List Nat) (a b c d e f g h : Nat) :
    ∃ a' b' c' d' e' f' g' h',
      (constants.zip words).foldl round [a, b, c, d, e, f, g, h] =
        [a', b', c', d', e', f', g', h'] ∧
      ∀ next : Words Result,
        rounds next constants words a b c d e f g h = next a' b' c' d' e' f' g' h' := by
  induction constants generalizing words a b c d e f g h with
  | nil => exact ⟨a, b, c, d, e, f, g, h, rfl, fun _ => rfl⟩
  | cons constant constants ih =>
      cases words with
      | nil => exact ⟨a, b, c, d, e, f, g, h, rfl, fun _ => rfl⟩
      | cons scheduled words =>
          obtain ⟨a', b', c', d', e', f', g', h', folded, evaluated⟩ := ih words
            (word (word (h + bigSigma1 e + choose e f g + constant + scheduled) +
              (bigSigma0 a + majority a b c))) a b c
            (word (d + word (h + bigSigma1 e + choose e f g + constant + scheduled))) e f g
          refine ⟨a', b', c', d', e', f', g', h', folded, fun next => ?_⟩
          rw [← evaluated next]
          unfold rounds
          dsimp only
          rw [forced_eq, forced_eq, forced_eq]
          rfl

/-- The message schedule, with each new word evaluated. -/
noncomputable def scheduled (count : Nat) : Nat → Nat → Nat → Nat → Nat → Nat → Nat → Nat → Nat →
    Nat → Nat → Nat → Nat → Nat → Nat → Nat → List Nat :=
  Nat.rec (fun a b c d e f g h i j k l m n o p => [a, b, c, d, e, f, g, h, i, j, k, l, m, n, o, p])
    (fun _ rest a b c d e f g h i j k l m n o p =>
      forced (Nat.mod (Nat.add (Nat.add (Nat.add
        (Nat.xor (Nat.xor (turned o 17 15) (turned o 19 13)) (Nat.shiftRight o 10)) j)
        (Nat.xor (Nat.xor (turned b 7 25) (turned b 18 14)) (Nat.shiftRight b 3))) a) 4294967296)
        fun next => a :: rest b c d e f g h i j k l m n o p next) count

theorem scheduled_eq (count a b c d e f g h i j k l m n o p : Nat) :
    scheduled count a b c d e f g h i j k l m n o p =
      schedule count [a, b, c, d, e, f, g, h, i, j, k, l, m, n, o, p] := by
  induction count generalizing a b c d e f g h i j k l m n o p with
  | zero => rfl
  | succ count ih =>
      have rest := ih b c d e f g h i j k l m n o p (word (smallSigma1 o + j + smallSigma0 b + a))
      have step : scheduled (count + 1) a b c d e f g h i j k l m n o p =
          a :: scheduled count b c d e f g h i j k l m n o p
            (word (smallSigma1 o + j + smallSigma0 b + a)) := by
        unfold scheduled
        dsimp only
        rw [forced_eq]
        rfl
      exact step.trans (congrArg (List.cons a) rest)

/-- The blocks of a padded message, one after the other. -/
noncomputable def absorbed (count : Nat) : List Nat → Words (List Nat) :=
  Nat.rec (fun _ a b c d e f g h => [a, b, c, d, e, f, g, h])
    (fun count rest words a b c d e f g h =>
      match words with
      | i :: j :: k :: l :: m :: n :: o :: p :: q :: r :: s :: t :: u :: v :: w :: x :: words =>
          rounds (fun a' b' c' d' e' f' g' h' =>
            forced (Nat.mod (Nat.add a a') 4294967296) fun a =>
            forced (Nat.mod (Nat.add b b') 4294967296) fun b =>
            forced (Nat.mod (Nat.add c c') 4294967296) fun c =>
            forced (Nat.mod (Nat.add d d') 4294967296) fun d =>
            forced (Nat.mod (Nat.add e e') 4294967296) fun e =>
            forced (Nat.mod (Nat.add f f') 4294967296) fun f =>
            forced (Nat.mod (Nat.add g g') 4294967296) fun g =>
            forced (Nat.mod (Nat.add h h') 4294967296) fun h => rest words a b c d e f g h)
            roundConstants (scheduled 48 i j k l m n o p q r s t u v w x) a b c d e f g h
      | words => absorb (count + 1) [a, b, c, d, e, f, g, h] words) count

theorem absorbed_eq (count : Nat) (words : List Nat) (a b c d e f g h : Nat) :
    absorbed count words a b c d e f g h = absorb count [a, b, c, d, e, f, g, h] words := by
  induction count generalizing words a b c d e f g h with
  | zero => rfl
  | succ count ih =>
      unfold absorbed
      dsimp only
      split
      · next i j k l m n o p q r s t u v w x words =>
        rw [absorb, if_neg (by simp)]
        obtain ⟨a', b', c', d', e', f', g', h', folded, evaluated⟩ :=
          rounds_eq roundConstants (scheduled 48 i j k l m n o p q r s t u v w x) a b c d e f g h
        refine (evaluated _).trans ?_
        iterate 8 rw [forced_eq]
        refine (ih words _ _ _ _ _ _ _ _).trans ?_
        rw [scheduled_eq] at folded
        have compressed : compress [a, b, c, d, e, f, g, h]
            [i, j, k, l, m, n, o, p, q, r, s, t, u, v, w, x] =
              [word (a + a'), word (b + b'), word (c + c'), word (d + d'), word (e + e'),
                word (f + f'), word (g + g'), word (h + h')] := by
          rw [compress, folded]
          rfl
        exact congrArg (fun state => absorb count state words) compressed.symm
      · rfl

/-- The digest of a message as the kernel computes it fast. -/
noncomputable def evaluated (message : List UInt8) : List UInt8 :=
  (absorbed (message.length + 1) (toWords (pad message)) 0x6a09e667 0xbb67ae85 0x3c6ef372 0xa54ff53a
    0x510e527f 0x9b05688c 0x1f83d9ab 0x5be0cd19).flatMap (toBytes 4)

theorem digest_eq_evaluated (message : List UInt8) : digest message = evaluated message := by
  unfold digest evaluated
  rw [absorbed_eq]
  rfl

end Sha256
