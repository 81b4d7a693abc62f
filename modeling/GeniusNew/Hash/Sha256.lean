import Mathlib.Data.List.Basic
import Mathlib.Data.Nat.Bitwise

/-! # SHA-256

The hash of a list of bytes as FIPS 180-4 defines it. Words are natural numbers
below `2 ^ 32`. Nothing in this development reasons about the rounds: results
that need the hash not to collide say on which values.
-/

namespace Sha256

/-- The first 32 bits of the fractional parts of the cube roots of the first 64
primes. -/
def roundConstants : List Nat :=
  [0x428a2f98, 0x71374491, 0xb5c0fbcf, 0xe9b5dba5, 0x3956c25b, 0x59f111f1, 0x923f82a4, 0xab1c5ed5,
    0xd807aa98, 0x12835b01, 0x243185be, 0x550c7dc3, 0x72be5d74, 0x80deb1fe, 0x9bdc06a7, 0xc19bf174,
    0xe49b69c1, 0xefbe4786, 0x0fc19dc6, 0x240ca1cc, 0x2de92c6f, 0x4a7484aa, 0x5cb0a9dc, 0x76f988da,
    0x983e5152, 0xa831c66d, 0xb00327c8, 0xbf597fc7, 0xc6e00bf3, 0xd5a79147, 0x06ca6351, 0x14292967,
    0x27b70a85, 0x2e1b2138, 0x4d2c6dfc, 0x53380d13, 0x650a7354, 0x766a0abb, 0x81c2c92e, 0x92722c85,
    0xa2bfe8a1, 0xa81a664b, 0xc24b8b70, 0xc76c51a3, 0xd192e819, 0xd6990624, 0xf40e3585, 0x106aa070,
    0x19a4c116, 0x1e376c08, 0x2748774c, 0x34b0bcb5, 0x391c0cb3, 0x4ed8aa4a, 0x5b9cca4f, 0x682e6ff3,
    0x748f82ee, 0x78a5636f, 0x84c87814, 0x8cc70208, 0x90befffa, 0xa4506ceb, 0xbef9a3f7, 0xc67178f2]

/-- The first 32 bits of the fractional parts of the square roots of the first
eight primes. -/
def initialState : List Nat :=
  [0x6a09e667, 0xbb67ae85, 0x3c6ef372, 0xa54ff53a, 0x510e527f, 0x9b05688c, 0x1f83d9ab, 0x5be0cd19]

def word (n : Nat) : Nat := n % 2 ^ 32

def rotateRight (x n : Nat) : Nat := x >>> n ||| word (x <<< (32 - n))

def complement (x : Nat) : Nat := 2 ^ 32 - 1 - x

def bigSigma0 (x : Nat) : Nat := rotateRight x 2 ^^^ rotateRight x 13 ^^^ rotateRight x 22

def bigSigma1 (x : Nat) : Nat := rotateRight x 6 ^^^ rotateRight x 11 ^^^ rotateRight x 25

def smallSigma0 (x : Nat) : Nat := rotateRight x 7 ^^^ rotateRight x 18 ^^^ x >>> 3

def smallSigma1 (x : Nat) : Nat := rotateRight x 17 ^^^ rotateRight x 19 ^^^ x >>> 10

def choose (x y z : Nat) : Nat := x &&& y ^^^ complement x &&& z

def majority (x y z : Nat) : Nat := x &&& y ^^^ x &&& z ^^^ y &&& z

/-- The words of the message schedule after the given sixteen. -/
def schedule : Nat → List Nat → List Nat
  | 0, window => window
  | count + 1, window =>
      match window with
      | first :: rest =>
          first :: schedule count (rest ++ [word (smallSigma1 (rest.getD 13 0) +
            rest.getD 8 0 + smallSigma0 (rest.getD 0 0) + first)])
      | [] => []

def round (state : List Nat) (input : Nat × Nat) : List Nat :=
  match state with
  | [a, b, c, d, e, f, g, h] =>
      let first := word (h + bigSigma1 e + choose e f g + input.1 + input.2)
      let second := bigSigma0 a + majority a b c
      [word (first + second), a, b, c, word (d + first), e, f, g]
  | state => state

def compress (state block : List Nat) : List Nat :=
  let rounds := (roundConstants.zip (schedule 48 block)).foldl round state
  (state.zip rounds).map fun words => word (words.1 + words.2)

/-- A big-endian number of the given number of bytes. -/
def toBytes : Nat → Nat → List UInt8
  | 0, _ => []
  | count + 1, n => toBytes count (n / 256) ++ [UInt8.ofNat n]

/-- The message with its mark, its zeros and its length in bits. -/
def pad (message : List UInt8) : List UInt8 :=
  message ++ 0x80 :: List.replicate ((119 - message.length % 64) % 64) 0 ++
    toBytes 8 (message.length * 8)

def toWords : List UInt8 → List Nat
  | a :: b :: c :: d :: rest =>
      (((a.toNat * 256 + b.toNat) * 256 + c.toNat) * 256 + d.toNat) :: toWords rest
  | _ => []

/-- Absorb a word list block by block; the count bounds the number of blocks. -/
def absorb : Nat → List Nat → List Nat → List Nat
  | 0, state, _ => state
  | count + 1, state, words =>
      if words.isEmpty then state
      else absorb count (compress state (words.take 16)) (words.drop 16)

/-- `hashlib.sha256(message).digest()`. -/
def digest (message : List UInt8) : List UInt8 :=
  (absorb (message.length + 1) initialState (toWords (pad message))).flatMap (toBytes 4)

theorem length_toBytes (count n : Nat) : (toBytes count n).length = count := by
  induction count generalizing n with
  | zero => rfl
  | succ count ih => rw [toBytes, List.length_append, ih, List.length_singleton]

theorem length_round {state : List Nat} (eight : state.length = 8) (input : Nat × Nat) :
    (round state input).length = 8 := by
  unfold round
  split
  · rfl
  · exact eight

theorem length_rounds {state : List Nat} (eight : state.length = 8)
    (inputs : List (Nat × Nat)) : (inputs.foldl round state).length = 8 := by
  induction inputs generalizing state with
  | nil => exact eight
  | cons input inputs ih => exact ih (length_round eight input)

theorem length_compress {state : List Nat} (eight : state.length = 8) (block : List Nat) :
    (compress state block).length = 8 := by
  rw [compress, List.length_map, List.length_zip, eight, length_rounds eight, Nat.min_self]

theorem length_absorb (count : Nat) {state : List Nat} (eight : state.length = 8)
    (words : List Nat) : (absorb count state words).length = 8 := by
  induction count generalizing state words with
  | zero => exact eight
  | succ count ih =>
      rw [absorb]
      split_ifs
      · exact eight
      · exact ih (length_compress eight _) _

/-- A digest has 32 bytes. -/
theorem length_digest (message : List UInt8) : (digest message).length = 32 := by
  have words := length_absorb (message.length + 1) (show initialState.length = 8 from rfl)
    (toWords (pad message))
  simp [digest, List.length_flatMap, length_toBytes, words]

-- What follows depends on a digest only through its length.
attribute [irreducible] digest

end Sha256
