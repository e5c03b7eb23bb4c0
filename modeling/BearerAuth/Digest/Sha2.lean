import BearerAuth.Bytes

/-!
# BearerAuth — the SHA-2 construction

The hash functions of the SHA-2 family differ in the width of their words, their round constants
and their rotations, and agree in everything else. `Sha2.Variant` holds what differs; the rest is
one construction: the message is padded to whole blocks of sixteen words, each block is expanded
to a schedule with a word for every round, and the rounds mix the schedule into a state of eight
words.

## Main definitions

* `Sha2.Variant`         — word width, constants and mixing functions.
* `Sha2.Variant.pad`     — the padded message.
* `Sha2.Variant.hash`    — the digest of a message from an initial state.
-/

namespace BearerAuth.Sha2

/-- What the members of the family differ in, for words of type `W`. -/
structure Variant (W : Type) where
  /-- The length of a word in bytes. -/
  wordLength : Nat
  word : Nat → W
  number : W → Nat
  roundConstants : List W
  /-- The mixing functions of a round, for the first and for the fifth word of the state. -/
  roundMix : (W → W) × (W → W)
  /-- The mixing functions of the schedule, for the word fifteen and for the word two back. -/
  scheduleMix : (W → W) × (W → W)

/-- The chaining value between blocks: eight words. -/
structure State (W : Type) where
  a : W
  b : W
  c : W
  d : W
  e : W
  f : W
  g : W
  h : W

namespace Variant

variable {W : Type} [Add W] [AndOp W] [XorOp W] [Complement W] (v : Variant W)

/-- The length of a block in bytes. -/
def blockLength : Nat := 16 * v.wordLength

/-- A message with its padding: one bit, zeros to the end of a block, and the length in bits as a
number of two words. -/
def pad (m : Bytes) : Bytes :=
  let lengthField := 2 * v.wordLength
  let used := (m.length + 1 + lengthField) % v.blockLength
  m ++ 0x80 :: List.replicate ((v.blockLength - used) % v.blockLength) 0
    ++ Bytes.ofNat lengthField (8 * m.length)

/-- The words of a block. -/
def words (block : Bytes) : List W :=
  (List.range 16).map fun i =>
    v.word (Bytes.toNat ((block.drop (v.wordLength * i)).take v.wordLength))

/-- The next word of a schedule, from the words before it, latest first. -/
def nextWord (latest : List W) : W :=
  let back (n : Nat) : W := latest.getD (n - 1) (v.word 0)
  back 16 + v.scheduleMix.1 (back 15) + back 7 + v.scheduleMix.2 (back 2)

/-- Extends a schedule, latest word first, by so many words. -/
def extend : Nat → List W → List W
  | 0, latest => latest
  | n + 1, latest => extend n (v.nextWord latest :: latest)

/-- The words that the rounds of a block consume, one for each round. -/
def schedule (block : Bytes) : List W :=
  (v.extend (v.roundConstants.length - 16) (v.words block).reverse).reverse

/-- One round, with its constant and its word. -/
def round (s : State W) (k w : W) : State W :=
  let choice := (s.e &&& s.f) ^^^ (~~~ s.e &&& s.g)
  let majority := (s.a &&& s.b) ^^^ (s.a &&& s.c) ^^^ (s.b &&& s.c)
  let t := s.h + v.roundMix.2 s.e + choice + k + w
  ⟨t + (v.roundMix.1 s.a + majority), s.a, s.b, s.c, s.d + t, s.e, s.f, s.g⟩

/-- Absorbs one block. -/
def compress (s : State W) (block : Bytes) : State W :=
  let t := (v.roundConstants.zip (v.schedule block)).foldl (fun t kw => v.round t kw.1 kw.2) s
  ⟨s.a + t.a, s.b + t.b, s.c + t.c, s.d + t.d, s.e + t.e, s.f + t.f, s.g + t.g, s.h + t.h⟩

/-- Absorbs so many blocks. -/
def absorb : Nat → State W → Bytes → State W
  | 0, s, _ => s
  | n + 1, s, m => absorb n (v.compress s (m.take v.blockLength)) (m.drop v.blockLength)

/-- The bytes of a state. -/
def bytes (s : State W) : Bytes :=
  [s.a, s.b, s.c, s.d, s.e, s.f, s.g, s.h].flatMap fun w => Bytes.ofNat v.wordLength (v.number w)

/-- The digest of a message, from the given initial state. -/
def hash (initial : State W) (m : Bytes) : Bytes :=
  let padded := v.pad m
  v.bytes (v.absorb (padded.length / v.blockLength) initial padded)

end Variant
end BearerAuth.Sha2
