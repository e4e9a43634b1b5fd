import Chip8.Random

/-!
# The Threefry generator

A source of random bytes that counts: a block function turns a key and a counter, two words each,
into two words.  All arithmetic is on 32-bit words and wraps.
-/

namespace Chip8

/-- Two words, a key or a counter of the generator. -/
structure Threefry where
  /-- The first word. -/
  first : UInt32
  /-- The second word. -/
  second : UInt32
  deriving DecidableEq, Repr

namespace Threefry

/-- The key of a seed, which counts modulo `2 ^ 32`. -/
def ofSeed (seed : Int) : Threefry :=
  ⟨0, UInt32.ofInt seed⟩

/-- Rotate a word to the left. -/
def rotate (word amount : UInt32) : UInt32 :=
  (word <<< amount) ||| (word >>> (32 - amount))

/-- One round: add the second word to the first, rotate the second and mix in the sum. -/
def round (words : Threefry) (amount : UInt32) : Threefry :=
  let sum := words.first + words.second
  ⟨sum, rotate words.second amount ^^^ sum⟩

/-- Add one word to each of a pair. -/
def inject (words : Threefry) (first second : UInt32) : Threefry :=
  ⟨words.first + first, words.second + second⟩

/-- The rotation amounts of the even groups of rounds. -/
def evenAmounts : List UInt32 := [13, 15, 26, 6]

/-- The rotation amounts of the odd groups of rounds. -/
def oddAmounts : List UInt32 := [17, 29, 16, 24]

/-- The block function: five groups of four rounds, key words being added after each group. -/
def block (key counter : Threefry) : Threefry :=
  let k0 := key.first
  let k1 := key.second
  let k2 := k0 ^^^ k1 ^^^ 0x1BD11BDA
  let words := counter.inject k0 k1
  let words := (evenAmounts.foldl round words).inject k1 (k2 + 1)
  let words := (oddAmounts.foldl round words).inject k2 (k0 + 2)
  let words := (evenAmounts.foldl round words).inject k0 (k1 + 3)
  let words := (oddAmounts.foldl round words).inject k1 (k2 + 4)
  (evenAmounts.foldl round words).inject k2 (k0 + 5)

/-- The keys that a key is split into. -/
def split (key : Threefry) : Threefry × Threefry :=
  (key.block ⟨0, 0⟩, key.block ⟨0, 1⟩)

/-- The byte of a subkey. -/
def byte (key : Threefry) : UInt8 :=
  let words := (key.block ⟨0, 1⟩).block ⟨0, 0⟩
  (words.first ^^^ words.second).toUInt8

end Threefry

/-- The source that programs draw from unless another is given. -/
instance Threefry.source : RandomSource where
  Key := Threefry
  ofSeed := Threefry.ofSeed
  split := Threefry.split
  byte := Threefry.byte

end Chip8
