/-!
# Random bytes

Where random bytes come from is left open.  A source makes a key from a seed, splits a key into the
key that the stream goes on with and a subkey, and draws one byte from a subkey.  Nothing else is
known of it but that these are functions: equal keys give equal bytes.
-/

namespace Chip8

/-- A source of random bytes. -/
class RandomSource where
  /-- The keys. -/
  Key : Type
  /-- The key of a seed.  No machine is made from a seed that the source refuses, and its key here may
  be any. -/
  ofSeed : Int → Key
  /-- Two keys from one, the first to go on with and the second to draw from. -/
  split : Key → Key × Key
  /-- An integer from 0 up to 255, drawn from a key. -/
  byte : Key → UInt8

/-- A key of the source. -/
abbrev RandomKey [RandomSource] : Type :=
  RandomSource.Key

namespace RandomKey

variable [RandomSource]

/-- The key that the stream goes on with. -/
def next (key : RandomKey) : RandomKey :=
  (RandomSource.split key).1

/-- The key that one byte is drawn from. -/
def subkey (key : RandomKey) : RandomKey :=
  (RandomSource.split key).2

/-- The byte that a key of the stream gives. -/
def draw (key : RandomKey) : UInt8 :=
  RandomSource.byte key.subkey

end RandomKey
end Chip8
