import Chip8.Bits
import Chip8.Text.Numeral

/-!
# Opcodes

An opcode is an instruction word split into four nibbles, any of which may be absent.  A decoded
word has all four; a pattern leaves out the nibbles that it does not constrain.  Two opcodes agree
when no position holds different nibbles, an absent nibble agreeing with everything.
-/

namespace Chip8

/-- Four nibbles, most significant first, each present or absent. -/
structure Opcode where
  /-- The class of the instruction. -/
  first : Option Int
  /-- The register `x`. -/
  second : Option Int
  /-- The register `y`. -/
  third : Option Int
  /-- The four-bit immediate. -/
  fourth : Option Int
  deriving DecidableEq, Repr

namespace Opcode

/-- The four nibbles in order. -/
def nibbles (opcode : Opcode) : List (Option Int) :=
  [opcode.first, opcode.second, opcode.third, opcode.fourth]

/-- The opcode with the given nibbles, in order; missing ones are absent. -/
def ofNibbles (nibbles : List (Option Int)) : Opcode where
  first := nibbles[0]?.join
  second := nibbles[1]?.join
  third := nibbles[2]?.join
  fourth := nibbles[3]?.join

/-- The nibbles of the lowest sixteen bits of a word. -/
def decode (word : Int) : Opcode where
  first := some (word / 4096 % 16)
  second := some (word / 256 % 16)
  third := some (word / 16 % 16)
  fourth := some (word % 16)

/-- The address in the last three nibbles. -/
def address (opcode : Opcode) : Option Int := do
  let second ← opcode.second
  let third ← opcode.third
  let fourth ← opcode.fourth
  return Bits.or (Bits.or (256 * second) (16 * third)) fourth

/-- The byte in the last two nibbles. -/
def byte (opcode : Opcode) : Option Int := do
  let third ← opcode.third
  let fourth ← opcode.fourth
  return Bits.or (16 * third) fourth

/-- The whole word, when no nibble is absent. -/
def word (opcode : Opcode) : Option Int := do
  let first ← opcode.first
  let address ← opcode.address
  return Bits.or (4096 * first) address

/-- The number of nibbles that are present. -/
def specificity (opcode : Opcode) : Nat :=
  opcode.nibbles.countP (·.isSome)

/-- Whether two nibbles are equal or one of them is absent. -/
def nibbleAgrees : Option Int → Option Int → Bool
  | some left, some right => left == right
  | _, _ => true

/-- Whether two opcodes agree in all four positions. -/
def agrees (left right : Opcode) : Bool :=
  nibbleAgrees left.first right.first && nibbleAgrees left.second right.second &&
    nibbleAgrees left.third right.third && nibbleAgrees left.fourth right.fourth

/-- A question mark for an absent nibble and capital hexadecimal digits for a present one. -/
def nibbleText : Option Int → String
  | none => "?"
  | some nibble => Numeral.hex 0 nibble

/-- The texts of the four nibbles in order. -/
def text (opcode : Opcode) : String :=
  String.join (opcode.nibbles.map nibbleText)

@[simp]
theorem nibbleAgrees_none_left (nibble : Option Int) : nibbleAgrees none nibble = true := rfl

@[simp]
theorem nibbleAgrees_none_right (nibble : Option Int) : nibbleAgrees nibble none = true := by
  cases nibble <;> rfl

theorem nibbleAgrees_comm (left right : Option Int) :
    nibbleAgrees left right = nibbleAgrees right left := by
  cases left with
  | none => simp
  | some left =>
    cases right with
    | none => simp
    | some right => simp [nibbleAgrees, Bool.beq_comm]

theorem agrees_comm (left right : Opcode) : left.agrees right = right.agrees left := by
  simp only [agrees, nibbleAgrees_comm left.first, nibbleAgrees_comm left.second,
    nibbleAgrees_comm left.third, nibbleAgrees_comm left.fourth]

example : (decode (-1)).text = "FFFF" := by decide +kernel
example : (ofNibbles [some 16, none]).text = "10???" := by decide +kernel

end Opcode
end Chip8
