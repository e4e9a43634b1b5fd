import Chip8.Bits

/-!
# Arithmetic and logic

Each operation maps the values of two registers to a result and, for some, a flag.  The operations
are defined on all integers; a register holds the result modulo 256 in any case.
-/

namespace Chip8

/-- An operation on two registers. -/
inductive Alu where
  /-- Copy the second operand. -/
  | set
  /-- Bitwise or. -/
  | or
  /-- Bitwise and. -/
  | and
  /-- Bitwise exclusive or. -/
  | xor
  /-- Sum, the flag being its carry. -/
  | add
  /-- First operand less the second, the flag telling that nothing was borrowed. -/
  | subtract
  /-- First operand halved, the flag being the bit that falls out. -/
  | shiftRight
  /-- Second operand less the first, the flag telling that nothing was borrowed. -/
  | subtractFrom
  /-- First operand doubled, the flag being the bit that falls out. -/
  | shiftLeft
  deriving DecidableEq, Repr

namespace Alu

/-- One for a condition that holds and zero otherwise. -/
def flag (condition : Prop) [Decidable condition] : Int :=
  if condition then 1 else 0

/-- Whether a subtraction borrows nothing; the strict reading wants the minuend to be larger. -/
def noBorrow (strict : Bool) (minuend subtrahend : Int) : Prop :=
  if strict then subtrahend < minuend else subtrahend ≤ minuend

instance (strict : Bool) (minuend subtrahend : Int) :
    Decidable (noBorrow strict minuend subtrahend) := by
  unfold noBorrow
  infer_instance

/-- The result of an operation and its flag, if it has one. -/
def apply (strict : Bool) : Alu → Int → Int → Int × Option Int
  | .set, _, right => (right, none)
  | .or, left, right => (Bits.or left right, none)
  | .and, left, right => (Bits.and left right, none)
  | .xor, left, right => (Bits.xor left right, none)
  | .add, left, right => ((left + right) % 256, some (flag (255 < left + right)))
  | .subtract, left, right => ((left - right) % 256, some (flag (noBorrow strict left right)))
  | .shiftRight, left, _ => (left / 2, some (left % 2))
  | .subtractFrom, left, right => ((right - left) % 256, some (flag (noBorrow strict right left)))
  | .shiftLeft, left, _ => (2 * left % 256, some (left / 128 % 2))

/-- Whether an operation moves bits of a single operand. -/
def isShift : Alu → Bool
  | .shiftRight => true
  | .shiftLeft => true
  | _ => false

end Alu
end Chip8
