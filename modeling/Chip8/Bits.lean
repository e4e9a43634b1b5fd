/-!
# Bitwise operations on integers of any size

An integer is read in two's complement with infinitely many sign bits: `Int.negSucc m` is the
complement of `m`, so each operation on integers is a natural-number operation followed, when the
result has an infinite run of ones, by a complement.  On non-negative operands the operations are
the ones on natural numbers.
-/

namespace Chip8
namespace Bits

/-- Bits set in both operands. -/
def and : Int → Int → Int
  | .ofNat left, .ofNat right => .ofNat (left &&& right)
  | .ofNat left, .negSucc right => .ofNat (left ^^^ (left &&& right))
  | .negSucc left, .ofNat right => .ofNat (right ^^^ (right &&& left))
  | .negSucc left, .negSucc right => .negSucc (left ||| right)

/-- Bits set in at least one operand. -/
def or : Int → Int → Int
  | .ofNat left, .ofNat right => .ofNat (left ||| right)
  | .ofNat left, .negSucc right => .negSucc (right ^^^ (right &&& left))
  | .negSucc left, .ofNat right => .negSucc (left ^^^ (left &&& right))
  | .negSucc left, .negSucc right => .negSucc (left &&& right)

/-- Bits set in exactly one operand. -/
def xor : Int → Int → Int
  | .ofNat left, .ofNat right => .ofNat (left ^^^ right)
  | .ofNat left, .negSucc right => .negSucc (left ^^^ right)
  | .negSucc left, .ofNat right => .negSucc (left ^^^ right)
  | .negSucc left, .negSucc right => .ofNat (left ^^^ right)

/-- The lowest four bits of an integer. -/
def lowNibble (value : Int) : Fin 16 :=
  ⟨(value % 16).toNat, by omega⟩

@[simp]
theorem and_natCast (left right : Nat) : and (left : Int) (right : Int) = (left &&& right : Nat) :=
  rfl

@[simp]
theorem or_natCast (left right : Nat) : or (left : Int) (right : Int) = (left ||| right : Nat) :=
  rfl

@[simp]
theorem xor_natCast (left right : Nat) : xor (left : Int) (right : Int) = (left ^^^ right : Nat) :=
  rfl

end Bits
end Chip8
