import Chip8.Text.Numeral

/-!
# Floating-point numbers with fixed places

A finite double is a whole number times a power of two, so its decimal expansion is exact.  Writing
it with a given number of places rounds that exact value once, a half going to the even neighbour.
The sign bit is always shown, also when the rounded digits are all zero.
-/

namespace Chip8
namespace Decimal

/-- The quotient of two natural numbers rounded to the nearest, a half to the even neighbour. -/
def roundedQuotient (numerator denominator : Nat) : Nat :=
  let quotient := numerator / denominator
  let twice := 2 * (numerator % denominator)
  if denominator < twice ∨ (denominator = twice ∧ quotient % 2 = 1) then quotient + 1 else quotient

/-- The real value of a double, or what stands in its place. -/
inductive Value where
  /-- No number. -/
  | notANumber
  /-- A signed infinity. -/
  | infinite (negative : Bool)
  /-- The number `± mantissa * 2 ^ exponent`. -/
  | finite (negative : Bool) (mantissa : Nat) (exponent : Int)
  deriving DecidableEq, Repr

/-- The number of values of the fraction field of a double. -/
def fractionValues : Nat := 0x10000000000000

/-- The number of values of the exponent field of a double. -/
def exponentValues : Nat := 0x800

/-- Read the sign, exponent and fraction fields of a double. -/
def Value.ofFloat (number : Float) : Value :=
  let bits := number.toBits.toNat
  let fraction := bits % fractionValues
  let exponent : Nat := bits / fractionValues % exponentValues
  let negative := bits / fractionValues / exponentValues == 1
  if exponent = exponentValues - 1 then
    if fraction = 0 then .infinite negative else .notANumber
  else if exponent = 0 then
    .finite negative fraction (-1074)
  else
    .finite negative (fractionValues + fraction) ((exponent : Int) - 1075)

/-- The number of units of the last of `places` decimal places in one. -/
def unitsInOne (places : Nat) : Nat :=
  Nat.pow 10 places

/-- `mantissa * 2 ^ exponent` in units of the last of `places` decimal places, rounded. -/
def scaled (places mantissa : Nat) : Int → Nat
  | .ofNat exponent => (mantissa * unitsInOne places) <<< exponent
  | .negSucc exponent => roundedQuotient (mantissa * unitsInOne places) (1 <<< (exponent + 1))

/-- How the whole part of a number is written. -/
inductive Grouping where
  /-- Digits without separators. -/
  | plain
  /-- A comma before every third digit from the right. -/
  | thousands
  deriving DecidableEq, Repr

/-- The digits of a whole part. -/
def Grouping.digits : Grouping → Nat → List Char
  | .plain, whole => Numeral.Style.decimal.digits whole
  | .thousands, whole => Numeral.grouped (Numeral.Style.decimal.digits whole)

/-- The places after the point; with no places there is no point. -/
def fractionDigits (places fraction : Nat) : List Char :=
  if places = 0 then [] else '.' :: Numeral.Layout.chars ⟨true, places, .decimal⟩ fraction

/-- A value with a fixed number of decimal places. -/
def Value.chars (grouping : Grouping) (places : Nat) : Value → List Char
  | .notANumber => ['n', 'a', 'n']
  | .infinite negative => (if negative then ['-'] else []) ++ ['i', 'n', 'f']
  | .finite negative mantissa exponent =>
    let units := scaled places mantissa exponent
    (if negative then ['-'] else []) ++ grouping.digits (units / unitsInOne places) ++
      fractionDigits places (units % unitsInOne places)

/-- A double with a fixed number of decimal places. -/
def fixed (grouping : Grouping) (places : Nat) (number : Float) : List Char :=
  (Value.ofFloat number).chars grouping places

end Decimal
end Chip8
