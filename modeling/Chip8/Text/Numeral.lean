/-!
# Integers in text

Digits of a natural number in a base, and the layout of an integer in a field of given width.
The sign comes first and counts toward the width; zeros fill the space between sign and digits,
blanks stand before both.  A number wider than its field is written in full.
-/

namespace Chip8
namespace Numeral

/-- The digits of `value`, most significant first, when `value` has at most `fuel + 1` digits. -/
def digitsWithin (base : Nat) : Nat → Nat → List Nat
  | 0, value => [value]
  | fuel + 1, value =>
    if value < base then [value] else digitsWithin base fuel (value / base) ++ [value % base]

/-- The digits of a natural number, most significant first; zero has one digit. -/
def digits (base value : Nat) : List Nat :=
  digitsWithin base value value

/-- Digits above nine are the capital letters from `A` on. -/
def upperDigit (digit : Nat) : Char :=
  if digit < 10 then Char.ofNat ('0'.toNat + digit) else Char.ofNat ('A'.toNat + (digit - 10))

/-- Digits above nine are the small letters from `a` on. -/
def lowerDigit (digit : Nat) : Char :=
  if digit < 10 then Char.ofNat ('0'.toNat + digit) else Char.ofNat ('a'.toNat + (digit - 10))

/-- How the digits of an integer are written. -/
inductive Style where
  /-- Base ten. -/
  | decimal
  /-- Base sixteen with capital letters. -/
  | upperHex
  /-- Base sixteen with small letters. -/
  | lowerHex
  deriving DecidableEq, Repr

/-- The digits of a natural number in a style. -/
def Style.digits : Style → Nat → List Char
  | .decimal, value => (Numeral.digits 10 value).map upperDigit
  | .upperHex, value => (Numeral.digits 16 value).map upperDigit
  | .lowerHex, value => (Numeral.digits 16 value).map lowerDigit

/-- A field that holds one integer. -/
structure Layout where
  /-- Whether zeros, rather than blanks, fill the field. -/
  zeroFilled : Bool
  /-- Least number of characters, the sign included. -/
  width : Nat
  /-- How the digits are written. -/
  style : Style
  deriving DecidableEq, Repr

/-- A minus sign for negative integers and nothing for the others. -/
def sign (value : Int) : List Char :=
  if value < 0 then ['-'] else []

/-- Write an integer into a field. -/
def Layout.chars (layout : Layout) (value : Int) : List Char :=
  let digits := layout.style.digits value.natAbs
  let missing := layout.width - (sign value ++ digits).length
  if layout.zeroFilled then
    sign value ++ List.replicate missing '0' ++ digits
  else
    List.replicate missing ' ' ++ sign value ++ digits

/-- Put a comma before every third digit from the right, except before the first digit. -/
def grouped (digits : List Char) : List Char :=
  digits.zipIdx.flatMap fun (digit, position) =>
    if 0 < position ∧ (digits.length - position) % 3 = 0 then [',', digit] else [digit]

/-- Decimal text of an integer. -/
def decimal (value : Int) : String :=
  String.ofList (sign value ++ Style.decimal.digits value.natAbs)

/-- Decimal text of an integer with its thousands set off by commas. -/
def decimalGrouped (value : Int) : String :=
  String.ofList (sign value ++ grouped (Style.decimal.digits value.natAbs))

/-- Capital hexadecimal digits of an integer, filled with zeros up to `width`. -/
def hex (width : Nat) (value : Int) : String :=
  String.ofList (Layout.chars ⟨true, width, .upperHex⟩ value)

/-- Set a text flush right in a field of `width` characters. -/
def flushRight (width : Nat) (text : List Char) : List Char :=
  List.replicate (width - text.length) ' ' ++ text

example : hex 4 (-1) = "-001" := by decide +kernel
example : hex 2 4660 = "1234" := by decide +kernel
example : decimalGrouped (-1234567) = "-1,234,567" := by decide +kernel
example : decimalGrouped 100 = "100" := by decide +kernel

end Numeral
end Chip8
