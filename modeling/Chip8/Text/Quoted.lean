import Chip8.Text.Numeral
import Chip8.Text.Printable

/-!
# Quoted text

A text in quotes, on one line of printable characters.  Single quotes are used unless the text
holds a single quote and no double quote.  The quote in use and the backslash are escaped, three
controls have letters of their own, and every other unprintable character is written by its code
point in two, four or eight hexadecimal digits.
-/

namespace Chip8
namespace Quoted

/-- The single quotation mark. -/
def single : Char := Char.ofNat 39

/-- The double quotation mark. -/
def double : Char := Char.ofNat 34

/-- The quotation mark chosen for a text. -/
def mark (text : List Char) : Char :=
  if single ∈ text ∧ double ∉ text then double else single

/-- The digits of a code point in a field of `width` digits. -/
def codeDigits (width code : Nat) : List Char :=
  Numeral.Layout.chars ⟨true, width, .lowerHex⟩ code

/-- One character between quotation marks `mark`. -/
def escape (mark character : Char) : List Char :=
  if character = mark ∨ character = '\\' then ['\\', character]
  else if character = '\n' then ['\\', 'n']
  else if character = '\r' then ['\\', 'r']
  else if character = '\t' then ['\\', 't']
  else if Printable.isPrintable character then [character]
  else
    let code := character.toNat
    if code < 0x100 then '\\' :: 'x' :: codeDigits 2 code
    else if code < 0x10000 then '\\' :: 'u' :: codeDigits 4 code
    else '\\' :: 'U' :: codeDigits 8 code

/-- The text between its quotation marks. -/
def quote (text : String) : String :=
  let characters := text.toList
  let mark := mark characters
  String.ofList (mark :: characters.flatMap (escape mark) ++ [mark])

end Quoted
end Chip8
