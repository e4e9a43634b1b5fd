import Chip8.Dictionary
import Chip8.Operand

/-!
# Mnemonic templates

A template is literal text with fields for operands.  In its written form a field stands in braces,
its operand's name followed, after a colon, by the layout of the number; a brace that is text is
written twice.  Reading the written form and writing it again gives the same text.

Rendering a template first fetches its operands from left to right, so that the leftmost missing one
is reported, and then puts each into its places.
-/

namespace Chip8

/-- The layout of a field as it is written: `zeros` zeros, a width, and a letter for the style. -/
structure FieldSpec where
  /-- How many zeros are written first; any of them makes the field filled with zeros. -/
  zeros : Nat
  /-- The width, not written when zero. -/
  width : Nat
  /-- The style, decimal when no letter is written. -/
  style : Option Numeral.Style
  deriving DecidableEq, Repr

namespace FieldSpec

/-- The layout that a specification asks for. -/
def layout (spec : FieldSpec) : Numeral.Layout where
  zeroFilled := 0 < spec.zeros
  width := spec.width
  style := spec.style.getD .decimal

/-- The letter of a style. -/
def styleLetter : Numeral.Style → Char
  | .decimal => 'd'
  | .upperHex => 'X'
  | .lowerHex => 'x'

/-- The written form of a specification. -/
def source (spec : FieldSpec) : List Char :=
  List.replicate spec.zeros '0' ++
    (if spec.width = 0 then [] else Numeral.Style.decimal.digits spec.width) ++
    spec.style.toList.map styleLetter

/-- The number written in decimal digits; no digits are zero. -/
def widthOf (digits : List Char) : Nat :=
  digits.foldl (fun width digit => 10 * width + (digit.toNat - '0'.toNat)) 0

/-- Read the letter of a style, if there is one. -/
def styleOf? : List Char → Option (Option Numeral.Style)
  | [] => some none
  | ['d'] => some (some .decimal)
  | ['X'] => some (some .upperHex)
  | ['x'] => some (some .lowerHex)
  | _ => none

/-- Read a written specification. -/
def parse? (text : List Char) : Option FieldSpec :=
  let afterZeros := text.dropWhile (· == '0')
  let afterWidth := afterZeros.dropWhile Char.isDigit
  (styleOf? afterWidth).map fun style =>
    { zeros := (text.takeWhile (· == '0')).length
      width := widthOf (afterZeros.takeWhile Char.isDigit)
      style := style }

end FieldSpec

/-- One piece of a template. -/
inductive Segment where
  /-- A character that stands for itself. -/
  | literal (character : Char)
  /-- An operand, in decimal digits unless a specification says otherwise. -/
  | field (operand : String) (spec : Option FieldSpec)
  deriving DecidableEq, Repr

namespace Segment

/-- The written form of a piece. -/
def source : Segment → List Char
  | .literal character =>
    if character = '\x7b' ∨ character = '\x7d' then [character, character] else [character]
  | .field operand none => '\x7b' :: operand.toList ++ ['\x7d']
  | .field operand (some spec) => '\x7b' :: operand.toList ++ ':' :: spec.source ++ ['\x7d']

/-- Read what stands between the braces of a field. -/
def ofBody? (body : List Char) : Option Segment :=
  let name := String.ofList (body.takeWhile (· != ':'))
  match body.dropWhile (· != ':') with
  | [] => some (.field name none)
  | _ :: spec => (FieldSpec.parse? spec).map fun spec => .field name (some spec)

/-- The name in a field. -/
def name? : Segment → Option String
  | .literal _ => none
  | .field operand _ => some operand

/-- The text of a piece with the operands at hand. -/
def fill (operands : Dictionary Int) : Segment → Except Fault (List Char)
  | .literal character => .ok [character]
  | .field operand spec => do
    let value ← operands.get operand
    return (spec.getD ⟨0, 0, none⟩).layout.chars value

end Segment

/-- Literal text with fields for operands. -/
structure Template where
  /-- The pieces in order. -/
  segments : List Segment
  deriving DecidableEq, Repr

namespace Template

instance : Append Template where
  append left right := ⟨left.segments ++ right.segments⟩

/-- A template without fields. -/
def ofText (text : String) : Template :=
  ⟨text.toList.map .literal⟩

/-- A field of capital hexadecimal digits filled with zeros up to `width`. -/
def hexField (width : Nat) (operand : Operand) : Template :=
  ⟨[.field operand.name (some ⟨1, width, some .upperHex⟩)]⟩

/-- A field of capital hexadecimal digits with no least width. -/
def digitField (operand : Operand) : Template :=
  ⟨[.field operand.name (some ⟨0, 0, some .upperHex⟩)]⟩

/-- A field of decimal digits. -/
def decimalField (operand : Operand) : Template :=
  ⟨[.field operand.name none]⟩

/-- The written form of a template. -/
def source (template : Template) : String :=
  String.ofList (template.segments.flatMap Segment.source)

/-- What has been read of the piece at hand. -/
inductive Reading where
  /-- Nothing yet. -/
  | start
  /-- One opening brace. -/
  | opening
  /-- One closing brace, outside a field. -/
  | closing
  /-- The opening brace of a field and part of its body, last character first. -/
  | field (body : List Char)

/-- Read pieces, going on from what has been read of the first one. -/
def segmentsOf? : Reading → List Char → Option (List Segment)
  | .start, [] => some []
  | _, [] => none
  | .start, character :: rest =>
    if character = '\x7b' then segmentsOf? .opening rest
    else if character = '\x7d' then segmentsOf? .closing rest
    else (segmentsOf? .start rest).map (.literal character :: ·)
  | .opening, character :: rest =>
    if character = '\x7b' then (segmentsOf? .start rest).map (.literal character :: ·)
    else if character = '\x7d' then none
    else segmentsOf? (.field [character]) rest
  | .closing, character :: rest =>
    if character = '\x7d' then (segmentsOf? .start rest).map (.literal character :: ·)
    else none
  | .field body, character :: rest =>
    if character = '\x7d' then do
      let segment ← Segment.ofBody? body.reverse
      let segments ← segmentsOf? .start rest
      return segment :: segments
    else segmentsOf? (.field (character :: body)) rest

/-- Read a template from its written form. -/
def parse? (text : String) : Option Template :=
  (segmentsOf? .start text.toList).map Template.mk

/-- The names in the fields from left to right. -/
def fieldNames (template : Template) : List String :=
  template.segments.filterMap Segment.name?

/-- The operands at hand and one more, fetched from an opcode. -/
def collect (opcode : Opcode) (operands : Dictionary Int) (name : String) :
    Except Fault (Dictionary Int) := do
  let value ← opcode.operand name
  return operands.set name value

/-- The operands that the fields name, fetched from left to right. -/
def fetch (template : Template) (opcode : Opcode) : Except Fault (Dictionary Int) :=
  template.fieldNames.foldlM (collect opcode) .empty

/-- The text of a template for an opcode, or the fault of the leftmost operand that is missing. -/
def render (template : Template) (opcode : Opcode) : Except Fault String := do
  let operands ← template.fetch opcode
  let pieces ← template.segments.mapM (Segment.fill operands)
  return String.ofList pieces.flatten

example :
    ((parse? "a\x7b\x7bb\x7d\x7d \x7bnn:02X\x7d \x7bn\x7d").map source) =
      some "a\x7b\x7bb\x7d\x7d \x7bnn:02X\x7d \x7bn\x7d" := by
  decide +kernel

end Template
end Chip8
