import Chip8.InstructionSet

/-!
# Disassembly

A program read word by word without running it.  Programs hold data between instructions, so a word
without an instruction becomes a line that carries the fault's text.  An odd last byte is read as
the high byte of a word whose low byte is zero.
-/

namespace Chip8

/-- The mnemonic of a word, or the text of the fault that it has none, and whether it has one. -/
def describeWord (word : Int) : String × Bool :=
  match describe word with
  | .ok mnemonic => (mnemonic, true)
  | .error fault => (fault.message, false)

/-- One word of a disassembled program. -/
structure Line where
  /-- The address of the word. -/
  address : Int
  /-- The word. -/
  word : Int
  /-- Its mnemonic, or the text of a fault. -/
  mnemonic : String
  /-- Whether the word is an instruction. -/
  valid : Bool
  deriving DecidableEq, Repr

namespace Line

/-- The line of a word at an address. -/
def ofWord (address word : Int) : Line :=
  let (mnemonic, valid) := describeWord word
  { address, word, mnemonic, valid }

/-- The address, word and mnemonic of an instruction in columns. -/
def columns (address word : Int) (mnemonic : String) : String :=
  "0x" ++ Numeral.hex 3 address ++ "  " ++ Numeral.hex 4 word ++ "  " ++ mnemonic

/-- A line as text. -/
def text (line : Line) : String :=
  columns line.address line.word line.mnemonic

end Line

/-- The lines of a program that starts at an address. -/
def disassemble (start : Int) : List UInt8 → List Line
  | [] => []
  | [high] => [.ofWord start (256 * high.toNat : Nat)]
  | high :: low :: rest =>
    .ofWord start (256 * high.toNat + low.toNat : Nat) :: disassemble (start + 2) rest

/-- A program and its start, to be read line by line. -/
structure Disassembly where
  /-- The bytes of the program. -/
  rom : List UInt8
  /-- The address of the first byte. -/
  start : Int
  deriving DecidableEq, Repr

namespace Disassembly

/-- Every line in order. -/
def lines (disassembly : Disassembly) : List Line :=
  disassemble disassembly.start disassembly.rom

/-- The number of lines. -/
def size (disassembly : Disassembly) : Nat :=
  (disassembly.rom.length + 1) / 2

/-- The line at a word offset, read from its two bytes alone. -/
def lineAt (disassembly : Disassembly) (index : Nat) : Option Line :=
  let bytes := (disassembly.rom.drop (2 * index)).take 2
  (disassemble (disassembly.start + 2 * index) bytes).head?

/-- The line with a number, counted from the end when negative. -/
def get (disassembly : Disassembly) (index : Int) : Except Fault Line :=
  let position := if index < 0 then index + disassembly.size else index
  if position < 0 then
    .error (.noSuchLine position)
  else
    match disassembly.lineAt position.toNat with
    | some line => .ok line
    | none => .error (.noSuchLine position)

/-- The line that starts at an address. -/
def at? (disassembly : Disassembly) (address : Int) : Option Line :=
  let offset := address - disassembly.start
  if offset < 0 ∨ offset % 2 ≠ 0 then none else disassembly.lineAt (offset / 2).toNat

/-- Every line as text, with line breaks between them. -/
def listing (disassembly : Disassembly) : String :=
  "\n".intercalate (disassembly.lines.map Line.text)

/-- The number of words that are not instructions. -/
def invalidCount (disassembly : Disassembly) : Nat :=
  disassembly.lines.countP (!·.valid)

end Disassembly
end Chip8
