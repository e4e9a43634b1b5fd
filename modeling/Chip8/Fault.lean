import Chip8.Opcode
import Chip8.Text.Quoted

/-!
# Faults

Everything that an operation of the library can refuse, as a cause with the values it is about,
and the wording of each cause.
-/

namespace Chip8

/-- What an opcode was handed to a table entry for. -/
inductive Use where
  /-- To run it. -/
  | execute
  /-- To write its mnemonic. -/
  | describe
  deriving DecidableEq, Repr

/-- The word for a use in messages. -/
def Use.verb : Use → String
  | .execute => "execute"
  | .describe => "describe"

/-- Why an operation was refused. -/
inductive Fault where
  /-- No entry of a table agrees with the opcode; its word is known if it has all nibbles. -/
  | invalidOpcode (word : Option Int)
  /-- The opcode disagrees with the entry that it was handed to. -/
  | wrongEntry (entry : String) (use : Use) (opcode : Opcode)
  /-- The opcode lacks a nibble that the operand needs. -/
  | missingOperand (operand : String) (opcode : Opcode)
  /-- The instruction is known and deliberately not run. -/
  | notImplemented (mnemonic : String) (word : Int)
  /-- A call with no free slot above the stack pointer. -/
  | stackOverflow (pointer : Int)
  /-- A return with no call to return from. -/
  | stackUnderflow
  /-- A program image larger than the program area. -/
  | romTooLarge (size : Nat)
  /-- A key outside the sixteen of the keypad. -/
  | noSuchKey (key : Int)
  /-- An entry name that a table does not have. -/
  | noSuchEntry (name : String)
  /-- A class nibble outside `0 .. 15`. -/
  | noSuchClass (nibble : Int)
  /-- A line number outside a disassembly, counted from its start. -/
  | noSuchLine (index : Int)
  /-- An operand name that opcodes do not have. -/
  | noSuchOperand (name : String)
  /-- A severity that is not one of the four. -/
  | noSuchLevel
  /-- A step status that is not one of the five. -/
  | noSuchStatus (name : String)
  deriving DecidableEq, Repr

namespace Fault

open Numeral (hex decimal)

/-- The wording of a fault. -/
def message : Fault → String
  | .invalidOpcode none => "Invalid opcode"
  | .invalidOpcode (some word) => "Invalid opcode 0x" ++ hex 4 word
  | .wrongEntry entry use opcode => entry ++ " cannot " ++ use.verb ++ " opcode " ++ opcode.text
  | .missingOperand operand opcode =>
    "Opcode " ++ opcode.text ++ " has no value for operand '" ++ operand ++ "'"
  | .notImplemented mnemonic word =>
    "Opcode not implemented: " ++ mnemonic ++ " (0x" ++ hex 4 word ++ ")"
  | .stackOverflow pointer => "Call stack full (SP=0x" ++ hex 2 pointer ++ ")"
  | .stackUnderflow => "Return with empty call stack (SP=0x00)"
  | .romTooLarge size => "ROM is " ++ decimal size ++ " bytes, at most 3584 bytes fit at 0x200"
  | .noSuchKey key => "Key index must be in [0, 15], got " ++ decimal key
  | .noSuchEntry name => Quoted.quote name
  | .noSuchClass nibble => decimal nibble
  | .noSuchLine index => decimal index
  | .noSuchOperand name => "'Opcode' object has no attribute '" ++ name ++ "'"
  | .noSuchLevel => "tuple.index(x): x not in tuple"
  | .noSuchStatus name => Quoted.quote name ++ " is not a valid StepStatus"

end Fault
end Chip8
