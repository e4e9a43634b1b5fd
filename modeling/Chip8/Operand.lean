import Chip8.Fault

/-!
# Operands

The named values that can be read from an opcode.  A name that is not listed is a fault of the
reader; a listed one whose nibbles are absent is a fault of the opcode.
-/

namespace Chip8

/-- A value that an opcode may carry. -/
inductive Operand where
  /-- The twelve-bit address. -/
  | nnn
  /-- The eight-bit immediate. -/
  | nn
  /-- The four-bit immediate. -/
  | n
  /-- The first register. -/
  | x
  /-- The second register. -/
  | y
  /-- The whole word. -/
  | raw
  /-- The number of nibbles present, which no opcode lacks. -/
  | specificity
  /-- The first nibble. -/
  | first
  /-- The second nibble. -/
  | second
  /-- The third nibble. -/
  | third
  /-- The fourth nibble. -/
  | fourth
  deriving DecidableEq, Repr

namespace Operand

/-- Every operand. -/
def all : List Operand :=
  [.nnn, .nn, .n, .x, .y, .raw, .specificity, .first, .second, .third, .fourth]

/-- The name of an operand. -/
def name : Operand → String
  | .nnn => "nnn"
  | .nn => "nn"
  | .n => "n"
  | .x => "x"
  | .y => "y"
  | .raw => "raw"
  | .specificity => "specificity"
  | .first => "first"
  | .second => "second"
  | .third => "third"
  | .fourth => "fourth"

/-- The operand with a given name. -/
def ofName? (name : String) : Option Operand :=
  all.find? fun operand => operand.name == name

/-- The value of an operand in an opcode, if the nibbles that it is made of are present. -/
def value? : Operand → Opcode → Option Int
  | .nnn, opcode => opcode.address
  | .nn, opcode => opcode.byte
  | .n, opcode => opcode.fourth
  | .x, opcode => opcode.second
  | .y, opcode => opcode.third
  | .raw, opcode => opcode.word
  | .specificity, opcode => some opcode.specificity
  | .first, opcode => opcode.first
  | .second, opcode => opcode.second
  | .third, opcode => opcode.third
  | .fourth, opcode => opcode.fourth

@[simp]
theorem ofName?_name (operand : Operand) : ofName? operand.name = some operand := by
  cases operand <;> decide

end Operand

namespace Opcode

/-- The value of an operand, or the fault that it is absent. -/
def require (opcode : Opcode) (operand : Operand) : Except Fault Int :=
  match operand.value? opcode with
  | some value => .ok value
  | none => .error (.missingOperand operand.name opcode)

/-- The value of the operand with a given name. -/
def operand (opcode : Opcode) (name : String) : Except Fault Int :=
  match Operand.ofName? name with
  | some operand => opcode.require operand
  | none => .error (.noSuchOperand name)

@[simp]
theorem operand_name (opcode : Opcode) (operand : Operand) :
    opcode.operand operand.name = opcode.require operand := by
  simp [Opcode.operand]

end Opcode
end Chip8
