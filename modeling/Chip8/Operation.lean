import Chip8.Instruction
import Chip8.Operand

/-!
# Operations

What an instruction does apart from its operands.  Reading an operation with an opcode fetches the
operands that it needs, in a fixed order, and gives the instruction; a missing operand is a fault
and nothing else is tried.
-/

namespace Chip8

/-- What a skip compares. -/
inductive Test where
  /-- A register with an immediate. -/
  | byte
  /-- Two registers. -/
  | register
  /-- The state of a key. -/
  | key
  deriving DecidableEq, Repr

/-- An instruction without its operands. -/
inductive Operation where
  /-- Put out every pixel. -/
  | clearScreen
  /-- Return from the newest call. -/
  | ret
  /-- Run machine code, which is refused. -/
  | machineCall
  /-- Go to an address. -/
  | jump
  /-- Call a routine. -/
  | call
  /-- Pass over the next instruction when a test has the wanted outcome. -/
  | skip (test : Test) (wanted : Bool)
  /-- Put an immediate into a register. -/
  | load
  /-- Add an immediate to a register. -/
  | add
  /-- Combine two registers. -/
  | combine (operation : Alu)
  /-- Put an address into the index register. -/
  | loadIndex
  /-- Go to an address offset by register zero. -/
  | jumpOffset
  /-- Put a random byte under a mask into a register. -/
  | random
  /-- Draw a sprite. -/
  | draw
  /-- Read the delay timer. -/
  | readDelay
  /-- Wait for a key. -/
  | waitKey
  /-- Set the delay timer. -/
  | writeDelay
  /-- Set the sound timer. -/
  | writeSound
  /-- Add a register to the index register. -/
  | addIndex
  /-- Point the index register at a glyph. -/
  | glyph
  /-- Store decimal digits. -/
  | decimal
  /-- Store registers. -/
  | storeRegisters
  /-- Load registers. -/
  | loadRegisters
  deriving DecidableEq, Repr

namespace Operation

/-- The register that an operand of an opcode names. -/
def register (opcode : Opcode) (operand : Operand) : Except Fault (Fin 16) := do
  let nibble ← opcode.require operand
  return Bits.lowNibble nibble

/-- The condition of a skip. -/
def condition (opcode : Opcode) : Test → Except Fault Condition
  | .byte => do
    let x ← register opcode .x
    let value ← opcode.require .nn
    return .equalsByte x value
  | .register => do
    let x ← register opcode .x
    let y ← register opcode .y
    return .equalsRegister x y
  | .key => do
    let x ← register opcode .x
    return .keyDown x

/-- The word shown for a refused machine call: the opcode's, or the address where that is zero. -/
def shownWord (opcode : Opcode) (address : Int) : Int :=
  match opcode.word with
  | none => address
  | some word => if word = 0 then address else word

/-- The instruction that an operation makes of an opcode. -/
def read (opcode : Opcode) : Operation → Except Fault Instruction
  | .clearScreen => return .clearScreen
  | .ret => return .ret
  | .machineCall => do
    let address ← opcode.require .nnn
    return .machineCall address (shownWord opcode address)
  | .jump => do
    let address ← opcode.require .nnn
    return .jump address
  | .call => do
    let address ← opcode.require .nnn
    return .call address
  | .skip test wanted => do
    let condition ← condition opcode test
    return .skip condition wanted
  | .load => do
    let x ← register opcode .x
    let value ← opcode.require .nn
    return .load x value
  | .add => do
    let x ← register opcode .x
    let value ← opcode.require .nn
    return .add x value
  | .combine operation => do
    let x ← register opcode .x
    let y ← register opcode .y
    return .combine operation x y
  | .loadIndex => do
    let address ← opcode.require .nnn
    return .loadIndex address
  | .jumpOffset => do
    let address ← opcode.require .nnn
    return .jumpOffset address
  | .random => do
    let x ← register opcode .x
    let mask ← opcode.require .nn
    return .random x mask
  | .draw => do
    let x ← register opcode .x
    let y ← register opcode .y
    let height ← opcode.require .n
    return .draw x y height
  | .readDelay => do
    let x ← register opcode .x
    return .readDelay x
  | .waitKey => do
    let x ← register opcode .x
    return .waitKey x
  | .writeDelay => do
    let x ← register opcode .x
    return .writeDelay x
  | .writeSound => do
    let x ← register opcode .x
    return .writeSound x
  | .addIndex => do
    let x ← register opcode .x
    return .addIndex x
  | .glyph => do
    let x ← register opcode .x
    return .glyph x
  | .decimal => do
    let x ← register opcode .x
    return .decimal x
  | .storeRegisters => do
    let x ← register opcode .x
    return .storeRegisters x
  | .loadRegisters => do
    let x ← register opcode .x
    return .loadRegisters x

end Operation
end Chip8
