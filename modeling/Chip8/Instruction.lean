import Chip8.Alu
import Chip8.Effect

/-!
# Instructions

An instruction together with its operands, and what it does: a list of effects on the state, or a
fault.  All values are read before the first effect takes place.
-/

namespace Chip8

/-- What a skip depends on. -/
inductive Condition where
  /-- A register holds a given value. -/
  | equalsByte (x : Fin 16) (value : Int)
  /-- Two registers hold the same value. -/
  | equalsRegister (x y : Fin 16)
  /-- The key named by the low nibble of a register is down. -/
  | keyDown (x : Fin 16)
  deriving DecidableEq, Repr

variable [RandomSource]

/-- Whether a condition holds. -/
def Condition.holds (state : State) : Condition → Bool
  | .equalsByte x value => (state.register x : Int) == value
  | .equalsRegister x y => state.register x == state.register y
  | .keyDown x => state.keypad[state.register x % 16]

/-- An instruction with its operands. -/
inductive Instruction where
  /-- Put out every pixel. -/
  | clearScreen
  /-- Return from the newest call. -/
  | ret
  /-- Run machine code at an address, which is refused; the word is shown in the refusal. -/
  | machineCall (address word : Int)
  /-- Go to an address. -/
  | jump (address : Int)
  /-- Call the routine at an address. -/
  | call (address : Int)
  /-- Pass over the next instruction when a condition has the wanted outcome. -/
  | skip (condition : Condition) (wanted : Bool)
  /-- Put a value into a register. -/
  | load (x : Fin 16) (value : Int)
  /-- Add a value to a register, leaving the flag alone. -/
  | add (x : Fin 16) (value : Int)
  /-- Combine two registers. -/
  | combine (operation : Alu) (x y : Fin 16)
  /-- Put an address into the index register. -/
  | loadIndex (address : Int)
  /-- Go to an address offset by register zero. -/
  | jumpOffset (address : Int)
  /-- Put a random byte under a mask into a register. -/
  | random (x : Fin 16) (mask : Int)
  /-- Draw the sprite of some rows at the index, at the point in two registers. -/
  | draw (x y : Fin 16) (height : Int)
  /-- Read the delay timer. -/
  | readDelay (x : Fin 16)
  /-- Put the lowest key that is down into a register, or wait for one. -/
  | waitKey (x : Fin 16)
  /-- Set the delay timer. -/
  | writeDelay (x : Fin 16)
  /-- Set the sound timer. -/
  | writeSound (x : Fin 16)
  /-- Add a register to the index register. -/
  | addIndex (x : Fin 16)
  /-- Point the index register at the glyph of a register's value. -/
  | glyph (x : Fin 16)
  /-- Store the decimal digits of a register at the index. -/
  | decimal (x : Fin 16)
  /-- Store the registers up to one at the index. -/
  | storeRegisters (x : Fin 16)
  /-- Load the registers up to one from the index. -/
  | loadRegisters (x : Fin 16)
  deriving DecidableEq, Repr

namespace Instruction

/-- The register that receives flags. -/
def flagRegister : Fin 16 := 15

/-- The registers from zero up to a given one. -/
def upTo (x : Fin 16) : List (Fin 16) :=
  (List.finRange 16).filter (· ≤ x)

/-- The address `offset` cells after the index, modulo the size of memory. -/
def cell (state : State) (offset : Nat) : Nat :=
  (state.index.toNat + offset) % 4096

/-- The index moves past a transfer of registers in the older dialect and stays in the modern. -/
def afterTransfer (state : State) (x : Fin 16) : List Effect :=
  if state.dialect.modern then [] else [.advanceIndex (x.val + 1)]

/-- The left operand of a register operation: older interpreters shift the second register. -/
def leftOperand (state : State) (operation : Alu) (x y : Fin 16) : Nat :=
  if operation.isShift && !state.dialect.modern then state.register y else state.register x

/-- The effects of an operation on registers; the flag comes first and gives way to the result. -/
def combineEffects (state : State) (operation : Alu) (x y : Fin 16) : List Effect :=
  let (result, flag) :=
    operation.apply state.dialect.strictBorrow (leftOperand state operation x y) (state.register y)
  flag.toList.map (.setRegister flagRegister) ++ [.setRegister x result]

/-- The effects of drawing; the flag tells of a collision. -/
def drawEffects (state : State) (x y : Fin 16) (height : Int) : List Effect :=
  let sprite := (List.range height.toNat).map fun offset => state.memory.read (cell state offset)
  let (display, collided) := state.display.draw sprite (state.register x) (state.register y)
  [.redraw display, .setRegister flagRegister (Alu.flag (collided = true))]

/-- The effects of waiting for a key. -/
def waitEffects (state : State) (x : Fin 16) : List Effect :=
  match state.pressedKeys with
  | [] => [.hold]
  | key :: _ => [.setRegister x key.val]

/-- The effects of storing decimal digits, hundreds first. -/
def decimalEffects (state : State) (x : Fin 16) : List Effect :=
  let value := state.register x
  [.store (cell state 0) (value / 100 : Nat), .store (cell state 1) (value / 10 % 10 : Nat),
    .store (cell state 2) (value % 10 : Nat)]

/-- The effects of storing registers. -/
def storeEffects (state : State) (x : Fin 16) : List Effect :=
  (upTo x).map (fun k => .store (cell state k) (state.register k)) ++ afterTransfer state x

/-- The effects of loading registers. -/
def loadEffects (state : State) (x : Fin 16) : List Effect :=
  (upTo x).map (fun k => .setRegister k (state.memory.read (cell state k)).toNat) ++
    afterTransfer state x

/-- What an instruction does in a state whose program counter is already past it. -/
def effects (state : State) : Instruction → Except Fault (List Effect)
  | .clearScreen => .ok [.redraw .blank]
  | .ret => do
    state.stack.checkReturn
    return [.pop, .jump state.stack.top.toNat]
  | .machineCall address word =>
    .error (.notImplemented ("SYS 0x" ++ Numeral.hex 3 address) word)
  | .jump address => .ok [.jump address]
  | .call address => do
    state.stack.checkCall
    return [.push state.pc.toNat, .jump address]
  | .skip condition wanted => .ok (if condition.holds state = wanted then [.skip] else [])
  | .load x value => .ok [.setRegister x value]
  | .add x value => .ok [.setRegister x ((state.register x + value) % 256)]
  | .combine operation x y => .ok (combineEffects state operation x y)
  | .loadIndex address => .ok [.setIndex (address % 4096)]
  | .jumpOffset address => .ok [.jump (state.register 0 + address)]
  | .random x mask =>
    .ok [.setRegister x (Bits.and state.randomKey.draw.toNat mask),
      .reseed state.randomKey.next]
  | .draw x y height => .ok (drawEffects state x y height)
  | .readDelay x => .ok [.setRegister x state.delayTimer.toNat]
  | .waitKey x => .ok (waitEffects state x)
  | .writeDelay x => .ok [.setDelay (state.register x)]
  | .writeSound x => .ok [.setSound (state.register x)]
  | .addIndex x => .ok [.setIndex ((state.index.toNat + state.register x) % 65536 : Nat)]
  | .glyph x => .ok [.setIndex (state.register x * Memory.glyphHeight : Nat)]
  | .decimal x => .ok (decimalEffects state x)
  | .storeRegisters x => .ok (storeEffects state x)
  | .loadRegisters x => .ok (loadEffects state x)

/-- The state after an instruction. -/
def execute (instruction : Instruction) (state : State) : Except Fault State := do
  let effects ← instruction.effects state
  return Effect.applyAll effects state

end Instruction
end Chip8
