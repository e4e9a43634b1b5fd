import Chip8.CallStack
import Chip8.Display
import Chip8.Memory
import Chip8.Random

/-!
# The state of the machine

Memory, registers, timers, keypad, display, call stack and random key, with the operations that do
not depend on an instruction: loading a program, fetching a word, timer ticks and key events.
-/

namespace Chip8

/-- The two choices on which interpreters differ. -/
structure Dialect where
  /-- Shifts work on the first register, and register transfers leave the index alone. -/
  modern : Bool
  /-- Subtractions set the flag only when the minuend is larger. -/
  strictBorrow : Bool
  deriving DecidableEq, Repr

variable [RandomSource]

/-- Everything that instructions read and write. -/
structure State where
  /-- The cells. -/
  memory : Memory
  /-- The sixteen registers. -/
  registers : Vector UInt8 16
  /-- The index register. -/
  index : UInt16
  /-- The address of the next instruction. -/
  pc : UInt16
  /-- The open calls. -/
  stack : CallStack
  /-- The timer that instructions can read. -/
  delayTimer : UInt8
  /-- The timer that sounds. -/
  soundTimer : UInt8
  /-- Which of the sixteen keys are down. -/
  keypad : Vector Bool 16
  /-- The screen. -/
  display : Display
  /-- The key of the random stream. -/
  randomKey : RandomKey
  /-- The interpreter's choices. -/
  dialect : Dialect

namespace State

/-- The state of a new machine: the font in memory and nothing else. -/
def initial (seed : Int) (dialect : Dialect) : State where
  memory := .initial
  registers := Vector.replicate 16 0
  index := 0
  pc := 0x200
  stack := .empty
  delayTimer := 0
  soundTimer := 0
  keypad := Vector.replicate 16 false
  display := .blank
  randomKey := RandomSource.ofSeed seed
  dialect := dialect

/-- Clear registers, index, stack, timers and display and go to the program start. -/
def reset (state : State) : State :=
  { state with
    registers := Vector.replicate 16 0
    index := 0
    pc := 0x200
    stack := .empty
    delayTimer := 0
    soundTimer := 0
    display := .blank }

/-- Reset the machine and copy a program to the program start. -/
def load (state : State) (rom : List UInt8) : Except Fault State :=
  if Memory.programCapacity < rom.length then
    .error (.romTooLarge rom.length)
  else
    .ok { state.reset with memory := state.memory.writeAll Memory.programStart rom }

/-- The word at the address of the next instruction. -/
def word (state : State) : Nat :=
  state.memory.word state.pc.toNat

/-- Go on to the instruction after the next one. -/
def advance (state : State) : State :=
  { state with pc := state.pc + 2 }

/-- Take the next instruction from memory. -/
def fetch (state : State) : State × Nat :=
  (state.advance, state.word)

/-- A timer one tick later, stopping at zero. -/
def countDown (timer : UInt8) : UInt8 :=
  if timer = 0 then 0 else timer - 1

omit [RandomSource] in
theorem toNat_countDown (timer : UInt8) : (countDown timer).toNat = timer.toNat - 1 := by
  rw [countDown]
  split
  · rename_i zero
    rw [zero]
    rfl
  · rename_i positive
    have one : (1 : UInt8) ≤ timer := by
      rw [UInt8.le_iff_toNat_le]
      have nonzero : timer.toNat ≠ 0 := fun zero => positive (UInt8.toNat_inj.mp zero)
      exact Nat.one_le_iff_ne_zero.mpr nonzero
    exact UInt8.toNat_sub_of_le timer 1 one

/-- One tick of the delay timer. -/
def tickDelay (state : State) : State :=
  { state with delayTimer := countDown state.delayTimer }

/-- One tick of the sound timer. -/
def tickSound (state : State) : State :=
  { state with soundTimer := countDown state.soundTimer }

/-- One tick of both timers. -/
def tick (state : State) : State :=
  state.tickDelay.tickSound

/-- Put a key up or down. -/
def setKey (state : State) (key : Int) (down : Bool) : Except Fault State :=
  if inside : 0 ≤ key ∧ key < 16 then
    .ok { state with keypad := state.keypad.set key.toNat down (by omega) }
  else
    .error (.noSuchKey key)

/-- The value of a register. -/
def register (state : State) (x : Fin 16) : Nat :=
  state.registers[x].toNat

/-- Put a byte into a register. -/
def setRegister (state : State) (x : Fin 16) (value : UInt8) : State :=
  { state with registers := state.registers.set x value }

/-- The keys that are down, in ascending order. -/
def pressedKeys (state : State) : List (Fin 16) :=
  (List.finRange 16).filter fun key => state.keypad[key]

end State
end Chip8
