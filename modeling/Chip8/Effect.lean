import Chip8.State

/-!
# Effects

What an instruction does to the state is a list of effects, each a write to one component.  Effects
carry integers of any size; a component keeps what fits into it, so a value that is already in range
is stored as it is.  Only the two moves of the program counter and the advance of the index are
meant to wrap.
-/

namespace Chip8

variable [RandomSource]

/-- A write to one component of the state. -/
inductive Effect where
  /-- Put a value into a register. -/
  | setRegister (register : Fin 16) (value : Int)
  /-- Put an address into the index register. -/
  | setIndex (address : Int)
  /-- Move the index register on, modulo `2 ^ 16`. -/
  | advanceIndex (distance : Int)
  /-- Go to an address. -/
  | jump (address : Int)
  /-- Pass over the next instruction. -/
  | skip
  /-- Go back to the instruction that was just fetched. -/
  | hold
  /-- Put a value into a memory cell. -/
  | store (address : Nat) (value : Int)
  /-- Set the delay timer. -/
  | setDelay (value : Int)
  /-- Set the sound timer. -/
  | setSound (value : Int)
  /-- Replace the screen. -/
  | redraw (display : Display)
  /-- Open a call that returns to an address. -/
  | push (address : Int)
  /-- Close the newest call. -/
  | pop
  /-- Replace the key of the random stream. -/
  | reseed (key : RandomKey)

namespace Effect

/-- The state after an effect. -/
def apply (state : State) : Effect → State
  | .setRegister register value => state.setRegister register (UInt8.ofInt value)
  | .setIndex address => { state with index := UInt16.ofInt address }
  | .advanceIndex distance => { state with index := state.index + UInt16.ofInt distance }
  | .jump address => { state with pc := UInt16.ofInt address }
  | .skip => { state with pc := state.pc + 2 }
  | .hold => { state with pc := state.pc - 2 }
  | .store address value => { state with memory := state.memory.write address (UInt8.ofInt value) }
  | .setDelay value => { state with delayTimer := UInt8.ofInt value }
  | .setSound value => { state with soundTimer := UInt8.ofInt value }
  | .redraw display => { state with display := display }
  | .push address => { state with stack := state.stack.place address }
  | .pop => { state with stack := state.stack.drop }
  | .reseed key => { state with randomKey := key }

/-- The state after effects in order. -/
def applyAll (effects : List Effect) (state : State) : State :=
  effects.foldl apply state

@[simp]
theorem applyAll_nil (state : State) : applyAll [] state = state := rfl

@[simp]
theorem applyAll_cons (effect : Effect) (effects : List Effect) (state : State) :
    applyAll (effect :: effects) state = applyAll effects (effect.apply state) := rfl

theorem applyAll_append (front back : List Effect) (state : State) :
    applyAll (front ++ back) state = applyAll back (applyAll front state) :=
  List.foldl_append

end Effect
end Chip8
